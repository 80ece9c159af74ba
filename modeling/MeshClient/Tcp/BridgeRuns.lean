import MeshClient.Tcp.Bridge

namespace MeshClient.Tcp

open Run Trace

namespace TcpBridge

-- What holds of the `i`-th socket, if there is one.
def has (b : TcpBridge) (i : Nat) (p : Socket → Bool) : Bool := (b.sockets[i]?).any p

def Socket.done (socket : Socket) : Bool := socket.closed || socket.connected || socket.timedOut

def isSettled (i : Nat) : Mark → Bool
  | .settled j _ => i = j
  | _ => false

variable {b : TcpBridge} {i j : Nat} {socket : Socket} {f : Socket → Socket} {p : Socket → Bool}

theorem has_update_of_ne (h : i ≠ j) : (b.update i f).has j p = b.has j p := by
  simp only [has, update, List.getElem?_modify, if_neg h]
  cases b.sockets[j]? <;> rfl

theorem has_update_of_keeps (hf : ∀ socket, p (f socket) = p socket) : (b.update i f).has j p = b.has j p := by
  simp only [has, update, List.getElem?_modify]
  cases b.sockets[j]? with
  | none => rfl
  | some socket => by_cases h : i = j <;> simp [h, hf]

theorem has_update_self (h : b.sockets[i]? = some socket) : (b.update i f).has i p = p (f socket) := by
  simp [has, update, List.getElem?_modify, h]

@[simp] theorem activeSocket_update : (b.update i f).activeSocket = b.activeSocket := rfl

@[simp] theorem mainWindow_update : (b.update i f).mainWindow = b.mainWindow := rfl

@[simp] theorem length_update : (b.update i f).sockets.length = b.sockets.length := by simp [update]

-- The promises of the connect calls and the sockets behind them.
structure Sound (b : TcpBridge) : Prop where
  settled : ∀ i, b.has i Socket.done = true → b.has i Socket.settled = true
  active : ∀ i, b.activeSocket = some i → b.has i (fun socket => !socket.closed) = true

theorem sound_start (window : Bool) : Sound { mainWindow := window } := ⟨by simp [has], by simp⟩

-- One step as seen by one socket: its promise is settled exactly when a mark says so.
structure Fair (b b' : TcpBridge) (ms : List Mark) : Prop where
  length : b.sockets.length ≤ b'.sockets.length
  settled : ∀ i, (b'.has i Socket.settled).toNat = (b.has i Socket.settled).toNat + ms.countP (isSettled i)

theorem has_lt (h : b.has i p = true) : i < b.sockets.length := by
  unfold has at h
  obtain ⟨socket, hsocket, -⟩ := (Option.any_eq_true _ _).mp h
  exact (List.getElem?_eq_some_iff.mp hsocket).1

theorem has_of_lt (hi : b.sockets[i]? = some socket) : b.has i p = p socket := by simp [has, hi]

theorem settle_fair {b' : TcpBridge} {result : Except BridgeError Unit} (hi : b.sockets[i]? = some socket)
    (hlength : b'.sockets.length = b.sockets.length)
    (hsame : ∀ j, b'.has j Socket.settled = b.has j Socket.settled) :
    Fair b (b'.settle i socket result).1 (b'.settle i socket result).2 := by
  have hlt : i < b'.sockets.length := by
    rw [hlength]
    exact (List.getElem?_eq_some_iff.mp hi).1
  obtain ⟨socket', hsocket'⟩ : ∃ x, b'.sockets[i]? = some x := ⟨_, List.getElem?_eq_getElem hlt⟩
  unfold settle
  cases hsettled : socket.settled with
  | true =>
      refine ⟨le_of_eq hlength.symm, ?_⟩
      intro j
      simp [hsame]
  | false =>
      refine ⟨by simp [hlength], ?_⟩
      intro j
      by_cases hij : i = j
      · subst hij
        have hself : (b'.update i fun socket => { socket with settled := true }).has i Socket.settled = true :=
          has_update_self hsocket'
        rw [if_neg (by simp)]
        dsimp only
        rw [hself, has_of_lt hi, hsettled]
        simp [isSettled]
      · have hother : (b'.update i fun socket => { socket with settled := true }).has j Socket.settled =
            b'.has j Socket.settled := has_update_of_ne hij
        rw [if_neg (by simp)]
        dsimp only
        rw [hother, hsame]
        simp [isSettled, Ne.symm hij]

theorem fair_of_same {b' : TcpBridge} {ms : List Mark} (hlength : b.sockets.length ≤ b'.sockets.length)
    (hsame : ∀ j, b'.has j Socket.settled = b.has j Socket.settled) (hms : ∀ j, ms.countP (isSettled j) = 0) :
    Fair b b' ms :=
  ⟨hlength, fun j => by rw [hsame, hms, Nat.add_zero]⟩

theorem fair_refl (b : TcpBridge) : Fair b b [] := fair_of_same (le_refl _) (fun _ => rfl) (by simp)

theorem activeSocket_settle {result : Except BridgeError Unit} :
    (b.settle i socket result).1.activeSocket = b.activeSocket := by
  unfold settle
  split_ifs <;> rfl

theorem mainWindow_settle {result : Except BridgeError Unit} :
    (b.settle i socket result).1.mainWindow = b.mainWindow := by
  unfold settle
  split_ifs <;> rfl

theorem has_settle {result : Except BridgeError Unit}
    (hp : ∀ socket : Socket, p { socket with settled := true } = p socket) :
    (b.settle i socket result).1.has j p = b.has j p := by
  unfold settle
  split_ifs
  · rfl
  · exact has_update_of_keeps hp

theorem has_settle_of_ne {result : Except BridgeError Unit} (h : i ≠ j) :
    (b.settle i socket result).1.has j p = b.has j p := by
  unfold settle
  split_ifs
  · rfl
  · exact has_update_of_ne h

theorem settle_settles {b' : TcpBridge} {result : Except BridgeError Unit} (hi : b.sockets[i]? = some socket)
    (hlength : b'.sockets.length = b.sockets.length)
    (hsame : ∀ j, b'.has j Socket.settled = b.has j Socket.settled) :
    (b'.settle i socket result).1.has i Socket.settled = true := by
  have hall : Fair b (b'.settle i socket result).1 (b'.settle i socket result).2 := settle_fair hi hlength hsame
  have hfair := hall.settled i
  unfold settle at hfair ⊢
  cases hsettled : socket.settled with
  | true =>
      simp only [if_true]
      rw [hsame, has_of_lt hi, hsettled]
  | false =>
      simp only [hsettled, has_of_lt hi] at hfair ⊢
      simpa [isSettled] using hfair

-- The handlers that answer the connect call: they touch one socket, may give up the active one
-- and settle the promise.
theorem answer_sound {b' : TcpBridge} {result : Except BridgeError Unit} (h : Sound b)
    (hi : b.sockets[i]? = some socket) (hlength : b'.sockets.length = b.sockets.length)
    (hsame : ∀ j, b'.has j Socket.settled = b.has j Socket.settled)
    (hothers : ∀ j, i ≠ j → ∀ p, b'.has j p = b.has j p)
    (hactive : ∀ j, b'.activeSocket = some j → b.activeSocket = some j)
    (hopen : b'.activeSocket = some i → b'.has i (fun socket => !socket.closed) = true) :
    Sound (b'.settle i socket result).1 := by
  constructor
  · intro j hdone
    by_cases hij : i = j
    · subst hij
      exact settle_settles hi hlength hsame
    · rw [has_settle_of_ne hij, hothers j hij] at hdone ⊢
      exact h.settled j hdone
  · intro j hj
    rw [activeSocket_settle] at hj
    rw [has_settle (by simp)]
    by_cases hij : i = j
    · subst hij
      exact hopen hj
    · rw [hothers j hij]
      exact h.active j (hactive j hj)

theorem live_cases (b : TcpBridge) (i : Nat) (g : Socket → TcpBridge × List Mark) :
    b.live i g = (b, []) ∨ ∃ socket, b.sockets[i]? = some socket ∧ socket.closed = false ∧ b.live i g = g socket := by
  unfold live
  cases hsocket : b.sockets[i]? with
  | none => exact .inl rfl
  | some socket =>
      cases hclosed : socket.closed with
      | true => exact .inl (by simp [hclosed])
      | false => exact .inr ⟨socket, rfl, hclosed, by simp [hclosed]⟩

-- A step seen from the outside.
structure Good (b : TcpBridge) (r : TcpBridge × List Mark) : Prop where
  fair : Fair b r.1 r.2
  sound : Sound r.1

theorem update_good (h : Sound b) (hi : b.sockets[i]? = some socket) {ms : List Mark}
    (hms : ∀ j, ms.countP (isSettled j) = 0) (hdone : ∀ socket, Socket.done (f socket) = Socket.done socket)
    (hsettled : ∀ socket : Socket, (f socket).settled = socket.settled)
    (hclosed : ∀ socket : Socket, (f socket).closed = socket.closed) : Good b (b.update i f, ms) := by
  refine ⟨fair_of_same (by simp) (fun j => has_update_of_keeps hsettled) hms, ?_, ?_⟩
  · intro j hj
    rw [has_update_of_keeps hdone] at hj
    rw [has_update_of_keeps hsettled]
    exact h.settled j hj
  · intro j hj
    rw [has_update_of_keeps (by simp [hclosed])]
    exact h.active j hj

theorem answer_good {b' : TcpBridge} {result : Except BridgeError Unit} (h : Sound b)
    (hi : b.sockets[i]? = some socket) (hlength : b'.sockets.length = b.sockets.length)
    (hsame : ∀ j, b'.has j Socket.settled = b.has j Socket.settled)
    (hothers : ∀ j, i ≠ j → ∀ p, b'.has j p = b.has j p)
    (hactive : ∀ j, b'.activeSocket = some j → b.activeSocket = some j)
    (hopen : b'.activeSocket = some i → b'.has i (fun socket => !socket.closed) = true) :
    Good b (b'.settle i socket result) :=
  ⟨settle_fair hi hlength hsame, answer_sound h hi hlength hsame hothers hactive hopen⟩

theorem onConnected_good (h : Sound b) (hi : b.sockets[i]? = some socket) (hclosed : socket.closed = false) :
    Good b (b.onConnected i socket) := by
  apply answer_good h hi (by simp) (fun j => has_update_of_keeps (by simp)) (fun j hij p => has_update_of_ne hij)
    (fun j hj => hj)
  intro _
  rw [has_update_self hi]
  simp [hclosed]

theorem onError_good (h : Sound b) (hi : b.sockets[i]? = some socket) (hclosed : socket.closed = false)
    (message : String) : Good b (b.onError i socket message) := by
  apply answer_good h hi (by simp) (fun j => has_update_of_keeps (by simp)) (fun j hij p => has_update_of_ne hij)
    (fun j hj => hj)
  intro _
  rw [has_update_self hi]
  simp [hclosed]

theorem settle_of_settled {result : Except BridgeError Unit} (h : socket.settled = true) :
    b.settle i socket result = (b, []) := by
  rw [settle, if_pos h]

theorem has_giveUp : ({ b with activeSocket := none } : TcpBridge).has j p = b.has j p := rfl

theorem onTimeout_good (h : Sound b) (hi : b.sockets[i]? = some socket) (hclosed : socket.closed = false) :
    Good b (b.onTimeout i socket) := by
  cases hsettled : socket.settled with
  | true =>
      have hgood := @answer_good b i socket (b.update i fun socket => { socket with timerSet := false, timedOut := true })
        (.ok ()) h hi (by simp) (fun j => has_update_of_keeps (by simp)) (fun j hij p => has_update_of_ne hij)
        (fun j hj => hj) (by
          intro _
          rw [has_update_self hi]
          simp [hclosed])
      rw [settle_of_settled hsettled] at hgood
      simpa [onTimeout, hsettled] using hgood
  | false =>
      simp only [onTimeout, hsettled, Bool.false_eq_true, if_false]
      by_cases hactive : b.activeSocket = some i
      · rw [if_pos (show (b.update i _).activeSocket = some i from hactive)]
        apply answer_good h hi (by simp)
        · intro j
          rw [has_update_of_keeps (by simp), has_giveUp, has_update_of_keeps (by simp)]
        · intro j hij p
          rw [has_update_of_ne hij, has_giveUp, has_update_of_ne hij]
        · simp
        · simp
      · rw [if_neg (show ¬ (b.update i _).activeSocket = some i from hactive)]
        apply answer_good h hi (by simp)
        · intro j
          rw [has_update_of_keeps (by simp), has_update_of_keeps (by simp)]
        · intro j hij p
          rw [has_update_of_ne hij, has_update_of_ne hij]
        · simp
        · intro hcon
          exact absurd hcon hactive

theorem onClose_good (h : Sound b) (hi : b.sockets[i]? = some socket) : Good b (b.onClose i socket) := by
  unfold onClose
  by_cases hactive : b.activeSocket = some i
  · have hgood := @answer_good b i socket
      { b.update i (fun socket => { socket with timerSet := false, destroyed := true, closed := true }) with activeSocket := none }
      (.error .closedBeforeConnect) h hi (by simp)
      (fun j => by rw [has_giveUp, has_update_of_keeps (by simp)])
      (fun j hij p => by rw [has_giveUp, has_update_of_ne hij]) (by simp) (by simp)
    dsimp only
    rw [if_pos (show (b.update i _).activeSocket = some i from hactive)]
    refine ⟨⟨hgood.fair.length, ?_⟩, hgood.sound⟩
    intro j
    rw [hgood.fair.settled j, List.countP_append]
    split_ifs <;> simp [isSettled]
  · dsimp only
    rw [if_neg (show ¬ (b.update i _).activeSocket = some i from hactive)]
    apply answer_good h hi (by simp) (fun j => has_update_of_keeps (by simp)) (fun j hij p => has_update_of_ne hij)
      (fun j hj => hj)
    intro hcon
    exact absurd hcon hactive

theorem onData_good (h : Sound b) (hi : b.sockets[i]? = some socket) (chunk : Bytes) : Good b (b.onData i chunk) := by
  unfold onData
  split_ifs
  · exact update_good h hi (by simp) (fun _ => rfl) (fun _ => rfl) (fun _ => rfl)
  · exact ⟨fair_of_same (le_refl _) (fun _ => rfl) (by simp [isSettled]), h⟩
  · exact ⟨fair_refl b, h⟩

theorem dropActive_keeps (hp : ∀ socket : Socket, p { socket with destroyed := true } = p socket) :
    b.dropActive.has j p = b.has j p := by
  unfold dropActive release
  split
  · exact has_update_of_keeps hp
  · rfl

theorem activeSocket_dropActive : b.dropActive.activeSocket = none := by
  unfold dropActive release
  split
  · rfl
  · assumption

theorem length_dropActive : b.dropActive.sockets.length = b.sockets.length := by
  unfold dropActive release
  split
  · simp
  · rfl

theorem dropActive_good (h : Sound b) : Good b (b.dropActive, []) := by
  refine ⟨fair_of_same (le_of_eq length_dropActive.symm) (fun j => dropActive_keeps (by simp)) (by simp), ?_, ?_⟩
  · intro j hj
    rw [dropActive_keeps (fun _ => rfl)] at hj
    rw [dropActive_keeps (by simp)]
    exact h.settled j hj
  · intro j hj
    rw [activeSocket_dropActive] at hj
    cases hj

-- A new socket has nothing behind it.
theorem has_open (b : TcpBridge) (active : Option Nat) (hp : p {} = false) :
    ({ b with sockets := b.sockets ++ [{}], activeSocket := active } : TcpBridge).has j p = b.has j p := by
  unfold has
  dsimp only
  rcases Nat.lt_trichotomy j b.sockets.length with hj | rfl | hj
  · rw [List.getElem?_append_left hj]
  · rw [List.getElem?_concat_length, List.getElem?_eq_none (le_refl _)]
    simpa using hp
  · rw [List.getElem?_eq_none (by simp; omega), List.getElem?_eq_none (by omega)]

theorem connect_good (h : Sound b) (deps : TcpBridgeDeps) (host : String) (port : Option ℚ) :
    Good b (b.connect deps host port) := by
  unfold connect
  split_ifs
  · exact ⟨fair_of_same (le_refl _) (fun _ => rfl) (by simp [isSettled]), h⟩
  · cases deps.validateHost host with
    | some message => exact ⟨fair_of_same (le_refl _) (fun _ => rfl) (by simp [isSettled]), h⟩
    | none =>
        obtain ⟨hfair, hsound⟩ := dropActive_good h
        refine ⟨⟨?_, ?_⟩, ?_, ?_⟩
        · have hlength := hfair.length
          simp only [List.length_append] at hlength ⊢
          omega
        · intro j
          have hj := hfair.settled j
          dsimp only at hj ⊢
          rw [has_open _ _ rfl, hj]
        · intro j hj
          rw [has_open _ _ rfl] at hj ⊢
          exact hsound.settled j hj
        · intro j hj
          obtain rfl := Option.some.inj hj
          simp [has]

-- A write leaves one mark, which is no message to the renderer.
theorem exists_write (b : TcpBridge) (deps : TcpBridgeDeps) (bytes : List (Option ℚ)) :
    ∃ m, b.write deps bytes = [m] ∧ (m = .noSocket ∨ (∃ error, m = .writeRejected error) ∨ ∃ k, m = .written k bytes) := by
  unfold write
  by_cases hlarge : bytes.length > TCP_BRIDGE_WRITE_MAX_BYTES
  · rw [if_pos hlarge]
    exact ⟨_, rfl, .inr (.inl ⟨_, rfl⟩)⟩
  rw [if_neg hlarge]
  by_cases hbytes : ¬ bytes.all isByte = true
  · rw [if_pos hbytes]
    exact ⟨_, rfl, .inr (.inl ⟨_, rfl⟩)⟩
  rw [if_neg hbytes]
  cases b.activeSocket with
  | none =>
      dsimp only
      split_ifs
      · exact ⟨_, rfl, .inl rfl⟩
      · exact ⟨_, rfl, .inr (.inl ⟨_, rfl⟩)⟩
  | some k =>
      dsimp only
      split_ifs
      · exact ⟨_, rfl, .inl rfl⟩
      · exact ⟨_, rfl, .inr (.inr ⟨k, rfl⟩)⟩

theorem handle_good (h : Sound b) (deps : TcpBridgeDeps) (e : Event) : Good b (b.handle deps e) := by
  have hlive : ∀ i (g : Socket → TcpBridge × List Mark),
      (∀ socket, b.sockets[i]? = some socket → socket.closed = false → Good b (g socket)) → Good b (b.live i g) := by
    intro i g hg
    rcases live_cases b i g with hnone | ⟨socket, hi, hclosed, heq⟩
    · rw [hnone]
      exact ⟨fair_refl b, h⟩
    · rw [heq]
      exact hg socket hi hclosed
  cases e with
  | connect host port => exact connect_good h deps host port
  | write bytes =>
      refine ⟨fair_of_same (le_refl _) (fun _ => rfl) ?_, h⟩
      intro j
      show (b.write deps bytes).countP (isSettled j) = 0
      obtain ⟨m, hm, hkind⟩ := exists_write b deps bytes
      rw [hm]
      rcases hkind with rfl | ⟨error, rfl⟩ | ⟨k, rfl⟩ <;> rfl
  | disconnect => exact dropActive_good h
  | destroyForQuit => exact dropActive_good h
  | connected i => exact hlive i _ fun socket hi hclosed => onConnected_good h hi hclosed
  | data i chunk => exact hlive i _ fun socket hi _ => onData_good h hi chunk
  | ended i => exact hlive i _ fun socket hi _ => update_good h hi (by simp) (fun _ => rfl) (fun _ => rfl) (fun _ => rfl)
  | error i message => exact hlive i _ fun socket hi hclosed => onError_good h hi hclosed message
  | close i => exact hlive i _ fun socket hi _ => onClose_good h hi
  | timeout i =>
      apply hlive i _
      intro socket hi hclosed
      split_ifs
      · exact onTimeout_good h hi hclosed
      · exact ⟨fair_refl b, h⟩
  | window present => exact ⟨fair_of_same (le_refl _) (fun _ => rfl) (fun _ => rfl), ⟨h.settled, h.active⟩⟩

theorem not_mem_settle {m : Mark} {result : Except BridgeError Unit} (hm : ∀ i r, m ≠ .settled i r) :
    m ∉ (b.settle i socket result).2 := by
  unfold settle
  split_ifs
  · simp
  · simp [hm]

theorem live_of_open (h : b.has i (fun socket => !socket.closed) = true) :
    ∃ socket, b.sockets[i]? = some socket ∧ ∀ g, b.live i g = g socket := by
  obtain ⟨socket, hsocket, hopen⟩ := (Option.any_eq_true _ _).mp h
  have hclosed : socket.closed = false := by simpa using hopen
  exact ⟨socket, hsocket, fun g => by simp [live, hsocket, hclosed]⟩

theorem live_of_not_open (h : ¬ b.has i (fun socket => !socket.closed) = true) (g : Socket → TcpBridge × List Mark) :
    b.live i g = (b, []) := by
  rcases live_cases b i g with hnone | ⟨socket, hsocket, hclosed, -⟩
  · exact hnone
  · exact absurd (by simp [has, hsocket, hclosed]) h

def isSent : Mark → Bool
  | .tcpData _ _ => true
  | .tcpDisconnected _ => true
  | _ => false

theorem not_mem_live {m : Mark} {g : Socket → TcpBridge × List Mark} (hg : ∀ socket, m ∉ (g socket).2) :
    m ∉ (b.live i g).2 := by
  rcases live_cases b i g with hnone | ⟨socket, -, -, heq⟩
  · simp [hnone]
  · rw [heq]
    exact hg socket

-- Only the data and the close of a socket send anything to the renderer.
theorem sent_from_socket {m : Mark} (hm : isSent m = true) {deps : TcpBridgeDeps} {e : Event} (h : m ∈ b.marks deps e) :
    (∃ i chunk, e = .data i chunk) ∨ ∃ i, e = .close i := by
  have hsettled : ∀ i r, m ≠ .settled i r := by
    rintro i r rfl
    cases hm
  by_contra hne
  rw [not_or] at hne
  revert h
  show m ∉ (b.handle deps e).2
  cases e with
  | connect host port =>
      simp only [handle, connect]
      split_ifs
      · rw [List.mem_singleton]
        rintro rfl
        cases hm
      · cases deps.validateHost host with
        | none => simp
        | some message =>
            rw [List.mem_singleton]
            rintro rfl
            cases hm
  | write bytes =>
      simp only [handle]
      obtain ⟨x, hx, hkind⟩ := exists_write b deps bytes
      rw [hx, List.mem_singleton]
      rintro rfl
      rcases hkind with rfl | ⟨error, rfl⟩ | ⟨k, rfl⟩ <;> cases hm
  | data k chunk => exact absurd ⟨k, chunk, rfl⟩ hne.1
  | close k => exact absurd ⟨k, rfl⟩ hne.2
  | connected k => exact not_mem_live fun socket => not_mem_settle hsettled
  | error k message => exact not_mem_live fun socket => not_mem_settle hsettled
  | timeout k =>
      apply not_mem_live
      intro socket
      unfold onTimeout
      split_ifs
      · simp
      · exact not_mem_settle hsettled
      · simp
  | ended k => exact not_mem_live fun socket => by simp
  | _ => simp [handle]

theorem mem_tcpDisconnected (deps : TcpBridgeDeps) (e : Event) :
    .tcpDisconnected i ∈ b.marks deps e ↔
      e = .close i ∧ b.activeSocket = some i ∧ b.has i (fun socket => !socket.closed) = true ∧ b.mainWindow = true := by
  have hclose : ∀ k, .tcpDisconnected i ∈ b.marks deps (.close k) ↔ k = i ∧ b.activeSocket = some i ∧
      b.has i (fun socket => !socket.closed) = true ∧ b.mainWindow = true := by
    intro k
    simp only [marks, handle]
    by_cases hopen : b.has k (fun socket => !socket.closed) = true
    · obtain ⟨socket, -, hlive⟩ := live_of_open hopen
      rw [hlive, onClose]
      dsimp only
      by_cases hactive : b.activeSocket = some k
      · rw [if_pos (show (b.update k _).activeSocket = some k from hactive), List.mem_append]
        have hnot : ∀ (b' : TcpBridge) r, Mark.tcpDisconnected i ∉ (b'.settle k socket r).2 := fun b' r =>
          not_mem_settle (by simp)
        simp only [hnot, or_false, mainWindow_settle, mainWindow_update]
        constructor
        · intro hm
          split_ifs at hm with hw
          · obtain rfl := Mark.tcpDisconnected.inj (List.mem_singleton.mp hm)
            exact ⟨rfl, hactive, hopen, hw⟩
          · simp at hm
        · rintro ⟨rfl, -, -, hw⟩
          rw [if_pos hw]
          exact List.mem_singleton_self _
      · rw [if_neg (show ¬ (b.update k _).activeSocket = some k from hactive)]
        constructor
        · intro hm
          exact absurd hm (not_mem_settle (by simp))
        · rintro ⟨rfl, hcon, -⟩
          exact absurd hcon hactive
    · rw [live_of_not_open hopen]
      simp only [List.not_mem_nil, false_iff, not_and]
      rintro rfl - hcon
      exact absurd hcon hopen
  constructor
  · intro hm
    rcases sent_from_socket rfl hm with ⟨k, chunk, rfl⟩ | ⟨k, rfl⟩
    · refine absurd hm (not_mem_live fun _ => ?_)
      unfold onData
      split_ifs <;> simp
    · obtain ⟨rfl, hrest⟩ := (hclose k).mp hm
      exact ⟨rfl, hrest⟩
  · rintro ⟨rfl, hrest⟩
    exact (hclose i).mpr ⟨rfl, hrest⟩

theorem mem_tcpData (deps : TcpBridgeDeps) (e : Event) {chunk : Bytes} :
    .tcpData i chunk ∈ b.marks deps e ↔
      e = .data i chunk ∧ b.has i (fun socket => !socket.closed) = true ∧ chunk.length ≤ TCP_BRIDGE_DATA_MAX_BYTES ∧
        b.mainWindow = true := by
  have hdata : ∀ k bytes, .tcpData i chunk ∈ b.marks deps (.data k bytes) ↔ (k = i ∧ bytes = chunk) ∧
      b.has i (fun socket => !socket.closed) = true ∧ chunk.length ≤ TCP_BRIDGE_DATA_MAX_BYTES ∧ b.mainWindow = true := by
    intro k bytes
    simp only [marks, handle]
    by_cases hopen : b.has k (fun socket => !socket.closed) = true
    · obtain ⟨socket, -, hlive⟩ := live_of_open hopen
      rw [hlive, onData]
      split_ifs with hlarge hw
      · simp only [List.not_mem_nil, false_iff, not_and]
        rintro ⟨rfl, rfl⟩ - hle
        omega
      · simp only [List.mem_singleton, Mark.tcpData.injEq]
        constructor
        · rintro ⟨rfl, rfl⟩
          exact ⟨⟨rfl, rfl⟩, hopen, by omega, hw⟩
        · rintro ⟨⟨rfl, rfl⟩, -⟩
          exact ⟨rfl, rfl⟩
      · simp [hw]
    · rw [live_of_not_open hopen]
      simp only [List.not_mem_nil, false_iff, not_and]
      rintro ⟨rfl, rfl⟩ hcon
      exact absurd hcon hopen
  constructor
  · intro hm
    rcases sent_from_socket rfl hm with ⟨k, bytes, rfl⟩ | ⟨k, rfl⟩
    · obtain ⟨⟨rfl, rfl⟩, hrest⟩ := (hdata k bytes).mp hm
      exact ⟨rfl, hrest⟩
    · refine absurd hm (not_mem_live fun _ => ?_)
      unfold onClose
      dsimp only
      split_ifs
      · rw [List.mem_append, not_or]
        exact ⟨by simp, not_mem_settle (by simp)⟩
      · rw [List.nil_append]
        exact not_mem_settle (by simp)
      · exact not_mem_settle (by simp)
  · rintro ⟨rfl, hrest⟩
    exact (hdata i chunk).mpr ⟨⟨rfl, rfl⟩, hrest⟩

end TcpBridge

end MeshClient.Tcp
