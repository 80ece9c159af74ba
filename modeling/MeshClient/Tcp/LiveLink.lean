import MeshClient.Tcp.BridgeRuns

namespace MeshClient.Tcp

open Run Trace

namespace TcpBridge

variable {b : TcpBridge} {i : Nat} (deps : TcpBridgeDeps) {window : Bool}

theorem step_fair (h : Sound b) (e : Event) : Fair b (b.step deps e) (b.marks deps e) := (handle_good h deps e).fair

theorem step_sound (h : Sound b) (e : Event) : Sound (b.step deps e) := (handle_good h deps e).sound

theorem sound_run (h : Sound b) (events : List Event) : Sound (run (step deps) b events) :=
  @invariant_run _ _ (step deps) Sound (fun _ e h => step_sound deps h e) _ h events

-- The trace of a run counts the promises it settles.
theorem settled_run (h : Sound b) (events : List Event) :
    ((run (step deps) b events).has i Socket.settled).toNat =
      (b.has i Socket.settled).toNat + (trace (step deps) (marks deps) b events).countP (isSettled i) := by
  induction events generalizing b with
  | nil => rfl
  | cons e rest ih =>
      have hstep := (step_fair deps h e).settled i
      rw [run_cons, ih (step_sound deps h e), trace, List.countP_append]
      omega

theorem activeSocket_settle_eq {result : Except BridgeError Unit} {socket : Socket} {active : Option Nat}
    (h : b.activeSocket = active) : (b.settle i socket result).1.activeSocket = active := by
  rw [activeSocket_settle, h]

-- The current socket stays, goes or is replaced by a new one.
theorem activeSocket_step (b : TcpBridge) (e : Event) :
    (b.step deps e).activeSocket = b.activeSocket ∨ (b.step deps e).activeSocket = none ∨
      (b.step deps e).activeSocket = some b.sockets.length := by
  have hlive : ∀ k (g : Socket → TcpBridge × List Mark),
      (∀ socket, (g socket).1.activeSocket = b.activeSocket ∨ (g socket).1.activeSocket = none) →
      (b.live k g).1.activeSocket = b.activeSocket ∨ (b.live k g).1.activeSocket = none ∨
        (b.live k g).1.activeSocket = some b.sockets.length := by
    intro k g hg
    rcases live_cases b k g with hnone | ⟨socket, -, -, heq⟩
    · exact .inl (by rw [hnone])
    · rw [heq]
      rcases hg socket with hsame | hnone
      · exact .inl hsame
      · exact .inr (.inl hnone)
  unfold step
  cases e with
  | connect host port =>
      simp only [handle, connect]
      split_ifs
      · exact .inl rfl
      · cases deps.validateHost host with
        | some message => exact .inl rfl
        | none => exact .inr (.inr (by simp [length_dropActive]))
  | write bytes => exact .inl rfl
  | disconnect => exact .inr (.inl activeSocket_dropActive)
  | destroyForQuit => exact .inr (.inl activeSocket_dropActive)
  | connected k => exact hlive k _ fun socket => .inl (activeSocket_settle_eq rfl)
  | data k chunk =>
      apply hlive k _
      intro socket
      unfold onData
      split_ifs <;> exact .inl rfl
  | ended k => exact hlive k _ fun socket => .inl rfl
  | error k message => exact hlive k _ fun socket => .inl (activeSocket_settle_eq rfl)
  | close k =>
      apply hlive k _
      intro socket
      unfold onClose
      dsimp only
      split_ifs
      · exact .inr (activeSocket_settle_eq rfl)
      · exact .inr (activeSocket_settle_eq rfl)
      · exact .inl (activeSocket_settle_eq rfl)
  | timeout k =>
      apply hlive k _
      intro socket
      split_ifs
      · unfold onTimeout
        dsimp only
        split_ifs
        · exact .inl rfl
        · exact .inr (activeSocket_settle_eq rfl)
        · exact .inl (activeSocket_settle_eq rfl)
      · exact .inl rfl
  | window present => exact .inl rfl

-- A socket that is there and no longer current.
structure Spent (i : Nat) (b : TcpBridge) : Prop where
  lt : i < b.sockets.length
  inactive : b.activeSocket ≠ some i

theorem spent_step (hsound : Sound b) (h : Spent i b) (e : Event) : Spent i (b.step deps e) := by
  refine ⟨lt_of_lt_of_le h.lt (step_fair deps hsound e).length, ?_⟩
  have hlt := h.lt
  rcases activeSocket_step deps b e with hsame | hnone | hnew
  · rw [hsame]
    exact h.inactive
  · simp [hnone]
  · rw [hnew, Ne, Option.some.injEq]
    omega

theorem not_dropped_of_spent (hsound : Sound b) (h : Spent i b) (events : List Event) :
    .tcpDisconnected i ∉ trace (step deps) (marks deps) b events := by
  induction events generalizing b with
  | nil => simp [trace]
  | cons e rest ih =>
      rw [trace, List.mem_append, not_or]
      refine ⟨?_, ih (step_sound deps hsound e) (spent_step deps hsound h e)⟩
      intro hm
      exact h.inactive ((mem_tcpDisconnected deps e).mp hm).2.1

theorem spent_of_dropped (hsound : Sound b) {e : Event} (h : .tcpDisconnected i ∈ b.marks deps e) :
    Spent i (b.step deps e) := by
  obtain ⟨rfl, hactive, hopen, -⟩ := (mem_tcpDisconnected deps e).mp h
  refine ⟨lt_of_lt_of_le (has_lt hopen) (step_fair deps hsound _).length, ?_⟩
  obtain ⟨socket, -, hlive⟩ := live_of_open hopen
  simp only [step, handle, hlive, onClose]
  rw [if_pos (show (b.update i _).activeSocket = some i from hactive)]
  dsimp only
  rw [activeSocket_settle]
  simp

def isDropped (i : Nat) : Mark → Bool
  | .tcpDisconnected j => i = j
  | _ => false

theorem countP_isDropped_of_not_mem {ms : List Mark} (h : .tcpDisconnected i ∉ ms) : ms.countP (isDropped i) = 0 := by
  rw [List.countP_eq_zero]
  intro m hm hdropped
  cases m with
  | tcpDisconnected j =>
      obtain rfl : i = j := by simpa [isDropped] using hdropped
      exact h hm
  | _ => cases hdropped

theorem countP_isDropped_marks (b : TcpBridge) (e : Event) :
    (b.marks deps e).countP (isDropped i) ≤ 1 := by
  by_cases hm : .tcpDisconnected i ∈ b.marks deps e
  · obtain ⟨rfl, hactive, hopen, hwindow⟩ := (mem_tcpDisconnected deps e).mp hm
    obtain ⟨socket, -, hlive⟩ := live_of_open hopen
    simp only [marks, handle, hlive, onClose]
    rw [if_pos (show (b.update i _).activeSocket = some i from hactive), List.countP_append,
      countP_isDropped_of_not_mem (not_mem_settle (by simp)), Nat.add_zero]
    exact le_trans List.countP_le_length (by split_ifs <;> simp)
  · rw [countP_isDropped_of_not_mem hm]
    exact Nat.zero_le 1

theorem dropped_once (hsound : Sound b) (events : List Event) :
    (trace (step deps) (marks deps) b events).countP (isDropped i) ≤ 1 := by
  induction events generalizing b with
  | nil => simp [trace]
  | cons e rest ih =>
      have hnext := (step_sound deps hsound e)
      rw [trace, List.countP_append]
      by_cases hm : .tcpDisconnected i ∈ b.marks deps e
      · have hone := @countP_isDropped_marks i deps b e
        rw [countP_isDropped_of_not_mem (not_dropped_of_spent deps hnext (spent_of_dropped deps hsound hm) rest)]
        omega
      · rw [countP_isDropped_of_not_mem hm, Nat.zero_add]
        exact ih hnext

-- What gives up the `i`-th socket: an accepted connect call, a call of the user, or the timeout
-- of its own connect call.
def GivesUp (b : TcpBridge) (i : Nat) : Event → Prop
  | .connect host port => isInteger port ∧ 1 ≤ port.getD 0 ∧ port.getD 0 ≤ 65535 ∧ deps.validateHost host = none
  | .disconnect => True
  | .destroyForQuit => True
  | .timeout j => i = j ∧ b.has i (fun socket => !socket.closed && socket.timerSet && !socket.settled)
  | _ => False

theorem inactive_of_givesUp {e : Event} (hlt : i < b.sockets.length) (h : GivesUp deps b i e) :
    (b.step deps e).activeSocket ≠ some i := by
  cases e with
  | connect host port =>
      obtain ⟨hinteger, hlow, hhigh, hhost⟩ := h
      simp only [step, handle, connect]
      rw [if_neg (by simp [hinteger, hlow, hhigh]), hhost]
      dsimp only
      rw [length_dropActive, Ne, Option.some.injEq]
      omega
  | disconnect => simp [step, handle, activeSocket_dropActive]
  | destroyForQuit => simp [step, handle, activeSocket_dropActive]
  | timeout j =>
      obtain ⟨rfl, htimer⟩ := h
      obtain ⟨socket, hsocket, hflags⟩ := (Option.any_eq_true _ _).mp htimer
      simp only [Bool.and_eq_true, Bool.not_eq_true'] at hflags
      simp only [step, handle, live, hsocket, hflags, onTimeout, Bool.false_eq_true, if_false, if_true,
        activeSocket_settle, activeSocket_update]
      by_cases hactive : b.activeSocket = some i <;> simp [hactive]
  | _ => cases h

-- The bridge reports exactly the live link.
structure ReportsLiveLink (window : Bool) (events : List Event) : Prop where
  settles : ∀ i, (run (step deps) { mainWindow := window } events).has i Socket.done = true →
    (trace (step deps) (marks deps) { mainWindow := window } events).countP (isSettled i) = 1
  settles_once : ∀ i, (trace (step deps) (marks deps) { mainWindow := window } events).countP (isSettled i) ≤ 1
  current : Visits (step deps) (fun b => ∀ i, b.activeSocket = some i → b.has i (fun socket => !socket.closed) = true)
    { mainWindow := window } events
  dropped_once : ∀ i, (trace (step deps) (marks deps) { mainWindow := window } events).countP (isDropped i) ≤ 1
  dropped_current : Each (step deps) (fun b e => ∀ i, .tcpDisconnected i ∈ b.marks deps e →
    e = .close i ∧ b.activeSocket = some i) { mainWindow := window } events
  given_up : ∀ front e back i, events = front ++ e :: back →
    i < (run (step deps) { mainWindow := window } front).sockets.length →
    GivesUp deps (run (step deps) { mainWindow := window } front) i e →
    .tcpDisconnected i ∉ trace (step deps) (marks deps) (run (step deps) { mainWindow := window } (front ++ [e])) back
  reported : Each (step deps) (fun b e => ∀ i, e = .close i → b.activeSocket = some i → b.mainWindow = true →
    .tcpDisconnected i ∈ b.marks deps e) { mainWindow := window } events
  data : Each (step deps) (fun b e => ∀ i chunk, .tcpData i chunk ∈ b.marks deps e → b.activeSocket = some i)
    { mainWindow := window } events

-- Bytes that the bridge passes on come from the current socket.
def CurrentData (b : TcpBridge) : Event → Prop
  | .data i chunk => b.has i (fun socket => !socket.closed) = true → chunk.length ≤ TCP_BRIDGE_DATA_MAX_BYTES →
      b.mainWindow = true → b.activeSocket = some i
  | _ => True

theorem currentData_iff (b : TcpBridge) (e : Event) :
    (∀ i chunk, .tcpData i chunk ∈ b.marks deps e → b.activeSocket = some i) ↔ CurrentData b e := by
  constructor
  · intro h
    cases e with
    | data i chunk =>
        intro hopen hlength hwindow
        exact h i chunk ((mem_tcpData deps _).mpr ⟨rfl, hopen, hlength, hwindow⟩)
    | _ => trivial
  · intro h i chunk hm
    obtain ⟨rfl, hopen, hlength, hwindow⟩ := (mem_tcpData deps e).mp hm
    exact h hopen hlength hwindow

theorem each_of_sound {Q : TcpBridge → Event → Prop} (h : ∀ b e, Sound b → Q b e) (hb : Sound b)
    (events : List Event) : Each (step deps) Q b events := by
  induction events generalizing b with
  | nil => trivial
  | cons e rest ih => exact ⟨h b e hb, ih (step_sound deps hb e)⟩

-- The bridge reports the live link in exactly the runs in which every chunk that is passed on
-- comes from the current socket.
theorem reports_live_link_iff (window : Bool) (events : List Event) :
    ReportsLiveLink deps window events ↔ Each (step deps) CurrentData { mainWindow := window } events := by
  have hstart := sound_start window
  constructor
  · intro h
    have hdata := h.data
    simpa only [currentData_iff] using hdata
  · intro h
    refine ⟨?_, ?_, ?_, fun i => dropped_once deps hstart events, ?_, ?_, ?_, ?_⟩
    · intro i hdone
      have hsettled := (sound_run deps hstart events).settled i hdone
      have hcount := @settled_run _ i deps hstart events
      rw [hsettled] at hcount
      simpa [has] using hcount.symm
    · intro i
      have hcount := @settled_run _ i deps hstart events
      have hle := Bool.toNat_le ((run (step deps) { mainWindow := window } events).has i Socket.settled)
      omega
    · have htrue : Each (step deps) (fun _ _ => True) { mainWindow := window } events :=
        each_of_sound deps (fun _ _ _ => trivial) hstart events
      exact @visits_of_each _ _ (step deps) Sound _ _ (fun _ e hs _ => step_sound deps hs e)
        (fun _ hs => hs.active) _ _ htrue hstart
    · apply each_of_sound deps _ hstart
      intro b e _ i hm
      obtain ⟨he, hactive, -⟩ := (mem_tcpDisconnected deps e).mp hm
      exact ⟨he, hactive⟩
    · rintro front e back i rfl hlt hgives
      have hsound := sound_run deps hstart front
      rw [run_concat]
      apply not_dropped_of_spent deps (step_sound deps hsound e)
      exact ⟨lt_of_lt_of_le hlt (step_fair deps hsound e).length, inactive_of_givesUp deps hlt hgives⟩
    · apply each_of_sound deps _ hstart
      rintro b e hb i rfl hactive hwindow
      exact (mem_tcpDisconnected deps _).mpr ⟨rfl, hactive, hb.active i hactive, hwindow⟩
    · simpa only [currentData_iff] using h

def anyHost : TcpBridgeDeps where
  writeMissing := .noSocket
  validateHost := fun _ => none

-- A second radio is connected while bytes of the first are still in flight: they are passed on
-- as bytes of the second.
def replaced : List Event :=
  [.connect "192.168.1.10" (some 4403), .connected 0, .connect "192.168.1.11" (some 4403), .data 0 [0x94, 0xC3],
    .connected 1, .close 0]

theorem replaced_socket_is_read : ¬ ReportsLiveLink anyHost true replaced := by
  intro h
  have hcurrent := h.data.2.2.2.1 0 [0x94, 0xC3]
    ((mem_tcpData anyHost _).mpr ⟨rfl, by decide, by decide, by decide⟩)
  revert hcurrent
  decide

end TcpBridge

end MeshClient.Tcp
