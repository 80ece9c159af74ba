import MeshClient.Meshtastic.RemoteShellTranscript

namespace MeshClient.Meshtastic.RemoteShell

open Js Run Trace

-- The bytes of a run of code points.
def runBytes (run : List Units) : List UInt8 := Utf8.encode (run.map pointChar)

theorem runBytes_append (run run' : List Units) : runBytes (run ++ run') = runBytes run ++ runBytes run' := by
  rw [runBytes, List.map_append, Utf8.encode_append, runBytes, runBytes]

theorem textEncode_flatten {text : Units} {run : List Units} (h : run <:+: codePoints text) :
    textEncode run.flatten = runBytes run := by
  obtain ⟨front, back, hsplit⟩ := h
  rw [List.append_assoc] at hsplit
  have hback := (codePoints_of_append hsplit.symm).2
  rw [textEncode, (codePoints_of_append hback).1, runBytes]

theorem length_runBytes_singleton (ch : Units) : 1 ≤ (runBytes [ch]).length ∧ (runBytes [ch]).length ≤ 4 := by
  rw [runBytes, List.map_singleton, Utf8.encode_cons, Utf8.encode_nil, List.append_nil, String.length_utf8EncodeChar]
  exact ⟨Char.utf8Size_pos _, Char.utf8Size_le_four _⟩

theorem chunkFrom_eq {text : Units} {current rest : List Units} (h : current ++ rest <:+: codePoints text)
    (chunks : List (List UInt8)) (hbytes : (runBytes current).length ≤ REMOTE_SHELL_MAX_PAYLOAD_BYTES) :
    ∃ runs : List (List Units), runs.flatten = current ++ rest ∧
      chunkFrom chunks current (runBytes current).length rest = chunks ++ runs.map runBytes ∧
      ∀ run ∈ runs, run ≠ [] ∧ (runBytes run).length ≤ REMOTE_SHELL_MAX_PAYLOAD_BYTES := by
  induction rest generalizing current chunks with
  | nil =>
      rw [List.append_nil] at h ⊢
      rw [chunkFrom, textEncode_flatten h]
      split_ifs with hne
      · exact ⟨[current], by simp, rfl, by simpa using ⟨hne, hbytes⟩⟩
      · rw [not_not] at hne
        exact ⟨[], by simp [hne], by simp, by simp⟩
  | cons ch rest ih =>
      have hhere : current <:+: codePoints text := (List.prefix_append current (ch :: rest)).isInfix.trans h
      have hone : [ch] ++ rest <:+: codePoints text := (List.suffix_append current (ch :: rest)).isInfix.trans h
      have hch : textEncode ch = runBytes [ch] := by
        have hrun := textEncode_flatten ((List.prefix_append [ch] rest).isInfix.trans hone)
        rwa [List.flatten_singleton] at hrun
      obtain ⟨hpos, hfour⟩ := length_runBytes_singleton ch
      rw [chunkFrom, hch, textEncode_flatten hhere]
      by_cases hfull : REMOTE_SHELL_MAX_PAYLOAD_BYTES < (runBytes current).length + (runBytes [ch]).length
      · rw [if_pos hfull]
        obtain ⟨runs, hflatten, hrun, hfits⟩ := ih hone (chunks ++ [runBytes current])
          (by rw [REMOTE_SHELL_MAX_PAYLOAD_BYTES]; omega)
        refine ⟨current :: runs, ?_, ?_, ?_⟩
        · rw [List.flatten_cons, hflatten, List.singleton_append]
        · rw [hrun, List.append_assoc, List.map_cons, List.singleton_append]
        · intro run hrun'
          rw [List.mem_cons] at hrun'
          cases hrun' with
          | inl heq =>
              refine heq ▸ ⟨?_, hbytes⟩
              rintro rfl
              rw [REMOTE_SHELL_MAX_PAYLOAD_BYTES] at hfull
              rw [show (runBytes []).length = 0 from rfl] at hfull
              omega
          | inr hmem => exact hfits run hmem
      · rw [if_neg hfull]
        have hmore : (runBytes (current ++ [ch])).length = (runBytes current).length + (runBytes [ch]).length := by
          rw [runBytes_append, List.length_append]
        have hsplit : current ++ [ch] ++ rest = current ++ ch :: rest := by simp
        obtain ⟨runs, hflatten, hrun, hfits⟩ := ih (hsplit ▸ h) chunks (by omega)
        rw [hmore] at hrun
        exact ⟨runs, hflatten.trans hsplit, hrun, hfits⟩

-- What is typed goes into the payloads whole, cut between code points.
theorem chunks_lossless (text : Units) : ∃ runs : List (List Units), runs.flatten = codePoints text ∧
    chunkRemoteShellInput text = runs.map runBytes ∧ (chunkRemoteShellInput text).flatten = textEncode text ∧
    ∀ payload ∈ chunkRemoteShellInput text, payload ≠ [] ∧ payload.length ≤ REMOTE_SHELL_MAX_PAYLOAD_BYTES := by
  obtain ⟨runs, hflatten, hchunks, hfits⟩ := @chunkFrom_eq text [] (codePoints text) (List.infix_refl _) []
    (Nat.zero_le _)
  rw [List.nil_append] at hflatten hchunks
  have hall : chunkRemoteShellInput text = runs.map runBytes := hchunks
  refine ⟨runs, hflatten, hall, ?_, fun payload hpayload => ?_⟩
  · rw [hall, textEncode, ← runBytes, ← hflatten]
    have hbytes : ∀ runs : List (List Units), (runs.map runBytes).flatten = runBytes runs.flatten := by
      intro runs
      induction runs with
      | nil => rfl
      | cons run runs ih => rw [List.map_cons, List.flatten_cons, ih, List.flatten_cons, runBytes_append]
    exact hbytes runs
  · rw [hall, List.mem_map] at hpayload
    obtain ⟨run, hrun, rfl⟩ := hpayload
    obtain ⟨hne, hlength⟩ := hfits run hrun
    refine ⟨fun hnil => ?_, hlength⟩
    obtain ⟨ch, run, rfl⟩ := List.exists_cons_of_ne_nil hne
    have hpos := (length_runBytes_singleton ch).1
    have hcons : runBytes (ch :: run) = runBytes [ch] ++ runBytes run := runBytes_append [ch] run
    rw [hcons, List.append_eq_nil_iff] at hnil
    rw [hnil.1] at hpos
    exact absurd hpos (by decide)

-- The payloads that a step types into the session.
def typings (shell : Shell) : Event → List (List UInt8)
  | .input text => if shell.store.phase ≠ .open_ ∨ text = [] then [] else chunkRemoteShellInput text
  | _ => []

def SendChain.frames (chain : SendChain) : List RemoteShellFrame := chain.done.map Prod.fst ++ chain.waiting

namespace Shell

variable {shell shell' : Shell}

structure Typed (identityId : String) (nodeNum : ℚ) (sessionId : ℕ) (typed : List (List UInt8)) (shell : Shell) :
    Prop where
  payloads : shell.sendChain.frames.map RemoteShellFrame.payload = typed
  own : ∀ frame ∈ shell.sendChain.frames, frame.op = .input ∧ frame.sessionId = sessionId ∧ frame.seq ≤ shell.txSeq
  ascend : (shell.sendChain.frames.map RemoteShellFrame.seq).Pairwise (· < ·)
  calls : ∀ call ∈ shell.sendChain.done, call.2 = some ⟨identityId, nodeNum, call.1⟩
  sent : (shell.sendChain.done.filterMap Prod.snd).Sublist shell.sent

variable {identityId : String} {nodeNum : ℚ} {sessionId : ℕ} {typed : List (List UInt8)}

-- A step that adds nothing to the session's chain and calls none of its sends.
structure Keeps (shell shell' : Shell) : Prop where
  chain : shell'.sendChain.waiting = shell.sendChain.waiting ∧ shell'.sendChain.done = shell.sendChain.done
  txSeq : shell.txSeq ≤ shell'.txSeq
  sent : shell.sent <+: shell'.sent

theorem Keeps.refl (shell : Shell) : Keeps shell shell := ⟨⟨rfl, rfl⟩, Nat.le_refl _, List.prefix_refl _⟩

theorem Keeps.trans {shell'' : Shell} (h : Keeps shell shell') (h' : Keeps shell' shell'') : Keeps shell shell'' :=
  ⟨⟨h'.chain.1.trans h.chain.1, h'.chain.2.trans h.chain.2⟩, h.txSeq.trans h'.txSeq, h.sent.trans h'.sent⟩

theorem Typed.keeps (ht : Typed identityId nodeNum sessionId typed shell) (h : Keeps shell shell') :
    Typed identityId nodeNum sessionId typed shell' := by
  have hframes : shell'.sendChain.frames = shell.sendChain.frames := by
    rw [SendChain.frames, h.chain.1, h.chain.2, ← SendChain.frames]
  refine ⟨hframes ▸ ht.payloads, fun frame hframe => ?_, hframes ▸ ht.ascend, h.chain.2 ▸ ht.calls, ?_⟩
  · obtain ⟨hop, hsession, hseq⟩ := ht.own frame (hframes ▸ hframe)
    exact ⟨hop, hsession, hseq.trans h.txSeq⟩
  · rw [h.chain.2]
    exact ht.sent.trans h.sent.sublist

theorem keeps_of_same (hchain : shell'.sendChain = shell.sendChain) (htx : shell'.txSeq = shell.txSeq)
    (hsent : shell'.sent = shell.sent) : Keeps shell shell' :=
  ⟨⟨by rw [hchain], by rw [hchain]⟩, by rw [htx], by rw [hsent]⟩

theorem keeps_send (shell : Shell) (frame : RemoteShellFrame) : Keeps shell (shell.send frame) :=
  ⟨⟨rfl, rfl⟩, Nat.le_refl _, List.prefix_append _ _⟩

theorem keeps_fail (shell : Shell) (code : RemoteShellErrorCode) (detail : Option Units) :
    Keeps shell (shell.fail code detail) := keeps_of_same rfl rfl rfl

theorem keeps_sendFailed (shell : Shell) (sessionId : ℕ) (error : Units) :
    Keeps shell (shell.sendFailed sessionId error) := by
  rw [sendFailed]
  split_ifs
  · exact keeps_fail ..
  · exact Keeps.refl _

theorem keeps_closeRemoteShell (shell : Shell) (idle : Bool) : Keeps shell (shell.closeRemoteShell idle) := by
  rw [closeRemoteShell]
  split_ifs
  · exact ⟨⟨rfl, rfl⟩, Nat.le_succ _, List.prefix_append _ _⟩
  · exact ⟨⟨rfl, rfl⟩, Nat.le_succ _, List.prefix_append _ _⟩
  · exact Keeps.refl _

theorem keeps_handleOutput (shell : Shell) (now : ℕ) (frame : RemoteShellFrame) :
    Keeps shell (shell.handleOutput now frame) := by
  have hdeliver : ∀ s : Shell, ∀ sessionId, Keeps s (s.deliver sessionId frame) := by
    intro s sessionId
    obtain ⟨ackTimer, heq⟩ := deliver_eq s sessionId frame
    rw [heq]
    exact keeps_of_same rfl rfl rfl
  have hopened : Keeps shell (if shell.store.phase = .opening then shell.opened now else shell) := by
    split_ifs
    · exact keeps_of_same rfl rfl rfl
    · exact Keeps.refl _
  rw [handleOutput]
  refine hopened.trans ?_
  generalize (if shell.store.phase = .opening then shell.opened now else shell) = arrived
  dsimp only
  by_cases hstale : frame.seq ≠ 0 ∧ frame.seq ≤ arrived.lastRxSeq
  · rw [if_pos hstale]
    exact Keeps.refl _
  · rw [if_neg hstale]
    refine Keeps.trans ?_ (hdeliver _ shell.store.sessionId)
    split_ifs
    · exact keeps_of_same rfl rfl rfl
    · exact keeps_of_same rfl rfl rfl
    · exact Keeps.refl _

theorem keeps_frame (shell : Shell) (now : ℕ) (id : String) (sender : ℚ) (frame : RemoteShellFrame) :
    Keeps shell (shell.handleRemoteShellFrame now id sender frame) := by
  rw [handleRemoteShellFrame]
  by_cases hown : shell.isOwn id sender frame = true
  · rw [if_pos hown]
    cases frame.op with
    | output => exact keeps_handleOutput ..
    | openOk =>
        dsimp only
        split_ifs
        · exact keeps_of_same rfl rfl rfl
        · exact Keeps.refl _
    | error =>
        dsimp only
        rw [handleError]
        split_ifs
        · exact keeps_fail ..
        · exact keeps_of_same rfl rfl rfl
    | closed => exact keeps_of_same rfl rfl rfl
    | open_ => exact Keeps.refl _
    | input => exact Keeps.refl _
    | resize => exact Keeps.refl _
    | close => exact Keeps.refl _
    | ping => exact Keeps.refl _
    | ack => exact Keeps.refl _
    | pong => exact Keeps.refl _
    | unset => exact Keeps.refl _
  · rw [if_neg hown]
    exact Keeps.refl _

theorem keeps_setChain_old {i : ℕ} (hi : i < shell.oldChains.length) (chain : SendChain) :
    Keeps shell (shell.setChain i chain) := by
  rw [setChain, if_pos hi]
  exact keeps_of_same rfl rfl rfl

theorem chain?_cases {i : ℕ} {chain : SendChain} (h : shell.chain? i = some chain) :
    i < shell.oldChains.length ∨ ¬i < shell.oldChains.length ∧ chain = shell.sendChain := by
  by_cases hi : i < shell.oldChains.length
  · exact .inl hi
  · right
    rw [chain?, List.getElem?_append_right (Nat.not_lt.mp hi)] at h
    have hlength := (List.getElem?_eq_some_iff.mp h).1
    rw [List.length_singleton] at hlength
    rw [Nat.lt_one_iff.mp hlength] at h
    exact ⟨hi, (Option.some.inj h).symm⟩

theorem keeps_chainSettles (shell : Shell) (i : ℕ) (error : Option Units) : Keeps shell (shell.chainSettles i error) := by
  rw [chainSettles]
  cases hchain : shell.chain? i with
  | none => exact Keeps.refl _
  | some chain =>
      dsimp only
      cases chain.inFlight with
      | none => exact Keeps.refl _
      | some frame =>
          have hset : Keeps shell (shell.setChain i { chain with inFlight := none }) := by
            obtain hi | ⟨hi, rfl⟩ := chain?_cases hchain
            · exact keeps_setChain_old hi _
            · rw [setChain, if_neg hi]
              exact ⟨⟨rfl, rfl⟩, Nat.le_refl _, List.prefix_refl _⟩
          cases error with
          | none => exact hset
          | some error => exact hset.trans (keeps_sendFailed ..)

theorem keeps_step {event : Event} (hstays : Stays shell event) (hinput : ∀ text, event ≠ .input text)
    (hturn : ∀ i, event ≠ .chainTurn i) : Keeps shell (step shell event) := by
  cases event with
  | opens nodeNum cols rows identity sessionId =>
      rw [step, openRemoteShell, if_pos (show shell.live = true from hstays)]
      exact Keeps.refl _
  | input text => exact absurd rfl (hinput text)
  | resize cols rows =>
      rw [step, resizeRemoteShell]
      split_ifs
      · exact Keeps.refl _
      · exact ⟨⟨rfl, rfl⟩, Nat.le_succ _, List.prefix_append _ _⟩
  | close => exact keeps_closeRemoteShell ..
  | clear => exact keeps_of_same rfl rfl rfl
  | abandon identityId =>
      rw [step, abandonRemoteShellForIdentity, if_pos (show shell.store.identityId ≠ some identityId from hstays)]
      exact Keeps.refl _
  | frame now id sender frame => exact keeps_frame ..
  | openTimeout =>
      rw [step, openTimeout]
      split_ifs
      · dsimp only
        split_ifs
        · exact keeps_of_same rfl rfl rfl
        · exact keeps_of_same rfl rfl rfl
      · exact Keeps.refl _
  | idleTimeout =>
      rw [step, idleTimeout]
      split_ifs
      · refine Keeps.trans ?_ (keeps_closeRemoteShell { shell with idleTimer := false } true)
        exact keeps_of_same rfl rfl rfl
      · exact Keeps.refl _
  | ackTimeout =>
      rw [step, ackTimeout]
      cases shell.ackTimer with
      | none => exact Keeps.refl _
      | some sessionId =>
          dsimp only
          split_ifs
          · exact keeps_of_same rfl rfl rfl
          · refine Keeps.trans ?_ (keeps_send { shell with ackTimer := none } _)
            exact keeps_of_same rfl rfl rfl
  | openSettles i error =>
      rw [step, openSettles]
      cases shell.opens[i]? with
      | none => exact Keeps.refl _
      | some sessionId =>
          cases error with
          | none => exact keeps_of_same rfl rfl rfl
          | some error =>
              refine Keeps.trans ?_ (keeps_sendFailed { shell with opens := shell.opens.eraseIdx i } sessionId error)
              exact keeps_of_same rfl rfl rfl
  | chainTurn i => exact absurd rfl (hturn i)
  | chainSettles i error => exact keeps_chainSettles ..

theorem typed_inputFrames (ht : Typed identityId nodeNum sessionId typed shell) (hsession : shell.store.sessionId = sessionId)
    (payloads : List (List UInt8)) :
    Typed identityId nodeNum sessionId (typed ++ payloads) (shell.inputFrames payloads) := by
  induction payloads generalizing shell typed with
  | nil => rwa [List.append_nil]
  | cons payload payloads ih =>
      rw [inputFrames, ← List.singleton_append, ← List.append_assoc]
      apply ih
      · have hframes : ∀ frame, ({ shell.sendChain with waiting := shell.sendChain.waiting ++ [frame] } : SendChain).frames =
            shell.sendChain.frames ++ [frame] := by
          intro frame
          rw [SendChain.frames, SendChain.frames, List.append_assoc]
        refine ⟨?_, fun frame hframe => ?_, ?_, ht.calls, ht.sent⟩
        · dsimp only
          rw [hframes, List.map_append, ht.payloads]
          rfl
        · dsimp only at hframe
          rw [hframes, List.mem_append, List.mem_singleton] at hframe
          cases hframe with
          | inl hframe =>
              obtain ⟨hop, hid, hseq⟩ := ht.own frame hframe
              exact ⟨hop, hid, Nat.le_succ_of_le hseq⟩
          | inr hframe =>
              subst hframe
              exact ⟨rfl, hsession, Nat.le_refl _⟩
        · dsimp only
          rw [hframes, List.map_append, List.pairwise_append]
          refine ⟨ht.ascend, List.pairwise_singleton _ _, fun n hn m hm => ?_⟩
          obtain ⟨frame, hframe, rfl⟩ := List.mem_map.mp hn
          rw [List.map_singleton, List.mem_singleton] at hm
          rw [hm]
          exact Nat.lt_succ_of_le (ht.own frame hframe).2.2
      · exact hsession

theorem typed_turn (ht : Typed identityId nodeNum sessionId typed shell)
    (hsession : shell.store.identityId = some identityId ∧ shell.store.nodeNum = some nodeNum) (i : ℕ) :
    Typed identityId nodeNum sessionId typed (shell.chainTurn i) := by
  have haddress : ∀ frame, shell.address frame = some ⟨identityId, nodeNum, frame⟩ := by
    intro frame
    rw [address, hsession.1, hsession.2]
    rfl
  rw [chainTurn]
  cases hchain : shell.chain? i with
  | none => exact ht
  | some chain =>
      dsimp only
      cases hflight : chain.inFlight with
      | some frame => exact ht
      | none =>
          cases hwaiting : chain.waiting with
          | nil => exact ht
          | cons frame rest =>
              dsimp only
              rw [haddress, if_neg (by simp)]
              obtain hi | ⟨hi, rfl⟩ := chain?_cases hchain
              · exact ht.keeps ((keeps_setChain_old hi _).trans (keeps_send _ _))
              · rw [setChain, if_neg hi]
                have hframes : (⟨rest, some frame, shell.sendChain.done ++
                    [(frame, some ⟨identityId, nodeNum, frame⟩)]⟩ : SendChain).frames = shell.sendChain.frames := by
                  rw [SendChain.frames, SendChain.frames, hwaiting, List.map_append, List.append_assoc]
                  rfl
                refine ⟨hframes ▸ ht.payloads, hframes ▸ ht.own, hframes ▸ ht.ascend, fun call hcall => ?_, ?_⟩
                · rw [send] at hcall
                  dsimp only at hcall
                  rw [List.mem_append, List.mem_singleton] at hcall
                  cases hcall with
                  | inl hcall => exact ht.calls call hcall
                  | inr hcall => rw [hcall]
                · rw [send]
                  dsimp only
                  rw [List.filterMap_append]
                  apply ht.sent.append
                  show List.Sublist _ (shell.address frame).toList
                  rw [haddress]
                  exact List.Sublist.refl _

theorem typed_step {arrived : List RemoteShellFrame} {cleared : Prop}
    (ht : Typed identityId nodeNum sessionId typed shell) (hr : Received identityId nodeNum sessionId arrived cleared shell)
    {event : Event} (hstays : Stays shell event) :
    Typed identityId nodeNum sessionId (typed ++ typings shell event) (step shell event) := by
  by_cases hinput : ∃ text, event = .input text
  · obtain ⟨text, rfl⟩ := hinput
    rw [typings, step, sendRemoteShellInput]
    split_ifs with hrefused
    · rwa [List.append_nil]
    · have harmed : Typed identityId nodeNum sessionId typed shell.armIdleTimer :=
        ht.keeps (keeps_of_same rfl rfl rfl)
      exact typed_inputFrames harmed hr.session.2.2 _
  · have hnone : typings shell event = [] := by
      cases event with
      | input text => exact absurd ⟨text, rfl⟩ hinput
      | _ => rfl
    rw [hnone, List.append_nil]
    by_cases hturn : ∃ i, event = .chainTurn i
    · obtain ⟨i, rfl⟩ := hturn
      exact typed_turn ht ⟨hr.session.1, hr.session.2.1⟩ i
    · exact ht.keeps (keeps_step hstays (fun text h => hinput ⟨text, h⟩) fun i h => hturn ⟨i, h⟩)

theorem typed_run {arrived : List RemoteShellFrame} {cleared : Prop} (ht : Typed identityId nodeNum sessionId typed shell)
    (hr : Received identityId nodeNum sessionId arrived cleared shell) {events : List Event}
    (hstays : Each step Stays shell events) :
    Typed identityId nodeNum sessionId (typed ++ trace step typings shell events) (run step shell events) := by
  induction events generalizing shell typed arrived cleared with
  | nil => rwa [trace, List.append_nil]
  | cons event events ih =>
      have hrest := ih (typed_step ht hr hstays.1) (received_step hr hstays.1) hstays.2
      rwa [List.append_assoc] at hrest

end Shell

-- What has been typed into a session: the calls made for it so far and the frames still to send.
structure SessionInput (identityId : String) (nodeNum : ℚ) (sessionId : ℕ) (typed : List (List UInt8)) (shell : Shell) :
    Prop where
  calls : ∃ called : List RemoteShellFrame,
    shell.sendChain.done = called.map (fun frame => (frame, some ⟨identityId, nodeNum, frame⟩)) ∧
    (called.map fun frame => (⟨identityId, nodeNum, frame⟩ : Sent)).Sublist shell.sent ∧
    (called ++ shell.sendChain.waiting).map RemoteShellFrame.payload = typed ∧
    (∀ frame ∈ called ++ shell.sendChain.waiting, frame.op = .input ∧ frame.sessionId = sessionId ∧
      frame.payload.length ≤ REMOTE_SHELL_MAX_PAYLOAD_BYTES) ∧
    ((called ++ shell.sendChain.waiting).map RemoteShellFrame.seq).Pairwise (· < ·)

theorem typings_fit {shell : Shell} {event : Event} {payload : List UInt8} (h : payload ∈ typings shell event) :
    payload.length ≤ REMOTE_SHELL_MAX_PAYLOAD_BYTES := by
  cases event with
  | input text =>
      rw [typings] at h
      split_ifs at h
      · cases h
      · obtain ⟨runs, -, -, -, hfits⟩ := chunks_lossless text
        exact (hfits payload h).2
  | _ => cases h

theorem trace_typings_fit {shell : Shell} {events : List Event} {payload : List UInt8}
    (h : payload ∈ trace step typings shell events) : payload.length ≤ REMOTE_SHELL_MAX_PAYLOAD_BYTES := by
  induction events generalizing shell with
  | nil => cases h
  | cons event events ih =>
      rw [trace, List.mem_append] at h
      cases h with
      | inl h => exact typings_fit h
      | inr h => exact ih h

def typedCommand : List Event :=
  [.frame 1000 "mt-id" 5 { op := .openOk, sessionId := 7 }, .input (units "ls"), .input (units "é\n"), .chainTurn 1,
    .chainSettles 1 none, .close]

end MeshClient.Meshtastic.RemoteShell
