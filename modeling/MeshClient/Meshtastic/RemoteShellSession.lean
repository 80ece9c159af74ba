import MeshClient.Lib.Ascents
import MeshClient.Lib.Trace
import MeshClient.Meshtastic.RemoteShell

namespace MeshClient.Meshtastic.RemoteShell

open Js Run Trace

namespace Shell

-- The session's variables that frames and timers act on.
def core (shell : Shell) : RemoteShellState × ℕ × Bool × Bool × Option ℕ × Utf8.Decoder :=
  (shell.store, shell.lastRxSeq, shell.openTimer, shell.idleTimer, shell.ackTimer, shell.decoder)

variable {shell shell' : Shell}

@[simp] theorem core_send (shell : Shell) (frame : RemoteShellFrame) : (shell.send frame).core = shell.core := rfl

@[simp] theorem core_nextFrame (shell : Shell) (op : RemoteShellOp) (sessionId : ℕ) :
    (shell.nextFrame op sessionId).1.core = shell.core := rfl

@[simp] theorem core_setChain (shell : Shell) (i : ℕ) (chain : SendChain) : (shell.setChain i chain).core = shell.core := by
  rw [setChain]
  split_ifs <;> rfl

@[simp] theorem core_inputFrames (shell : Shell) (payloads : List (List UInt8)) :
    (shell.inputFrames payloads).core = shell.core := by
  induction payloads generalizing shell with
  | nil => rfl
  | cons payload payloads ih =>
      rw [inputFrames]
      exact ih _

theorem store_of_core (h : shell.core = shell'.core) : shell.store = shell'.store := congrArg Prod.fst h

theorem live_iff : shell.live = true ↔ shell.store.phase = .opening ∨ shell.store.phase = .open_ := by
  rw [live, Bool.or_eq_true, decide_eq_true_iff, decide_eq_true_iff]

-- While a session is live just the timer of its phase is armed, and no timer is without one.
structure Timed (shell : Shell) : Prop where
  opening : shell.store.phase = .opening ↔ shell.openTimer = true
  open_ : shell.store.phase = .open_ ↔ shell.idleTimer = true
  ack : shell.ackTimer ≠ none → shell.store.phase = .open_
  fresh : shell.store.phase = .opening → shell.lastRxSeq = 0
  addressed : shell.live = true → ∃ identityId nodeNum,
    shell.store.identityId = some identityId ∧ shell.store.nodeNum = some nodeNum

theorem Timed.congr (h : shell.core = shell'.core) (ht : Timed shell) : Timed shell' := by
  obtain ⟨h₁, h₂, h₃, h₄, h₅⟩ := ht
  simp only [core, Prod.mk.injEq] at h
  obtain ⟨hstore, hlast, hopen, hidle, hack, -⟩ := h
  rw [live, hstore] at h₅
  rw [hstore] at h₁ h₂ h₃ h₄
  exact ⟨hopen ▸ h₁, hidle ▸ h₂, hack ▸ h₃, hlast ▸ h₄, h₅⟩

theorem timed_over (hphase : shell.store.phase ≠ .opening ∧ shell.store.phase ≠ .open_)
    (htimers : shell.openTimer = false ∧ shell.idleTimer = false ∧ shell.ackTimer = none) : Timed shell := by
  obtain ⟨hopen, hidle, hack⟩ := htimers
  exact ⟨by simp [hphase.1, hopen], by simp [hphase.2, hidle], fun h => absurd hack h, fun h => absurd h hphase.1,
    fun h => absurd (live_iff.mp h) (not_or.mpr hphase)⟩

theorem timed_fail (shell : Shell) (code : RemoteShellErrorCode) (detail : Option Units) : Timed (shell.fail code detail) :=
  timed_over ⟨by simp [fail], by simp [fail]⟩ ⟨rfl, rfl, rfl⟩

theorem timed_sendFailed (ht : Timed shell) (sessionId : ℕ) (error : Units) : Timed (shell.sendFailed sessionId error) := by
  rw [sendFailed]
  split_ifs
  · exact timed_fail ..
  · exact ht

theorem timed_closeRemoteShell (hnot : shell.live = false → Timed shell) (idle : Bool) :
    Timed (shell.closeRemoteShell idle) := by
  rw [closeRemoteShell]
  split_ifs with hlive hidle
  · exact timed_fail ..
  · exact timed_over ⟨by simp, by simp⟩ ⟨rfl, rfl, rfl⟩
  · exact hnot (Bool.eq_false_iff.mpr hlive)

-- The text that a frame adds.
def chunkText (decoder : Utf8.Decoder) (frame : RemoteShellFrame) : Units :=
  sanitizeRemoteShellOutput (((decoder.decode frame.payload).1.flatMap charCodes).map UInt16.ofNat)

theorem handleOutput_stale {now : ℕ} {frame : RemoteShellFrame} (hphase : shell.store.phase ≠ .opening)
    (h : Ascents.Stale RemoteShellFrame.seq shell.lastRxSeq frame) : shell.handleOutput now frame = shell := by
  simp only [handleOutput, if_neg hphase]
  exact if_pos h

structure Takes (shell shell' : Shell) (frame : RemoteShellFrame) : Prop where
  phase : shell'.store.phase = .open_
  openTimer : shell'.openTimer = if shell.store.phase = .opening then false else shell.openTimer
  idleTimer : shell'.idleTimer = true
  last : shell'.lastRxSeq = Ascents.advance RemoteShellFrame.seq shell.lastRxSeq frame
  gap : shell'.store.gapCount = shell.store.gapCount +
    if frame.seq ≠ 0 ∧ shell.lastRxSeq ≠ 0 ∧ shell.lastRxSeq + 1 < frame.seq then frame.seq - shell.lastRxSeq - 1 else 0
  decoder : shell'.decoder = (shell.decoder.decode frame.payload).2
  output : (shell'.store.output, shell'.store.outputTruncated) =
    if chunkText shell.decoder frame = [] then (shell.store.output, shell.store.outputTruncated)
    else
      let next := appendBoundedOutput shell.store.output (chunkText shell.decoder frame) REMOTE_SHELL_MAX_OUTPUT_CHARS
      (next.1, shell.store.outputTruncated || next.2)
  session : shell'.store.identityId = shell.store.identityId ∧ shell'.store.nodeNum = shell.store.nodeNum ∧
    shell'.store.sessionId = shell.store.sessionId
  chain : shell'.sendChain = shell.sendChain

-- The end of `handleOutput`: the text goes out, both timers are armed.
def deliver (shell : Shell) (sessionId : ℕ) (frame : RemoteShellFrame) : Shell :=
  let text := shell.decoder.decode frame.payload
  (({ shell with decoder := text.2 }.appendRemoteShellOutput text.1).armIdleTimer).scheduleAck sessionId

theorem deliver_eq (shell : Shell) (sessionId : ℕ) (frame : RemoteShellFrame) : ∃ ackTimer,
    shell.deliver sessionId frame =
      { shell with
        decoder := (shell.decoder.decode frame.payload).2
        idleTimer := true
        ackTimer
        store :=
          if chunkText shell.decoder frame = [] then shell.store
          else
            let next := appendBoundedOutput shell.store.output (chunkText shell.decoder frame) REMOTE_SHELL_MAX_OUTPUT_CHARS
            { shell.store with output := next.1, outputTruncated := shell.store.outputTruncated || next.2 } } := by
  have hack : ∀ s : Shell, ∃ ackTimer, s.scheduleAck sessionId = { s with ackTimer } := by
    intro s
    rw [scheduleAck]
    split_ifs
    · exact ⟨s.ackTimer, rfl⟩
    · exact ⟨some sessionId, rfl⟩
  by_cases hnil : chunkText shell.decoder frame = []
  · have happend : ({ shell with decoder := (shell.decoder.decode frame.payload).2 } : Shell).appendRemoteShellOutput
        (shell.decoder.decode frame.payload).1 = { shell with decoder := (shell.decoder.decode frame.payload).2 } :=
      if_pos hnil
    obtain ⟨ackTimer, hack⟩ := hack ({ shell with decoder := (shell.decoder.decode frame.payload).2 } : Shell).armIdleTimer
    rw [deliver, happend, hack, if_pos hnil]
    exact ⟨ackTimer, rfl⟩
  · have happend : ({ shell with decoder := (shell.decoder.decode frame.payload).2 } : Shell).appendRemoteShellOutput
        (shell.decoder.decode frame.payload).1 = _ := if_neg hnil
    rw [deliver, happend, if_neg hnil]
    exact hack _

theorem takes_deliver {frame : RemoteShellFrame} (hphase : shell'.store.phase = .open_)
    (hopen : shell'.openTimer = if shell.store.phase = .opening then false else shell.openTimer)
    (hlast : shell'.lastRxSeq = Ascents.advance RemoteShellFrame.seq shell.lastRxSeq frame)
    (hgap : shell'.store.gapCount = shell.store.gapCount +
      if frame.seq ≠ 0 ∧ shell.lastRxSeq ≠ 0 ∧ shell.lastRxSeq + 1 < frame.seq then frame.seq - shell.lastRxSeq - 1 else 0)
    (hdecoder : shell'.decoder = shell.decoder)
    (houtput : shell'.store.output = shell.store.output ∧ shell'.store.outputTruncated = shell.store.outputTruncated)
    (hsession : shell'.store.identityId = shell.store.identityId ∧ shell'.store.nodeNum = shell.store.nodeNum ∧
      shell'.store.sessionId = shell.store.sessionId) (hchain : shell'.sendChain = shell.sendChain) (sessionId : ℕ) :
    Takes shell (shell'.deliver sessionId frame) frame := by
  obtain ⟨ackTimer, heq⟩ := deliver_eq shell' sessionId frame
  rw [heq, hdecoder, houtput.1, houtput.2]
  split_ifs with hnil
  · exact ⟨hphase, hopen, rfl, hlast, hgap, rfl, by rw [if_pos hnil, houtput.1, houtput.2], hsession, hchain⟩
  · exact ⟨hphase, hopen, rfl, hlast, hgap, rfl, by rw [if_neg hnil], hsession, hchain⟩

-- A frame that is no old news is taken, also as the first sign of an open session.
theorem takes_handleOutput {frame : RemoteShellFrame} (hlive : shell.live = true)
    (h : ¬Ascents.Stale RemoteShellFrame.seq shell.lastRxSeq frame) (now : ℕ) :
    Takes shell (shell.handleOutput now frame) frame := by
  have hstale : ¬(frame.seq ≠ 0 ∧ frame.seq ≤ shell.lastRxSeq) := h
  let arrived := if shell.store.phase = .opening then shell.opened now else shell
  have hphase : arrived.store.phase = .open_ := by
    by_cases hopening : shell.store.phase = .opening
    · rw [show arrived = shell.opened now from if_pos hopening]
      rfl
    · rw [show arrived = shell from if_neg hopening]
      exact (live_iff.mp hlive).resolve_left hopening
  have hsame : arrived.openTimer = (if shell.store.phase = .opening then false else shell.openTimer) ∧
      arrived.lastRxSeq = shell.lastRxSeq ∧ arrived.decoder = shell.decoder ∧ arrived.sendChain = shell.sendChain ∧
      arrived.store.gapCount = shell.store.gapCount ∧ arrived.store.output = shell.store.output ∧
      arrived.store.outputTruncated = shell.store.outputTruncated ∧ arrived.store.identityId = shell.store.identityId ∧
      arrived.store.nodeNum = shell.store.nodeNum ∧ arrived.store.sessionId = shell.store.sessionId := by
    by_cases hopening : shell.store.phase = .opening
    · rw [show arrived = shell.opened now from if_pos hopening, if_pos hopening]
      exact ⟨rfl, rfl, rfl, rfl, rfl, rfl, rfl, rfl, rfl, rfl⟩
    · rw [show arrived = shell from if_neg hopening, if_neg hopening]
      exact ⟨rfl, rfl, rfl, rfl, rfl, rfl, rfl, rfl, rfl, rfl⟩
  obtain ⟨hopen, hlast, hdecoder, hchain, hgap, houtput, htruncated, hidentity, hnode, hsession⟩ := hsame
  have hrun : shell.handleOutput now frame =
      (if frame.seq ≠ 0 then
        { arrived with
          store := { arrived.store with
            gapCount :=
              if arrived.lastRxSeq ≠ 0 ∧ arrived.lastRxSeq + 1 < frame.seq then
                arrived.store.gapCount + (frame.seq - arrived.lastRxSeq - 1)
              else arrived.store.gapCount }
          lastRxSeq := frame.seq }
      else arrived).deliver shell.store.sessionId frame := by
    have hnews : ¬(frame.seq ≠ 0 ∧ frame.seq ≤ arrived.lastRxSeq) := by rwa [hlast]
    rw [handleOutput]
    exact if_neg hnews
  rw [hrun]
  by_cases hzero : frame.seq = 0
  · rw [if_neg (not_not.mpr hzero)]
    apply takes_deliver hphase hopen
    · rw [hlast, Ascents.advance, if_pos hzero]
    · rw [hgap, if_neg fun h => h.1 hzero, Nat.add_zero]
    · exact hdecoder
    · exact ⟨houtput, htruncated⟩
    · exact ⟨hidentity, hnode, hsession⟩
    · exact hchain
  · rw [if_pos hzero]
    apply takes_deliver
    · exact hphase
    · exact hopen
    · rw [Ascents.advance, if_neg hzero]
    · dsimp only
      rw [hlast, hgap]
      by_cases hbeyond : shell.lastRxSeq ≠ 0 ∧ shell.lastRxSeq + 1 < frame.seq
      · rw [if_pos hbeyond, if_pos ⟨hzero, hbeyond⟩]
      · rw [if_neg hbeyond, if_neg fun h => hbeyond h.2, Nat.add_zero]
    · exact hdecoder
    · exact ⟨houtput, htruncated⟩
    · exact ⟨hidentity, hnode, hsession⟩
    · exact hchain

theorem timed_openRemoteShell (ht : Timed shell) (nodeNum : ℚ) (cols rows : ℕ) (identity : Option String)
    (sessionId : ℕ) : Timed (shell.openRemoteShell nodeNum cols rows identity sessionId) := by
  rw [openRemoteShell]
  split_ifs with hlive hradio
  · exact ht
  · exact timed_over ⟨by simp, by simp⟩ ⟨rfl, rfl, rfl⟩
  · obtain ⟨identityId, hidentity⟩ := Option.ne_none_iff_exists'.mp (not_or.mp hradio).1
    exact ⟨by simp [send, nextFrame], by simp [send, nextFrame, clearTimers], fun h => absurd rfl h, fun _ => rfl,
      fun _ => ⟨identityId, nodeNum, hidentity, rfl⟩⟩

theorem timed_input (ht : Timed shell) (text : Units) : Timed (shell.sendRemoteShellInput text) := by
  rw [sendRemoteShellInput]
  split_ifs with hrefused
  · exact ht
  · have hphase : shell.store.phase = .open_ := not_not.mp fun h => hrefused (.inl h)
    have harmed : Timed shell.armIdleTimer := ⟨ht.opening, by simp [armIdleTimer, hphase], ht.ack, ht.fresh, ht.addressed⟩
    exact harmed.congr (core_inputFrames _ _).symm

theorem timed_handleOutput (ht : Timed shell) (hlive : shell.live = true) (now : ℕ) (frame : RemoteShellFrame) :
    Timed (shell.handleOutput now frame) := by
  by_cases hstale : Ascents.Stale RemoteShellFrame.seq shell.lastRxSeq frame
  · have hphase : shell.store.phase ≠ .opening := by
      intro hopening
      have hlast := ht.fresh hopening
      obtain ⟨hne, hle⟩ := hstale
      omega
    rwa [handleOutput_stale hphase hstale]
  · have htakes := takes_handleOutput hlive hstale now
    refine ⟨?_, ?_, fun _ => htakes.phase, ?_, fun _ => ?_⟩
    · rw [htakes.phase, htakes.openTimer]
      split_ifs with hopening
      · simp
      · simp [← ht.opening, hopening]
    · simp [htakes.phase, htakes.idleTimer]
    · simp [htakes.phase]
    · rw [htakes.session.1, htakes.session.2.1]
      exact ht.addressed hlive

theorem timed_frame (ht : Timed shell) (now : ℕ) (identityId : String) (sender : ℚ) (frame : RemoteShellFrame) :
    Timed (shell.handleRemoteShellFrame now identityId sender frame) := by
  by_cases hown : shell.isOwn identityId sender frame = true
  · have hlive : shell.live = true := by
      simp only [isOwn, Bool.and_eq_true] at hown
      exact hown.1.1.1
    rw [handleRemoteShellFrame, if_pos hown]
    cases frame.op with
    | openOk =>
        by_cases hopening : shell.store.phase = .opening
        · dsimp only
          rw [if_pos hopening]
          exact ⟨by simp [armIdleTimer, opened], by simp [armIdleTimer, opened], fun _ => rfl,
            by simp [armIdleTimer, opened], fun _ => ht.addressed hlive⟩
        · dsimp only
          rwa [if_neg hopening]
    | output => exact timed_handleOutput ht hlive now frame
    | closed => exact timed_over ⟨by simp, by simp⟩ ⟨rfl, rfl, rfl⟩
    | error =>
        dsimp only
        rw [handleError]
        split_ifs
        · exact timed_fail ..
        · exact ⟨ht.opening, ht.open_, ht.ack, ht.fresh, ht.addressed⟩
    | open_ => exact ht
    | input => exact ht
    | resize => exact ht
    | close => exact ht
    | ping => exact ht
    | ack => exact ht
    | pong => exact ht
    | unset => exact ht
  · rwa [handleRemoteShellFrame, if_neg hown]

theorem timed_timeouts (ht : Timed shell) : Timed shell.openTimeout ∧ Timed shell.idleTimeout ∧ Timed shell.ackTimeout := by
  refine ⟨?_, ?_, ?_⟩
  · by_cases harmed : shell.openTimer = true
    · have hopening := ht.opening.mpr harmed
      have hrun : shell.openTimeout = ({ shell with openTimer := false } : Shell).fail .openTimeout none := by
        rw [openTimeout, if_pos harmed]
        exact if_pos hopening
      rw [hrun]
      exact timed_fail ..
    · rwa [openTimeout, if_neg harmed]
  · rw [idleTimeout]
    split_ifs with harmed
    · apply timed_closeRemoteShell
      intro hnot
      have hlive : ({ shell with idleTimer := false } : Shell).live = true := live_iff.mpr (.inr (ht.open_.mpr harmed))
      rw [hnot] at hlive
      cases hlive
    · exact ht
  · rw [ackTimeout]
    cases hack : shell.ackTimer with
    | none => exact ht
    | some sessionId =>
        have hoff : Timed { shell with ackTimer := none } := 
          ⟨ht.opening, ht.open_, fun h => absurd rfl h, ht.fresh, ht.addressed⟩
        dsimp only
        split_ifs
        · exact hoff
        · exact hoff.congr (core_send _ _).symm

theorem timed_settles (ht : Timed shell) (i : ℕ) (error : Option Units) :
    Timed (shell.openSettles i error) ∧ Timed (shell.chainTurn i) ∧ Timed (shell.chainSettles i error) := by
  refine ⟨?_, ?_, ?_⟩
  · rw [openSettles]
    cases shell.opens[i]? with
    | none => exact ht
    | some sessionId =>
        have hrest : Timed { shell with opens := shell.opens.eraseIdx i } :=
          ⟨ht.opening, ht.open_, ht.ack, ht.fresh, ht.addressed⟩
        cases error with
        | none => exact hrest
        | some error => exact timed_sendFailed hrest _ _
  · rw [chainTurn]
    cases shell.chain? i with
    | none => exact ht
    | some chain =>
        dsimp only
        split
        · split_ifs
          · exact timed_sendFailed (ht.congr (core_setChain _ _ _).symm) _ _
          · exact ht.congr ((core_send _ _).trans (core_setChain _ _ _)).symm
        · exact ht
  · rw [chainSettles]
    cases shell.chain? i with
    | none => exact ht
    | some chain =>
        dsimp only
        cases chain.inFlight with
        | none => exact ht
        | some frame =>
            have hrest : Timed (shell.setChain i { chain with inFlight := none }) := ht.congr (core_setChain _ _ _).symm
            cases error with
            | none => exact hrest
            | some error => exact timed_sendFailed hrest _ _

theorem timed_step (shell : Shell) (event : Event) (ht : Timed shell) : Timed (step shell event) := by
  cases event with
  | opens nodeNum cols rows identity sessionId => exact timed_openRemoteShell ht ..
  | input text => exact timed_input ht text
  | resize cols rows =>
      have hcore : (shell.resizeRemoteShell cols rows).core = shell.core := by
        rw [resizeRemoteShell]
        split_ifs <;> rfl
      exact ht.congr hcore.symm
  | close => exact timed_closeRemoteShell (fun _ => ht) false
  | clear => exact ⟨ht.opening, ht.open_, ht.ack, ht.fresh, ht.addressed⟩
  | abandon identityId =>
      rw [step, abandonRemoteShellForIdentity]
      split_ifs
      · exact ht
      · exact timed_over ⟨by simp, by simp⟩ ⟨rfl, rfl, rfl⟩
  | frame now identityId sender frame => exact timed_frame ht ..
  | openTimeout => exact (timed_timeouts ht).1
  | idleTimeout => exact (timed_timeouts ht).2.1
  | ackTimeout => exact (timed_timeouts ht).2.2
  | openSettles i error => exact (timed_settles ht i error).1
  | chainTurn i => exact (timed_settles ht i none).2.1
  | chainSettles i error => exact (timed_settles ht i error).2.2

theorem timed_of_reachable (h : Reachable step {} shell) : Timed shell := by
  apply h.invariant
  · exact timed_over ⟨by simp, by simp⟩ ⟨rfl, rfl, rfl⟩
  · exact timed_step

-- A session that is asked for or open has the deadline of its phase before it, which ends it.
structure DeadlinePending (shell : Shell) : Prop where
  opening : shell.store.phase = .opening ↔ shell.openTimer = true
  open_ : shell.store.phase = .open_ ↔ shell.idleTimer = true
  openEnds : shell.store.phase = .opening → (step shell .openTimeout).store.phase = .error
  idleEnds : shell.store.phase = .open_ → (step shell .idleTimeout).store.phase = .error ∧
    ∃ identityId nodeNum frame, shell.store.identityId = some identityId ∧ shell.store.nodeNum = some nodeNum ∧
      frame.op = .close ∧ frame.sessionId = shell.store.sessionId ∧
      (step shell .idleTimeout).sent = shell.sent ++ [⟨identityId, nodeNum, frame⟩]

theorem deadline_pending (h : Reachable step {} shell) : DeadlinePending shell := by
  have ht := timed_of_reachable h
  refine ⟨ht.opening, ht.open_, fun hopening => ?_, fun hopen => ?_⟩
  · have hrun : step shell .openTimeout = ({ shell with openTimer := false } : Shell).fail .openTimeout none := by
      rw [step, openTimeout, if_pos (ht.opening.mp hopening)]
      exact if_pos hopening
    rw [hrun]
    rfl
  · have hlive : ({ shell with idleTimer := false } : Shell).live = true := live_iff.mpr (.inr hopen)
    obtain ⟨identityId, nodeNum, hidentity, hnode⟩ := ht.addressed hlive
    have hrun : step shell .idleTimeout = ({ shell with idleTimer := false } : Shell).closeRemoteShell true := by
      rw [step, idleTimeout, if_pos (ht.open_.mp hopen)]
    rw [hrun, closeRemoteShell, if_pos hlive]
    refine ⟨rfl, identityId, nodeNum, ⟨.close, shell.store.sessionId, shell.txSeq + 1, shell.lastRxSeq, [], 0, 0, 0⟩,
      hidentity, hnode, rfl, rfl, ?_⟩
    simp only [if_true, fail, clearTimers, send, address, nextFrame, hidentity, hnode, Option.bind_some, Option.map_some,
      Option.toList_some]

-- The OPEN_OK was lost.
def firstOutput : List Event :=
  [.opens 5 80 24 (some "mt-id") 7, .frame 1000 "mt-id" 5 { op := .output, sessionId := 7, seq := 2, payload := [0x24] }]

theorem first_output_deadline : DeadlinePending (run step {} firstOutput) := deadline_pending ⟨firstOutput, rfl⟩

end Shell

end MeshClient.Meshtastic.RemoteShell
