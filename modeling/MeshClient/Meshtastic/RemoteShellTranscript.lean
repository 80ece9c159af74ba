import MeshClient.Meshtastic.RemoteShellSession

namespace MeshClient.Meshtastic.RemoteShell

open Js Run Trace Ascents

-- The session is neither replaced nor dropped by the step.
def Stays (shell : Shell) : Event → Prop
  | .opens .. => shell.live = true
  | .abandon identityId => shell.store.identityId ≠ some identityId
  | _ => True

instance Stays.decidable (shell : Shell) : (event : Event) → Decidable (Stays shell event)
  | .opens .. => inferInstanceAs (Decidable (shell.live = true))
  | .abandon identityId => inferInstanceAs (Decidable (shell.store.identityId ≠ some identityId))
  | .input _ | .resize .. | .close | .clear | .frame .. | .openTimeout | .idleTimeout | .ackTimeout | .openSettles ..
  | .chainTurn _ | .chainSettles .. => inferInstanceAs (Decidable True)

-- The OUTPUT frames that reach the session.
def arrivals (shell : Shell) : Event → List RemoteShellFrame
  | .frame _ identityId sender frame => if shell.isOwn identityId sender frame ∧ frame.op = .output then [frame] else []
  | _ => []

def decoderAfter (decoder : Utf8.Decoder) (frames : List RemoteShellFrame) : Utf8.Decoder :=
  frames.foldl (fun d frame => (d.decode frame.payload).2) decoder

def transcript (decoder : Utf8.Decoder) : List RemoteShellFrame → Units
  | [] => []
  | frame :: rest => Shell.chunkText decoder frame ++ transcript (decoder.decode frame.payload).2 rest

theorem transcript_append (decoder : Utf8.Decoder) (frames rest : List RemoteShellFrame) :
    transcript decoder (frames ++ rest) = transcript decoder frames ++ transcript (decoderAfter decoder frames) rest := by
  induction frames generalizing decoder with
  | nil => rfl
  | cons frame frames ih =>
      rw [List.cons_append, transcript, ih, transcript, List.append_assoc, decoderAfter, decoderAfter, List.foldl_cons]

theorem appendBoundedOutput_suffix (current chunk : Units) (max : ℕ) :
    (appendBoundedOutput current chunk max).1 <:+ current ++ chunk ∧ (appendBoundedOutput current chunk max).1.length ≤ max ∧
      ((current ++ chunk).length ≤ max → (appendBoundedOutput current chunk max).1 = current ++ chunk) := by
  simp only [appendBoundedOutput]
  split_ifs with hfits hline
  · exact ⟨List.suffix_refl _, hfits, fun _ => rfl⟩
  · refine ⟨List.drop_suffix _ _, ?_, fun h => absurd h hfits⟩
    rw [List.length_drop]
    omega
  · refine ⟨List.drop_suffix _ _, ?_, fun h => absurd h hfits⟩
    rw [List.length_drop]
    omega

namespace Shell

variable {shell shell' : Shell}

-- What the session has made of the frames that reached it.
structure Received (identityId : String) (nodeNum : ℚ) (sessionId : ℕ) (arrived : List RemoteShellFrame) (cleared : Prop)
    (shell : Shell) : Prop where
  session : shell.store.identityId = some identityId ∧ shell.store.nodeNum = some nodeNum ∧
    shell.store.sessionId = sessionId
  last : shell.lastRxSeq = lastTaken RemoteShellFrame.seq 0 arrived
  gap : shell.store.gapCount = skipped RemoteShellFrame.seq 0 arrived
  decoder : shell.decoder = decoderAfter {} (taken RemoteShellFrame.seq 0 arrived)
  output : shell.store.output <:+ transcript {} (taken RemoteShellFrame.seq 0 arrived)
  whole : ¬cleared → (transcript {} (taken RemoteShellFrame.seq 0 arrived)).length ≤ REMOTE_SHELL_MAX_OUTPUT_CHARS →
    shell.store.output = transcript {} (taken RemoteShellFrame.seq 0 arrived)
  safe : shell.store.output.length ≤ REMOTE_SHELL_MAX_OUTPUT_CHARS ∧ ∀ u ∈ shell.store.output, isControl u = false

variable {identityId : String} {nodeNum : ℚ} {sessionId : ℕ} {arrived : List RemoteShellFrame} {cleared : Prop}

-- All that a step does to what was received.
def view (shell : Shell) : Option String × Option ℚ × ℕ × ℕ × ℕ × Utf8.Decoder × Units :=
  (shell.store.identityId, shell.store.nodeNum, shell.store.sessionId, shell.lastRxSeq, shell.store.gapCount,
    shell.decoder, shell.store.output)

theorem Received.congr (h : shell'.view = shell.view) (hr : Received identityId nodeNum sessionId arrived cleared shell) :
    Received identityId nodeNum sessionId arrived cleared shell' := by
  simp only [view, Prod.mk.injEq] at h
  obtain ⟨hidentity, hnode, hsession, hlast, hgap, hdecoder, houtput⟩ := h
  refine ⟨?_, hlast ▸ hr.last, hgap ▸ hr.gap, hdecoder ▸ hr.decoder, houtput ▸ hr.output, houtput ▸ hr.whole, houtput ▸ hr.safe⟩
  rw [hidentity, hnode, hsession]
  exact hr.session

theorem view_of_core (h : shell'.core = shell.core) : shell'.view = shell.view := by
  simp only [core, Prod.mk.injEq] at h
  rw [view, view, h.1, h.2.1, h.2.2.2.2.2]

theorem view_sendFailed (shell : Shell) (sessionId : ℕ) (error : Units) :
    (shell.sendFailed sessionId error).view = shell.view := by
  rw [sendFailed]
  split_ifs <;> rfl

theorem view_closeRemoteShell (shell : Shell) (idle : Bool) : (shell.closeRemoteShell idle).view = shell.view := by
  rw [closeRemoteShell]
  split_ifs <;> rfl

theorem view_opened (shell : Shell) (now : ℕ) : (shell.opened now).view = shell.view := rfl

theorem received_output (hr : Received identityId nodeNum sessionId arrived cleared shell) {frame : RemoteShellFrame}
    (hlive : shell.live = true) (now : ℕ) :
    Received identityId nodeNum sessionId (arrived ++ [frame]) cleared (shell.handleOutput now frame) := by
  by_cases hstale : Stale RemoteShellFrame.seq shell.lastRxSeq frame
  · have hsame : taken RemoteShellFrame.seq 0 (arrived ++ [frame]) = taken RemoteShellFrame.seq 0 arrived ∧
        lastTaken RemoteShellFrame.seq 0 (arrived ++ [frame]) = lastTaken RemoteShellFrame.seq 0 arrived ∧
          skipped RemoteShellFrame.seq 0 (arrived ++ [frame]) = skipped RemoteShellFrame.seq 0 arrived := by
      rw [taken_append, lastTaken_append, skipped_append, ← hr.last, taken, lastTaken, skipped, if_pos hstale,
        if_pos hstale, if_pos hstale]
      exact ⟨List.append_nil _, rfl, rfl⟩
    have hview : (shell.handleOutput now frame).view = shell.view := by
      by_cases hopening : shell.store.phase = .opening
      · have hrun : shell.handleOutput now frame = shell.opened now := by
          simp only [handleOutput, if_pos hopening]
          exact if_pos hstale
        rw [hrun, view_opened]
      · rw [handleOutput_stale hopening hstale]
    have hkept : Received identityId nodeNum sessionId (arrived ++ [frame]) cleared shell := by
      obtain ⟨htaken, hlast, hskipped⟩ := hsame
      exact ⟨hr.session, hlast ▸ hr.last, hskipped ▸ hr.gap, htaken ▸ hr.decoder, htaken ▸ hr.output, htaken ▸ hr.whole,
        hr.safe⟩
    exact hkept.congr hview
  · have htakes := takes_handleOutput hlive hstale now
    have htaken : taken RemoteShellFrame.seq 0 (arrived ++ [frame]) = taken RemoteShellFrame.seq 0 arrived ++ [frame] := by
      rw [taken_append, ← hr.last, taken, if_neg hstale, taken]
    have htext : transcript {} (taken RemoteShellFrame.seq 0 (arrived ++ [frame])) =
        transcript {} (taken RemoteShellFrame.seq 0 arrived) ++ chunkText shell.decoder frame := by
      rw [htaken, transcript_append, ← hr.decoder, transcript, transcript, List.append_nil]
    have houtput := htakes.output
    refine ⟨?_, ?_, ?_, ?_, ?_, ?_, ?_⟩
    · rw [htakes.session.1, htakes.session.2.1, htakes.session.2.2]
      exact hr.session
    · rw [htakes.last, lastTaken_append, ← hr.last, lastTaken, if_neg hstale, lastTaken]
    · rw [htakes.gap, skipped_append, ← hr.last, skipped, if_neg hstale, skipped, hr.gap]
      rfl
    · have hconcat : decoderAfter {} (taken RemoteShellFrame.seq 0 arrived ++ [frame]) =
          ((decoderAfter {} (taken RemoteShellFrame.seq 0 arrived)).decode frame.payload).2 := List.foldl_append
      rw [htakes.decoder, htaken, hconcat, hr.decoder]
    · rw [htext]
      split_ifs at houtput with hnil
      · rw [(Prod.mk.inj houtput).1, hnil, List.append_nil]
        exact hr.output
      · rw [(Prod.mk.inj houtput).1]
        obtain ⟨front, hfront⟩ := hr.output
        refine (appendBoundedOutput_suffix _ _ _).1.trans ⟨front, ?_⟩
        rw [← hfront, List.append_assoc]
    · rw [htext]
      intro hnot hfits
      have hbefore := hr.whole hnot (by rw [List.length_append] at hfits; omega)
      split_ifs at houtput with hnil
      · rw [(Prod.mk.inj houtput).1, hnil, List.append_nil, hbefore]
      · rw [(Prod.mk.inj houtput).1, hbefore]
        exact (appendBoundedOutput_suffix _ _ _).2.2 hfits
    · split_ifs at houtput with hnil
      · rw [(Prod.mk.inj houtput).1]
        exact hr.safe
      · rw [(Prod.mk.inj houtput).1]
        refine ⟨(appendBoundedOutput_suffix _ _ _).2.1, fun u hu => ?_⟩
        have hmem := (appendBoundedOutput_suffix _ _ _).1.subset hu
        rw [List.mem_append] at hmem
        cases hmem with
        | inl hmem => exact hr.safe.2 u hmem
        | inr hmem => exact Bool.not_eq_true' _ ▸ (List.mem_filter.mp hmem).2

theorem received_frame (hr : Received identityId nodeNum sessionId arrived cleared shell) (now : ℕ) (id : String)
    (sender : ℚ) (frame : RemoteShellFrame) :
    Received identityId nodeNum sessionId (arrived ++ arrivals shell (.frame now id sender frame)) cleared
      (shell.handleRemoteShellFrame now id sender frame) := by
  by_cases hown : shell.isOwn id sender frame = true
  · have hlive : shell.live = true := by
      simp only [isOwn, Bool.and_eq_true] at hown
      exact hown.1.1.1
    by_cases hop : frame.op = .output
    · rw [arrivals, if_pos ⟨hown, hop⟩, handleRemoteShellFrame, if_pos hown, hop]
      exact received_output hr hlive now
    · have hview : (shell.handleRemoteShellFrame now id sender frame).view = shell.view := by
        rw [handleRemoteShellFrame, if_pos hown]
        cases hkind : frame.op with
        | output => exact absurd hkind hop
        | openOk =>
            dsimp only
            split_ifs <;> rfl
        | error =>
            dsimp only
            rw [handleError]
            split_ifs <;> rfl
        | closed => rfl
        | open_ => rfl
        | input => rfl
        | resize => rfl
        | close => rfl
        | ping => rfl
        | ack => rfl
        | pong => rfl
        | unset => rfl
      rw [arrivals, if_neg fun h => hop h.2, List.append_nil]
      exact hr.congr hview
  · rw [arrivals, if_neg fun h => hown h.1, List.append_nil, handleRemoteShellFrame, if_neg hown]
    exact hr

-- No other step touches what was received, but for the user's own clearing of the output.
theorem view_step {event : Event} (hstays : Stays shell event) (hclear : event ≠ .clear)
    (hframe : ∀ now id sender frame, event ≠ .frame now id sender frame) : (step shell event).view = shell.view := by
  cases event with
  | opens nodeNum cols rows identity sessionId =>
      rw [step, openRemoteShell, if_pos]
      exact hstays
  | input text =>
      rw [step, sendRemoteShellInput]
      split_ifs
      · rfl
      · exact (view_of_core (core_inputFrames shell.armIdleTimer _)).trans rfl
  | resize cols rows =>
      rw [step, resizeRemoteShell]
      split_ifs <;> rfl
  | close => exact view_closeRemoteShell ..
  | clear => exact absurd rfl hclear
  | abandon identityId =>
      rw [step, abandonRemoteShellForIdentity, if_pos (show shell.store.identityId ≠ some identityId from hstays)]
  | frame now id sender frame => exact absurd rfl (hframe now id sender frame)
  | openTimeout =>
      rw [step, openTimeout]
      split_ifs
      · dsimp only
        split_ifs <;> rfl
      · rfl
  | idleTimeout =>
      rw [step, idleTimeout]
      split_ifs
      · exact view_closeRemoteShell ..
      · rfl
  | ackTimeout =>
      rw [step, ackTimeout]
      cases shell.ackTimer with
      | none => rfl
      | some sessionId =>
          dsimp only
          split_ifs <;> rfl
  | openSettles i error =>
      rw [step, openSettles]
      cases shell.opens[i]? with
      | none => rfl
      | some sessionId =>
          cases error with
          | none => rfl
          | some error => exact view_sendFailed ..
  | chainTurn i =>
      rw [step, chainTurn]
      cases shell.chain? i with
      | none => rfl
      | some chain =>
          dsimp only
          split
          · split_ifs
            · exact (view_sendFailed ..).trans (view_of_core (core_setChain ..))
            · exact view_of_core ((core_send _ _).trans (core_setChain ..))
          · rfl
  | chainSettles i error =>
      rw [step, chainSettles]
      cases shell.chain? i with
      | none => rfl
      | some chain =>
          dsimp only
          cases chain.inFlight with
          | none => rfl
          | some frame =>
              cases error with
              | none => exact view_of_core (core_setChain ..)
              | some error => exact (view_sendFailed ..).trans (view_of_core (core_setChain ..))

theorem received_step (hr : Received identityId nodeNum sessionId arrived cleared shell) {event : Event}
    (hstays : Stays shell event) :
    Received identityId nodeNum sessionId (arrived ++ arrivals shell event) (cleared ∨ event = .clear)
      (step shell event) := by
  by_cases hframe : ∃ now id sender frame, event = .frame now id sender frame
  · obtain ⟨now, id, sender, frame, rfl⟩ := hframe
    obtain ⟨h₁, h₂, h₃, h₄, h₅, h₆, h₇⟩ := received_frame hr now id sender frame
    exact ⟨h₁, h₂, h₃, h₄, h₅, fun hnot => h₆ fun h => hnot (.inl h), h₇⟩
  · have hnone : arrivals shell event = [] := by
      cases event with
      | frame now id sender frame => exact absurd ⟨now, id, sender, frame, rfl⟩ hframe
      | _ => rfl
    rw [hnone, List.append_nil]
    by_cases hclear : event = .clear
    · subst hclear
      exact ⟨hr.session, hr.last, hr.gap, hr.decoder, List.nil_suffix, fun hnot => absurd (.inr rfl) hnot,
        Nat.zero_le _, by simp [clearRemoteShellOutput, step]⟩
    · have hview := view_step hstays hclear fun now id sender frame h => hframe ⟨now, id, sender, frame, h⟩
      obtain ⟨h₁, h₂, h₃, h₄, h₅, h₆, h₇⟩ := hr.congr hview
      exact ⟨h₁, h₂, h₃, h₄, h₅, fun hnot => h₆ fun h => hnot (.inl h), h₇⟩

theorem received_run (hr : Received identityId nodeNum sessionId arrived cleared shell) {events : List Event}
    (hstays : Each step Stays shell events) :
    Received identityId nodeNum sessionId (arrived ++ trace step arrivals shell events) (cleared ∨ .clear ∈ events)
      (run step shell events) := by
  induction events generalizing shell arrived cleared with
  | nil => simpa [trace] using hr
  | cons event events ih =>
      have hrest := ih (received_step hr hstays.1) hstays.2
      rw [List.append_assoc, or_assoc] at hrest
      simpa [trace, List.mem_cons, eq_comm] using hrest

end Shell

def frame? : Event → Option (String × ℚ × RemoteShellFrame)
  | .frame _ identityId sender frame => some (identityId, sender, frame)
  | _ => none

-- What a session shows of the frames of a run: its own node's output, nothing twice and nothing late.
structure SessionTranscript (identityId : String) (nodeNum : ℚ) (sessionId : ℕ) (events : List Event)
    (arrived : List RemoteShellFrame) (shell : Shell) : Prop where
  own : (arrived.map fun frame => (identityId, nodeNum, frame)).Sublist (events.filterMap frame?)
  kind : ∀ frame ∈ arrived, frame.op = .output ∧ frame.sessionId = sessionId
  ascend : (0 :: numbers RemoteShellFrame.seq (taken RemoteShellFrame.seq 0 arrived)).Pairwise (· < ·)
  stale : ∀ front frame back, arrived = front ++ frame :: back →
    frame ∈ taken RemoteShellFrame.seq 0 arrived ∨ frame.seq ≤ lastTaken RemoteShellFrame.seq 0 front
  gaps : ∀ first rest, numbers RemoteShellFrame.seq (taken RemoteShellFrame.seq 0 arrived) = first :: rest →
    shell.lastRxSeq = first + rest.length + shell.store.gapCount
  output : shell.store.output <:+ transcript {} (taken RemoteShellFrame.seq 0 arrived)
  whole : .clear ∉ events →
    (transcript {} (taken RemoteShellFrame.seq 0 arrived)).length ≤ REMOTE_SHELL_MAX_OUTPUT_CHARS →
    shell.store.output = transcript {} (taken RemoteShellFrame.seq 0 arrived)
  safe : shell.store.output.length ≤ REMOTE_SHELL_MAX_OUTPUT_CHARS ∧ ∀ u ∈ shell.store.output, isControl u = false

theorem arrivals_own {shell : Shell} {event : Event} {frame : RemoteShellFrame} (h : frame ∈ arrivals shell event) :
    arrivals shell event = [frame] ∧ frame.op = .output ∧ frame.sessionId = shell.store.sessionId ∧
      ∃ identityId nodeNum, shell.store.identityId = some identityId ∧ shell.store.nodeNum = some nodeNum ∧
        frame? event = some (identityId, nodeNum, frame) := by
  cases event with
  | frame now id sender f =>
      rw [arrivals] at h ⊢
      split_ifs at h ⊢ with hown
      · obtain rfl := List.mem_singleton.mp h
        obtain ⟨hown, hop⟩ := hown
        simp only [Shell.isOwn, Bool.and_eq_true, decide_eq_true_eq] at hown
        exact ⟨rfl, hop, hown.2.symm, id, sender, hown.1.1.2, hown.1.2, rfl⟩
      · cases h
  | _ => cases h

theorem arrived_own {identityId : String} {nodeNum : ℚ} {sessionId : ℕ} {arrived : List RemoteShellFrame} {cleared : Prop}
    {shell : Shell} (hr : shell.Received identityId nodeNum sessionId arrived cleared) {events : List Event}
    (hstays : Each step Stays shell events) :
    ((trace step arrivals shell events).map fun frame => (identityId, nodeNum, frame)).Sublist
        (events.filterMap frame?) ∧
      ∀ frame ∈ trace step arrivals shell events, frame.op = .output ∧ frame.sessionId = sessionId := by
  induction events generalizing shell arrived cleared with
  | nil => exact ⟨List.Sublist.refl _, fun frame h => absurd h List.not_mem_nil⟩
  | cons event events ih =>
      obtain ⟨hrest, hkind⟩ := ih (Shell.received_step hr hstays.1) hstays.2
      rw [trace]
      cases hevent : arrivals shell event with
      | nil =>
          rw [List.nil_append]
          refine ⟨hrest.trans ?_, hkind⟩
          exact (List.sublist_cons_self event events).filterMap _
      | cons frame more =>
          obtain ⟨hone, hop, hsession, id, sender, hid, hsender, hframe⟩ := @arrivals_own shell event frame (by simp [hevent])
          rw [hone] at hevent
          obtain ⟨-, rfl⟩ := List.cons.inj hevent.symm
          obtain ⟨hidentity, hnode, hsame⟩ := hr.session
          rw [hidentity, Option.some_inj] at hid
          rw [hnode, Option.some_inj] at hsender
          subst hid hsender
          refine ⟨?_, ?_⟩
          · rw [List.singleton_append, List.map_cons, List.filterMap_cons, hframe]
            exact hrest.cons_cons _
          · intro f hf
            rw [List.singleton_append, List.mem_cons] at hf
            cases hf with
            | inl hf => exact hf ▸ ⟨hop, hsession.trans hsame⟩
            | inr hf => exact hkind f hf

theorem received_opens {shell : Shell} (hidle : shell.live = false) {nodeNum : ℚ} (hnode : nodeNum.den = 1 ∧ 0 < nodeNum)
    (cols rows : ℕ) (identityId : String) (sessionId : ℕ) :
    (step shell (.opens nodeNum cols rows (some identityId) sessionId)).Received identityId nodeNum sessionId [] False := by
  have hradio : ¬(some identityId = none ∨ nodeNum.den ≠ 1 ∨ nodeNum ≤ 0) := by
    rintro (h | h | h)
    · cases h
    · exact h hnode.1
    · exact absurd hnode.2 (not_lt.mpr h)
  rw [step, Shell.openRemoteShell, if_neg (by simp [hidle])]
  dsimp only
  rw [if_neg hradio]
  exact ⟨⟨rfl, rfl, rfl⟩, rfl, rfl, rfl, List.suffix_refl _, fun _ _ => rfl, Nat.zero_le _,
    fun u hu => absurd hu List.not_mem_nil⟩

theorem session_transcript {shell : Shell} (hidle : shell.live = false) {nodeNum : ℚ}
    (hnode : nodeNum.den = 1 ∧ 0 < nodeNum) (cols rows : ℕ) (identityId : String) (sessionId : ℕ) {events : List Event}
    (hstays : Each step Stays (step shell (.opens nodeNum cols rows (some identityId) sessionId)) events) :
    SessionTranscript identityId nodeNum sessionId events
      (trace step arrivals (step shell (.opens nodeNum cols rows (some identityId) sessionId)) events)
      (run step (step shell (.opens nodeNum cols rows (some identityId) sessionId)) events) := by
  have hr := received_opens hidle hnode cols rows identityId sessionId
  obtain ⟨hown, hkind⟩ := arrived_own hr hstays
  obtain ⟨-, hlast, hgap, -, houtput, hwhole, hsafe⟩ := Shell.received_run hr hstays
  rw [List.nil_append] at hlast hgap houtput hwhole
  refine ⟨hown, hkind, numbers_taken_ascend, ?_, ?_, houtput, fun hclear => hwhole (by simpa using hclear),
    hsafe⟩
  · intro front frame back hsplit
    rw [hsplit]
    cases taken_or_stale front back with
    | inl htaken =>
        left
        rw [htaken]
        simp
    | inr hstale => exact .inr hstale
  · intro first rest hnumbers
    rw [hlast, hgap]
    exact count_numbers_zero hnumbers

-- A piece comes twice, one is lost, one is late, and one is another node's.
def lossyAnswer : List Event :=
  [.frame 1000 "mt-id" 5 { op := .openOk, sessionId := 7 },
    .frame 1001 "mt-id" 5 { op := .output, sessionId := 7, seq := 1, payload := [0x68, 0xC3] },
    .frame 1002 "mt-id" 5 { op := .output, sessionId := 7, seq := 1, payload := [0x68, 0xC3] },
    .frame 1003 "mt-id" 6 { op := .output, sessionId := 7, seq := 2, payload := [0x21] },
    .frame 1004 "mt-id" 5 { op := .output, sessionId := 7, seq := 4, payload := [0xA9, 0x0A] },
    .frame 1005 "mt-id" 5 { op := .output, sessionId := 7, seq := 3, payload := [0x3F] }, .close]

theorem lossy_answer_transcript :
    SessionTranscript "mt-id" 5 7 lossyAnswer
      (trace step arrivals (step {} (.opens 5 80 24 (some "mt-id") 7)) lossyAnswer)
      (run step (step {} (.opens 5 80 24 (some "mt-id") 7)) lossyAnswer) :=
  session_transcript rfl (by decide) 80 24 "mt-id" 7 (by decide)

end MeshClient.Meshtastic.RemoteShell
