import MeshClient.Meshcore.TxEchoFilter

namespace MeshClient.Meshcore.TxEcho

open Run

namespace Filter

variable {f : Filter} {now : Nat} {inbound : Frame}

@[simp] theorem heldSyncEcho_afterIsEcho : (f.afterIsEcho now inbound).heldSyncEcho = f.heldSyncEcho := by
  unfold afterIsEcho
  split_ifs <;> rfl

@[simp] theorem holdTimer_afterIsEcho : (f.afterIsEcho now inbound).holdTimer = f.holdTimer := by
  unfold afterIsEcho
  split_ifs <;> rfl

@[simp] theorem pendingSyncNext_afterIsEcho : (f.afterIsEcho now inbound).pendingSyncNext = f.pendingSyncNext := by
  unfold afterIsEcho
  split_ifs <;> rfl

theorem recent_afterIsEcho {sent : Sent} (h : sent ∈ (f.afterIsEcho now inbound).recent) : sent ∈ f.recent := by
  unfold afterIsEcho prune at h
  split_ifs at h
  · exact h
  · exact List.mem_of_mem_filter h

theorem not_lone_of_isEcho (h : f.isEcho now inbound = true) : ¬ isLoneNoMoreMessages inbound := by
  rintro rfl
  simp [isEcho] at h

-- Looking twice for an echo finds the same.
theorem isEcho_afterIsEcho : (f.afterIsEcho now inbound).isEcho now inbound = f.isEcho now inbound := by
  unfold isEcho afterIsEcho prune
  split_ifs
  · rfl
  · rw [List.filter_filter]
    simp

-- What becomes of a frame that comes in, and of the frame that is held.
theorem ingest_echo (h : f.isEcho now inbound = true) : f.ingest now inbound = (.drop, f.afterIsEcho now inbound) := by
  have hlone := not_lone_of_isEcho h
  unfold ingest ingestUnheld
  split_ifs with hheld hpending
  · rfl
  · exact absurd hpending.2 hlone
  · rfl

theorem ingest_other (hlone : ¬ isLoneNoMoreMessages inbound) (hecho : f.isEcho now inbound = false)
    (htimer : f.heldSyncEcho = none → f.holdTimer = none) :
    f.ingest now inbound = (.deliver, (f.afterIsEcho now inbound).clearHold) ∨
      f.ingest now inbound = (.deliver, ((f.afterIsEcho now inbound).clearHold).afterIsEcho now inbound) := by
  have hsecond : ((f.afterIsEcho now inbound).clearHold).isEcho now inbound = false :=
    isEcho_afterIsEcho.trans hecho
  unfold ingest ingestUnheld
  cases hheld : f.heldSyncEcho with
  | none =>
      have hclear : f.clearHold = f := by
        unfold clearHold
        rw [← hheld, ← htimer hheld]
      have hcommute : f.afterIsEcho now inbound = (f.afterIsEcho now inbound).clearHold := by
        conv_lhs => rw [← hclear]
        unfold afterIsEcho
        split_ifs <;> rfl
      left
      simp only [Option.isSome_none, Bool.false_eq_true, if_false, hlone, and_false, hecho]
      rw [← hcommute]
  | some held =>
      simp only [Option.isSome_some, if_true, hecho, Bool.false_eq_true, if_false, hlone, and_false, hsecond]
      split_ifs
      · exact .inl rfl
      · exact .inr rfl

theorem ingest_second (hheld : f.heldSyncEcho.isSome = true) :
    f.ingest now [MC_RESP_NO_MORE_MESSAGES] = (.deliver, { f.clearHold with pendingSyncNext := false }) := by
  unfold ingest
  rw [if_pos hheld]
  rfl

theorem ingest_first (hheld : f.heldSyncEcho = none) (hpending : f.pendingSyncNext = true) :
    f.ingest now [MC_RESP_NO_MORE_MESSAGES] =
      (.hold, { f with heldSyncEcho := some [MC_RESP_NO_MORE_MESSAGES], holdTimer := some (now + SYNC_NEXT_MESSAGE_ECHO_HOLD_MS) }) := by
  unfold ingest ingestUnheld
  rw [if_neg (by simp [hheld]), if_pos ⟨hpending, rfl⟩]

theorem ingest_unasked (hheld : f.heldSyncEcho = none) (hpending : f.pendingSyncNext = false) :
    f.ingest now [MC_RESP_NO_MORE_MESSAGES] = (.deliver, f) := by
  unfold ingest ingestUnheld
  rw [if_neg (by simp [hheld]), if_neg (by simp [hpending])]
  rfl

end Filter

namespace System

variable {s : System} {origin : Origin} {frame : Frame}

-- The held frame is a lone 0x0A with its timer running, and what the filter remembers was sent.
structure Sound (s : System) : Prop where
  held : s.filter.heldSyncEcho = if s.heldFrom.isSome then some [MC_RESP_NO_MORE_MESSAGES] else none
  timer : s.filter.holdTimer.isSome = s.heldFrom.isSome
  recent : ∀ sent ∈ s.filter.recent, sent ∈ s.sent

-- The device's frame that is held and will be passed on when the hold expires.
def heldOwn (s : System) : List Frame := if s.heldFrom = some .device then s.filter.heldSyncEcho.toList else []

-- What is passed on are the device's own frames.
def PassesOwn (s : System) : Prop := s.passed ++ s.heldOwn = s.own

instance : DecidablePred PassesOwn := fun s => inferInstanceAs (Decidable (s.passed ++ s.heldOwn = s.own))

theorem Sound.unheld (h : Sound s) (hheld : s.filter.heldSyncEcho = none) : s.heldFrom = none ∧ s.filter.holdTimer = none := by
  have hfrom : s.heldFrom = none := by
    by_contra hne
    have hsome := h.held
    rw [if_pos (by simpa [Option.isSome_iff_ne_none] using hne), hheld] at hsome
    cases hsome
  refine ⟨hfrom, ?_⟩
  have htimer := h.timer
  rw [hfrom] at htimer
  simpa using htimer

theorem recentlySent_of_isEcho (h : Sound s) (hecho : s.filter.isEcho s.now frame = true) : s.recentlySent frame := by
  refine ⟨Filter.not_lone_of_isEcho hecho, ?_⟩
  unfold Filter.isEcho at hecho
  rw [if_neg (Filter.not_lone_of_isEcho hecho), List.any_eq_true] at hecho
  obtain ⟨sent, hmem, hframe⟩ := hecho
  obtain ⟨hrecent, hfresh⟩ := List.mem_filter.mp hmem
  exact ⟨sent, h.recent sent hrecent, by simpa using hframe, hfresh⟩

-- An arrival after which what is passed on are still the device's own frames: an echo that is
-- recognized, a frame of the device while none of its own is held, the second of an echo and an
-- answer that look alike.
def CleanArrival (s : System) (origin : Origin) (frame : Frame) : Prop :=
  if isLoneNoMoreMessages frame then
    (s.heldFrom = none → s.filter.pendingSyncNext = true ∨ origin = .device) ∧ s.heldFrom ≠ some origin
  else
    s.filter.isEcho s.now frame = true ∨
      origin = .device ∧ ¬ s.recentlySent frame ∧ s.heldFrom ≠ some .device

theorem arrive_echo (h : Sound s) (hecho : s.filter.isEcho s.now frame = true) :
    s.arrive origin frame = { s with filter := s.filter.afterIsEcho s.now frame } := by
  have hrecent := recentlySent_of_isEcho h hecho
  simp [arrive, Filter.ingest_echo hecho, hrecent]

theorem Sound.afterIsEcho (h : Sound s) : ∀ sent ∈ (s.filter.afterIsEcho s.now frame).recent, sent ∈ s.sent :=
  fun sent hsent => h.recent sent (Filter.recent_afterIsEcho hsent)

theorem ingest_deliver (h : Sound s) (hlone : ¬ isLoneNoMoreMessages frame) (hecho : s.filter.isEcho s.now frame = false) :
    ∃ f, s.filter.ingest s.now frame = (.deliver, f) ∧ f.heldSyncEcho = none ∧ f.holdTimer = none ∧
      ∀ sent ∈ f.recent, sent ∈ s.sent := by
  rcases Filter.ingest_other hlone hecho (fun hheld => (h.unheld hheld).2) with heq | heq
  · exact ⟨_, heq, rfl, rfl, h.afterIsEcho⟩
  · refine ⟨_, heq, by simp [Filter.clearHold], by simp [Filter.clearHold], ?_⟩
    intro sent hsent
    exact h.afterIsEcho sent (Filter.recent_afterIsEcho (f := (s.filter.afterIsEcho s.now frame).clearHold) hsent)

theorem sound_arrive (h : Sound s) (origin : Origin) (frame : Frame) : Sound (s.arrive origin frame) := by
  cases hecho : s.filter.isEcho s.now frame with
  | true =>
      rw [arrive_echo h hecho]
      exact ⟨by simpa using h.held, by simpa using h.timer, h.afterIsEcho⟩
  | false =>
      by_cases hlone : isLoneNoMoreMessages frame
      · subst hlone
        cases hheld : s.filter.heldSyncEcho with
        | some held =>
            have heq := @Filter.ingest_second s.filter s.now (by simp [hheld])
            simp only [arrive, heq]
            exact ⟨rfl, rfl, h.recent⟩
        | none =>
            obtain ⟨hfrom, htimer⟩ := h.unheld hheld
            cases hpending : s.filter.pendingSyncNext with
            | true =>
                simp only [arrive, Filter.ingest_first hheld hpending]
                exact ⟨rfl, rfl, h.recent⟩
            | false =>
                simp only [arrive, Filter.ingest_unasked hheld hpending]
                exact ⟨by simpa using hheld, by simpa using htimer, h.recent⟩
      · obtain ⟨f, heq, hheld, htimer, hrecent⟩ := ingest_deliver h hlone hecho
        simp only [arrive, heq]
        exact ⟨by simpa using hheld, by simpa using htimer, hrecent⟩

theorem heldOwn_eq (h : Sound s) :
    s.heldOwn = if s.heldFrom = some .device then [[MC_RESP_NO_MORE_MESSAGES]] else [] := by
  unfold heldOwn
  split_ifs with hfrom
  · rw [h.held, hfrom]
    rfl
  · rfl

theorem passesOwn_of_deliver (hp : PassesOwn s) {f : Filter} (heq : s.filter.ingest s.now frame = (.deliver, f)) :
    PassesOwn (s.arrive origin frame) ↔
      [frame] = s.heldOwn ++ if origin = .device ∧ ¬ s.recentlySent frame then [frame] else [] := by
  unfold PassesOwn at hp ⊢
  have hheld : (s.arrive origin frame).heldOwn = [] := by simp [heldOwn, arrive, heq]
  rw [hheld, List.append_nil]
  simp only [arrive, heq, if_true]
  rw [← hp]
  split_ifs
  · rw [List.append_assoc, List.append_right_inj]
  · rw [List.append_right_inj, List.append_nil]

theorem passesOwn_arrive (h : Sound s) (hp : PassesOwn s) (origin : Origin) (frame : Frame) :
    PassesOwn (s.arrive origin frame) ↔ CleanArrival s origin frame := by
  have hown := heldOwn_eq h
  cases hecho : s.filter.isEcho s.now frame with
  | true =>
      refine iff_of_true ?_ ?_
      · rw [arrive_echo h hecho]
        simpa [PassesOwn, heldOwn] using hp
      · rw [CleanArrival, if_neg (Filter.not_lone_of_isEcho hecho)]
        exact .inl hecho
  | false =>
      by_cases hlone : isLoneNoMoreMessages frame
      · subst hlone
        have hrecent : ¬ s.recentlySent [MC_RESP_NO_MORE_MESSAGES] := fun hcon => hcon.1 rfl
        rw [CleanArrival, if_pos rfl]
        cases hheld : s.filter.heldSyncEcho with
        | some held =>
            have hfrom : s.heldFrom ≠ none := by
              intro hnone
              have hcon := h.held
              rw [hnone, hheld] at hcon
              cases hcon
            rw [passesOwn_of_deliver hp (Filter.ingest_second (by simp [hheld])), hown]
            rcases hfrom' : s.heldFrom with _ | ⟨_ | _⟩
            · exact absurd hfrom' hfrom
            · cases origin <;> simp [hrecent]
            · cases origin <;> simp [hrecent]
        | none =>
            obtain ⟨hfrom, -⟩ := h.unheld hheld
            cases hpending : s.filter.pendingSyncNext with
            | true =>
                refine iff_of_true ?_ ⟨fun _ => .inl rfl, by simp [hfrom]⟩
                have hempty : s.heldOwn = [] := by simp [hown, hfrom]
                rw [PassesOwn, hempty, List.append_nil] at hp
                cases origin <;> simp [PassesOwn, heldOwn, arrive, Filter.ingest_first hheld hpending, hrecent, hp]
            | false =>
                rw [passesOwn_of_deliver hp (Filter.ingest_unasked hheld hpending), hown]
                cases origin <;> simp [hfrom, hrecent]
      · obtain ⟨f, heq, -⟩ := ingest_deliver h hlone hecho
        rw [passesOwn_of_deliver hp heq, hown, CleanArrival, if_neg hlone]
        by_cases hfrom : s.heldFrom = some .device
        · apply iff_of_false
          · rw [if_pos hfrom]
            intro hcon
            exact hlone (List.cons.inj hcon).1
          · simp [hecho, hfrom]
        · by_cases hc : origin = .device ∧ ¬ s.recentlySent frame
          · simp [hfrom, hc, hecho]
          · rw [if_neg hfrom, if_neg hc]
            apply iff_of_false (by simp)
            rintro (hcon | ⟨hdevice, hrecent, -⟩)
            · simp [hecho] at hcon
            · exact hc ⟨hdevice, hrecent⟩

-- A step after which what is passed on are still the device's own frames.
def Clean (s : System) : Event → Prop
  | .echo => ∀ frame ∈ s.inFlight.head?, CleanArrival s .echo frame
  | .answer frame => s.due ≠ 0 → CleanArrival s .device frame
  | .other frame => ¬ isLoneNoMoreMessages frame → CleanArrival s .device frame
  | .holdExpires => s.holdDue = true → s.heldFrom = some .device
  | _ => True

theorem sound_congr {t : System} (hfilter : t.filter = s.filter) (hfrom : t.heldFrom = s.heldFrom) (hsent : t.sent = s.sent)
    (h : Sound s) : Sound t :=
  ⟨by rw [hfilter, hfrom, h.held], by rw [hfilter, hfrom, h.timer], by rw [hfilter, hsent]; exact h.recent⟩

theorem passesOwn_congr {t : System} (hfilter : t.filter.heldSyncEcho = s.filter.heldSyncEcho)
    (hfrom : t.heldFrom = s.heldFrom) (hpassed : t.passed = s.passed) (hown : t.own = s.own) :
    PassesOwn t ↔ PassesOwn s := by
  rw [PassesOwn, PassesOwn, heldOwn, heldOwn, hfilter, hfrom, hpassed, hown]

@[simp] theorem filter_received : (s.received frame).filter = s.filter := by
  unfold received
  split_ifs <;> rfl

@[simp] theorem heldFrom_received : (s.received frame).heldFrom = s.heldFrom := by
  unfold received
  split_ifs <;> rfl

@[simp] theorem sent_received : (s.received frame).sent = s.sent := by
  unfold received
  split_ifs <;> rfl

@[simp] theorem passed_received : (s.received frame).passed = s.passed := by
  unfold received
  split_ifs <;> rfl

@[simp] theorem own_received : (s.received frame).own = s.own := by
  unfold received
  split_ifs <;> rfl

-- A frame that is sent is remembered, and nothing is passed on.
theorem send_spec (s : System) (frame : Frame) :
    (s.send frame).filter = s.filter.noteOutbound s.now frame ∧ (s.send frame).heldFrom = s.heldFrom ∧
      (s.send frame).sent = s.sent ++ [⟨frame, s.now⟩] ∧ (s.send frame).passed = s.passed ∧
      (s.send frame).own = s.own := by
  unfold send
  cases s.echoes <;> simp

theorem recent_noteOutbound {f : Filter} {now : Nat} {sent : Sent} (h : sent ∈ (f.noteOutbound now frame).recent) :
    sent ∈ f.recent ∨ sent = ⟨frame, now⟩ := by
  have hmem : sent ∈ (f.prune now).recent ++ [⟨frame, now⟩] := by
    unfold Filter.noteOutbound at h
    dsimp only at h
    split_ifs at h
    · exact List.mem_of_mem_drop h
    · exact h
  rcases List.mem_append.mp hmem with hold | hnew
  · exact .inl (List.mem_of_mem_filter hold)
  · exact .inr (List.mem_singleton.mp hnew)

theorem sound_step (h : Sound s) (e : Event) : Sound (s.step e) := by
  cases e with
  | wait ms => exact ⟨h.held, h.timer, h.recent⟩
  | send frame =>
      obtain ⟨hfilter, hfrom, hsent, -⟩ := send_spec s frame
      refine ⟨?_, ?_, ?_⟩
      · rw [step, hfilter, hfrom]
        exact h.held
      · rw [step, hfilter, hfrom]
        exact h.timer
      · rw [step, hfilter, hsent]
        intro sent hmem
        rw [List.mem_append, List.mem_singleton]
        exact (recent_noteOutbound hmem).imp_left (h.recent sent)
  | echo =>
      show Sound s.echo
      unfold echo
      cases s.inFlight with
      | nil => exact h
      | cons frame rest => exact @sound_congr (s.arrive .echo frame) _ filter_received heldFrom_received sent_received (sound_arrive h .echo frame)
  | answer frame =>
      show Sound (s.answer frame)
      unfold answer
      split_ifs
      · exact h
      · exact @sound_congr (s.arrive .device frame) _ rfl rfl rfl (sound_arrive h .device frame)
  | other frame =>
      show Sound (s.other frame)
      unfold other
      split_ifs
      · exact h
      · exact sound_arrive h .device frame
  | holdExpires =>
      show Sound s.holdExpires
      unfold holdExpires
      split_ifs
      · exact ⟨rfl, rfl, h.recent⟩
      · exact h

theorem passesOwn_step (h : Sound s) (hp : PassesOwn s) (e : Event) : PassesOwn (s.step e) ↔ Clean s e := by
  cases e with
  | wait ms => exact iff_of_true ((passesOwn_congr rfl rfl rfl rfl).mpr hp) trivial
  | send frame =>
      obtain ⟨hfilter, hfrom, -, hpassed, hown⟩ := send_spec s frame
      have hheld : (s.send frame).filter.heldSyncEcho = s.filter.heldSyncEcho := by
        rw [hfilter]
        rfl
      exact iff_of_true ((passesOwn_congr hheld hfrom hpassed hown).mpr hp) trivial
  | echo =>
      show PassesOwn s.echo ↔ ∀ frame ∈ s.inFlight.head?, CleanArrival s .echo frame
      unfold echo
      cases s.inFlight with
      | nil => exact iff_of_true hp (by simp)
      | cons frame rest =>
          have hcongr := @passesOwn_congr (s.arrive .echo frame)
            { (s.arrive .echo frame).received frame with inFlight := rest } (by simp) (by simp) (by simp) (by simp)
          refine hcongr.trans ((passesOwn_arrive h hp .echo frame).trans ?_)
          simp
  | answer frame =>
      show PassesOwn (s.answer frame) ↔ (s.due ≠ 0 → CleanArrival s .device frame)
      unfold answer
      split_ifs with hdue
      · exact iff_of_true hp fun hne => absurd hdue hne
      · have hcongr := @passesOwn_congr (s.arrive .device frame)
          { s.arrive .device frame with due := s.due - 1 } rfl rfl rfl rfl
        refine hcongr.trans ((passesOwn_arrive h hp .device frame).trans ?_)
        exact ⟨fun hc _ => hc, fun hc => hc hdue⟩
  | other frame =>
      show PassesOwn (s.other frame) ↔ (¬ isLoneNoMoreMessages frame → CleanArrival s .device frame)
      unfold other
      split_ifs with hlone
      · exact iff_of_true hp fun hne => absurd hlone hne
      · rw [passesOwn_arrive h hp]
        exact ⟨fun hc _ => hc, fun hc => hc hlone⟩
  | holdExpires =>
      show PassesOwn s.holdExpires ↔ (s.holdDue = true → s.heldFrom = some .device)
      unfold holdExpires
      split_ifs with hdue
      · have hfrom : s.heldFrom.isSome = true := by
          rw [← h.timer]
          obtain ⟨deadline, hdeadline, -⟩ := (Option.any_eq_true _ _).mp hdue
          simp [hdeadline]
        obtain ⟨origin, horigin⟩ := Option.isSome_iff_exists.mp hfrom
        have hheld := h.held
        have hown := heldOwn_eq h
        unfold PassesOwn at hp ⊢
        rw [← hp, hown, hheld, horigin]
        cases origin <;> simp [heldOwn, hdue]
      · exact iff_of_true hp fun hcon => absurd hcon hdue

theorem visits_passesOwn_iff (h : Sound s) (hp : PassesOwn s) (events : List Event) :
    Visits step PassesOwn s events ↔ Each step Clean s events := by
  induction events generalizing s with
  | nil => exact iff_of_true hp trivial
  | cons e rest ih =>
      have hstep := passesOwn_step h hp e
      constructor
      · rintro ⟨-, hrest⟩
        have hnext := hrest.start
        exact ⟨hstep.mp hnext, (ih (sound_step h e) hnext).mp hrest⟩
      · rintro ⟨hclean, hrest⟩
        have hnext := hstep.mpr hclean
        exact ⟨hp, (ih (sound_step h e) hnext).mpr hrest⟩

-- The filter passes on exactly the device's own frames in the runs whose steps are clean.
theorem passes_own_iff (echoes : Bool) (events : List Event) :
    Visits step PassesOwn { echoes } events ↔ Each step Clean { echoes } events :=
  visits_passesOwn_iff ⟨rfl, rfl, by simp⟩ (by simp [PassesOwn, heldOwn]) events

-- On a transport that echoes nothing, a push comes while the answer to a SyncNextMessage is
-- held: the answer is taken for an echo.
def pushAfterAnswer : List Event := [.send [0x0A], .answer [0x0A], .wait 20, .other [0x83, 0x00]]

theorem push_swallows_answer : ¬ Visits step PassesOwn { echoes := false } pushAfterAnswer := by
  decide

end System

end MeshClient.Meshcore.TxEcho
