import MeshClient.Reconnect.Controller

namespace MeshClient.Reconnect

open Run Trace RfReconnectController

namespace System

-- In a cycle at most one owner run is outstanding, and none during an attempt.
structure Consistent (s : System) : Prop where
  active : s.controller.attemptActive = true →
    s.controller.isReconnecting = true ∧ s.kicks = 0 ∧ s.tasks = 0 ∧ 0 < s.started
  pending : s.controller.schedulePending = true → 0 < s.tasks
  outstanding : s.controller.isReconnecting = true → s.kicks + s.tasks ≤ 1

variable {s : System} {e : Event}

theorem consistent_start : Consistent {} := ⟨by simp, by simp, by simp⟩

theorem linkLost_first (h : s.controller.isReconnecting = false) :
    s.step .linkLost = { s with
      controller := { s.controller with
        generation := s.controller.generation + 1, isReconnecting := true, dirty := false }
      kicks := s.kicks + 1 } := by
  simp [step, onLinkLost, h]

theorem linkLost_again (h : s.controller.isReconnecting = true) :
    s.step .linkLost = { s with
      controller := { s.controller with generation := s.controller.generation + 1, dirty := true } } := by
  simp [step, onLinkLost, h]

theorem task_starts (n : Nat) (htasks : s.tasks ≠ 0) (h : s.controller.isReconnecting = true)
    (hactive : s.controller.attemptActive = false) :
    s.step (.task n) = { s with
      controller := { s.controller with
        schedulePending := false, attempt := n, attemptActive := true, phase := .backoff }
      tasks := s.tasks - 1
      unsettled := s.started :: s.unsettled
      started := s.started + 1 } := by
  simp [step, ownerTask, beginAttempt, htasks, h, hactive]

theorem task_idle (n : Nat) (htasks : s.tasks ≠ 0) (h : s.controller.isReconnecting = false) :
    s.step (.task n) = { s with
      controller := { s.controller with schedulePending := false }, tasks := s.tasks - 1 } := by
  simp [step, ownerTask, htasks, h]

theorem task_none (n : Nat) (htasks : s.tasks = 0) : s.step (.task n) = s := by simp [step, htasks]

theorem schedule_none (h : s.kicks = 0) : s.step .schedule = s := by simp [step, h]

theorem schedule_coalesced (hkicks : s.kicks ≠ 0) (h : s.controller.schedulePending = true) :
    s.step .schedule = { s with kicks := s.kicks - 1 } := by
  simp [step, scheduleOwner, hkicks, h]

theorem schedule_queues (hkicks : s.kicks ≠ 0) (h : s.controller.schedulePending = false) :
    s.step .schedule = { s with
      controller := { s.controller with schedulePending := true }
      kicks := s.kicks - 1
      tasks := s.tasks + 1 } := by
  simp [step, scheduleOwner, hkicks, h]

-- An attempt that settles while the cycle goes on.
theorem settle_keeps {i : Nat} {keep : Option Bool} (hi : i ∈ s.unsettled) (h : s.controller.isReconnecting = true)
    (hkeep : keep = none ∨ keep = some s.controller.isReconnecting) :
    s.step (.settle i keep) = { s with
      controller := { s.controller with attemptActive := false, phase := .idle, dirty := false }
      unsettled := s.unsettled.erase i
      kicks := s.kicks + s.controller.dirty.toNat } := by
  have hgetD : keep.getD s.controller.isReconnecting = true := by
    rcases hkeep with rfl | rfl
    · exact h
    · exact h
  cases hdirty : s.controller.dirty with
  | true => simp [step, endAttempt, hi, hgetD, hdirty]
  | false => simp [step, endAttempt, hi, hgetD, hdirty]

-- An attempt that settles when the cycle is over.
theorem settle_idle {i : Nat} {keep : Option Bool} (hi : i ∈ s.unsettled) (h : s.controller.isReconnecting = false)
    (hkeep : keep = none ∨ keep = some s.controller.isReconnecting) :
    s.step (.settle i keep) = { s with
      controller := { s.controller with attemptActive := false, phase := .idle, dirty := false }
      unsettled := s.unsettled.erase i } := by
  have hgetD : keep.getD s.controller.isReconnecting = false := by
    rcases hkeep with rfl | rfl
    · exact h
    · exact h
  simp only [step, endAttempt, if_pos hi, hgetD]
  simp [← h]

theorem settle_none {i : Nat} {keep : Option Bool} (hi : i ∉ s.unsettled) : s.step (.settle i keep) = s := by
  simp [step, hi]

theorem consistent_step (ho : s.Orderly e) (h : Consistent s) : Consistent (s.step e) := by
  cases e with
  | linkLost =>
      cases hrec : s.controller.isReconnecting with
      | false =>
          obtain ⟨hkicks, htasks, -⟩ := ho hrec
          rw [linkLost_first hrec]
          refine ⟨?_, h.pending, fun _ => by simp [hkicks, htasks]⟩
          intro hactive
          rw [(h.active hactive).1] at hrec
          cases hrec
      | true =>
          rw [linkLost_again hrec]
          exact ⟨h.active, h.pending, h.outstanding⟩
  | schedule =>
      by_cases hkicks : s.kicks = 0
      · rw [schedule_none hkicks]
        exact h
      · have hactive : s.controller.attemptActive = true → False := fun hactive => hkicks (h.active hactive).2.1
        cases hpending : s.controller.schedulePending with
        | true =>
            rw [schedule_coalesced hkicks hpending]
            refine ⟨fun hcon => (hactive hcon).elim, h.pending, ?_⟩
            intro hrec
            have := h.outstanding hrec
            dsimp only
            omega
        | false =>
            rw [schedule_queues hkicks hpending]
            refine ⟨fun hcon => (hactive hcon).elim, by simp, ?_⟩
            intro hrec
            have := h.outstanding hrec
            dsimp only
            omega
  | task n =>
      by_cases htasks : s.tasks = 0
      · rw [task_none n htasks]
        exact h
      · cases hrec : s.controller.isReconnecting with
        | false =>
            rw [task_idle n htasks hrec]
            refine ⟨?_, by simp, ?_⟩
            · intro hactive
              rw [(h.active hactive).1] at hrec
              cases hrec
            · intro hcon
              rw [hrec] at hcon
              cases hcon
        | true =>
            have hactive : s.controller.attemptActive = false := by
              by_contra hcon
              exact htasks (h.active (by simpa using hcon)).2.2.1
            have hone := h.outstanding hrec
            rw [task_starts n htasks hrec hactive]
            refine ⟨fun _ => ⟨hrec, ?_, ?_, by simp⟩, by simp, fun _ => ?_⟩
            all_goals
              dsimp only
              omega
  | opening => exact ⟨h.active, h.pending, h.outstanding⟩
  | settle i keep =>
      by_cases hi : i ∈ s.unsettled
      · cases hrec : s.controller.isReconnecting with
        | false =>
            rw [settle_idle hi hrec ho.1]
            refine ⟨by simp, h.pending, ?_⟩
            intro hcon
            rw [hrec] at hcon
            cases hcon
        | true =>
            rw [settle_keeps hi hrec ho.1]
            refine ⟨by simp, h.pending, fun _ => ?_⟩
            have hone := h.outstanding hrec
            rcases ho.2 with ⟨hactive, -⟩ | ⟨-, hdirty⟩
            · obtain ⟨-, hkicks, htasks, -⟩ := h.active hactive
              have := Bool.toNat_le s.controller.dirty
              dsimp only
              omega
            · simpa [hdirty hrec] using hone
      · rw [settle_none hi]
        exact h
  | cancel => exact ⟨by simp [step, cancel], by simp [step, cancel], by simp [step, cancel]⟩
  | markSuccess => exact ⟨by simp [step, markSuccess], h.pending, by simp [step, markSuccess]⟩
  | markExhausted => exact ⟨by simp [step, markExhausted], h.pending, by simp [step, markExhausted]⟩
  | markDirty => exact ⟨h.active, h.pending, h.outstanding⟩

theorem consistent_run {events : List Event} (h : Each step Orderly s events) (hs : Consistent s) :
    Consistent (run step s events) :=
  invariant_of_each (fun _ _ ho hc => consistent_step ho hc) h hs

-- A mark tells which call was made, and in what state.
theorem of_started {i : Nat} (h : Mark.started i ∈ s.marks e) :
    ∃ n, e = .task n ∧ i = s.started ∧ s.tasks ≠ 0 ∧ s.controller.isReconnecting = true ∧
      s.controller.attemptActive = false := by
  cases e with
  | task n =>
      simp only [marks] at h
      split_ifs at h with hstarts
      · simp only [List.mem_singleton, Mark.started.injEq] at h
        refine ⟨n, rfl, h, hstarts.1, ?_⟩
        have hruns := hstarts.2
        unfold ownerTask at hruns
        cases hrec : s.controller.isReconnecting <;> cases hactive : s.controller.attemptActive <;>
          simp_all
      · simp at h
  | settle j keep =>
      simp only [marks] at h
      split_ifs at h <;> simp at h
  | _ => simp [marks] at h

theorem of_settled {i : Nat} (h : Mark.settled i ∈ s.marks e) : ∃ keep, e = .settle i keep ∧ i ∈ s.unsettled := by
  cases e with
  | settle j keep =>
      simp only [marks] at h
      split_ifs at h with hj
      · simp only [List.mem_singleton, Mark.settled.injEq] at h
        subst h
        exact ⟨keep, rfl, hj⟩
      · simp at h
  | task n =>
      simp only [marks] at h
      split_ifs at h <;> simp at h
  | _ => simp [marks] at h

theorem of_lost {active : Option Nat} (h : Mark.lost active ∈ s.marks e) :
    e = .linkLost ∧ active = if s.controller.attemptActive then some (s.started - 1) else none := by
  cases e with
  | linkLost =>
      simp only [marks, List.mem_singleton, Mark.lost.injEq] at h
      exact ⟨rfl, h⟩
  | task n =>
      simp only [marks] at h
      split_ifs at h <;> simp at h
  | settle j keep =>
      simp only [marks] at h
      split_ifs at h <;> simp at h
  | _ => simp [marks] at h

theorem settled_mem {i : Nat} {keep : Option Bool} (hi : i ∈ s.unsettled) :
    Mark.settled i ∈ s.marks (.settle i keep) := by
  simp [marks, hi]

-- After its start an attempt is the active one until the cycle ends; and no cycle begins before
-- it settles, unless it is cancelled.
structure Held (i : Nat) (s : System) : Prop where
  unsettled : i ∈ s.unsettled
  since : s.cancelMark ≤ i
  current : s.controller.attemptActive = true ∧ i + 1 = s.started ∨
    s.controller.attemptActive = false ∧ s.controller.isReconnecting = false

def Ends (i : Nat) (m : Mark) : Prop := m = .settled i ∨ m = .cancelled

theorem held_step {i : Nat} (ho : s.Orderly e) (hc : Consistent s) (h : Held i s)
    (hmarks : ∀ m ∈ s.marks e, ¬ Ends i m) : Held i (s.step e) := by
  cases e with
  | linkLost =>
      cases hrec : s.controller.isReconnecting with
      | false =>
          have hlt := (ho hrec).2.2 i h.unsettled
          have := h.since
          omega
      | true =>
          rw [linkLost_again hrec]
          refine ⟨h.unsettled, h.since, ?_⟩
          rcases h.current with hactive | ⟨-, hidle⟩
          · exact .inl hactive
          · rw [hrec] at hidle
            cases hidle
  | schedule =>
      by_cases hkicks : s.kicks = 0
      · rw [schedule_none hkicks]
        exact h
      · cases hpending : s.controller.schedulePending with
        | true =>
            rw [schedule_coalesced hkicks hpending]
            exact ⟨h.unsettled, h.since, h.current⟩
        | false =>
            rw [schedule_queues hkicks hpending]
            exact ⟨h.unsettled, h.since, h.current⟩
  | task n =>
      by_cases htasks : s.tasks = 0
      · rw [task_none n htasks]
        exact h
      · rcases h.current with ⟨hactive, -⟩ | ⟨hactive, hidle⟩
        · exact absurd (hc.active hactive).2.2.1 htasks
        · rw [task_idle n htasks hidle]
          exact ⟨h.unsettled, h.since, .inr ⟨hactive, hidle⟩⟩
  | opening => exact ⟨h.unsettled, h.since, h.current⟩
  | settle k keep =>
      by_cases hk : k ∈ s.unsettled
      · have hne : i ≠ k := by
          rintro rfl
          exact hmarks _ (settled_mem hk) (.inl rfl)
        have hmem : i ∈ s.unsettled.erase k := (List.mem_erase_of_ne hne).mpr h.unsettled
        rcases h.current with ⟨hactive, hlatest⟩ | ⟨hactive, hidle⟩
        · rcases ho.2 with ⟨-, hk'⟩ | ⟨hfalse, -⟩
          · omega
          · rw [hactive] at hfalse
            cases hfalse
        · rw [settle_idle hk hidle ho.1]
          exact ⟨hmem, h.since, .inr ⟨rfl, hidle⟩⟩
      · rw [settle_none hk]
        exact h
  | cancel => exact absurd (.inr rfl) (hmarks .cancelled (by simp [marks]))
  | markSuccess => exact ⟨h.unsettled, h.since, .inr ⟨rfl, rfl⟩⟩
  | markExhausted => exact ⟨h.unsettled, h.since, .inr ⟨rfl, rfl⟩⟩
  | markDirty => exact ⟨h.unsettled, h.since, h.current⟩

theorem held_of_start {n : Nat} (hmark : s.cancelMark ≤ s.started) (htasks : s.tasks ≠ 0)
    (hrec : s.controller.isReconnecting = true) (hactive : s.controller.attemptActive = false) :
    Held s.started (s.step (.task n)) := by
  rw [task_starts n htasks hrec hactive]
  exact ⟨List.mem_cons_self, hmark, .inl ⟨rfl, rfl⟩⟩

theorem cancelMark_step (h : s.cancelMark ≤ s.started) : (s.step e).cancelMark ≤ (s.step e).started := by
  cases e with
  | task n =>
      simp only [step]
      split_ifs
      · exact h
      · exact Nat.le_succ_of_le h
      · exact h
  | schedule =>
      simp only [step]
      split_ifs <;> exact h
  | settle i keep =>
      simp only [step]
      split_ifs <;> exact h
  | cancel => exact le_refl _
  | _ => exact h

theorem marks_length (s : System) (e : Event) : (s.marks e).length ≤ 1 := by
  cases e with
  | task n =>
      simp only [marks]
      split_ifs <;> simp
  | settle i keep =>
      simp only [marks]
      split_ifs <;> simp
  | _ => simp [marks]

-- Consistent, and no attempt to come is older than the last cancel.
theorem orderly_run {events : List Event} (h : Each step Orderly {} events) :
    Consistent (run step {} events) ∧ (run step {} events).cancelMark ≤ (run step {} events).started :=
  ⟨consistent_run h consistent_start,
    @invariant_run _ _ step (fun s => s.cancelMark ≤ s.started) (fun _ _ => cancelMark_step) {} (le_refl 0) events⟩

theorem held_run {i : Nat} {events : List Event} (h : Each step Orderly s events) (hc : Consistent s) (hs : Held i s)
    (hmarks : ∀ m ∈ trace step marks s events, ¬ Ends i m) : Held i (run step s events) := by
  have hboth := @kept _ _ _ step marks (fun t => Consistent t ∧ Held i t) Orderly (Ends i)
    (fun t e ho ht hm => ⟨consistent_step ho ht.1, held_step ho ht.1 ht.2 hm⟩) s events h ⟨hc, hs⟩ hmarks
  exact hboth.2

def traceOf (events : List Event) : List Mark := trace step marks {} events

-- Until an attempt settles, another one starts only after a cancel.
def ApartSinceCancel (t : List Mark) : Prop :=
  ∀ pre i mid j post, t = pre ++ .started i :: (mid ++ .started j :: post) → .settled i ∉ mid → .cancelled ∈ mid

def SingleFlight (t : List Mark) : Prop :=
  ∀ pre i mid j post, t = pre ++ .started i :: (mid ++ .started j :: post) → .settled i ∉ mid →
    .cancelled ∈ mid ∨ .succeeded ∈ mid

theorem apartSinceCancel {events : List Event} (h : Each step Orderly {} events) :
    ApartSinceCancel (traceOf events) := by
  intro pre i mid j post ht hsettled
  by_contra hcancelled
  obtain ⟨front, first, rest, rfl, hfirst, -, hrest⟩ := exists_single_step marks_length ht
  obtain ⟨middle, second, back, rfl, hsecond, hmid, -⟩ := exists_single_step marks_length hrest.symm
  obtain ⟨n, rfl, rfl, htasks, hrec, hactive⟩ := of_started hfirst
  rw [each_append] at h
  obtain ⟨hfront, ho, hmiddle⟩ := h
  rw [each_append] at hmiddle
  obtain ⟨hc, hmark⟩ := orderly_run hfront
  have hheld := held_run hmiddle.1 (consistent_step ho hc) (held_of_start hmark htasks hrec hactive) (by
    rw [← hmid]
    rintro m hm (rfl | rfl)
    · exact hsettled hm
    · exact hcancelled hm)
  obtain ⟨k, -, -, -, hrec', hactive'⟩ := of_started hsecond
  rcases hheld.current with hcurrent | hcurrent
  · rw [hactive'] at hcurrent
    cases hcurrent.1
  · rw [hrec'] at hcurrent
    cases hcurrent.2

def Resets (m : Mark) : Prop := m = .cancelled ∨ m = .succeeded ∨ m = .exhausted

-- A call that may ask for one more attempt.
def Asks (m : Mark) : Prop := (∃ active, m = .lost active) ∨ m = .dirtied

-- The active attempt has lost the link.
structure Owing (i : Nat) (s : System) : Prop where
  active : s.controller.attemptActive = true
  latest : i + 1 = s.started
  dirty : s.controller.dirty = true

theorem owing_step {i : Nat} (ho : s.Orderly e) (hc : Consistent s) (h : Owing i s)
    (hmarks : ∀ m ∈ s.marks e, ¬ (m = .settled i ∨ Resets m)) : Owing i (s.step e) := by
  obtain ⟨hrec, hkicks, htasks, -⟩ := hc.active h.active
  cases e with
  | linkLost =>
      rw [linkLost_again hrec]
      exact ⟨h.active, h.latest, rfl⟩
  | schedule =>
      rw [schedule_none hkicks]
      exact h
  | task n =>
      rw [task_none n htasks]
      exact h
  | opening => exact ⟨h.active, h.latest, h.dirty⟩
  | settle k keep =>
      by_cases hk : k ∈ s.unsettled
      · rcases ho.2 with ⟨-, hk'⟩ | ⟨hfalse, -⟩
        · have hik : k = i := by
            have := h.latest
            omega
          subst hik
          exact absurd (.inl rfl) (hmarks _ (settled_mem hk))
        · rw [h.active] at hfalse
          cases hfalse
      · rw [settle_none hk]
        exact h
  | cancel => exact absurd (.inr (.inl rfl)) (hmarks .cancelled (by simp [marks]))
  | markSuccess => exact absurd (.inr (.inr (.inl rfl))) (hmarks .succeeded (by simp [marks]))
  | markExhausted => exact absurd (.inr (.inr (.inr rfl))) (hmarks .exhausted (by simp [marks]))
  | markDirty => exact ⟨h.active, h.latest, rfl⟩

-- The cycle waits for one owner run.
structure Waiting (s : System) : Prop where
  reconnecting : s.controller.isReconnecting = true
  inactive : s.controller.attemptActive = false
  one : s.kicks + s.tasks = 1

def Moves (m : Mark) : Prop := Resets m ∨ ∃ j, m = .started j

theorem task_mem {n : Nat} (htasks : s.tasks ≠ 0) (h : s.controller.isReconnecting = true)
    (hactive : s.controller.attemptActive = false) : Mark.started s.started ∈ s.marks (.task n) := by
  simp [marks, htasks, ownerTask, h, hactive]

theorem waiting_step (ho : s.Orderly e) (hc : Consistent s) (h : Waiting s)
    (hmarks : ∀ m ∈ s.marks e, ¬ Moves m) :
    Waiting (s.step e) ∧ (s.controller.dirty = false → (∀ m ∈ s.marks e, ¬ Asks m) → (s.step e).controller.dirty = false) := by
  have hone := h.one
  cases e with
  | linkLost =>
      rw [linkLost_again h.reconnecting]
      refine ⟨⟨h.reconnecting, h.inactive, h.one⟩, ?_⟩
      intro _ hasks
      exact absurd (.inl ⟨_, rfl⟩) (hasks _ List.mem_cons_self)
  | schedule =>
      by_cases hkicks : s.kicks = 0
      · rw [schedule_none hkicks]
        exact ⟨h, fun hdirty _ => hdirty⟩
      · cases hpending : s.controller.schedulePending with
        | true =>
            have := hc.pending hpending
            omega
        | false =>
            rw [schedule_queues hkicks hpending]
            refine ⟨⟨h.reconnecting, h.inactive, ?_⟩, fun hdirty _ => hdirty⟩
            dsimp only
            omega
  | task n =>
      by_cases htasks : s.tasks = 0
      · rw [task_none n htasks]
        exact ⟨h, fun hdirty _ => hdirty⟩
      · exact absurd (.inr ⟨_, rfl⟩) (hmarks _ (task_mem htasks h.reconnecting h.inactive))
  | opening => exact ⟨⟨h.reconnecting, h.inactive, h.one⟩, fun hdirty _ => hdirty⟩
  | settle k keep =>
      by_cases hk : k ∈ s.unsettled
      · rcases ho.2 with ⟨hactive, -⟩ | ⟨-, hdirty⟩
        · rw [h.inactive] at hactive
          cases hactive
        · rw [settle_keeps hk h.reconnecting ho.1]
          refine ⟨⟨h.reconnecting, rfl, ?_⟩, fun _ _ => rfl⟩
          simpa [hdirty h.reconnecting] using h.one
      · rw [settle_none hk]
        exact ⟨h, fun hdirty _ => hdirty⟩
  | cancel => exact absurd (.inl (.inl rfl)) (hmarks .cancelled (by simp [marks]))
  | markSuccess => exact absurd (.inl (.inr (.inl rfl))) (hmarks .succeeded (by simp [marks]))
  | markExhausted => exact absurd (.inl (.inr (.inr rfl))) (hmarks .exhausted (by simp [marks]))
  | markDirty =>
      refine ⟨⟨h.reconnecting, h.inactive, h.one⟩, ?_⟩
      intro _ hasks
      exact absurd (.inr rfl) (hasks .dirtied (by simp [marks]))

-- The cycle goes on with nothing to run.
structure Quiet (s : System) : Prop where
  reconnecting : s.controller.isReconnecting = true
  clean : s.controller.dirty = false
  kicks : s.kicks = 0
  tasks : s.tasks = 0

theorem quiet_step (ho : s.Orderly e) (h : Quiet s) (hmarks : ∀ m ∈ s.marks e, ¬ (Resets m ∨ Asks m)) :
    Quiet (s.step e) := by
  cases e with
  | linkLost => exact absurd (.inr (.inl ⟨_, rfl⟩)) (hmarks _ List.mem_cons_self)
  | schedule =>
      rw [schedule_none h.kicks]
      exact h
  | task n =>
      rw [task_none n h.tasks]
      exact h
  | opening => exact ⟨h.reconnecting, h.clean, h.kicks, h.tasks⟩
  | settle k keep =>
      by_cases hk : k ∈ s.unsettled
      · rw [settle_keeps hk h.reconnecting ho.1]
        exact ⟨h.reconnecting, rfl, by simp [h.clean, h.kicks], h.tasks⟩
      · rw [settle_none hk]
        exact h
  | cancel => exact absurd (.inl (.inl rfl)) (hmarks .cancelled (by simp [marks]))
  | markSuccess => exact absurd (.inl (.inr (.inl rfl))) (hmarks .succeeded (by simp [marks]))
  | markExhausted => exact absurd (.inl (.inr (.inr rfl))) (hmarks .exhausted (by simp [marks]))
  | markDirty => exact absurd (.inr (.inr rfl)) (hmarks .dirtied (by simp [marks]))

-- What the settling of an attempt that lost the link leaves behind.
theorem waiting_of_owing {i : Nat} {keep : Option Bool} (ho : s.Orderly (.settle i keep)) (hc : Consistent s)
    (h : Owing i s) (hi : i ∈ s.unsettled) :
    Waiting (s.step (.settle i keep)) ∧ (s.step (.settle i keep)).controller.dirty = false := by
  obtain ⟨hrec, hkicks, htasks, -⟩ := hc.active h.active
  rw [settle_keeps hi hrec ho.1]
  exact ⟨⟨hrec, rfl, by simp [h.dirty, hkicks, htasks]⟩, rfl⟩

theorem quiet_of_waiting {n : Nat} (h : Waiting s) (hclean : s.controller.dirty = false) (htasks : s.tasks ≠ 0) :
    Quiet (s.step (.task n)) := by
  have hone := h.one
  rw [task_starts n htasks h.reconnecting h.inactive]
  refine ⟨h.reconnecting, hclean, ?_, ?_⟩
  all_goals
    dsimp only
    omega

-- After a loss during an attempt: when the attempt settles, one owner run follows unless the
-- cycle ends, and none after it unless it is asked for again.
def LossesAnswered (events : List Event) : Prop :=
  ∀ pre i mid post, traceOf events = pre ++ .lost (some i) :: (mid ++ .settled i :: post) →
    (∀ m ∈ mid, ¬ (m = .settled i ∨ Resets m)) →
    ((∀ m ∈ post, ¬ Resets m) → (run step {} events).kicks = 0 → (run step {} events).tasks = 0 →
      ∃ j, .started j ∈ post) ∧
    ∀ p j q k r, post = p ++ .started j :: (q ++ .started k :: r) → (∀ m ∈ p, ∀ l, m ≠ .started l) →
      (∀ m ∈ p ++ q, ¬ Resets m) → ∃ m ∈ p ++ q, Asks m

theorem owing_of_lost {i : Nat} (hc : Consistent s) (h : some i = if s.controller.attemptActive then some (s.started - 1) else none) :
    Owing i (s.step .linkLost) := by
  cases hactive : s.controller.attemptActive with
  | false => simp [hactive] at h
  | true =>
      obtain ⟨hrec, -, -, hpos⟩ := hc.active hactive
      simp only [hactive, if_true, Option.some.injEq] at h
      rw [linkLost_again hrec]
      refine ⟨hactive, ?_, rfl⟩
      dsimp only
      omega

theorem lossesAnswered {events : List Event} (h : Each step Orderly {} events) : LossesAnswered events := by
  intro pre i mid post ht hmid
  obtain ⟨front, first, rest, rfl, hfirst, -, hrest⟩ := exists_single_step marks_length ht
  obtain ⟨middle, second, back, rfl, hsecond, hmiddle, hpost⟩ := exists_single_step marks_length hrest.symm
  obtain ⟨rfl, hactive⟩ := of_lost hfirst
  obtain ⟨keep, rfl, hi⟩ := of_settled hsecond
  rw [each_append] at h
  obtain ⟨hfront, ho, hafter⟩ := h
  rw [each_append] at hafter
  obtain ⟨hmiddleOrderly, hsettle, hback⟩ := hafter
  have hc := (orderly_run hfront).1
  have howing := @kept _ _ _ step marks (fun t => Consistent t ∧ Owing i t) Orderly (fun m => m = .settled i ∨ Resets m)
    (fun t e ho ht hm => ⟨consistent_step ho ht.1, owing_step ho ht.1 ht.2 hm⟩) _ middle hmiddleOrderly
    ⟨consistent_step ho hc, owing_of_lost hc hactive⟩ (by rw [← hmiddle]; exact hmid)
  have hwaiting := waiting_of_owing hsettle howing.1 howing.2 hi
  have hconsistent := consistent_step hsettle howing.1
  constructor
  · intro hresets hkicks htasks
    by_contra hnone
    have hend := @kept _ _ _ step marks (fun t => Consistent t ∧ Waiting t) Orderly Moves
      (fun t e ho ht hm => ⟨consistent_step ho ht.1, (waiting_step ho ht.1 ht.2 hm).1⟩) _ back hback
      ⟨hconsistent, hwaiting.1⟩ (by
        rw [← hpost]
        rintro m hm (hreset | ⟨j, rfl⟩)
        · exact hresets m hm hreset
        · exact hnone ⟨j, hm⟩)
    have hone := hend.2.one
    simp only [run_append, run_cons] at hkicks htasks
    omega
  · intro p j q k r hsplit hfirst hresets
    by_contra hasks
    push Not at hasks
    rw [List.forall_mem_append] at hresets hasks
    obtain ⟨before, third, later, rfl, hthird, hp, hlater⟩ := exists_single_step marks_length (hpost.symm.trans hsplit)
    obtain ⟨between, fourth, last, rfl, hfourth, hq, -⟩ := exists_single_step marks_length hlater.symm
    obtain ⟨n, rfl, -, htasks, hrec, -⟩ := of_started hthird
    rw [each_append] at hback
    obtain ⟨hbefore, -, hbetween⟩ := hback
    rw [each_append] at hbetween
    have hstill := @kept _ _ _ step marks (fun t => Consistent t ∧ Waiting t ∧ t.controller.dirty = false) Orderly
      (fun m => Moves m ∨ Asks m)
      (fun t e ho ht hm => by
        have hkeep := waiting_step ho ht.1 ht.2.1 fun m hmem hmove => hm m hmem (.inl hmove)
        exact ⟨consistent_step ho ht.1, hkeep.1, hkeep.2 ht.2.2 fun m hmem hask => hm m hmem (.inr hask)⟩)
      _ before hbefore ⟨hconsistent, hwaiting⟩ (by
        rw [← hp]
        rintro m hm ((hreset | ⟨l, hl⟩) | hask)
        · exact hresets.1 m hm hreset
        · exact hfirst m hm l hl
        · exact hasks.1 m hm hask)
    have hquiet := @kept _ _ _ step marks Quiet Orderly (fun m => Resets m ∨ Asks m)
      (fun t e ho ht hm => quiet_step ho ht hm) _ between hbetween.1
      (quiet_of_waiting hstill.2.1 hstill.2.2 htasks) (by
        rw [← hq]
        rintro m hm (hreset | hask)
        · exact hresets.2 m hm hreset
        · exact hasks.2 m hm hask)
    obtain ⟨n', -, -, htasks', -, -⟩ := of_started hfourth
    exact htasks' hquiet.tasks

theorem single_flight_of_apart {t : List Mark} (h : ApartSinceCancel t) : SingleFlight t :=
  fun pre i mid j post ht hsettled => .inl (h pre i mid j post ht hsettled)

-- Where nothing of an earlier cycle acts in a later one, attempts do not overlap and no loss is
-- forgotten.
theorem reconnect_single_flight (events : List Event) (h : Each step Orderly {} events) :
    SingleFlight (traceOf events) ∧ ApartSinceCancel (traceOf events) ∧ LossesAnswered events :=
  ⟨single_flight_of_apart (apartSinceCancel h), apartSinceCancel h, lossesAnswered h⟩

-- An attempt is cancelled, its successor loses the link and is followed by a third.
def cancelledRun : List Event :=
  [.linkLost, .schedule, .task 1, .opening, .cancel, .linkLost, .schedule, .task 1, .linkLost, .opening,
    .settle 1 none, .schedule, .task 2, .settle 2 (some true), .settle 0 none]

theorem cancelledRun_single_flight : SingleFlight (traceOf cancelledRun) ∧ ApartSinceCancel (traceOf cancelledRun) ∧
    LossesAnswered cancelledRun :=
  reconnect_single_flight cancelledRun (by decide)

-- The cancelled attempt settles during its successor: the successor's flags are cleared, its
-- loss is taken, and a third attempt starts beside it.
def lateSettle : List Event :=
  [.linkLost, .schedule, .task 1, .cancel, .linkLost, .schedule, .task 1, .linkLost, .settle 0 none, .schedule, .task 2]

theorem late_settle_overlaps : ¬ SingleFlight (traceOf lateSettle) ∧ ¬ ApartSinceCancel (traceOf lateSettle) := by
  have htrace : traceOf lateSettle = [.lost none, .started 0, .cancelled, .lost none] ++ .started 1 ::
      ([.lost (some 1), .settled 0] ++ .started 2 :: []) := by decide
  constructor
  · intro h
    have := h _ _ _ _ _ htrace (by decide)
    revert this
    decide
  · intro h
    have := h _ _ _ _ _ htrace (by decide)
    revert this
    decide

end System

end MeshClient.Reconnect
