import MeshClient.Reticulum.OutboundStatus

namespace MeshClient.Reticulum.Outbound

variable {row : MessageRecord} {u : Update} {us vs early late : List Update}

-- The one update that the buffer keeps of those that came before the row.
def kept (early : List Update) : List Update := (early.find? Update.isBuffered).toList

-- No update settles the status, or the last one that does is a failure that was revived.
def Unsettled (us : List Update) : Prop :=
  ∀ u, us.find? Update.isTerminal = some u →
    u.status = .failed ∧ ∃ c ∈ us.takeWhile (fun c : Update => !c.isTerminal), c.isCascade = true

-- `told` is what the row is told, `whole` what was said: what is told sets a field, or nothing that
-- was said of the field left it other than the row had it.
structure NothingLost (row : MessageRecord) (told whole : List Update) : Prop where
  status : (∃ u ∈ told, u.isTerminal = true) ∨ Unsettled whole
  sentVia : (∃ u ∈ told, u.sentVia.isSome = true) ∨ ∀ via, whole.findSome? Update.sentVia = some via → row.receivedVia = some via
  deliveryMethod : (∃ u ∈ told, u.deliveryMethod.isSome = true) ∨
    ∀ method, whole.findSome? Update.deliveryMethod = some method → row.reticulumDeliveryMethod = some method
  error : (settledError told).isSome = true ∨ ∀ error, settledError whole = some error → error = row.error

def outcome (row : MessageRecord) : Option MessageStatus × Option String × Option ReticulumDeliveryMethod × Option String :=
  (row.status, row.receivedVia, row.reticulumDeliveryMethod, row.error)

theorem kept_cons_of_buffered (h : u.isBuffered = true) : kept (u :: us) = [u] := by
  simp [kept, h]

theorem kept_cons_of_not_buffered (h : ¬ u.isBuffered = true) : kept (u :: us) = kept us := by
  simp [kept, h]

theorem isBuffered_of_isCascade (h : u.isCascade = true) : u.isBuffered = true := by
  obtain ⟨-, hcascade⟩ := isCascade_iff.mp h
  unfold Update.isBuffered
  cases hmethod : u.deliveryMethod with
  | none => simp [hmethod, isPnCascadeDeliveryMethod] at hcascade
  | some method => simp

theorem not_terminal_of_not_buffered (h : ¬ u.isBuffered = true) : ¬ u.isTerminal = true := by
  intro hterminal
  exact h (by simp [Update.isBuffered, hterminal])

theorem findSome?_kept {β : Type*} {f : Update → Option β} (hf : ∀ u, (f u).isSome = true → u.isBuffered = true) {v : β}
    (h : (kept early).findSome? f = some v) : early.findSome? f = some v := by
  induction early with
  | nil => simp [kept] at h
  | cons u us ih =>
      by_cases hbuffered : u.isBuffered = true
      · rw [kept_cons_of_buffered hbuffered] at h
        rw [List.findSome?_cons]
        cases hu : f u with
        | none => simp [hu] at h
        | some w => simpa [hu] using h
      · rw [kept_cons_of_not_buffered hbuffered] at h
        have hu : f u = none := Option.not_isSome_iff_eq_none.mp (mt (hf u) hbuffered)
        rw [List.findSome?_cons, hu]
        exact ih h

theorem find?_terminal_kept (h : (kept early).find? Update.isTerminal = some u) : early.find? Update.isTerminal = some u := by
  induction early with
  | nil => simp [kept] at h
  | cons w us ih =>
      by_cases hbuffered : w.isBuffered = true
      · rw [kept_cons_of_buffered hbuffered] at h
        rw [List.find?_cons]
        cases hw : w.isTerminal with
        | true => simpa [hw] using h
        | false => simp [hw] at h
      · rw [kept_cons_of_not_buffered hbuffered] at h
        rw [List.find?_cons_of_neg (not_terminal_of_not_buffered hbuffered)]
        exact ih h

theorem find?_terminal_append (hfind : vs.find? Update.isTerminal = some u → us.find? Update.isTerminal = some u)
    (h : (late ++ vs).find? Update.isTerminal = some u) : (late ++ us).find? Update.isTerminal = some u := by
  rw [List.find?_append] at h ⊢
  cases hlate : late.find? Update.isTerminal with
  | some w => simpa [hlate] using h
  | none => 
      rw [hlate] at h
      exact hfind h

theorem endsFailed_kept (h : ∃ u ∈ late ++ kept early, u.isTerminal = true) :
    endsFailed (late ++ early) = endsFailed (late ++ kept early) := by
  obtain ⟨u, hu⟩ := Option.isSome_iff_exists.mp (List.find?_isSome.mpr h)
  unfold endsFailed
  rw [hu, find?_terminal_append find?_terminal_kept hu]

theorem exists_terminal_of_settledError {error : Option String} (h : settledError us = some error) :
    ∃ u ∈ us, u.isTerminal = true := by
  induction us with
  | nil => cases h
  | cons u us ih =>
      rw [settledError_cons] at h
      by_cases hterminal : u.isTerminal = true
      · exact ⟨u, List.mem_cons_self, hterminal⟩
      · have hu : u.status = .sending := by
          by_contra hcon
          exact hterminal (isTerminal_iff.mpr hcon)
        have hacked : ¬ u.status = .acked := by simp [hu]
        have hsilent : ¬ u.errorMessage.isSome = true := by simp [errorMessage_eq_none (u := u) (by simp [hu])]
        rw [if_neg hacked, if_neg hsilent] at h
        by_cases hrevives : (u.isCascade && endsFailed us) = true
        · have hends := (Bool.and_eq_true _ _ ▸ hrevives : _ ∧ _).2
          obtain ⟨w, hw, -⟩ := (Option.any_eq_true _ _).mp hends
          exact ⟨w, List.mem_cons_of_mem _ (List.mem_of_find?_eq_some hw), List.find?_some hw⟩
        · rw [if_neg hrevives] at h
          obtain ⟨w, hw, hwt⟩ := ih h
          exact ⟨w, List.mem_cons_of_mem _ hw, hwt⟩

theorem settledError_kept {error : Option String} (h : settledError (kept early) = some error) : settledError early = some error := by
  induction early with
  | nil => simp [kept, settledError] at h
  | cons u us ih =>
      by_cases hbuffered : u.isBuffered = true
      · rw [kept_cons_of_buffered hbuffered, settledError_cons] at h
        rw [settledError_cons]
        by_cases hacked : u.status = .acked
        · rwa [if_pos hacked] at h ⊢
        · rw [if_neg hacked] at h ⊢
          by_cases herror : u.errorMessage.isSome = true
          · rwa [if_pos herror] at h ⊢
          · rw [if_neg herror] at h
            simp [endsFailed, settledError] at h
      · rw [kept_cons_of_not_buffered hbuffered] at h
        have hterminal := not_terminal_of_not_buffered hbuffered
        have hu : u.status = .sending := by
          by_contra hcon
          exact hterminal (isTerminal_iff.mpr hcon)
        have hcascade : ¬ (u.isCascade && endsFailed us) = true := by
          simp [mt isBuffered_of_isCascade hbuffered]
        have hacked : ¬ u.status = .acked := by simp [hu]
        have hsilent : ¬ u.errorMessage.isSome = true := by simp [errorMessage_eq_none (u := u) (by simp [hu])]
        rw [settledError_cons, if_neg hacked, if_neg hsilent, if_neg hcascade]
        exact ih h

-- What is told of the error is said as well.
theorem settledError_told {error : Option String} (h : settledError (late ++ kept early) = some error) :
    settledError (late ++ early) = some error := by
  induction late with
  | nil => exact settledError_kept h
  | cons u us ih =>
      rw [List.cons_append, settledError_cons] at h ⊢
      by_cases hacked : u.status = .acked
      · rwa [if_pos hacked] at h ⊢
      by_cases herror : u.errorMessage.isSome = true
      · rwa [if_neg hacked, if_pos herror] at h ⊢
      rw [if_neg hacked, if_neg herror] at h ⊢
      by_cases hrevives : (u.isCascade && endsFailed (us ++ kept early)) = true
      · have hends := (Bool.and_eq_true _ _ ▸ hrevives : _ ∧ _)
        obtain ⟨w, hw, -⟩ := (Option.any_eq_true _ _).mp hends.2
        have hsame := endsFailed_kept ⟨w, List.mem_of_find?_eq_some hw, List.find?_some hw⟩
        rw [if_pos hrevives] at h
        rwa [hsame, if_pos hrevives]
      · rw [if_neg hrevives] at h
        have hsame := endsFailed_kept (exists_terminal_of_settledError h)
        rw [hsame, if_neg hrevives]
        exact ih h

theorem settledStatus_cons : settledStatus (u :: us) =
    if u.isTerminal then u.status
    else if settledStatus us = .failed ∧ u.isCascade = true then .sending
    else settledStatus us := rfl

theorem settledStatus_of_no_terminal (h : ∀ u ∈ us, ¬ u.isTerminal = true) : settledStatus us = .sending := by
  induction us with
  | nil => rfl
  | cons u us ih =>
      have hrest := ih fun w hw => h w (List.mem_cons_of_mem _ hw)
      have hopen : ¬ (settledStatus us = .failed ∧ u.isCascade = true) := by simp [hrest]
      rw [settledStatus_cons, if_neg (h u List.mem_cons_self), if_neg hopen]
      exact hrest

theorem settledStatus_kept (h : ∃ u ∈ kept early, u.isTerminal = true) : settledStatus early = settledStatus (kept early) := by
  induction early with
  | nil => rfl
  | cons u us ih =>
      by_cases hbuffered : u.isBuffered = true
      · rw [kept_cons_of_buffered hbuffered] at h ⊢
        have hterminal : u.isTerminal = true := by simpa using h
        rw [settledStatus_cons, settledStatus_cons, if_pos hterminal, if_pos hterminal]
      · rw [kept_cons_of_not_buffered hbuffered] at h ⊢
        have hcascade : ¬ (settledStatus us = .failed ∧ u.isCascade = true) := fun hcon =>
          hbuffered (isBuffered_of_isCascade hcon.2)
        rw [settledStatus_cons, if_neg (not_terminal_of_not_buffered hbuffered), if_neg hcascade]
        exact ih h

theorem settledStatus_told (h : ∃ u ∈ late ++ kept early, u.isTerminal = true) :
    settledStatus (late ++ early) = settledStatus (late ++ kept early) := by
  induction late with
  | nil => exact settledStatus_kept h
  | cons u us ih =>
      rw [List.cons_append, List.cons_append, settledStatus_cons, settledStatus_cons]
      by_cases hterminal : u.isTerminal = true
      · rw [if_pos hterminal, if_pos hterminal]
      · obtain ⟨w, hw, hwt⟩ := h
        rw [List.cons_append, List.mem_cons] at hw
        rcases hw with rfl | hw
        · exact absurd hwt hterminal
        · rw [ih ⟨w, hw, hwt⟩]

-- The status is that of the last update that settles it, unless that is a failure and revived since.
theorem settledStatus_of_find (h : us.find? Update.isTerminal = some u) :
    settledStatus us = if u.status = .failed ∧ ∃ c ∈ us.takeWhile (fun c : Update => !c.isTerminal), c.isCascade = true then .sending
      else u.status := by
  induction us with
  | nil => cases h
  | cons w us ih =>
      rw [settledStatus_cons]
      by_cases hterminal : w.isTerminal = true
      · rw [List.find?_cons_of_pos hterminal] at h
        obtain rfl := Option.some.inj h
        rw [if_pos hterminal, List.takeWhile_cons, hterminal]
        simp
      · rw [List.find?_cons_of_neg hterminal] at h
        have hopen : w.isTerminal = false := by simpa using hterminal
        rw [if_neg hterminal, List.takeWhile_cons, hopen, ih h]
        by_cases hfailed : u.status = .failed
        · by_cases hcascade : w.isCascade = true
          · simp [hfailed, hcascade]
          · simp [hfailed, hcascade]
        · simp [hfailed]

theorem unsettled_iff : Unsettled us ↔ settledStatus us = .sending := by
  cases hfind : us.find? Update.isTerminal with
  | none =>
      refine iff_of_true (fun u hu => absurd (hfind.symm.trans hu) (by simp)) (settledStatus_of_no_terminal ?_)
      exact List.find?_eq_none.mp hfind
  | some u =>
      have hu := isTerminal_iff.mp (List.find?_some hfind)
      rw [settledStatus_of_find hfind]
      constructor
      · intro h
        exact if_pos (h u hfind)
      · intro h w hw
        obtain rfl := Option.some.inj (hfind.symm.trans hw)
        by_contra hcon
        rw [if_neg hcon] at h
        exact hu h

-- A field that is told as it was said last, or not at all.
theorem or_eq_or_iff {β : Type*} {a b d : Option β} (h : ∀ v, b = some v → a = some v) :
    b.or d = a.or d ↔ b.isSome = true ∨ ∀ v, a = some v → d = some v := by
  cases b with
  | some v => simp [h v rfl]
  | none =>
      cases a with
      | none => simp
      | some v => simp

theorem getD_eq_getD_iff {β : Type*} {a b : Option β} {d : β} (h : ∀ v, b = some v → a = some v) :
    b.getD d = a.getD d ↔ b.isSome = true ∨ ∀ v, a = some v → v = d := by
  cases b with
  | some v => simp [h v rfl]
  | none =>
      cases a with
      | none => simp
      | some v => simp [eq_comm]

theorem findSome?_told {β : Type*} {f : Update → Option β} (hf : ∀ u, (f u).isSome = true → u.isBuffered = true) {v : β}
    (h : (late ++ kept early).findSome? f = some v) : (late ++ early).findSome? f = some v := by
  rw [List.findSome?_append] at h ⊢
  cases hlate : late.findSome? f with
  | some w => simpa [hlate] using h
  | none =>
      rw [hlate] at h
      exact findSome?_kept hf h

theorem status_told_iff : settledStatus (late ++ kept early) = settledStatus (late ++ early) ↔
    (∃ u ∈ late ++ kept early, u.isTerminal = true) ∨ Unsettled (late ++ early) := by
  rw [unsettled_iff]
  by_cases hterminal : ∃ u ∈ late ++ kept early, u.isTerminal = true
  · exact iff_of_true (settledStatus_told hterminal).symm (.inl hterminal)
  · have hsending : settledStatus (late ++ kept early) = .sending :=
      settledStatus_of_no_terminal fun u hu hcon => hterminal ⟨u, hu, hcon⟩
    rw [hsending, or_iff_right hterminal]
    exact eq_comm

theorem outcome_told_iff (h : row.status = some .sending) :
    outcome (replay row (late ++ kept early)) = outcome (replay row (late ++ early)) ↔
      NothingLost row (late ++ kept early) (late ++ early) := by
  have hvia := or_eq_or_iff (d := row.receivedVia)
    (@findSome?_told early late _ Update.sentVia fun u hu => by simp [Update.isBuffered, hu])
  have hmethod := or_eq_or_iff (d := row.reticulumDeliveryMethod)
    (@findSome?_told early late _ Update.deliveryMethod fun u hu => by simp [Update.isBuffered, hu])
  have herror := getD_eq_getD_iff (d := row.error) (@settledError_told early late)
  rw [List.findSome?_isSome_iff] at hvia hmethod
  unfold outcome
  rw [Prod.mk.injEq, Prod.mk.injEq, Prod.mk.injEq, replay_status h, replay_status h, replay_receivedVia, replay_receivedVia,
    replay_deliveryMethod, replay_deliveryMethod, replay_error h, replay_error h, Option.some.injEq, status_told_iff, hvia,
    hmethod, herror]
  constructor
  · rintro ⟨hs, hv, hm, he⟩
    exact ⟨hs, hv, hm, he⟩
  · rintro ⟨hs, hv, hm, he⟩
    exact ⟨hs, hv, hm, he⟩

end MeshClient.Reticulum.Outbound
