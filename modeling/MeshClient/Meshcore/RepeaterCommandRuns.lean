import MeshClient.Meshcore.RepeaterCommands

namespace MeshClient.Meshcore.Cli

open Js Run Trace

namespace Service

variable {env : Env} {s : Service} {i : Nat} {c : PendingCommand} {token : Text}

def isSettled (i : Nat) : Mark → Bool
  | .settled j _ => i = j
  | .ingested _ => false

-- The timer of the `i`-th command is set.
def live (s : Service) (i : Nat) : Bool := (s.commands[i]?).any fun c => c.timer.isSome

def known (s : Service) (i : Nat) : Bool := i < s.commands.length

-- The commands that wait for a reply are those whose timer is set.
structure Sound (s : Service) : Prop where
  entry : ∀ t i, s.pendingCommands.get? t = some i → ∃ c, s.commands[i]? = some c ∧ c.token = t ∧ c.timer.isSome = true
  waiting : ∀ i c, s.commands[i]? = some c → c.timer.isSome = true → s.pendingCommands.get? c.token = some i

theorem sound_start : Sound {} := ⟨by simp, by simp⟩

-- A timer is set with its command, and goes with a settlement.
def Balanced (s s' : Service) (ms : List Mark) : Prop :=
  ∀ i, (s'.known i).toNat + (s.live i).toNat = (s.known i).toNat + (s'.live i).toNat + ms.countP (isSettled i)

theorem getElem?_update (s : Service) (i j : Nat) (f : PendingCommand → PendingCommand) :
    (s.update i f).commands[j]? = if i = j then (s.commands[j]?).map f else s.commands[j]? := by
  unfold update
  rw [List.getElem?_modify]
  split_ifs with h
  · rfl
  · cases s.commands[j]? <;> rfl

@[simp] theorem known_update (f : PendingCommand → PendingCommand) (j : Nat) : (s.update i f).known j = s.known j := by
  simp [known, update]

theorem live_update (f : PendingCommand → PendingCommand) (j : Nat) :
    (s.update i f).live j = if i = j then (s.commands[j]?).any fun c => (f c).timer.isSome else s.live j := by
  unfold live
  rw [getElem?_update]
  split_ifs with h
  · cases s.commands[j]? <;> rfl
  · rfl

theorem exists_pending (h : Sound s) (ht : s.pendingCommands.get? token = some i) :
    ∃ c, s.commands[i]? = some c ∧ c.token = token ∧ c.timer.isSome = true ∧ s.pending token = some (i, c) := by
  obtain ⟨c, hc, htoken, htimer⟩ := h.entry token i ht
  exact ⟨c, hc, htoken, htimer, by simp [pending, ht, hc]⟩

theorem of_pending (h : Sound s) (hp : s.pending token = some (i, c)) :
    s.pendingCommands.get? token = some i ∧ s.commands[i]? = some c ∧ c.token = token ∧ c.timer.isSome = true := by
  unfold pending at hp
  obtain ⟨j, hj, hmap⟩ := Option.bind_eq_some_iff.mp hp
  obtain ⟨c', hc', heq⟩ := Option.map_eq_some_iff.mp hmap
  cases heq
  obtain ⟨c'', hc'', htoken, htimer⟩ := h.entry token i hj
  rw [hc'] at hc''
  cases hc''
  exact ⟨hj, hc', htoken, htimer⟩

-- A change of a command that leaves its timer set.
theorem update_good (h : Sound s) (hc : s.commands[i]? = some c) {f : PendingCommand → PendingCommand}
    (htoken : (f c).token = c.token) (htimer : (f c).timer.isSome = c.timer.isSome) :
    Sound (s.update i f) ∧ Balanced s (s.update i f) [] := by
  refine ⟨⟨?_, ?_⟩, ?_⟩
  · intro t j ht
    obtain ⟨c', hc', htoken', htimer'⟩ := h.entry t j ht
    rw [getElem?_update]
    split_ifs with hij
    · subst hij
      obtain rfl := Option.some.inj (hc.symm.trans hc')
      exact ⟨f c, by simp [hc], htoken.trans htoken', htimer.trans htimer'⟩
    · exact ⟨c', hc', htoken', htimer'⟩
  · intro j c' hc' htimer'
    rw [getElem?_update] at hc'
    split_ifs at hc' with hij
    · subst hij
      rw [hc] at hc'
      obtain rfl := Option.some.inj hc'
      rw [htoken]
      exact h.waiting i c hc (htimer ▸ htimer')
    · exact h.waiting j c' hc' htimer'
  · intro j
    have hlive : (s.update i f).live j = s.live j := by
      rw [live_update]
      split_ifs with hij
      · subst hij
        simp [live, hc, htimer]
      · rfl
    rw [known_update, hlive]
    simp

theorem live_drop (h : Sound s) (ht : s.pendingCommands.get? token = some i) (j : Nat) :
    (s.drop token i).live j = if i = j then false else s.live j := by
  show (s.update i fun c => { c with timer := none }).live j = _
  rw [live_update]
  split_ifs with hij
  · subst hij
    obtain ⟨c, hc, -⟩ := exists_pending h ht
    simp [hc]
  · rfl

-- The command that waits under a token is settled and forgotten.
theorem drop_good (h : Sound s) (ht : s.pendingCommands.get? token = some i) {ms : List Mark}
    (hms : ∀ j, ms.countP (isSettled j) = if i = j then 1 else 0) :
    Sound (s.drop token i) ∧ Balanced s (s.drop token i) ms := by
  obtain ⟨c, hc, htoken, htimer, -⟩ := exists_pending h ht
  have hget : ∀ j, (s.drop token i).commands[j]? =
      if i = j then (s.commands[j]?).map fun c => { c with timer := none } else s.commands[j]? :=
    fun j => getElem?_update s i j _
  refine ⟨⟨?_, ?_⟩, ?_⟩
  · intro t j ht'
    have hne : t ≠ token := by
      rintro rfl
      simp [drop, OrderedMap.get?_erase] at ht'
    have hold : s.pendingCommands.get? t = some j := by simpa [drop, OrderedMap.get?_erase, hne] using ht'
    obtain ⟨c', hc', htoken', htimer'⟩ := h.entry t j hold
    have hij : i ≠ j := by
      rintro rfl
      obtain rfl := Option.some.inj (hc.symm.trans hc')
      exact hne (htoken'.symm.trans htoken)
    rw [hget, if_neg hij]
    exact ⟨c', hc', htoken', htimer'⟩
  · intro j c' hc' htimer'
    rw [hget] at hc'
    split_ifs at hc' with hij
    · obtain ⟨c'', -, rfl⟩ := Option.map_eq_some_iff.mp hc'
      cases htimer'
    · have hold := h.waiting j c' hc' htimer'
      have hne : c'.token ≠ token := by
        intro heq
        rw [heq, ht] at hold
        exact hij (Option.some.inj hold)
      show (s.pendingCommands.erase token).get? c'.token = some j
      rw [OrderedMap.get?_erase, if_neg hne]
      exact hold
  · intro j
    have hknown : (s.drop token i).known j = s.known j := known_update _ j
    rw [hknown, live_drop h ht, hms]
    split_ifs with hij
    · subst hij
      have hlive : s.live i = true := by simp [live, hc, htimer]
      simp [hlive]
    · simp

-- A step that leaves the commands and the map of the waiting ones as they are.
theorem good_of_same {s' : Service} {ms : List Mark} (h : Sound s) (hpending : s'.pendingCommands = s.pendingCommands)
    (hcommands : s'.commands = s.commands) (hms : ∀ j, ms.countP (isSettled j) = 0) : Sound s' ∧ Balanced s s' ms := by
  refine ⟨⟨?_, ?_⟩, ?_⟩
  · rw [hpending, hcommands]
    exact h.entry
  · rw [hpending, hcommands]
    exact h.waiting
  · intro j
    rw [live, live, known, known, hcommands, hms]
    omega

theorem good_refl (h : Sound s) : Sound s ∧ Balanced s s [] := good_of_same h rfl rfl fun _ => rfl

-- A command is registered under a token under which none is waiting.
def Clean (s : Service) : Event → Prop
  | .register _ _ options => s.pendingCommands.get? (s.nextTokenOf options) = none
  | _ => True

theorem register_good (h : Sound s) (command : Text) (pathLength : Nat) (options : RegisterOptions)
    (hclean : s.pendingCommands.get? (s.nextTokenOf options) = none) :
    Sound (s.registerPendingCommand env command pathLength options) ∧
      Balanced s (s.registerPendingCommand env command pathLength options) [] := by
  obtain ⟨c, hcommands, htoken, htimer⟩ : ∃ c : PendingCommand,
      (s.registerPendingCommand env command pathLength options).commands = s.commands ++ [c] ∧
        c.token = s.nextTokenOf options ∧ c.timer.isSome = true := by
    unfold registerPendingCommand generateToken
    dsimp only
    split_ifs <;> exact ⟨_, rfl, rfl, rfl⟩
  have hpending : (s.registerPendingCommand env command pathLength options).pendingCommands =
      s.pendingCommands.set (s.nextTokenOf options) s.commands.length := by
    unfold registerPendingCommand generateToken
    dsimp only
    split_ifs <;> rfl
  generalize s.registerPendingCommand env command pathLength options = s' at hcommands hpending
  refine ⟨⟨?_, ?_⟩, ?_⟩
  · intro t j ht
    rw [hpending, OrderedMap.get?_set] at ht
    rw [hcommands]
    split_ifs at ht with heq
    · obtain rfl := Option.some.inj ht
      exact ⟨c, List.getElem?_concat_length, by rw [htoken, heq], htimer⟩
    · obtain ⟨c', hc', hrest⟩ := h.entry t j ht
      have hlt := (List.getElem?_eq_some_iff.mp hc').1
      exact ⟨c', by rw [List.getElem?_append_left hlt, hc'], hrest⟩
  · intro j c' hc' htimer'
    rw [hpending, OrderedMap.get?_set]
    rw [hcommands] at hc'
    rcases Nat.lt_trichotomy j s.commands.length with hj | rfl | hj
    · rw [List.getElem?_append_left hj] at hc'
      have hold := h.waiting j c' hc' htimer'
      rw [if_neg, hold]
      intro heq
      rw [heq, hclean] at hold
      cases hold
    · rw [List.getElem?_concat_length] at hc'
      obtain rfl := Option.some.inj hc'
      rw [if_pos htoken]
    · have hnone : (s.commands ++ [c])[j]? = none :=
        List.getElem?_eq_none (by rw [List.length_append, List.length_singleton]; omega)
      rw [hnone] at hc'
      cases hc'
  · intro j
    unfold live known
    rw [hcommands]
    rcases Nat.lt_trichotomy j s.commands.length with hj | rfl | hj
    · rw [List.getElem?_append_left hj]
      simp [hj, Nat.lt_succ_of_lt hj]
    · simp [htimer]
    · have hnone : (s.commands ++ [c])[j]? = none :=
        List.getElem?_eq_none (by rw [List.length_append, List.length_singleton]; omega)
      rw [hnone, List.getElem?_eq_none (by omega), List.length_append, List.length_singleton,
        decide_eq_false (show ¬ j < s.commands.length + 1 by omega), decide_eq_false (show ¬ j < s.commands.length by omega)]
      simp

-- The numbers of the commands that wait are all different.
theorem values_nodup (h : Sound s) : s.pendingCommands.values.Nodup := by
  apply List.Nodup.map_on
  · rintro ⟨t, i⟩ hx ⟨t', j⟩ hy rfl
    have ht := (s.pendingCommands.mem_entries_iff t i).mp hx
    have ht' := (s.pendingCommands.mem_entries_iff t' i).mp hy
    obtain ⟨c, hc, rfl, -⟩ := h.entry t i ht
    obtain ⟨c', hc', rfl, -⟩ := h.entry t' i ht'
    obtain rfl := Option.some.inj (hc.symm.trans hc')
    rfl
  · exact s.pendingCommands.nodup.of_map

theorem mem_values_iff_live (h : Sound s) (j : Nat) : j ∈ s.pendingCommands.values ↔ s.live j = true := by
  rw [OrderedMap.mem_values_iff]
  constructor
  · rintro ⟨t, ht⟩
    obtain ⟨c, hc, -, htimer⟩ := h.entry t j ht
    simp [live, hc, htimer]
  · intro hlive
    obtain ⟨c, hc, htimer⟩ := (Option.any_eq_true _ _).mp hlive
    exact ⟨c.token, h.waiting j c hc htimer⟩

theorem clear_good (h : Sound s) : Sound s.clear.1 ∧ Balanced s s.clear.1 s.clear.2 := by
  have hget : ∀ j, s.clear.1.commands[j]? =
      (s.commands[j]?).map fun c => if j ∈ s.pendingCommands.values then { c with timer := none } else c := by
    intro j
    simp [clear, List.getElem?_mapIdx]
  have hdead : ∀ j, s.clear.1.live j = false := by
    intro j
    unfold live
    rw [hget]
    cases hc : s.commands[j]? with
    | none => rfl
    | some c =>
        by_cases hmem : j ∈ s.pendingCommands.values
        · simp [hmem]
        · have hlive : s.live j = false := by simpa [mem_values_iff_live h] using hmem
          simpa [hmem, live, hc] using hlive
  refine ⟨⟨by simp [clear], ?_⟩, ?_⟩
  · intro j c hc htimer
    have hlive := hdead j
    simp [live, hc, htimer] at hlive
  · intro j
    have hcount : s.clear.2.countP (isSettled j) = (s.live j).toNat := by
      have heq : s.clear.2.countP (isSettled j) = s.pendingCommands.values.count j := by
        rw [List.count_eq_countP, clear, List.countP_map]
        apply List.countP_congr
        intro k _
        show decide (j = k) = true ↔ (k == j) = true
        rw [beq_iff_eq, decide_eq_true_iff]
        exact eq_comm
      rw [heq, List.Nodup.count (values_nodup h)]
      by_cases hmem : j ∈ s.pendingCommands.values
      · simp [hmem, (mem_values_iff_live h j).mp hmem]
      · have hlive : s.live j = false := by simpa [mem_values_iff_live h] using hmem
        simp [hmem, hlive]
    rw [hcount, hdead]
    simp [known, clear]

theorem ingest_good (h : Sound s) (rawResponse : Text) (senderId : Option Nat) :
    Sound (s.ingestResponse env rawResponse senderId).1 ∧
      Balanced s (s.ingestResponse env rawResponse senderId).1 (s.ingestResponse env rawResponse senderId).2 := by
  unfold ingestResponse
  rcases parseResponseToken rawResponse with ⟨_ | token, body⟩
  · exact good_of_same h rfl rfl fun _ => rfl
  · dsimp only
    rcases hp : s.answered token senderId with _ | ⟨i, pending⟩
    · exact good_of_same h rfl rfl fun _ => rfl
    · obtain ⟨hpending, -⟩ := Option.filter_eq_some_iff.mp hp
      obtain ⟨ht, -⟩ := of_pending h hpending
      have hms : ∀ j, [Mark.settled i (.ok body),
          .ingested (.resolved pending.senderNodeId (s.redactResponseForHistory env rawResponse))].countP (isSettled j) =
          if i = j then 1 else 0 := by
        intro j
        by_cases hij : i = j
        · simp [isSettled, hij]
        · simp [isSettled, hij, Ne.symm hij]
      obtain ⟨hsound, hbalanced⟩ := drop_good h ht hms
      exact ⟨⟨hsound.entry, hsound.waiting⟩, hbalanced⟩

theorem countP_settled (i j : Nat) (outcome : Except CliError Text) :
    [Mark.settled i outcome].countP (isSettled j) = if i = j then 1 else 0 := by
  by_cases hij : i = j
  · simp [isSettled, hij]
  · simp [isSettled, hij, Ne.symm hij]

theorem handleError_good (h : Sound s) (token error : Text) :
    Sound (s.handleError token error).1 ∧ Balanced s (s.handleError token error).1 (s.handleError token error).2 := by
  unfold handleError
  rcases hp : s.pending token with _ | ⟨i, pending⟩
  · exact good_refl h
  · obtain ⟨ht, hc, -⟩ := of_pending h hp
    have hcount : Sound (s.update i fun c => { c with retryCount := c.retryCount + 1 }) ∧
        Balanced s (s.update i fun c => { c with retryCount := c.retryCount + 1 }) [] := update_good h hc rfl rfl
    dsimp only
    split_ifs
    · have hdrop := drop_good hcount.1 (s := s.update i fun c => { c with retryCount := c.retryCount + 1 }) ht
        (countP_settled i · (.error (.other error)))
      refine ⟨hdrop.1, ?_⟩
      intro j
      have hfirst := hcount.2 j
      have hsecond := hdrop.2 j
      simp only [List.countP_nil] at hfirst
      dsimp only
      omega
    · exact hcount

theorem fires_good (h : Sound s) (i : Nat) : Sound (s.fires i).1 ∧ Balanced s (s.fires i).1 (s.fires i).2 := by
  unfold fires
  cases hc : s.commands[i]? with
  | none => exact good_refl h
  | some c =>
      dsimp only
      split_ifs with htimer hwaiting
      · have hsome : c.timer.isSome = true := by
          obtain ⟨deadline, hdeadline, -⟩ := (Option.any_eq_true _ _).mp htimer
          simp [hdeadline]
        exact drop_good h (h.waiting i c hc hsome) (countP_settled i · _)
      · have hsome : c.timer.isSome = true := by
          obtain ⟨deadline, hdeadline, -⟩ := (Option.any_eq_true _ _).mp htimer
          simp [hdeadline]
        rw [h.waiting i c hc hsome] at hwaiting
        exact absurd rfl hwaiting
      · exact good_refl h

theorem step_good (h : Sound s) {e : Event} (hclean : Clean s e) :
    Sound (s.step env e) ∧ Balanced s (s.step env e) (s.marks env e) := by
  cases e with
  | generateToken => exact good_of_same h rfl rfl fun _ => rfl
  | register command pathLength options => exact register_good h command pathLength options hclean
  | ingest rawResponse senderId => exact ingest_good h rawResponse senderId
  | extend token newTimeoutMs =>
      simp only [step, marks, handle, extendPendingTimeout]
      rcases hp : s.pending token with _ | ⟨i, pending⟩
      · exact good_refl h
      · obtain ⟨-, hc, -, htimer⟩ := of_pending h hp
        dsimp only
        split_ifs
        · exact good_refl h
        · exact update_good h hc rfl htimer.symm
  | restart token timeoutMs =>
      simp only [step, marks, handle, restartPendingTimeoutFromNow]
      rcases hp : s.pending token with _ | ⟨i, pending⟩
      · exact good_refl h
      · obtain ⟨-, hc, -, htimer⟩ := of_pending h hp
        exact update_good h hc rfl htimer.symm
  | handleError token error => exact handleError_good h token error
  | rejectPending token error =>
      simp only [step, marks, handle, rejectPending]
      rcases hp : s.pending token with _ | ⟨i, pending⟩
      · exact good_refl h
      · exact drop_good h (of_pending h hp).1 (countP_settled i · _)
  | clear => exact clear_good h
  | fires i => exact fires_good h i
  | wait ms => exact good_of_same h rfl rfl fun _ => rfl

end Service

end MeshClient.Meshcore.Cli
