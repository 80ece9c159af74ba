import MeshClient.Meshcore.RoomLoginTurns

namespace MeshClient.Meshcore.RoomLogin.Queue

open Run Turns

variable {s s' : Queue} {i : Nat} {j j' : Job}

-- `activeNodeId` may outlive a job that was superseded in its spacing wait; then the job that
-- superseded it is live.
def Accounted (s : Queue) : Prop := ∀ n, s.activeNodeId = some n → s.Live n

theorem live_put (hj : s.jobs[i]? = some j) (hjobs : s'.jobs = s.jobs.set i j') (hroom : j'.nodeId = j.nodeId)
    (hcancelled : s'.cancelled = s.cancelled) {n : Nat} (h : s.Live n)
    (hkept : i ∈ s.cancelled ∨ j'.phase ≠ .settled ∨ j.nodeId ≠ n) : s'.Live n := by
  obtain ⟨k, x, hx, hxn, hopen, hlive⟩ := h
  by_cases hk : k = i
  · subst hk
    obtain rfl := Option.some.inj (hj.symm.trans hx)
    rcases hkept with hcon | hopen' | hne
    · exact absurd hcon hlive
    · exact ⟨k, j', by rw [hjobs, getElem?_set_of_some hj, if_pos rfl], hroom.trans hxn, hopen', hcancelled ▸ hlive⟩
    · exact absurd hxn hne
  · exact ⟨k, x, by rw [hjobs, getElem?_set_of_some hj, if_neg hk, hx], hxn, hopen, hcancelled ▸ hlive⟩

theorem live_of_kept {p : Job → Bool} (hj : s.jobs[i]? = some j) (hjobs : s'.jobs = s.jobs)
    (hcancelled : s'.cancelled = s.cancelled ++ s.numbers p) (hopen : j.phase ≠ .settled) (hlive : i ∉ s.cancelled) (hp : p j = false) : s'.Live j.nodeId :=
  ⟨i, j, hjobs ▸ hj, rfl, hopen, by rw [hcancelled, mem_cancelled hj]; simp [hlive, hp]⟩

theorem not_unstarted_of_running (h : j.phase = .running) : j.isUnstarted = false := by
  simp [Job.isUnstarted, Job.isWaiting, Job.isSpacing, h]

theorem accounted_dequeue (h : Sound s) (hactive : Accounted s) {n : Nat} (hclean : Clean s (.dequeue n)) :
    Accounted (s.dequeue n) := by
  intro m hm
  have hold : s.activeNodeId = some m := hm
  by_cases hroom : m = n
  · obtain ⟨j, hj, hjn, hrunning⟩ := hclean (hroom ▸ hold)
    obtain ⟨i, hi⟩ := List.mem_iff_getElem?.mp hj
    rw [hroom, ← hjn]
    exact live_of_kept hi rfl rfl (by simp [hrunning]) (h.fresh i j hi hrunning) (by simp [not_unstarted_of_running hrunning])
  · obtain ⟨i, j, hj, rfl, hopen, hlive⟩ := hactive m hold
    exact live_of_kept hj rfl rfl hopen hlive (by simp [hroom])

theorem accounted_clear (h : Sound s) (hclean : Clean s .clear) : Accounted s.clear := by
  intro m hm
  rw [clear_eq] at hm ⊢
  obtain ⟨j, hj, rfl, hcase⟩ := hclean m hm
  obtain ⟨i, hi⟩ := List.mem_iff_getElem?.mp hj
  rcases hcase with hrunning | ⟨hspacing, hfresh⟩
  · exact live_of_kept hi rfl rfl (by simp [hrunning]) (h.fresh i j hi hrunning) (by simp [Job.isWaiting, hrunning])
  · have hlive := not_cancelled h hi (by simp [Job.isUnstarted, hspacing]) hfresh
    cases hphase : j.phase with
    | spacing deadline wakeAt => exact live_of_kept hi rfl rfl (by simp [hphase]) hlive (by simp [Job.isWaiting, hphase])
    | _ => simp [Job.isSpacing, hphase] at hspacing

theorem accounted_enqueue (h : Sound s) (hactive : Accounted s) (n : Nat) : Accounted (s.enqueue n) := by
  have hnew : (s.enqueue n).jobs = s.jobs ++ [{ nodeId := n, gen := (s.bumpJobGeneration n).generation n, before := s.chain }] ∧
      (s.enqueue n).cancelled = s.cancelled ++ (s.numbers fun j => j.nodeId = n && j.isUnstarted) ∧
      (s.enqueue n).activeNodeId = s.activeNodeId := by
    unfold enqueue addPending
    split_ifs <;> exact ⟨rfl, rfl, rfl⟩
  obtain ⟨hjobs, hcancelled, hid⟩ := hnew
  intro m hm
  rw [hid] at hm
  by_cases hroom : m = n
  · refine ⟨s.jobs.length, _, hjobs ▸ List.getElem?_concat_length, hroom.symm, by simp, ?_⟩
    rw [hcancelled]
    intro hmem
    rcases List.mem_append.mp hmem with hold | hnumber
    · exact lt_irrefl _ (h.known _ hold)
    · obtain ⟨j, hj, -⟩ := mem_numbers.mp hnumber
      exact lt_irrefl _ (List.getElem?_eq_some_iff.mp hj).1
  · obtain ⟨i, j, hj, rfl, hopen, hlive⟩ := hactive m hm
    refine ⟨i, j, hjobs ▸ getElem?_concat_of_some hj, rfl, hopen, ?_⟩
    rw [hcancelled, mem_cancelled hj]
    simp [hlive, hroom]

theorem accounted_turn (h : Sound s) (hactive : Accounted s) (i : Nat) : Accounted (s.turn i) := by
  rcases turn_cases s i with heq | ⟨j, hj, hwaiting, -, hcases⟩
  · rw [heq]
    exact hactive
  have hun : j.isUnstarted = true := by simp [Job.isUnstarted, Job.isWaiting, hwaiting]
  have hself : s.isStale j = false → s.Live j.nodeId :=
    fun hfresh => ⟨i, j, hj, rfl, by simp [hwaiting], not_cancelled h hj hun hfresh⟩
  rcases hcases with ⟨hstale, heq⟩ | ⟨hfresh, ⟨-, wakeAt, heq⟩ | ⟨-, heq⟩⟩
  · intro m hm
    rw [heq] at hm
    exact live_put hj (congrArg jobs heq) rfl (by rw [heq]; rfl) (hactive m hm) (.inl ((h.stale i j hj hun).mpr hstale))
  · intro m hm
    rw [heq] at hm
    obtain rfl := Option.some.inj hm
    exact live_put hj (congrArg jobs heq) rfl (by rw [heq]; rfl) (hself hfresh) (.inr (.inl (by simp)))
  · intro m hm
    rw [heq] at hm
    obtain rfl := Option.some.inj hm
    exact live_put hj (congrArg jobs heq) rfl (by rw [heq]; rfl) (hself hfresh) (.inr (.inl (by simp)))

theorem accounted_wake (h : Sound s) (hactive : Accounted s) (i : Nat) : Accounted (s.wake i) := by
  rcases wake_cases s i with heq | ⟨j, deadline, wakeAt, hj, hspacing, hcases⟩
  · rw [heq]
    exact hactive
  have hun : j.isUnstarted = true := by simp [Job.isUnstarted, Job.isSpacing, hspacing]
  rcases hcases with ⟨hstale, heq⟩ | ⟨-, ⟨next, heq⟩ | ⟨-, heq⟩⟩
  · intro m hm
    rw [heq] at hm
    exact live_put hj (congrArg jobs heq) rfl (by rw [heq]; rfl) (hactive m hm) (.inl ((h.stale i j hj hun).mpr hstale))
  · intro m hm
    rw [heq] at hm
    exact live_put hj (congrArg jobs heq) rfl (by rw [heq]; rfl) (hactive m hm) (.inr (.inl (by simp)))
  · intro m hm
    rw [heq] at hm
    exact live_put hj (congrArg jobs heq) rfl (by rw [heq]; rfl) (hactive m hm) (.inr (.inl (by simp)))

theorem accounted_finish (hactive : Accounted s) (i : Nat) (ok : Bool) : Accounted (s.finish i ok) := by
  rcases finish_cases s i ok with heq | ⟨j, hj, -, heq⟩
  · rw [heq]
    exact hactive
  intro m hm
  rw [heq] at hm
  change (if s.activeNodeId = some j.nodeId then none else s.activeNodeId) = some m at hm
  by_cases hid : s.activeNodeId = some j.nodeId
  · rw [if_pos hid] at hm
    cases hm
  · rw [if_neg hid] at hm
    refine live_put hj (congrArg jobs heq) rfl (by rw [heq]; rfl) (hactive m hm) (.inr (.inr ?_))
    rintro rfl
    exact hid hm

theorem accounted_step (h : Sound s) (hactive : Accounted s) {event : Event} (hclean : Clean s event) :
    Accounted (s.step event) := by
  cases event with
  | enqueue n => exact accounted_enqueue h hactive n
  | dequeue n => exact accounted_dequeue h hactive hclean
  | clear => exact accounted_clear h hclean
  | turn i => exact accounted_turn h hactive i
  | wake i => exact accounted_wake h hactive i
  | finish i ok => exact accounted_finish hactive i ok
  | wait ms => exact hactive

-- What the queue promises of a state.
structure Serves (s : Queue) : Prop where
  one : ∀ (i k : Nat) (j j' : Job), s.jobs[i]? = some j → s.jobs[k]? = some j' → j.phase = .running → j'.phase = .running → i = k
  inOrder : ∀ (i k : Nat) (j j' : Job), s.jobs[i]? = some j → s.jobs[k]? = some j' → i < k → 0 < j'.starts → j.phase = .settled
  never : ∀ (i : Nat) (j : Job), s.jobs[i]? = some j → i ∈ s.cancelled → j.starts = 0
  once : ∀ (i : Nat) (j : Job), s.jobs[i]? = some j → i ∉ s.cancelled → j.starts = if j.isUnstarted then 0 else 1
  comesUp : ∀ (i : Nat) (j : Job), s.jobs[i]? = some j → j.phase = .waiting →
    (∀ (k : Nat) (j' : Job), k < i → s.jobs[k]? = some j' → j'.phase = .settled) → s.chainResolved j = true
  queued : ∀ n, s.meshcoreIsRoomLoginQueued n = true ↔ s.Live n
  empty : (∀ j ∈ s.jobs, j.phase = .settled) → s.activeNodeId = none ∧ s.pendingNodeIds = []

-- A login that the step starts keeps the spacing to the logins that succeeded.
def Spaced (s : Queue) (event : Event) : Prop :=
  ∀ (i : Nat) (j j' : Job), s.jobs[i]? = some j → (s.step event).jobs[i]? = some j' → j.starts < j'.starts →
    ∀ t ∈ s.successes, t + MESHCORE_ROOM_SYNC_MIN_MESH_TX_SPACING_MS ≤ s.now

theorem not_unstarted_of_starts (h : Sound s) (hj : s.jobs[i]? = some j) (hstarts : 0 < j.starts) : j.isUnstarted = false := by
  by_contra hun
  have := starts_zero h hj (by simpa using hun)
  omega

theorem queued_iff (h : Sound s) (hactive : Accounted s) (n : Nat) : s.meshcoreIsRoomLoginQueued n = true ↔ s.Live n := by
  unfold meshcoreIsRoomLoginQueued
  rw [Bool.or_eq_true, decide_eq_true_iff, decide_eq_true_iff, h.pending]
  constructor
  · rintro (hid | ⟨i, j, hj, hroom, hwaiting, hlive⟩)
    · exact hactive n hid
    · exact ⟨i, j, hj, hroom, by simp [isWaiting_iff.mp hwaiting], hlive⟩
  · rintro ⟨i, j, hj, rfl, hopen, hlive⟩
    by_cases hwaiting : j.isWaiting = true
    · exact .inr ⟨i, j, hj, rfl, hwaiting, hlive⟩
    · left
      refine h.named i j hj ?_ hlive
      cases hphase : j.phase with
      | waiting => exact absurd (isWaiting_iff.mpr hphase) hwaiting
      | spacing _ _ => simp [Job.isActive, Job.isSpacing, hphase]
      | running => simp [Job.isActive, hphase]
      | settled => exact absurd hphase hopen

theorem serves_of_sound (h : Sound s) (hactive : Accounted s) : Serves s := by
  refine ⟨?_, ?_, ?_, ?_, ?_, queued_iff h hactive, ?_⟩
  · intro i k j j' hj hj' hrunning hrunning'
    exact h.inTurn.running_unique hj hj' rfl (by simp [Line.Running, line, hrunning]) (by simp [Line.Running, line, hrunning'])
  · intro i k j j' hj hj' hlt hstarts
    have hun := not_unstarted_of_starts h hj' hstarts
    refine settled_before h hj' (.inl ?_) hlt hj
    intro hwaiting
    simp [Job.isUnstarted, Job.isWaiting, hwaiting] at hun
  · intro i j hj hcancelled
    rw [h.starts i j hj, if_pos (.inr hcancelled)]
  · intro i j hj hlive
    rw [h.starts i j hj]
    simp [hlive]
  · intro i j hj _ hbefore
    unfold chainResolved
    cases hp : j.before with
    | none => rfl
    | some p =>
        obtain ⟨hlt, y, hy, -⟩ := (h.linked i j hj).1 p hp
        simp [hy, hbefore p y hlt hy]
  · intro hall
    have hdead : ∀ n, ¬ s.Live n := by
      rintro n ⟨i, j, hj, -, hopen, -⟩
      exact hopen (hall j (List.mem_of_getElem? hj))
    constructor
    · rw [Option.eq_none_iff_forall_not_mem]
      intro n hn
      exact hdead n (hactive n hn)
    · rw [List.eq_nil_iff_forall_not_mem]
      intro n hn
      obtain ⟨i, j, hj, hroom, hwaiting, hlive⟩ := (h.pending n).mp hn
      exact hdead n ⟨i, j, hj, hroom, by simp [isWaiting_iff.mp hwaiting], hlive⟩

theorem due_of_waitMs (h : Sound s) (hwait : s.waitMs = 0) :
    ∀ t ∈ s.successes, t + MESHCORE_ROOM_SYNC_MIN_MESH_TX_SPACING_MS ≤ s.now := by
  intro t ht
  obtain ⟨hpos, hlast⟩ := h.clock.2.2 t ht
  have hnow := h.clock.2.1
  unfold waitMs at hwait
  rw [if_pos (by omega)] at hwait
  omega

-- A step that changes the jobs so that one of them starts.
theorem spaced_of_set (hj : s.jobs[i]? = some j) {event : Event} (hjobs : (s.step event).jobs = s.jobs.set i j')
    (hdue : j.starts < j'.starts → ∀ t ∈ s.successes, t + MESHCORE_ROOM_SYNC_MIN_MESH_TX_SPACING_MS ≤ s.now) : Spaced s event := by
  intro k x x' hx hx' hlt
  rw [hjobs, getElem?_set_of_some hj] at hx'
  by_cases hk : k = i
  · subst hk
    rw [if_pos rfl] at hx'
    obtain rfl := Option.some.inj hx'
    obtain rfl := Option.some.inj (hj.symm.trans hx)
    exact hdue hlt
  · rw [if_neg hk] at hx'
    obtain rfl := Option.some.inj (hx.symm.trans hx')
    omega

theorem spaced_of_kept {event : Event} (hkept : ∀ (k : Nat) (x : Job), s.jobs[k]? = some x → (s.step event).jobs[k]? = some x) :
    Spaced s event := by
  intro k x x' hx hx' hlt
  obtain rfl := Option.some.inj ((hkept k x hx).symm.trans hx')
  omega

theorem spaced_step (h : Sound s) (event : Event) : Spaced s event := by
  cases event with
  | enqueue n =>
      refine spaced_of_kept fun k x hx => ?_
      show (s.enqueue n).jobs[k]? = some x
      unfold enqueue addPending
      split_ifs <;> exact getElem?_concat_of_some hx
  | dequeue n => exact spaced_of_kept fun k x hx => hx
  | clear =>
      refine spaced_of_kept fun k x hx => ?_
      show s.clear.jobs[k]? = some x
      rw [clear_eq]
      exact hx
  | turn i =>
      rcases turn_cases s i with heq | ⟨j, hj, -, -, ⟨-, heq⟩ | ⟨-, ⟨-, wakeAt, heq⟩ | ⟨hwait, heq⟩⟩⟩
      · exact spaced_of_kept fun k x hx => by rw [step, heq, hx]
      · exact spaced_of_set hj (congrArg jobs heq) fun hlt => absurd hlt (lt_irrefl _)
      · exact spaced_of_set hj (congrArg jobs heq) fun hlt => absurd hlt (lt_irrefl _)
      · exact spaced_of_set hj (congrArg jobs heq) fun _ => due_of_waitMs h hwait
  | wake i =>
      rcases wake_cases s i with heq | ⟨j, deadline, wakeAt, hj, hspacing, ⟨-, heq⟩ | ⟨-, ⟨next, heq⟩ | ⟨hdue, heq⟩⟩⟩
      · exact spaced_of_kept fun k x hx => by rw [step, heq, hx]
      · exact spaced_of_set hj (congrArg jobs heq) fun hlt => absurd hlt (lt_irrefl _)
      · exact spaced_of_set hj (congrArg jobs heq) fun hlt => absurd hlt (lt_irrefl _)
      · refine spaced_of_set hj (congrArg jobs heq) fun _ t ht => ?_
        have hlast := (h.clock.2.2 t ht).2
        have hdeadline := h.spaced i j deadline wakeAt hj hspacing
        omega
  | finish i ok =>
      rcases finish_cases s i ok with heq | ⟨j, hj, -, heq⟩
      · exact spaced_of_kept fun k x hx => by rw [step, heq, hx]
      · exact spaced_of_set hj (congrArg jobs heq) fun hlt => absurd hlt (lt_irrefl _)
  | wait ms => exact spaced_of_kept fun k x hx => hx

theorem serves_of_clean (events : List Event) (hclean : Each step Clean {} events) :
    Visits step Serves {} events ∧ Each step Spaced {} events := by
  have hstart : Sound {} ∧ Accounted {} := ⟨sound_start, fun n hn => absurd hn (by simp)⟩
  constructor
  · exact @visits_of_each _ _ step (fun s => Sound s ∧ Accounted s) Serves Clean
      (fun s event h hc => ⟨sound_step h.1 hc, accounted_step h.1 h.2 hc⟩) (fun s h => serves_of_sound h.1 h.2) _ _ hclean hstart
  · exact @Each.of_invariant _ _ step (fun s => Sound s ∧ Accounted s) Clean Spaced
      (fun s event h hc => ⟨⟨sound_step h.1 hc, accounted_step h.1 h.2 hc⟩, spaced_step h.1 event⟩) _ _ hclean hstart

instance Clean.decidable (s : Queue) : (event : Event) → Decidable (Clean s event)
  | .dequeue nodeId => inferInstanceAs (Decidable (s.activeNodeId = some nodeId →
      ∃ j ∈ s.jobs, j.nodeId = nodeId ∧ j.phase = .running))
  | .clear => inferInstanceAs (Decidable (∀ nodeId ∈ s.activeNodeId,
      ∃ j ∈ s.jobs, j.nodeId = nodeId ∧ (j.phase = .running ∨ j.isSpacing = true ∧ s.isStale j = false)))
  | .turn i => inferInstanceAs (Decidable (∀ j ∈ s.jobs[i]?, j.isWaiting = true → s.chainResolved j = true →
      s.isStale j = true → ∀ j' ∈ s.jobs, j'.nodeId = j.nodeId → j'.isWaiting = true → s.isStale j' = true))
  | .enqueue _ | .wake _ | .finish _ _ | .wait _ => inferInstanceAs (Decidable True)

-- Room 2 is superseded in its wait, room 3 while it waits for its turn.
def supersededRun : List Event :=
  [.enqueue 1, .turn 0, .enqueue 3, .finish 0 true, .enqueue 2, .dequeue 3, .turn 1, .turn 2, .enqueue 2, .wait 50, .wake 2,
    .turn 3, .wait 60000, .wake 3, .dequeue 2, .finish 3 false]

theorem supersededRun_serves : Visits step Serves {} supersededRun ∧ Each step Spaced {} supersededRun :=
  serves_of_clean supersededRun (by decide)

-- The login of room 2 is dequeued in its spacing wait.
def ghostRun : List Event :=
  [.enqueue 1, .turn 0, .finish 0 true, .enqueue 2, .turn 1, .dequeue 2, .wait 50, .wake 1]

-- The job that the second enqueue of room 2 supersedes takes its turn, then the queue is cleared.
def lostRun : List Event :=
  [.enqueue 1, .turn 0, .enqueue 2, .enqueue 2, .finish 0 false, .turn 1, .clear, .turn 2]

theorem cancelled_in_spacing_is_reported : ¬ Serves (run step {} ghostRun) ∧ ¬ Serves (run step {} lostRun) := by
  constructor
  · intro h
    have hempty := (h.empty (by decide)).1
    exact absurd hempty (by decide)
  · intro h
    have hnever := h.never 2 ⟨2, 2, some 1, .running, 1⟩ (by decide) (by decide)
    exact absurd hnever (by decide)

end MeshClient.Meshcore.RoomLogin.Queue
