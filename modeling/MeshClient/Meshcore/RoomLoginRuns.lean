import MeshClient.Meshcore.RoomLoginQueue

namespace MeshClient.Meshcore.RoomLogin

open Run Turns

-- All jobs are in one lane.
def line : Line Job Unit where
  lane _ := ()
  before j := j.before
  started j := j.phase ≠ .waiting
  settled j := j.phase = .settled
  started_of_settled j h := by simp [h]

namespace Queue

variable {s s' : Queue} {i : Nat} {j j' : Job}

-- A job of the room waits, is in its spacing wait or runs, and was not cancelled.
def Live (s : Queue) (nodeId : Nat) : Prop :=
  ∃ (i : Nat) (j : Job), s.jobs[i]? = some j ∧ j.nodeId = nodeId ∧ j.phase ≠ .settled ∧ i ∉ s.cancelled

structure Sound (s : Queue) : Prop where
  linked : line.Linked s.jobs
  inTurn : line.InTurn s.jobs
  tail : line.Tail s.jobs () s.chain
  pending : ∀ n, n ∈ s.pendingNodeIds ↔
    ∃ (i : Nat) (j : Job), s.jobs[i]? = some j ∧ j.nodeId = n ∧ j.isWaiting = true ∧ i ∉ s.cancelled
  named : ∀ (i : Nat) (j : Job), s.jobs[i]? = some j → j.isActive = true → i ∉ s.cancelled → s.activeNodeId = some j.nodeId
  stale : ∀ (i : Nat) (j : Job), s.jobs[i]? = some j → j.isUnstarted = true → (i ∈ s.cancelled ↔ s.isStale j = true)
  fresh : ∀ (i : Nat) (j : Job), s.jobs[i]? = some j → j.phase = .running → i ∉ s.cancelled
  starts : ∀ (i : Nat) (j : Job), s.jobs[i]? = some j →
    j.starts = if j.isUnstarted = true ∨ i ∈ s.cancelled then 0 else 1
  gens : ∀ (i k : Nat) (j j' : Job), s.jobs[i]? = some j → s.jobs[k]? = some j' → i < k → j.nodeId = j'.nodeId → j.gen < j'.gen
  bound : ∀ (i : Nat) (j : Job), s.jobs[i]? = some j → j.gen ≤ s.generation j.nodeId
  known : ∀ i ∈ s.cancelled, i < s.jobs.length
  spaced : ∀ (i : Nat) (j : Job) (deadline wakeAt : Nat), s.jobs[i]? = some j → j.phase = .spacing deadline wakeAt →
    s.lastMeshLoginTxAt + MESHCORE_ROOM_SYNC_MIN_MESH_TX_SPACING_MS ≤ deadline
  clock : 0 < s.now ∧ s.lastMeshLoginTxAt ≤ s.now ∧ ∀ t ∈ s.successes, 0 < t ∧ t ≤ s.lastMeshLoginTxAt

theorem sound_start : Sound {} := by
  refine ⟨?_, ?_, tail_nil (), ?_, ?_, ?_, ?_, ?_, ?_, ?_, ?_, ?_, ?_⟩ <;> simp [Line.Linked, Line.InTurn]

-- A room is dequeued, or the queue cleared, while `activeNodeId` is all that is left of its job, or
-- a cancelled job takes its turn before another of its room: what the other steps are not.
def Clean (s : Queue) : Event → Prop
  | .dequeue nodeId => s.activeNodeId = some nodeId → ∃ j ∈ s.jobs, j.nodeId = nodeId ∧ j.phase = .running
  | .clear => ∀ nodeId ∈ s.activeNodeId,
      ∃ j ∈ s.jobs, j.nodeId = nodeId ∧ (j.phase = .running ∨ j.isSpacing = true ∧ s.isStale j = false)
  | .turn i => ∀ j ∈ s.jobs[i]?, j.isWaiting = true → s.chainResolved j = true → s.isStale j = true →
      ∀ j' ∈ s.jobs, j'.nodeId = j.nodeId → j'.isWaiting = true → s.isStale j' = true
  | _ => True

theorem free_of_chainResolved (h : s.chainResolved j = true) : line.Free s.jobs j := by
  intro p hp
  have hp' : j.before = some p := hp
  simp only [chainResolved, hp', Option.all_some] at h
  obtain ⟨y, hy, hsettled⟩ := (Option.any_eq_true _ _).mp h
  exact ⟨y, hy, by simpa [line] using hsettled⟩

-- In its turn a job has only settled ones before it.
theorem settled_before (h : Sound s) (hj : s.jobs[i]? = some j) (hturn : j.phase ≠ .waiting ∨ s.chainResolved j = true)
    {k : Nat} (hk : k < i) (hj' : s.jobs[k]? = some j') : j'.phase = .settled := by
  rcases hturn with hstarted | hresolved
  · exact h.inTurn i j hj hstarted k j' hj' hk rfl
  · exact h.inTurn.settled_before h.linked hj (free_of_chainResolved hresolved) hj' hk rfl

-- A job that is not settled has only waiting ones behind it.
theorem waiting_behind (h : Sound s) (hj : s.jobs[i]? = some j) (hopen : j.phase ≠ .settled) {k : Nat} (hk : i < k)
    (hj' : s.jobs[k]? = some j') : j'.phase = .waiting := by
  by_contra hstarted
  exact hopen (h.inTurn k j' hj' hstarted i j hj hk rfl)

-- The change of one job that keeps its room, its generation and its place in the chain.
theorem sound_put (h : Sound s) (hj : s.jobs[i]? = some j) (hroom : j'.nodeId = j.nodeId) (hgen : j'.gen = j.gen)
    (hbefore : j'.before = j.before) (hjobs : s'.jobs = s.jobs.set i j') (hchain : s'.chain = s.chain)
    (hgeneration : ∀ n, s'.generation n = s.generation n) (hcancelled : s'.cancelled = s.cancelled)
    (hsettled : j.phase = .settled → j'.phase = .settled)
    (hturn : j'.phase ≠ .waiting → j.phase ≠ .waiting ∨ s.chainResolved j = true)
    (hpending : ∀ n, n ∈ s'.pendingNodeIds ↔
      ∃ (i : Nat) (j : Job), s'.jobs[i]? = some j ∧ j.nodeId = n ∧ j.isWaiting = true ∧ i ∉ s'.cancelled)
    (hnamed : ∀ (k : Nat) (x : Job), s'.jobs[k]? = some x → x.isActive = true → k ∉ s'.cancelled →
      s'.activeNodeId = some x.nodeId)
    (hunstarted : j'.isUnstarted = true → j.isUnstarted = true) (hfresh : j'.phase = .running → i ∉ s.cancelled)
    (hstarts : j'.starts = if j'.isUnstarted = true ∨ i ∈ s.cancelled then 0 else 1)
    (hspaced : ∀ (k : Nat) (x : Job) (deadline wakeAt : Nat), s'.jobs[k]? = some x → x.phase = .spacing deadline wakeAt →
      s'.lastMeshLoginTxAt + MESHCORE_ROOM_SYNC_MIN_MESH_TX_SPACING_MS ≤ deadline)
    (hclock : 0 < s'.now ∧ s'.lastMeshLoginTxAt ≤ s'.now ∧ ∀ t ∈ s'.successes, 0 < t ∧ t ≤ s'.lastMeshLoginTxAt) :
    Sound s' := by
  have hcases : ∀ {k : Nat} {x : Job}, s'.jobs[k]? = some x → (k ≠ i ∧ s.jobs[k]? = some x) ∨ (k = i ∧ x = j') := by
    intro k x hx
    rw [hjobs, getElem?_set_of_some hj] at hx
    by_cases hk : k = i
    · rw [if_pos hk] at hx
      exact .inr ⟨hk, (Option.some.inj hx).symm⟩
    · rw [if_neg hk] at hx
      exact .inl ⟨hk, hx⟩
  have hstale : ∀ x : Job, s'.isStale x = s.isStale x := fun x => by rw [isStale, isStale, hgeneration]
  refine ⟨?_, ?_, ?_, hpending, hnamed, ?_, ?_, ?_, ?_, ?_, ?_, hspaced, hclock⟩
  · rw [hjobs]
    exact h.linked.set hj rfl hbefore
  · rw [hjobs]
    refine h.inTurn.set h.linked hj rfl hsettled ?_
    intro hstarted
    exact (hturn hstarted).imp id free_of_chainResolved
  · rw [hjobs, hchain]
    exact h.tail.set hj rfl
  · intro k x hx hun
    rw [hcancelled, hstale]
    rcases hcases hx with ⟨-, hold⟩ | ⟨rfl, rfl⟩
    · exact h.stale k x hold hun
    · rw [h.stale k j hj (hunstarted hun), isStale, isStale, hroom, hgen]
  · intro k x hx hact
    rw [hcancelled]
    rcases hcases hx with ⟨-, hold⟩ | ⟨rfl, rfl⟩
    · exact h.fresh k x hold hact
    · exact hfresh hact
  · intro k x hx
    rw [hcancelled]
    rcases hcases hx with ⟨-, hold⟩ | ⟨rfl, rfl⟩
    · exact h.starts k x hold
    · exact hstarts
  · intro k l x y hx hy hkl hrooms
    rcases hcases hx with ⟨-, hx⟩ | ⟨rfl, rfl⟩
    · rcases hcases hy with ⟨-, hy⟩ | ⟨rfl, rfl⟩
      · exact h.gens k l x y hx hy hkl hrooms
      · rw [hgen]
        exact h.gens k l x j hx hj hkl (hrooms.trans hroom)
    · rcases hcases hy with ⟨-, hy⟩ | ⟨rfl, rfl⟩
      · rw [hgen]
        exact h.gens k l j y hj hy hkl (hroom.symm.trans hrooms)
      · omega
  · intro k x hx
    rw [hgeneration]
    rcases hcases hx with ⟨-, hold⟩ | ⟨rfl, rfl⟩
    · exact h.bound k x hold
    · rw [hgen, hroom]
      exact h.bound k j hj
  · rw [hcancelled, hjobs, List.length_set]
    exact h.known

theorem mem_numbers {p : Job → Bool} : i ∈ s.numbers p ↔ ∃ j, s.jobs[i]? = some j ∧ p j = true := by
  unfold numbers
  rw [List.mem_filter, List.mem_range, Option.any_eq_true]
  constructor
  · exact And.right
  · rintro ⟨j, hj, hp⟩
    exact ⟨(List.getElem?_eq_some_iff.mp hj).1, j, hj, hp⟩

theorem mem_cancelled {p : Job → Bool} (hj : s.jobs[i]? = some j) :
    i ∈ s.cancelled ++ s.numbers p ↔ i ∈ s.cancelled ∨ p j = true := by
  rw [List.mem_append, mem_numbers]
  constructor
  · rintro (hold | ⟨j', hj', hpj⟩)
    · exact .inl hold
    · obtain rfl := Option.some.inj (hj.symm.trans hj')
      exact .inr hpj
  · rintro (hold | hpj)
    · exact .inl hold
    · exact .inr ⟨j, hj, hpj⟩

theorem isStale_of_le (h : j.gen ≤ s.generation j.nodeId) : s.isStale j = true ↔ j.gen < s.generation j.nodeId := by
  rw [isStale, decide_eq_true_iff]
  omega

-- Jobs that have not started are cancelled and their rooms have a new generation.
theorem sound_cancel (h : Sound s) {p : Job → Bool} (hp : ∀ j ∈ s.jobs, p j = true → j.isUnstarted = true)
    (hjobs : s'.jobs = s.jobs) (hchain : s'.chain = s.chain) (hcancelled : s'.cancelled = s.cancelled ++ s.numbers p)
    (hactive : s'.activeNodeId = s.activeNodeId) (hlast : s'.lastMeshLoginTxAt = s.lastMeshLoginTxAt)
    (hnow : s'.now = s.now) (hsuccesses : s'.successes = s.successes) (hgrows : ∀ n, s.generation n ≤ s'.generation n)
    (hbumped : ∀ (i : Nat) (j : Job), s.jobs[i]? = some j → j.isUnstarted = true → i ∉ s.cancelled →
      (p j = true ↔ s.generation j.nodeId < s'.generation j.nodeId))
    (hpending : ∀ n, n ∈ s'.pendingNodeIds ↔
      ∃ (i : Nat) (j : Job), s.jobs[i]? = some j ∧ j.nodeId = n ∧ j.isWaiting = true ∧ i ∉ s.cancelled ∧ p j = false) :
    Sound s' := by
  have hmem : ∀ {i : Nat} {j : Job}, s.jobs[i]? = some j → (i ∈ s'.cancelled ↔ i ∈ s.cancelled ∨ p j = true) :=
    fun hj => hcancelled ▸ mem_cancelled hj
  have hstale : ∀ {i : Nat} {j : Job}, s.jobs[i]? = some j → (s'.isStale j = true ↔ j.gen < s'.generation j.nodeId) := by
    intro i j hj
    exact isStale_of_le (le_trans (h.bound i j hj) (hgrows _))
  refine ⟨by rw [hjobs]; exact h.linked, by rw [hjobs]; exact h.inTurn, by rw [hjobs, hchain]; exact h.tail, ?_, ?_, ?_, ?_,
    ?_, by rw [hjobs]; exact h.gens, ?_, ?_, by rw [hjobs, hlast]; exact h.spaced, by rw [hnow, hlast, hsuccesses]; exact h.clock⟩
  · intro n
    rw [hpending, hjobs]
    constructor
    · rintro ⟨i, j, hj, hroom, hwaiting, hlive, hpj⟩
      exact ⟨i, j, hj, hroom, hwaiting, by rw [hmem hj]; simp [hlive, hpj]⟩
    · rintro ⟨i, j, hj, hroom, hwaiting, hlive⟩
      rw [hmem hj, not_or] at hlive
      exact ⟨i, j, hj, hroom, hwaiting, hlive.1, by simpa using hlive.2⟩
  · rw [hactive, hjobs]
    intro i j hj hact hlive
    rw [hmem hj, not_or] at hlive
    exact h.named i j hj hact hlive.1
  · rw [hjobs]
    intro i j hj hun
    rw [hmem hj, hstale hj]
    have hbound := h.bound i j hj
    have hgrow := hgrows j.nodeId
    by_cases hold : i ∈ s.cancelled
    · have hbefore := (isStale_of_le hbound).mp ((h.stale i j hj hun).mp hold)
      exact iff_of_true (.inl hold) (by omega)
    · have hbefore : ¬ j.gen < s.generation j.nodeId := by
        rw [← isStale_of_le hbound, ← h.stale i j hj hun]
        exact hold
      rw [hbumped i j hj hun hold]
      constructor
      · rintro (hcon | hlt)
        · exact absurd hcon hold
        · omega
      · intro hlt
        exact .inr (by omega)
  · rw [hjobs]
    intro i j hj hact
    rw [hmem hj, not_or]
    refine ⟨h.fresh i j hj hact, ?_⟩
    intro hpj
    have hun := hp j (List.mem_of_getElem? hj) hpj
    simp [Job.isUnstarted, Job.isWaiting, Job.isSpacing, hact] at hun
  · rw [hjobs]
    intro i j hj
    rw [h.starts i j hj]
    have hiff : (j.isUnstarted = true ∨ i ∈ s'.cancelled) ↔ (j.isUnstarted = true ∨ i ∈ s.cancelled) := by
      rw [hmem hj]
      constructor
      · rintro (hun | hold | hpj)
        · exact .inl hun
        · exact .inr hold
        · exact .inl (hp j (List.mem_of_getElem? hj) hpj)
      · rintro (hun | hold)
        · exact .inl hun
        · exact .inr (.inl hold)
    simp only [hiff]
  · rw [hjobs]
    intro i j hj
    exact le_trans (h.bound i j hj) (hgrows _)
  · rw [hcancelled, hjobs]
    intro i hi
    rcases List.mem_append.mp hi with hold | hnew
    · exact h.known i hold
    · obtain ⟨j, hj, -⟩ := mem_numbers.mp hnew
      exact (List.getElem?_eq_some_iff.mp hj).1

theorem generation_bump (n m : Nat) :
    (s.bumpJobGeneration n).generation m = if m = n then s.generation n + 1 else s.generation m := by
  unfold bumpJobGeneration generation
  dsimp only
  rw [OrderedMap.get?_set]
  split_ifs <;> rfl

theorem le_generation_bump (n m : Nat) : s.generation m ≤ (s.bumpJobGeneration n).generation m := by
  rw [generation_bump]
  split_ifs with heq
  · subst heq
    exact Nat.le_succ _
  · exact le_refl _

theorem lt_generation_bump {n m : Nat} : s.generation m < (s.bumpJobGeneration n).generation m ↔ m = n := by
  rw [generation_bump]
  split_ifs with heq
  · subst heq
    exact iff_of_true (Nat.lt_succ_self _) rfl
  · exact iff_of_false (lt_irrefl _) heq

theorem sound_dequeue (h : Sound s) (n : Nat) : Sound (s.dequeue n) := by
  refine sound_cancel (p := fun j => j.nodeId = n && j.isUnstarted) h ?_ rfl rfl rfl rfl rfl rfl rfl ?_ ?_ ?_
  · intro j hj hpj
    exact (Bool.and_eq_true _ _ ▸ hpj : _ ∧ _).2
  · intro m
    exact le_generation_bump (s := s) n m
  · intro i j hj hun _
    show _ ↔ s.generation j.nodeId < (s.bumpJobGeneration n).generation j.nodeId
    rw [lt_generation_bump]
    simp [hun]
  · intro m
    show m ∈ (s.pendingNodeIds.filter (· ≠ n)) ↔ _
    rw [List.mem_filter, h.pending]
    constructor
    · rintro ⟨⟨i, j, hj, hroom, hwaiting, hlive⟩, hne⟩
      refine ⟨i, j, hj, hroom, hwaiting, hlive, ?_⟩
      have hother : j.nodeId ≠ n := by
        rw [hroom]
        simpa using hne
      simp [hother]
    · rintro ⟨i, j, hj, hroom, hwaiting, hlive, hpj⟩
      refine ⟨⟨i, j, hj, hroom, hwaiting, hlive⟩, ?_⟩
      rw [← hroom, decide_eq_true_iff]
      intro heq
      simp [heq, Job.isUnstarted, hwaiting] at hpj

-- A room's newest generation is that of one job at most.
theorem fresh_unique (h : Sound s) {k : Nat} (hj : s.jobs[i]? = some j) (hj' : s.jobs[k]? = some j')
    (hroom : j.nodeId = j'.nodeId) (hfresh : s.isStale j = false) (hfresh' : s.isStale j' = false) : i = k := by
  have hgen : j.gen = j'.gen := by
    simp only [isStale, decide_eq_false_iff_not, not_not] at hfresh hfresh'
    rw [← hfresh, ← hfresh', hroom]
  rcases Nat.lt_trichotomy i k with hlt | heq | hlt
  · have := h.gens i k j j' hj hj' hlt hroom
    omega
  · exact heq
  · have := h.gens k i j' j hj' hj hlt hroom.symm
    omega

theorem foldl_bump_eq (ns : List Nat) (s : Queue) :
    ns.foldl bumpJobGeneration s = { s with jobGenerationByNode := (ns.foldl bumpJobGeneration s).jobGenerationByNode } := by
  induction ns generalizing s with
  | nil => rfl
  | cons n rest ih => exact ih (s.bumpJobGeneration n)

theorem le_generation_foldl (ns : List Nat) (s : Queue) (m : Nat) :
    s.generation m ≤ (ns.foldl bumpJobGeneration s).generation m := by
  induction ns generalizing s with
  | nil => exact le_refl _
  | cons n rest ih => exact le_trans (le_generation_bump n m) (ih _)

theorem lt_generation_foldl {ns : List Nat} {s : Queue} {m : Nat} :
    s.generation m < (ns.foldl bumpJobGeneration s).generation m ↔ m ∈ ns := by
  induction ns generalizing s with
  | nil => exact iff_of_false (lt_irrefl _) List.not_mem_nil
  | cons n rest ih =>
      rw [List.mem_cons, ← ih (s := s.bumpJobGeneration n), List.foldl_cons]
      have hfirst := le_generation_bump (s := s) n m
      have hrest := le_generation_foldl rest (s.bumpJobGeneration n) m
      by_cases heq : m = n
      · have := lt_generation_bump (s := s).mpr heq
        exact iff_of_true (by omega) (.inl heq)
      · have := (lt_generation_bump (s := s)).not.mpr heq
        rw [or_iff_right heq]
        omega

theorem clear_eq (s : Queue) :
    s.clear = { s.cancel Job.isWaiting with
      jobGenerationByNode := (s.pendingNodeIds.foldl bumpJobGeneration (s.cancel Job.isWaiting)).jobGenerationByNode
      pendingNodeIds := [] } := by
  show { s.pendingNodeIds.foldl bumpJobGeneration (s.cancel Job.isWaiting) with pendingNodeIds := [] } = _
  rw [foldl_bump_eq]

theorem sound_clear (h : Sound s) : Sound s.clear := by
  have hgeneration : ∀ m, s.clear.generation m = (s.pendingNodeIds.foldl bumpJobGeneration (s.cancel Job.isWaiting)).generation m :=
    fun _ => rfl
  rw [clear_eq] at *
  refine sound_cancel (p := Job.isWaiting) h ?_ rfl rfl rfl rfl rfl rfl rfl ?_ ?_ ?_
  · intro j _ hpj
    simp [Job.isUnstarted, hpj]
  · intro m
    rw [hgeneration]
    exact le_generation_foldl s.pendingNodeIds (s.cancel Job.isWaiting) m
  · intro i j hj hun hlive
    rw [hgeneration]
    refine Iff.trans ?_ (lt_generation_foldl (s := s.cancel Job.isWaiting)).symm
    rw [h.pending]
    constructor
    · intro hwaiting
      exact ⟨i, j, hj, rfl, hwaiting, hlive⟩
    · rintro ⟨k, j', hj', hroom, hwaiting, hlive'⟩
      have hfresh := mt (h.stale i j hj hun).mpr hlive
      have hfresh' := mt (h.stale k j' hj' (by simp [Job.isUnstarted, hwaiting])).mpr hlive'
      obtain rfl := fresh_unique h hj hj' hroom.symm (by simpa using hfresh) (by simpa using hfresh')
      obtain rfl := Option.some.inj (hj.symm.trans hj')
      exact hwaiting
  · intro m
    simp only [List.not_mem_nil, false_iff]
    rintro ⟨i, j, -, -, hwaiting, -, hpj⟩
    simp [hwaiting] at hpj

-- A new job, of the newest generation of its room.
theorem sound_append (h : Sound s) (hjobs : s'.jobs = s.jobs ++ [j]) (hbefore : j.before = s.chain) (hphase : j.phase = .waiting)
    (hstarts : j.starts = 0) (hgen : j.gen = s.generation j.nodeId)
    (hnewest : ∀ (k : Nat) (x : Job), s.jobs[k]? = some x → x.nodeId = j.nodeId → x.gen < j.gen)
    (hchain : s'.chain = some s.jobs.length) (hgeneration : ∀ n, s'.generation n = s.generation n)
    (hcancelled : s'.cancelled = s.cancelled) (hactive : s'.activeNodeId = s.activeNodeId)
    (hlast : s'.lastMeshLoginTxAt = s.lastMeshLoginTxAt) (hnow : s'.now = s.now) (hsuccesses : s'.successes = s.successes)
    (hpending : ∀ n, n ∈ s'.pendingNodeIds ↔ n ∈ s.pendingNodeIds ∨ n = j.nodeId) : Sound s' := by
  have hcases : ∀ {k : Nat} {x : Job}, s'.jobs[k]? = some x → s.jobs[k]? = some x ∨ k = s.jobs.length ∧ x = j := by
    intro k x hx
    rw [hjobs] at hx
    exact getElem?_concat_cases hx
  have hstale : ∀ x : Job, s'.isStale x = s.isStale x := fun x => by rw [isStale, isStale, hgeneration]
  have hlive : s.jobs.length ∉ s.cancelled := fun hmem => lt_irrefl _ (h.known _ hmem)
  refine ⟨?_, ?_, ?_, ?_, ?_, ?_, ?_, ?_, ?_, ?_, ?_, ?_, by rw [hnow, hlast, hsuccesses]; exact h.clock⟩
  · rw [hjobs]
    refine h.linked.concat ?_
    rw [show line.before j = s.chain from hbefore]
    exact h.tail
  · rw [hjobs]
    exact h.inTurn.concat (by simp [line, hphase])
  · rw [hjobs, hchain]
    exact tail_concat_self (l := line)
  · intro n
    rw [hpending, h.pending, hcancelled, hjobs]
    constructor
    · rintro (⟨k, x, hx, hroom, hwaiting, hk⟩ | rfl)
      · exact ⟨k, x, getElem?_concat_of_some hx, hroom, hwaiting, hk⟩
      · exact ⟨s.jobs.length, j, List.getElem?_concat_length, rfl, by simp [Job.isWaiting, hphase], hlive⟩
    · rintro ⟨k, x, hx, hroom, hwaiting, hk⟩
      obtain hx | ⟨-, rfl⟩ := getElem?_concat_cases hx
      · exact .inl ⟨k, x, hx, hroom, hwaiting, hk⟩
      · exact .inr hroom.symm
  · intro k x hx hact hk
    rw [hcancelled] at hk
    rw [hactive]
    obtain hx | ⟨-, rfl⟩ := hcases hx
    · exact h.named k x hx hact hk
    · simp [Job.isActive, Job.isSpacing, hphase] at hact
  · intro k x hx hun
    rw [hcancelled, hstale]
    obtain hx | ⟨rfl, rfl⟩ := hcases hx
    · exact h.stale k x hx hun
    · exact iff_of_false hlive (by simp [isStale, hgen])
  · intro k x hx hrunning
    rw [hcancelled]
    obtain hx | ⟨rfl, rfl⟩ := hcases hx
    · exact h.fresh k x hx hrunning
    · exact hlive
  · intro k x hx
    rw [hcancelled]
    obtain hx | ⟨rfl, rfl⟩ := hcases hx
    · exact h.starts k x hx
    · simp [hstarts, Job.isUnstarted, Job.isWaiting, hphase]
  · intro k l x y hx hy hkl hrooms
    obtain hx | ⟨rfl, rfl⟩ := hcases hx
    · obtain hy | ⟨rfl, rfl⟩ := hcases hy
      · exact h.gens k l x y hx hy hkl hrooms
      · exact hnewest k x hx hrooms
    · obtain hy | ⟨rfl, rfl⟩ := hcases hy
      · have := (List.getElem?_eq_some_iff.mp hy).1
        omega
      · omega
  · intro k x hx
    rw [hgeneration]
    obtain hx | ⟨rfl, rfl⟩ := hcases hx
    · exact h.bound k x hx
    · exact le_of_eq hgen
  · intro k hk
    rw [hjobs, List.length_append]
    rw [hcancelled] at hk
    have := h.known k hk
    omega
  · intro k x deadline wakeAt hx hspacing
    rw [hlast]
    obtain hx | ⟨rfl, rfl⟩ := hcases hx
    · exact h.spaced k x deadline wakeAt hx hspacing
    · rw [hphase] at hspacing
      cases hspacing

theorem sound_enqueue (h : Sound s) (n : Nat) : Sound (s.enqueue n) := by
  have hadd : ∀ t : Queue, t.addPending n = { t with pendingNodeIds := (t.addPending n).pendingNodeIds } := by
    intro t
    unfold addPending
    split_ifs <;> rfl
  have hmem : ∀ t : Queue, ∀ m, m ∈ (t.addPending n).pendingNodeIds ↔ m ∈ t.pendingNodeIds ∨ m = n := by
    intro t m
    unfold addPending
    split_ifs with hold
    · exact ⟨.inl, fun hm => hm.elim id (fun heq => heq ▸ hold)⟩
    · simp
  have heq : s.enqueue n = { (s.cancel fun j => j.nodeId = n && j.isUnstarted).bumpJobGeneration n with
      pendingNodeIds := (((s.cancel fun j => j.nodeId = n && j.isUnstarted).bumpJobGeneration n).addPending n).pendingNodeIds
      jobs := s.jobs ++ [{ nodeId := n, gen := (s.bumpJobGeneration n).generation n, before := s.chain }]
      chain := some s.jobs.length } := by
    unfold enqueue
    rw [hadd]
    rfl
  rw [heq]
  refine sound_append (sound_dequeue h n) rfl rfl rfl rfl rfl ?_ rfl (fun _ => rfl) rfl rfl rfl rfl rfl ?_
  · intro k x hx hroom
    have hbound := h.bound k x hx
    have hlt := lt_generation_bump (s := s) (n := n).mpr hroom
    have heq : x.nodeId = n := hroom
    rw [heq] at hbound hlt
    exact lt_of_le_of_lt hbound hlt
  · intro m
    show m ∈ _ ↔ m ∈ s.pendingNodeIds.filter (· ≠ n) ∨ m = n
    rw [hmem, List.mem_filter]
    by_cases hm : m = n
    · exact iff_of_true (.inr hm) (.inr hm)
    · simp [hm]
      rfl

end Queue

end MeshClient.Meshcore.RoomLogin
