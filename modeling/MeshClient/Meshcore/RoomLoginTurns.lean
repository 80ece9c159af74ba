import MeshClient.Meshcore.RoomLoginRuns

namespace MeshClient.Meshcore.RoomLogin.Queue

open Run Turns

variable {s s' : Queue} {i : Nat} {j j' : Job}

theorem turn_cases (s : Queue) (i : Nat) :
    s.turn i = s ∨ ∃ j, s.jobs[i]? = some j ∧ j.phase = .waiting ∧ s.chainResolved j = true ∧
      ((s.isStale j = true ∧ s.turn i = (s.deletePending j.nodeId).put i { j with phase := .settled }) ∨
        s.isStale j = false ∧
          ((0 < s.waitMs ∧ ∃ wakeAt, s.turn i = { s.deletePending j.nodeId with activeNodeId := some j.nodeId }.put i
              { j with phase := .spacing (s.now + s.waitMs) wakeAt }) ∨
            s.waitMs = 0 ∧ s.turn i = { s.deletePending j.nodeId with activeNodeId := some j.nodeId }.put i
              { j with phase := .running, starts := j.starts + 1 })) := by
  unfold turn
  cases hj : s.jobs[i]? with
  | none => exact .inl rfl
  | some j =>
      by_cases hturn : j.phase = .waiting ∧ s.chainResolved j = true
      · refine .inr ⟨j, rfl, hturn.1, hturn.2, ?_⟩
        dsimp only
        rw [if_pos hturn]
        by_cases hstale : s.isStale j = true
        · left
          exact ⟨hstale, if_pos hstale⟩
        · right
          refine ⟨by simpa using hstale, ?_⟩
          rw [if_neg (show ¬ (s.deletePending j.nodeId).isStale j = true from hstale)]
          by_cases hwait : 0 < s.waitMs
          · left
            refine ⟨hwait, s.now + min MESHCORE_ROOM_LOGIN_QUEUE_SKIP_POLL_MS (s.now + s.waitMs - s.now), ?_⟩
            refine (if_pos hwait).trans (if_pos ⟨?_, ?_⟩)
            · show s.now < s.now + s.waitMs
              omega
            · exact Bool.eq_false_of_not_eq_true hstale
          · right
            exact ⟨by omega, (if_neg hwait).trans (if_neg hstale)⟩
      · left
        dsimp only
        rw [if_neg hturn]

theorem wake_cases (s : Queue) (i : Nat) :
    s.wake i = s ∨ ∃ j deadline wakeAt, s.jobs[i]? = some j ∧ j.phase = .spacing deadline wakeAt ∧
      ((s.isStale j = true ∧ s.wake i = s.put i { j with phase := .settled }) ∨
        s.isStale j = false ∧
          ((∃ next, s.wake i = s.put i { j with phase := .spacing deadline next }) ∨
            deadline ≤ s.now ∧ s.wake i = s.put i { j with phase := .running, starts := j.starts + 1 })) := by
  unfold wake
  cases hj : s.jobs[i]? with
  | none => exact .inl rfl
  | some j =>
      cases hphase : j.phase with
      | spacing deadline wakeAt =>
          dsimp only
          rw [hphase]
          dsimp only
          by_cases hdue : wakeAt ≤ s.now
          · refine .inr ⟨j, deadline, wakeAt, rfl, hphase, ?_⟩
            rw [if_pos hdue]
            unfold sleepUnlessStale runUnlessStale
            by_cases hstale : s.isStale j = true
            · left
              simp [hstale]
            · right
              refine ⟨by simpa using hstale, ?_⟩
              by_cases hearly : s.now < deadline
              · left
                exact ⟨_, if_pos ⟨hearly, by simpa using hstale⟩⟩
              · right
                exact ⟨by omega, (if_neg fun hcon => hearly hcon.1).trans (if_neg hstale)⟩
          · left
            rw [if_neg hdue]
      | _ =>
          left
          dsimp only
          rw [hphase]

theorem finish_cases (s : Queue) (i : Nat) (ok : Bool) :
    s.finish i ok = s ∨ ∃ j, s.jobs[i]? = some j ∧ j.phase = .running ∧ s.finish i ok =
      { s.put i { j with phase := .settled } with
        lastMeshLoginTxAt := if ok then s.now else s.lastMeshLoginTxAt
        successes := if ok then s.successes ++ [s.now] else s.successes
        activeNodeId := if s.activeNodeId = some j.nodeId then none else s.activeNodeId } := by
  unfold finish
  cases hj : s.jobs[i]? with
  | none => exact .inl rfl
  | some j =>
      by_cases hrunning : j.phase = .running
      · exact .inr ⟨j, rfl, hrunning, if_pos hrunning⟩
      · exact .inl (if_neg hrunning)

-- The job that has its turn is the only one that may be active.
theorem only_active (h : Sound s) (hj : s.jobs[i]? = some j) (hopen : j.phase ≠ .settled)
    (hturn : j.phase ≠ .waiting ∨ s.chainResolved j = true) {k : Nat} (hj' : s.jobs[k]? = some j') (hact : j'.isActive = true) :
    k = i := by
  rcases Nat.lt_trichotomy k i with hlt | heq | hlt
  · have hsettled := settled_before h hj hturn hlt hj'
    simp [Job.isActive, Job.isSpacing, hsettled] at hact
  · exact heq
  · have hwaiting := waiting_behind h hj hopen hlt hj'
    simp [Job.isActive, Job.isSpacing, hwaiting] at hact

theorem isWaiting_iff : j.isWaiting = true ↔ j.phase = .waiting := decide_eq_true_iff

-- The pending rooms without that of a job whose turn came, when no other of its room waits.
theorem mem_pending_taken (h : Sound s) (hj : s.jobs[i]? = some j) (hphase : j'.phase ≠ .waiting)
    (hrest : ∀ (k : Nat) (x : Job), s.jobs[k]? = some x → x.nodeId = j.nodeId → x.isWaiting = true → k ∉ s.cancelled → k = i)
    (n : Nat) : n ∈ s.pendingNodeIds.filter (· ≠ j.nodeId) ↔
      ∃ (k : Nat) (x : Job), (s.jobs.set i j')[k]? = some x ∧ x.nodeId = n ∧ x.isWaiting = true ∧ k ∉ s.cancelled := by
  rw [List.mem_filter, h.pending, decide_eq_true_iff]
  constructor
  · rintro ⟨⟨k, x, hx, hroom, hwaiting, hlive⟩, hne⟩
    have hk : k ≠ i := by
      rintro rfl
      obtain rfl := Option.some.inj (hj.symm.trans hx)
      exact hne hroom.symm
    exact ⟨k, x, by rw [getElem?_set_of_some hj, if_neg hk, hx], hroom, hwaiting, hlive⟩
  · rintro ⟨k, x, hx, hroom, hwaiting, hlive⟩
    rw [getElem?_set_of_some hj] at hx
    by_cases hk : k = i
    · rw [if_pos hk] at hx
      obtain rfl := Option.some.inj hx
      exact absurd (isWaiting_iff.mp hwaiting) hphase
    · rw [if_neg hk] at hx
      refine ⟨⟨k, x, hx, hroom, hwaiting, hlive⟩, ?_⟩
      rintro rfl
      exact hk (hrest k x hx hroom hwaiting hlive)

theorem mem_pending_kept (h : Sound s) (hj : s.jobs[i]? = some j) (hphase : j.phase ≠ .waiting) (hphase' : j'.phase ≠ .waiting)
    (n : Nat) : n ∈ s.pendingNodeIds ↔
      ∃ (k : Nat) (x : Job), (s.jobs.set i j')[k]? = some x ∧ x.nodeId = n ∧ x.isWaiting = true ∧ k ∉ s.cancelled := by
  rw [h.pending]
  constructor
  · rintro ⟨k, x, hx, hroom, hwaiting, hlive⟩
    have hk : k ≠ i := by
      rintro rfl
      obtain rfl := Option.some.inj (hj.symm.trans hx)
      exact hphase (isWaiting_iff.mp hwaiting)
    exact ⟨k, x, by rw [getElem?_set_of_some hj, if_neg hk, hx], hroom, hwaiting, hlive⟩
  · rintro ⟨k, x, hx, hroom, hwaiting, hlive⟩
    rw [getElem?_set_of_some hj] at hx
    by_cases hk : k = i
    · rw [if_pos hk] at hx
      obtain rfl := Option.some.inj hx
      exact absurd (isWaiting_iff.mp hwaiting) hphase'
    · rw [if_neg hk] at hx
      exact ⟨k, x, hx, hroom, hwaiting, hlive⟩

-- A job that has its turn moves on.
theorem sound_move (h : Sound s) (hj : s.jobs[i]? = some j) (hopen : j.phase ≠ .settled)
    (hturn : j.phase ≠ .waiting ∨ s.chainResolved j = true) (hjobs : s'.jobs = s.jobs.set i j') (hroom : j'.nodeId = j.nodeId)
    (hgen : j'.gen = j.gen) (hbefore : j'.before = j.before) (hchain : s'.chain = s.chain)
    (hgeneration : ∀ n, s'.generation n = s.generation n) (hcancelled : s'.cancelled = s.cancelled)
    (hpending : ∀ n, n ∈ s'.pendingNodeIds ↔
      ∃ (k : Nat) (x : Job), (s.jobs.set i j')[k]? = some x ∧ x.nodeId = n ∧ x.isWaiting = true ∧ k ∉ s.cancelled)
    (hnamed : j'.isActive = true → i ∉ s.cancelled → s'.activeNodeId = some j.nodeId)
    (hunstarted : j'.isUnstarted = true → j.isUnstarted = true) (hfresh : j'.phase = .running → i ∉ s.cancelled)
    (hstarts : j'.starts = if j'.isUnstarted = true ∨ i ∈ s.cancelled then 0 else 1)
    (hspaced : ∀ deadline wakeAt : Nat, j'.phase = .spacing deadline wakeAt →
      s'.lastMeshLoginTxAt + MESHCORE_ROOM_SYNC_MIN_MESH_TX_SPACING_MS ≤ deadline)
    (hclock : 0 < s'.now ∧ s'.lastMeshLoginTxAt ≤ s'.now ∧ ∀ t ∈ s'.successes, 0 < t ∧ t ≤ s'.lastMeshLoginTxAt) :
    Sound s' := by
  have honly : ∀ (k : Nat) (x : Job), s'.jobs[k]? = some x → x.isActive = true → k = i ∧ x = j' := by
    intro k x hx hact
    rw [hjobs, getElem?_set_of_some hj] at hx
    by_cases hk : k = i
    · rw [if_pos hk] at hx
      exact ⟨hk, (Option.some.inj hx).symm⟩
    · rw [if_neg hk] at hx
      exact absurd (only_active h hj hopen hturn hx hact) hk
  refine sound_put h hj hroom hgen hbefore hjobs hchain hgeneration hcancelled (fun hcon => absurd hcon hopen) (fun _ => hturn)
    (by rw [hjobs, hcancelled]; exact hpending) ?_ hunstarted hfresh hstarts ?_ hclock
  · intro k x hx hact hlive
    obtain ⟨rfl, rfl⟩ := honly k x hx hact
    rw [hroom]
    exact hnamed hact (hcancelled ▸ hlive)
  · intro k x deadline wakeAt hx hspacing
    obtain ⟨rfl, rfl⟩ := honly k x hx (by simp [Job.isActive, Job.isSpacing, hspacing])
    exact hspaced deadline wakeAt hspacing

theorem not_cancelled (h : Sound s) (hj : s.jobs[i]? = some j) (hun : j.isUnstarted = true) (hfresh : s.isStale j = false) :
    i ∉ s.cancelled := by
  rw [h.stale i j hj hun, hfresh]
  exact Bool.false_ne_true

theorem starts_zero (h : Sound s) (hj : s.jobs[i]? = some j) (hun : j.isUnstarted = true) : j.starts = 0 := by
  rw [h.starts i j hj, if_pos (.inl hun)]

theorem sound_turn (h : Sound s) (hclean : Clean s (.turn i)) : Sound (s.turn i) := by
  rcases turn_cases s i with heq | ⟨j, hj, hwaiting, hresolved, hcases⟩
  · rw [heq]
    exact h
  have hopen : j.phase ≠ .settled := by simp [hwaiting]
  have hun : j.isUnstarted = true := by simp [Job.isUnstarted, Job.isWaiting, hwaiting]
  have hzero := starts_zero h hj hun
  rcases hcases with ⟨hstale, heq⟩ | ⟨hfresh, hcases⟩
  · have hcancelled := (h.stale i j hj hun).mpr hstale
    rw [heq]
    refine sound_move h hj hopen (.inr hresolved) rfl rfl rfl rfl rfl (fun _ => rfl) rfl ?_ (by simp [Job.isActive, Job.isSpacing])
      (fun _ => hun) (by simp) ?_ (by simp) h.clock
    · refine mem_pending_taken h hj (by simp) ?_
      intro k x hx hroom hwait hlive
      have hstale' := hclean j hj (isWaiting_iff.mpr hwaiting) hresolved hstale x (List.mem_of_getElem? hx) hroom hwait
      exact absurd ((h.stale k x hx (by simp [Job.isUnstarted, hwait])).mpr hstale') hlive
    · rw [if_pos (.inr hcancelled)]
      exact hzero
  · have hlive := not_cancelled h hj hun hfresh
    have hrest : ∀ (k : Nat) (x : Job), s.jobs[k]? = some x → x.nodeId = j.nodeId → x.isWaiting = true → k ∉ s.cancelled → k = i := by
      intro k x hx hroom hwait hlive'
      have hfresh' := mt (h.stale k x hx (by simp [Job.isUnstarted, hwait])).mpr hlive'
      exact fresh_unique h hx hj hroom (by simpa using hfresh') hfresh
    rcases hcases with ⟨hwait, wakeAt, heq⟩ | ⟨hwait, heq⟩
    · rw [heq]
      refine sound_move h hj hopen (.inr hresolved) rfl rfl rfl rfl rfl (fun _ => rfl) rfl ?_ (fun _ _ => rfl)
        (fun _ => hun) (by simp) ?_ ?_ h.clock
      · exact mem_pending_taken h hj (by simp) hrest
      · rw [if_pos (.inl (by simp [Job.isUnstarted, Job.isSpacing]))]
        exact hzero
      · intro deadline next hspacing
        obtain ⟨rfl, -⟩ := Phase.spacing.inj hspacing
        show s.lastMeshLoginTxAt + _ ≤ _
        have hclock := h.clock.2.1
        unfold waitMs at hwait ⊢
        split_ifs at hwait ⊢
        · omega
        · omega
    · rw [heq]
      refine sound_move h hj hopen (.inr hresolved) rfl rfl rfl rfl rfl (fun _ => rfl) rfl ?_ (fun _ _ => rfl)
        (fun _ => hun) (fun _ => hlive) ?_ (by simp) h.clock
      · exact mem_pending_taken h hj (by simp) hrest
      · rw [if_neg (by simp [Job.isUnstarted, Job.isWaiting, Job.isSpacing, hlive])]
        show j.starts + 1 = 1
        rw [hzero]

theorem sound_wake (h : Sound s) (i : Nat) : Sound (s.wake i) := by
  rcases wake_cases s i with heq | ⟨j, deadline, wakeAt, hj, hspacing, hcases⟩
  · rw [heq]
    exact h
  have hopen : j.phase ≠ .settled := by simp [hspacing]
  have hstarted : j.phase ≠ .waiting := by simp [hspacing]
  have hun : j.isUnstarted = true := by simp [Job.isUnstarted, Job.isSpacing, hspacing]
  have hact : j.isActive = true := by simp [Job.isActive, Job.isSpacing, hspacing]
  have hzero := starts_zero h hj hun
  rcases hcases with ⟨hstale, heq⟩ | ⟨hfresh, hcases⟩
  · have hcancelled := (h.stale i j hj hun).mpr hstale
    rw [heq]
    refine sound_move h hj hopen (.inl hstarted) rfl rfl rfl rfl rfl (fun _ => rfl) rfl ?_ (by simp [Job.isActive, Job.isSpacing])
      (fun _ => hun) (by simp) ?_ (by simp) h.clock
    · exact mem_pending_kept h hj hstarted (by simp)
    · rw [if_pos (.inr hcancelled)]
      exact hzero
  · have hlive := not_cancelled h hj hun hfresh
    rcases hcases with ⟨next, heq⟩ | ⟨hdue, heq⟩
    · rw [heq]
      refine sound_move h hj hopen (.inl hstarted) rfl rfl rfl rfl rfl (fun _ => rfl) rfl ?_ (fun _ _ => h.named i j hj hact hlive)
        (fun _ => hun) (by simp) ?_ ?_ h.clock
      · exact mem_pending_kept h hj hstarted (by simp)
      · rw [if_pos (.inl (by simp [Job.isUnstarted, Job.isSpacing]))]
        exact hzero
      · intro deadline' next' hspacing'
        obtain ⟨rfl, -⟩ := Phase.spacing.inj hspacing'
        exact h.spaced i j deadline wakeAt hj hspacing
    · rw [heq]
      refine sound_move h hj hopen (.inl hstarted) rfl rfl rfl rfl rfl (fun _ => rfl) rfl ?_ (fun _ _ => h.named i j hj hact hlive)
        (fun _ => hun) (fun _ => hlive) ?_ (by simp) h.clock
      · exact mem_pending_kept h hj hstarted (by simp)
      · rw [if_neg (by simp [Job.isUnstarted, Job.isWaiting, Job.isSpacing, hlive])]
        show j.starts + 1 = 1
        rw [hzero]

theorem sound_finish (h : Sound s) (i : Nat) (ok : Bool) : Sound (s.finish i ok) := by
  rcases finish_cases s i ok with heq | ⟨j, hj, hrunning, heq⟩
  · rw [heq]
    exact h
  have hopen : j.phase ≠ .settled := by simp [hrunning]
  have hstarted : j.phase ≠ .waiting := by simp [hrunning]
  have hlive := h.fresh i j hj hrunning
  have hone : j.starts = 1 := by
    rw [h.starts i j hj, if_neg (by simp [Job.isUnstarted, Job.isWaiting, Job.isSpacing, hrunning, hlive])]
  obtain ⟨hpos, hlast, hsuccesses⟩ := h.clock
  rw [heq]
  refine sound_move h hj hopen (.inl hstarted) rfl rfl rfl rfl rfl (fun _ => rfl) rfl ?_ (by simp [Job.isActive, Job.isSpacing])
    (by simp [Job.isUnstarted, Job.isWaiting, Job.isSpacing]) (by simp) ?_ (by simp) ⟨hpos, ?_, ?_⟩
  · exact mem_pending_kept h hj hstarted (by simp)
  · rw [if_neg (by simp [Job.isUnstarted, Job.isWaiting, Job.isSpacing, hlive])]
    exact hone
  · show (if ok = true then s.now else s.lastMeshLoginTxAt) ≤ s.now
    split_ifs
    · exact le_refl _
    · exact hlast
  · intro t ht
    show 0 < t ∧ t ≤ if ok = true then s.now else s.lastMeshLoginTxAt
    cases ok with
    | true =>
        rcases List.mem_append.mp ht with hold | hnew
        · exact ⟨(hsuccesses t hold).1, le_trans (hsuccesses t hold).2 hlast⟩
        · obtain rfl := List.mem_singleton.mp hnew
          exact ⟨hpos, le_refl _⟩
    | false => exact hsuccesses t ht

theorem sound_wait (h : Sound s) (ms : Nat) : Sound { s with now := s.now + ms } := by
  obtain ⟨hpos, hlast, hsuccesses⟩ := h.clock
  exact ⟨h.linked, h.inTurn, h.tail, h.pending, h.named, h.stale, h.fresh, h.starts, h.gens, h.bound, h.known, h.spaced,
    Nat.lt_add_right ms hpos, Nat.le_add_right_of_le hlast, hsuccesses⟩

theorem sound_step (h : Sound s) {event : Event} (hclean : Clean s event) : Sound (s.step event) := by
  cases event with
  | enqueue n => exact sound_enqueue h n
  | dequeue n => exact sound_dequeue h n
  | clear => exact sound_clear h
  | turn i => exact sound_turn h hclean
  | wake i => exact sound_wake h i
  | finish i ok => exact sound_finish h i ok
  | wait ms => exact sound_wait h ms

end MeshClient.Meshcore.RoomLogin.Queue
