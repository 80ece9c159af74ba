import MeshClient.OfflineMaps.DownloaderJobs

namespace MeshClient.OfflineMaps

def Callback.isFinal : Callback → Bool
  | .progress _ => false
  | .done _ | .error => true

def Turn.finals (turn : Turn) : List Callback := turn.callbacks.filter Callback.isFinal

namespace ActiveJob

def region (jobId : ℕ) (job : ActiveJob) : Region := ⟨jobId, job.request, job.completed⟩

-- The final callbacks and the regions of a job, by where it stands.
def Booked (jobId : ℕ) (job : ActiveJob) (finals : List Callback) (regions : List Region) : Prop :=
  match job.phase with
  | .waiting _ _ | .fetching _ | .writing => finals = [] ∧ regions = []
  | .written stored => finals = [] ∧ regions = if stored then [job.region jobId] else []
  | .ended =>
      finals = [.done job.result] ∧ (job.cancelled = false → regions = [job.region jobId]) ∨ finals = [.error] ∧ regions = []

-- The same for a job that is not cancelled while its region is written.
def Undisturbed (job : ActiveJob) (regions : List Region) : Prop :=
  match job.phase with
  | .waiting _ _ | .fetching _ => True
  | .writing | .written _ => job.cancelled = false
  | .ended => job.cancelled = true → regions = []

section Booked

variable {jobId concurrency : ℕ} {online : Bool} {job : ActiveJob}

theorem loopTop_booked (jobId : ℕ) (job : ActiveJob) (concurrency : ℕ) (online : Bool) :
    Booked jobId (job.loopTop concurrency online).job (job.loopTop concurrency online).finals [] ∧
      Undisturbed (job.loopTop concurrency online).job [] ∧ (job.loopTop concurrency online).stored = false := by
  unfold loopTop
  split_ifs with hgo honline hcancelled
  · exact ⟨⟨rfl, rfl⟩, trivial, rfl⟩
  · exact ⟨⟨rfl, rfl⟩, trivial, rfl⟩
  · exact ⟨⟨rfl, rfl⟩, (by simpa using hcancelled : job.cancelled = false), rfl⟩
  · refine ⟨.inl ⟨rfl, fun hrunning => ?_⟩, fun _ => rfl, rfl⟩
    simp only [Bool.not_eq_true', Bool.not_eq_false] at hcancelled
    exact absurd (hcancelled.symm.trans hrunning) (by decide)

theorem thenTop_booked (jobId : ℕ) (job : ActiveJob) (concurrency : ℕ) (online : Bool) :
    Booked jobId (job.thenTop concurrency online).job (job.thenTop concurrency online).finals [] ∧
      Undisturbed (job.thenTop concurrency online).job [] ∧ (job.thenTop concurrency online).stored = false := by
  have hfinals : (job.thenTop concurrency online).finals = (job.loopTop concurrency online).finals := rfl
  rw [hfinals]
  exact loopTop_booked jobId job concurrency online

-- What is stored is the region of the job as it is then.
def storedRegions (jobId : ℕ) (turn : Turn) : List Region := if turn.stored then [turn.job.region jobId] else []

theorem Booked.turn {finals : List Callback} {regions : List Region} (h : Booked jobId job finals regions) {turn : Turn}
    (hturned : Turned job concurrency online turn) :
    Booked jobId turn.job (finals ++ turn.finals) (regions ++ storedRegions jobId turn) := by
  unfold Booked at h
  cases hturned with
  | answered batch i flight answered hphase hflight hstage hanswered =>
      rw [hphase] at h
      obtain ⟨rfl, rfl⟩ := h
      exact ⟨rfl, rfl⟩
  | timer levels timer hphase =>
      rw [hphase] at h
      obtain ⟨rfl, rfl⟩ := h
      cases timer <;> simp only [Booked, timerFires] <;> split_ifs <;> exact ⟨rfl, rfl⟩
  | unwound levels hphase =>
      rw [hphase] at h
      obtain ⟨rfl, rfl⟩ := h
      exact ⟨rfl, rfl⟩
  | manifest ok hphase =>
      rw [hphase] at h
      obtain ⟨rfl, rfl⟩ := h
      exact ⟨rfl, rfl⟩
  | brokeOff hphase hcancelled =>
      rw [hphase] at h
      obtain ⟨rfl, rfl⟩ := h
      refine .inl ⟨rfl, fun hrunning => ?_⟩
      exact absurd (hcancelled.symm.trans hrunning) (by decide)
  | resumed hphase hcancelled =>
      rw [hphase] at h
      obtain ⟨rfl, rfl⟩ := h
      obtain ⟨hbooked, -, hstored⟩ := thenTop_booked jobId { job with paused := false } concurrency online
      rw [storedRegions, hstored]
      exact hbooked
  | settled batch hphase hover =>
      rw [hphase] at h
      obtain ⟨rfl, rfl⟩ := h
      obtain ⟨hbooked, -, hstored⟩ := thenTop_booked jobId job concurrency online
      rw [storedRegions, hstored]
      exact hbooked
  | stored hphase =>
      rw [hphase] at h
      obtain ⟨rfl, rfl⟩ := h
      exact .inl ⟨rfl, fun _ => rfl⟩
  | notStored hphase =>
      rw [hphase] at h
      obtain ⟨rfl, rfl⟩ := h
      exact .inr ⟨rfl, rfl⟩

theorem Undisturbed.turn {finals : List Callback} {regions : List Region} (hbooked : Booked jobId job finals regions)
    (h : Undisturbed job regions) {turn : Turn} (hturned : Turned job concurrency online turn) :
    Undisturbed turn.job (regions ++ storedRegions jobId turn) := by
  unfold Booked at hbooked
  unfold Undisturbed at h
  cases hturned with
  | answered batch i flight answered hphase hflight hstage hanswered => trivial
  | timer levels timer hphase => cases timer <;> simp only [Undisturbed, timerFires] <;> split_ifs <;> trivial
  | unwound levels hphase => trivial
  | manifest ok hphase =>
      rw [hphase] at h
      exact h
  | brokeOff hphase hcancelled =>
      rw [hphase] at hbooked
      rw [hbooked.2]
      exact fun _ => rfl
  | resumed hphase hcancelled =>
      rw [hphase] at hbooked
      obtain ⟨-, hundisturbed, hstored⟩ := thenTop_booked jobId { job with paused := false } concurrency online
      rw [hbooked.2, storedRegions, hstored]
      exact hundisturbed
  | settled batch hphase hover =>
      rw [hphase] at hbooked
      obtain ⟨-, hundisturbed, hstored⟩ := thenTop_booked jobId job concurrency online
      rw [hbooked.2, storedRegions, hstored]
      exact hundisturbed
  | stored hphase =>
      rw [hphase] at h
      exact fun hcancelled => absurd (hcancelled.symm.trans h) (by decide)
  | notStored hphase =>
      rw [hphase] at hbooked
      rw [hbooked.2]
      exact fun _ => rfl

theorem Booked.cancel {finals : List Callback} {regions : List Region} (h : Booked jobId job finals regions)
    (hopen : job.phase ≠ .ended) : Booked jobId job.cancel finals regions := by
  unfold Booked at h ⊢
  simp only [ActiveJob.cancel]
  cases hphase : job.phase <;> rw [hphase] at h
  case ended => exact absurd hphase hopen
  all_goals exact h

theorem Undisturbed.cancel {regions : List Region} (hopen : job.looping = true) : Undisturbed job.cancel regions := by
  unfold Undisturbed
  simp only [ActiveJob.cancel]
  cases hphase : job.phase <;> rw [looping, hphase] at hopen
  case waiting => trivial
  case fetching => trivial
  all_goals cases hopen

theorem not_turned_of_ended (hended : job.phase = .ended) {turn : Turn} : ¬ Turned job concurrency online turn := by
  intro hturned
  cases hturned <;> simp_all

end Booked

def timersLeft : Option Timer → ℕ
  | some .poll => 2
  | some .debounce => 1
  | none => 0

def phaseLeft : Phase → ℕ
  | .waiting levels timer => 4 + levels + timersLeft timer
  | .fetching batch => 3 + (batch.map fun flight => answersLeft flight.stage).sum
  | .writing => 2
  | .written _ => 1
  | .ended => 0

-- How many turns a job has left at most while it is online.
def turnsLeft (job : ActiveJob) : ℕ := 7 * job.queue.length + phaseLeft job.phase

section Ends

variable {concurrency : ℕ} {online : Bool} {job : ActiveJob}

theorem loopTop_turnsLeft (hconcurrency : 0 < concurrency) (h : online = true ∨ job.cancelled = true) :
    (job.loopTop concurrency online).job.turnsLeft < 7 * job.queue.length + 3 := by
  unfold loopTop
  split_ifs with hgo honline hcancelled
  · rw [Bool.and_eq_true, Bool.not_eq_true'] at hgo
    rcases h with h | h
    · simp [h] at honline
    · simp [h] at hgo
  · rw [Bool.and_eq_true, Bool.not_eq_true', decide_eq_true_eq] at hgo
    have hsum : (((job.queue.take concurrency).map job.fetchOne).map fun flight => answersLeft flight.stage).sum =
        (job.queue.take concurrency).length * 4 := by
      rw [List.map_map, ← smul_eq_mul, ← List.sum_replicate, ← List.map_const']
      refine congrArg List.sum (List.map_congr_left fun tile _ => ?_)
      simp [fetchOne, hgo.1, answersLeft]
    have hpos := List.length_pos_iff.mpr hgo.2
    simp only [turnsLeft, phaseLeft, hsum, List.length_drop, List.length_take]
    omega
  · simp only [turnsLeft, phaseLeft]
    omega
  · simp only [finish, turnsLeft, phaseLeft]
    omega

theorem Answered.answersLeft_lt {flight : Flight} (hstage : flight.stage ≠ .over) (h : online = true ∨ job.cancelled = true)
    {answered : ActiveJob × Stage} (hanswered : Answered job online flight answered) :
    answersLeft answered.2 < answersLeft flight.stage ∧ answered.1.queue = job.queue := by
  have hover : answersLeft .over < answersLeft flight.stage := by
    cases hcase : flight.stage <;> simp [answersLeft, hcase] at hstage ⊢
  cases hanswered with
  | moved stage hmoved hless => exact ⟨hless, rfl⟩
  | completed byteLength => exact ⟨hover, rfl⟩
  | failed => exact ⟨hover, rfl⟩
  | putBack hcancelled honline =>
      rcases h with h | h
      · exact absurd (h.symm.trans honline) (by decide)
      · exact absurd (h.symm.trans hcancelled) (by decide)
  | givenUp hcancelled => exact ⟨hover, rfl⟩

theorem timerFires_left (h : online = true ∨ job.cancelled = true) (levels : ℕ) (timer : Timer) :
    phaseLeft (job.timerFires online levels timer) < phaseLeft (.waiting levels (some timer)) := by
  cases timer with
  | poll =>
      simp only [timerFires]
      split_ifs with hcancelled honline
      · simp only [phaseLeft, timersLeft]
        omega
      · simp only [phaseLeft, timersLeft]
        omega
      · exact absurd (h.resolve_right hcancelled) honline
  | debounce =>
      simp only [timerFires]
      split_ifs with hcancelled honline
      · simp only [phaseLeft, timersLeft]
        omega
      · have hon := h.resolve_right hcancelled
        simp [hon] at honline
      · simp only [phaseLeft, timersLeft]
        omega

-- Every turn that is taken online brings the job nearer to its end.
theorem Turned.turnsLeft_lt (hconcurrency : 0 < concurrency) (h : online = true ∨ job.cancelled = true) {turn : Turn}
    (hturned : Turned job concurrency online turn) : turn.job.turnsLeft < job.turnsLeft := by
  have hphaseLeft : ∀ {phase}, job.phase = phase → job.turnsLeft = 7 * job.queue.length + phaseLeft phase := by
    rintro phase rfl
    rfl
  have hfinish : job.finish.job.turnsLeft = 7 * job.queue.length := rfl
  cases hturned with
  | answered batch i flight answered hphase hflight hstage hanswered =>
      obtain ⟨front, back, hbatch, hset⟩ := set_split hflight ⟨flight.tile, answered.2⟩
      obtain ⟨hless, hqueue⟩ := hanswered.answersLeft_lt hstage h
      rw [hphaseLeft hphase, hbatch]
      simp only [ActiveJob.turnsLeft, hqueue, ← hbatch, hset, phaseLeft]
      simp only [hbatch, List.map_append, List.map_cons, List.sum_append, List.sum_cons]
      omega
  | timer levels timer hphase =>
      rw [hphaseLeft hphase]
      exact Nat.add_lt_add_left (timerFires_left h levels timer) _
  | unwound levels hphase =>
      rw [hphaseLeft hphase]
      simp only [ActiveJob.turnsLeft, phaseLeft]
      omega
  | manifest ok hphase =>
      rw [hphaseLeft hphase]
      simp only [ActiveJob.turnsLeft, phaseLeft]
      omega
  | brokeOff hphase hcancelled =>
      rw [hphaseLeft hphase, hfinish, phaseLeft]
      omega
  | resumed hphase hcancelled =>
      have hless := @loopTop_turnsLeft _ online { job with paused := false } hconcurrency h
      rw [hphaseLeft hphase, phaseLeft, timersLeft]
      exact hless.trans (Nat.lt_succ_self _)
  | settled batch hphase hover =>
      have hless := loopTop_turnsLeft hconcurrency h
      rw [hphaseLeft hphase, phaseLeft]
      exact hless.trans_le (by omega)
  | stored hphase =>
      rw [hphaseLeft hphase, hfinish, phaseLeft]
      omega
  | notStored hphase =>
      rw [hphaseLeft hphase]
      simp only [ActiveJob.turnsLeft, phaseLeft]
      omega

theorem exists_answer (job : ActiveJob) (online : Bool) {flight : Flight} (hstage : flight.stage ≠ .over) :
    ∃ a answered, job.fetchAnswer online flight a = some answered := by
  obtain ⟨tile, stage⟩ := flight
  cases stage with
  | cache => exact ⟨.cached none, _, rfl⟩
  | response => exact ⟨.rejected, _, rfl⟩
  | body => exact ⟨.rejected, _, rfl⟩
  | store byteLength => exact ⟨.rejected, _, rfl⟩
  | _ => exact absurd rfl hstage

-- A job that is not over always waits for something that can come.
theorem exists_turn (job : ActiveJob) (concurrency : ℕ) (online : Bool) (h : job.phase ≠ .ended) :
    ∃ e turn, job.turn concurrency online e = some turn := by
  simp only [← Option.isSome_iff_exists]
  cases hphase : job.phase with
  | waiting levels timer =>
      cases timer with
      | some timer => exact ⟨.timer, by simp only [ActiveJob.turn, hphase, Option.isSome_some]⟩
      | none =>
          cases levels with
          | zero =>
              refine ⟨.resume, ?_⟩
              simp only [ActiveJob.turn, hphase]
              split_ifs <;> rfl
          | succ levels => exact ⟨.unwind, by simp only [ActiveJob.turn, hphase, Option.isSome_some]⟩
  | fetching batch =>
      by_cases hover : (batch.all fun flight => flight.stage = .over) = true
      · exact ⟨.resume, by simp only [ActiveJob.turn, hphase, if_pos hover, Option.isSome_some]⟩
      · simp only [List.all_eq_true, decide_eq_true_eq, not_forall] at hover
        obtain ⟨flight, hmem, hstage⟩ := hover
        obtain ⟨i, hflight⟩ := List.mem_iff_getElem?.mp hmem
        obtain ⟨a, answered, hanswered⟩ := exists_answer job online hstage
        refine ⟨.answer i a, ?_⟩
        simp only [ActiveJob.turn, hphase, hflight, hanswered, Option.map_some, Option.isSome_some]
  | writing => exact ⟨.manifest true, by simp only [ActiveJob.turn, hphase, Option.isSome_some]⟩
  | written stored => exact ⟨.resume, by simp only [ActiveJob.turn, hphase, Option.isSome_some]⟩
  | ended => exact absurd hphase h

end Ends

end ActiveJob

end MeshClient.OfflineMaps
