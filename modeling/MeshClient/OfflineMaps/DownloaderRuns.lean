import MeshClient.Lib.FirstStep
import MeshClient.OfflineMaps.DownloaderEnds
import MeshClient.OfflineMaps.TileRegion

namespace MeshClient.OfflineMaps.OfflineMapsDownloader

open Run ActiveJob

def callbacksOf (s : OfflineMapsDownloader) (jobId : ℕ) : List Callback :=
  (s.callbacks.filter fun c => c.1 = jobId).map Prod.snd

def finalsOf (s : OfflineMapsDownloader) (jobId : ℕ) : List Callback := (s.callbacksOf jobId).filter Callback.isFinal

def regionsOf (s : OfflineMapsDownloader) (jobId : ℕ) : List Region := s.regions.filter fun r => r.id = jobId

-- What is kept of every job, and that nothing is kept of jobs that do not exist yet.
structure Sound (formula : TileFormula) (s : OfflineMapsDownloader) : Prop where
  accounted : ∀ (i : ℕ) (job : ActiveJob), s.jobs[i]? = some job →
    Accounted s.concurrency (regionTiles formula job.request) job
  booked : ∀ (i : ℕ) (job : ActiveJob), s.jobs[i]? = some job → Booked i job (s.finalsOf i) (s.regionsOf i)
  fresh : ∀ i : ℕ, s.jobs.length ≤ i → s.callbacksOf i = [] ∧ s.regionsOf i = []

section Tables

variable {s : OfflineMapsDownloader} {i j : ℕ}

theorem filter_map_own (i : ℕ) (callbacks : List Callback) :
    ((callbacks.map fun c => (i, c)).filter fun c => c.1 = i).map Prod.snd = callbacks := by
  rw [List.filter_eq_self.mpr]
  · simp
  · intro c hc
    obtain ⟨_, _, rfl⟩ := List.mem_map.mp hc
    exact decide_eq_true rfl

theorem filter_map_other (h : i ≠ j) (callbacks : List Callback) :
    ((callbacks.map fun c => (j, c)).filter fun c => c.1 = i) = [] := by
  rw [List.filter_eq_nil_iff]
  intro c hc
  obtain ⟨_, _, rfl⟩ := List.mem_map.mp hc
  simpa using Ne.symm h

theorem callbacksOf_take (turn : Turn) :
    (s.take j turn).callbacksOf i = s.callbacksOf i ++ if i = j then turn.callbacks else [] := by
  rw [callbacksOf, take, List.filter_append, List.map_append]
  split_ifs with h
  · subst h
    rw [filter_map_own]
    rfl
  · rw [filter_map_other h]
    rfl

theorem regionsOf_take (turn : Turn) :
    (s.take j turn).regionsOf i = s.regionsOf i ++ if i = j then storedRegions i turn else [] := by
  rw [regionsOf, take, List.filter_append]
  congr 1
  by_cases hstored : turn.stored = true
  · by_cases h : i = j
    · subst h
      simp [storedRegions, hstored, region]
    · simp [hstored, h, Ne.symm h]
  · by_cases h : i = j <;> simp [storedRegions, hstored, h]

theorem finalsOf_take (turn : Turn) :
    (s.take j turn).finalsOf i = s.finalsOf i ++ if i = j then turn.finals else [] := by
  rw [finalsOf, callbacksOf_take, List.filter_append]
  congr 1
  split_ifs <;> rfl

theorem jobs_set {job : ActiveJob} (hjob : s.jobs[j]? = some job) (job' : ActiveJob) (i : ℕ) :
    (s.jobs.set j job')[i]? = if i = j then some job' else s.jobs[i]? := by
  rw [List.getElem?_set]
  by_cases h : i = j
  · rw [if_pos h.symm, if_pos h, if_pos (List.getElem?_eq_some_iff.mp hjob).1]
  · rw [if_neg (Ne.symm h), if_neg h]

theorem jobs_take {job : ActiveJob} (hjob : s.jobs[j]? = some job) (turn : Turn) :
    (s.take j turn).jobs[i]? = if i = j then some turn.job else s.jobs[i]? := jobs_set hjob turn.job i

end Tables

theorem loopTop_request (job : ActiveJob) (concurrency : ℕ) (online : Bool) :
    (job.loopTop concurrency online).job.request = job.request := by
  unfold loopTop
  split_ifs <;> rfl

theorem turn_request {job : ActiveJob} {concurrency : ℕ} {online : Bool} {turn : Turn}
    (h : Turned job concurrency online turn) :
    turn.job.request = job.request := by
  cases h with
  | answered batch i flight answered hphase hflight hstage hanswered => cases hanswered <;> rfl
  | resumed hphase hcancelled => exact loopTop_request _ concurrency online
  | settled batch hphase hover => exact loopTop_request job concurrency online
  | _ => rfl

-- A turn of one job.
theorem Sound.take {formula : TileFormula} {s : OfflineMapsDownloader} (h : Sound formula s) {j : ℕ} {job : ActiveJob}
    (hjob : s.jobs[j]? = some job) {turn : Turn} (hturned : Turned job s.concurrency s.online turn) :
    Sound formula (s.take j turn) where
  accounted := by
    intro i job' hjob'
    rw [jobs_take hjob] at hjob'
    split_ifs at hjob' with hij
    · obtain rfl := Option.some.inj hjob'
      rw [turn_request hturned]
      exact (h.accounted j job hjob).turn hturned
    · exact h.accounted i job' hjob'
  booked := by
    intro i job' hjob'
    rw [jobs_take hjob] at hjob'
    rw [finalsOf_take, regionsOf_take]
    split_ifs at hjob' ⊢ with hij
    · obtain rfl := Option.some.inj hjob'
      subst hij
      exact (h.booked i job hjob).turn hturned
    · rw [List.append_nil, List.append_nil]
      exact h.booked i job' hjob'
  fresh := by
    intro i hi
    have hlength : (s.take j turn).jobs.length = s.jobs.length := List.length_set
    have hne : i ≠ j := by
      have hj := (List.getElem?_eq_some_iff.mp hjob).1
      omega
    rw [callbacksOf_take, regionsOf_take, if_neg hne, if_neg hne, List.append_nil, List.append_nil]
    exact h.fresh i (hlength ▸ hi)

-- A new job is accounted for before its first turn.
theorem accounted_newJob {formula : TileFormula} {req : OfflineMapsDownloadRequest} {job : ActiveJob}
    (h : newJob formula req = some job) (concurrency : ℕ) :
    Accounted concurrency (regionTiles formula job.request) job ∧ job.inFlight = [] := by
  unfold newJob at h
  simp only at h
  split_ifs at h
  obtain rfl := Option.some.inj h
  refine ⟨⟨rfl, rfl, ⟨[], ?_, fun _ => rfl⟩, ?_, fun hloop => by cases hloop⟩, rfl⟩
  · simp [inFlight, tilesOf]
  · intro batch hbatch
    obtain rfl := Phase.fetching.inj hbatch
    exact Nat.zero_le _

theorem start_cases (formula : TileFormula) (s : OfflineMapsDownloader) (req : OfflineMapsDownloadRequest) :
    s.start formula req = s ∨ ∃ job, newJob formula req = some job ∧ s.start formula req =
      { s with
        jobs := s.jobs ++ [(job.loopTop s.concurrency s.online).job]
        callbacks := s.callbacks ++ (job.loopTop s.concurrency s.online).callbacks.map fun c => (s.jobs.length, c) } := by
  unfold start
  cases hjob : newJob formula req with
  | none => exact .inl rfl
  | some job => exact .inr ⟨job, rfl, rfl⟩

theorem Sound.start {formula : TileFormula} {s : OfflineMapsDownloader} (h : Sound formula s)
    (req : OfflineMapsDownloadRequest) :
    Sound formula (s.start formula req) := by
  rcases start_cases formula s req with hsame | ⟨job, hjob, hstart⟩
  · rw [hsame]
    exact h
  obtain ⟨haccounted, hidle⟩ := accounted_newJob hjob s.concurrency
  obtain ⟨hbooked, -, -⟩ := loopTop_booked s.jobs.length job s.concurrency s.online
  have hnew := haccounted.loopTop hidle s.online
  obtain ⟨hnone, hregions⟩ := h.fresh s.jobs.length (Nat.le_refl _)
  have hcallbacks : ∀ i, (s.start formula req).callbacksOf i =
      s.callbacksOf i ++ if i = s.jobs.length then (job.loopTop s.concurrency s.online).callbacks else [] := by
    intro i
    rw [hstart, callbacksOf, List.filter_append, List.map_append]
    split_ifs with hi
    · rw [hi, filter_map_own]
      rfl
    · rw [filter_map_other hi]
      rfl
  have hregionsOf : ∀ i, (s.start formula req).regionsOf i = s.regionsOf i := by
    intro i
    rw [hstart]
    rfl
  have hjobs : ∀ i, (s.start formula req).jobs[i]? =
      if i = s.jobs.length then some (job.loopTop s.concurrency s.online).job else s.jobs[i]? := by
    intro i
    rw [hstart, List.getElem?_append]
    split_ifs with hlt hi hi
    · omega
    · rfl
    · rw [hi, Nat.sub_self]
      rfl
    · rw [List.getElem?_eq_none (by rw [List.length_singleton]; omega), List.getElem?_eq_none (by omega)]
  constructor
  · intro i job' hjob'
    rw [hjobs] at hjob'
    have hconcurrency : (s.start formula req).concurrency = s.concurrency := by rw [hstart]
    rw [hconcurrency]
    split_ifs at hjob' with hi
    · obtain rfl := Option.some.inj hjob'
      rw [loopTop_request]
      exact hnew
    · exact h.accounted i job' hjob'
  · intro i job' hjob'
    rw [hjobs] at hjob'
    rw [finalsOf, hcallbacks, hregionsOf]
    split_ifs at hjob' ⊢ with hi
    · obtain rfl := Option.some.inj hjob'
      rw [hi, hnone, hregions]
      exact hbooked
    · rw [List.append_nil]
      exact h.booked i job' hjob'
  · intro i hi
    have hlength : (s.start formula req).jobs.length = s.jobs.length + 1 := by
      rw [hstart, List.length_append]
      rfl
    rw [hcallbacks, hregionsOf, if_neg (by omega), List.append_nil]
    exact h.fresh i (by omega)

theorem cancel_cases (s : OfflineMapsDownloader) (j : ℕ) :
    s.cancel j = s ∨ ∃ job, s.jobs[j]? = some job ∧ job.phase ≠ .ended ∧
      s.cancel j = { s with jobs := s.jobs.set j job.cancel } := by
  unfold cancel
  cases hjob : s.jobs[j]? with
  | none => exact .inl rfl
  | some job =>
      simp only
      split_ifs with hended
      · exact .inl rfl
      · exact .inr ⟨job, rfl, hended, rfl⟩

theorem Sound.cancel {formula : TileFormula} {s : OfflineMapsDownloader} (h : Sound formula s) (j : ℕ) :
    Sound formula (s.cancel j) := by
  rcases cancel_cases s j with hsame | ⟨job, hjob, hopen, hcancel⟩
  · rw [hsame]
    exact h
  rw [hcancel]
  constructor
  · intro i job' hjob'
    rw [jobs_set hjob] at hjob'
    split_ifs at hjob' with hi
    · obtain rfl := Option.some.inj hjob'
      exact (h.accounted j job hjob).cancel
    · exact h.accounted i job' hjob'
  · intro i job' hjob'
    rw [jobs_set hjob] at hjob'
    split_ifs at hjob' with hi
    · obtain rfl := Option.some.inj hjob'
      subst hi
      exact (h.booked i job hjob).cancel hopen
    · exact h.booked i job' hjob'
  · intro i hi
    exact h.fresh i (List.length_set ▸ hi)

-- What a job event does.
theorem job_cases (formula : TileFormula) (s : OfflineMapsDownloader) (j : ℕ) (e : JobEvent) :
    s.step formula (.job j e) = s ∨ ∃ job turn, s.jobs[j]? = some job ∧ job.turn s.concurrency s.online e = some turn ∧
      s.step formula (.job j e) = s.take j turn := by
  cases hturn : (s.jobs[j]?).bind fun job => job.turn s.concurrency s.online e with
  | none => exact .inl (by simp only [step, hturn])
  | some turn =>
      obtain ⟨job, hjob, hjobTurn⟩ := Option.bind_eq_some_iff.mp hturn
      exact .inr ⟨job, turn, hjob, hjobTurn, by simp only [step, hturn]⟩

theorem Sound.step {formula : TileFormula} {s : OfflineMapsDownloader} (h : Sound formula s) (e : Event) :
    Sound formula (s.step formula e) := by
  cases e with
  | online b => exact ⟨h.accounted, h.booked, h.fresh⟩
  | start req => exact h.start req
  | cancel j => exact h.cancel j
  | job j e =>
      rcases job_cases formula s j e with hsame | ⟨job, turn, hjob, hturn, htake⟩
      · rw [hsame]
        exact h
      · rw [htake]
        exact h.take hjob (turn_turned hturn)

theorem sound_start (formula : TileFormula) (concurrency : ℕ) (online : Bool) : Sound formula { concurrency, online } where
  accounted := fun i job h => by simp at h
  booked := fun i job h => by simp at h
  fresh := fun i _ => ⟨rfl, rfl⟩

-- What one event does to a job that exists.
theorem step_job (formula : TileFormula) {s : OfflineMapsDownloader} {i : ℕ} {job : ActiveJob} (hjob : s.jobs[i]? = some job)
    (e : Event) :
    ∃ job', (s.step formula e).jobs[i]? = some job' ∧
      ((job' = job ∧ (s.step formula e).callbacksOf i = s.callbacksOf i ∧ (s.step formula e).regionsOf i = s.regionsOf i) ∨
        (e = .cancel i ∧ job.phase ≠ .ended ∧ job' = job.cancel ∧ (s.step formula e).callbacksOf i = s.callbacksOf i ∧
          (s.step formula e).regionsOf i = s.regionsOf i) ∨
        ∃ turn, Turned job s.concurrency s.online turn ∧ job' = turn.job ∧
          (s.step formula e).callbacksOf i = s.callbacksOf i ++ turn.callbacks ∧
          (s.step formula e).regionsOf i = s.regionsOf i ++ storedRegions i turn) := by
  cases e with
  | online b => exact ⟨job, hjob, .inl ⟨rfl, rfl, rfl⟩⟩
  | start req =>
      rw [show s.step formula (.start req) = s.start formula req from rfl]
      rcases start_cases formula s req with hsame | ⟨new, hnew, hstart⟩
      · rw [hsame]
        exact ⟨job, hjob, .inl ⟨rfl, rfl, rfl⟩⟩
      · have hi := (List.getElem?_eq_some_iff.mp hjob).1
        rw [hstart]
        refine ⟨job, (List.getElem?_append_left hi).trans hjob, .inl ⟨rfl, ?_, rfl⟩⟩
        rw [callbacksOf, List.filter_append, List.map_append, filter_map_other (by omega)]
        exact List.append_nil _
  | cancel j =>
      rw [show s.step formula (.cancel j) = s.cancel j from rfl]
      rcases cancel_cases s j with hsame | ⟨other, hother, hopen, hcancel⟩
      · rw [hsame]
        exact ⟨job, hjob, .inl ⟨rfl, rfl, rfl⟩⟩
      · rw [hcancel]
        have hset := jobs_set hother other.cancel i
        by_cases hi : i = j
        · subst hi
          obtain rfl := Option.some.inj (hjob.symm.trans hother)
          exact ⟨job.cancel, hset.trans (if_pos rfl), .inr (.inl ⟨rfl, hopen, rfl, rfl, rfl⟩)⟩
        · exact ⟨job, (hset.trans (if_neg hi)).trans hjob, .inl ⟨rfl, rfl, rfl⟩⟩
  | job j e =>
      rcases job_cases formula s j e with hsame | ⟨other, turn, hother, hturn, htake⟩
      · rw [hsame]
        exact ⟨job, hjob, .inl ⟨rfl, rfl, rfl⟩⟩
      · rw [htake, jobs_take hother, callbacksOf_take, regionsOf_take]
        by_cases hi : i = j
        · subst hi
          obtain rfl := Option.some.inj (hjob.symm.trans hother)
          rw [if_pos rfl, if_pos rfl, if_pos rfl]
          exact ⟨turn.job, rfl, .inr (.inr ⟨turn, turn_turned hturn, rfl, rfl, rfl⟩)⟩
        · rw [if_neg hi, if_neg hi, if_neg hi, List.append_nil, List.append_nil]
          exact ⟨job, hjob, .inl ⟨rfl, rfl, rfl⟩⟩

-- Nothing is reported of a job that is over, and nothing of it changes.
theorem ended_run (formula : TileFormula) {s : OfflineMapsDownloader} {i : ℕ} {job : ActiveJob}
    (hjob : s.jobs[i]? = some job)
    (hended : job.phase = .ended) (events : List Event) :
    (run (step formula) s events).jobs[i]? = some job ∧ (run (step formula) s events).callbacksOf i = s.callbacksOf i ∧
      (run (step formula) s events).regionsOf i = s.regionsOf i := by
  induction events generalizing s with
  | nil => exact ⟨hjob, rfl, rfl⟩
  | cons e rest ih =>
      obtain ⟨job', hjob', hcases⟩ := step_job formula hjob e
      rcases hcases with ⟨rfl, hcallbacks, hregions⟩ | ⟨-, hopen, -⟩ | ⟨turn, hturned, -⟩
      · obtain ⟨hrun, hcallbacks', hregions'⟩ := ih hjob'
        exact ⟨hrun, hcallbacks'.trans hcallbacks, hregions'.trans hregions⟩
      · exact absurd hended hopen
      · exact absurd hturned (not_turned_of_ended hended)

-- The job is not cancelled while its region is written.
def Calm (i : ℕ) (s : OfflineMapsDownloader) (e : Event) : Prop :=
  e = .cancel i → ∀ job : ActiveJob, s.jobs[i]? = some job → job.phase ≠ .ended → job.looping = true

-- A job that did not exist before has been started.
theorem step_new (formula : TileFormula) {s : OfflineMapsDownloader} {i : ℕ} (hnone : s.jobs[i]? = none) {e : Event}
    {job : ActiveJob}
    (hjob : (s.step formula e).jobs[i]? = some job) :
    (∃ new : ActiveJob, job = (new.loopTop s.concurrency s.online).job) ∧
      (s.step formula e).regionsOf i = s.regionsOf i := by
  have hset : ∀ {j : ℕ} {other : ActiveJob}, s.jobs[j]? = some other → ∀ other', (s.jobs.set j other')[i]? = none := by
    intro j other hother other'
    have hlength := List.getElem?_eq_none_iff.mp hnone
    exact List.getElem?_eq_none_iff.mpr (List.length_set.trans_le hlength)
  cases e with
  | online b => exact absurd (hnone.symm.trans hjob) (by simp)
  | start req =>
      rw [show s.step formula (.start req) = s.start formula req from rfl] at hjob ⊢
      rcases start_cases formula s req with hsame | ⟨new, hnew, hstart⟩
      · rw [hsame, hnone] at hjob
        cases hjob
      · rw [hstart] at hjob ⊢
        simp only at hjob
        rw [List.getElem?_append_right (List.getElem?_eq_none_iff.mp hnone), List.getElem?_singleton] at hjob
        split_ifs at hjob with hi
        exact ⟨⟨new, (Option.some.inj hjob).symm⟩, rfl⟩
  | cancel j =>
      rw [show s.step formula (.cancel j) = s.cancel j from rfl] at hjob ⊢
      rcases cancel_cases s j with hsame | ⟨other, hother, hopen, hcancel⟩
      · rw [hsame, hnone] at hjob
        cases hjob
      · rw [hcancel] at hjob
        exact absurd ((hset hother other.cancel).symm.trans hjob) (by simp)
  | job j e =>
      rcases job_cases formula s j e with hsame | ⟨other, turn, hother, hturn, htake⟩
      · rw [hsame, hnone] at hjob
        cases hjob
      · rw [htake] at hjob
        exact absurd ((hset hother turn.job).symm.trans hjob) (by simp)

theorem undisturbed_step {formula : TileFormula} {s : OfflineMapsDownloader} {i : ℕ} (hsound : Sound formula s)
    (h : ∀ job : ActiveJob, s.jobs[i]? = some job → Undisturbed job (s.regionsOf i)) {e : Event} (hcalm : Calm i s e) :
    ∀ job : ActiveJob, (s.step formula e).jobs[i]? = some job → Undisturbed job ((s.step formula e).regionsOf i) := by
  intro job' hjob'
  cases hjob : s.jobs[i]? with
  | some job =>
      obtain ⟨job'', hjob'', hcases⟩ := step_job formula hjob e
      obtain rfl := Option.some.inj (hjob'.symm.trans hjob'')
      rcases hcases with ⟨rfl, -, hregions⟩ | ⟨rfl, hopen, rfl, -, hregions⟩ | ⟨turn, hturned, rfl, -, hregions⟩
      · rw [hregions]
        exact h job' hjob
      · exact Undisturbed.cancel (hcalm rfl job hjob hopen)
      · rw [hregions]
        exact Undisturbed.turn (hsound.booked i job hjob) (h job hjob) hturned
  | none =>
      obtain ⟨⟨new, rfl⟩, hregions⟩ := step_new formula hjob hjob'
      rw [hregions, (hsound.fresh i (List.getElem?_eq_none_iff.mp hjob)).2]
      exact (loopTop_booked i new s.concurrency s.online).2.1

theorem undisturbed_run {formula : TileFormula} {s : OfflineMapsDownloader} {i : ℕ} (hsound : Sound formula s)
    (h : ∀ job : ActiveJob, s.jobs[i]? = some job → Undisturbed job (s.regionsOf i)) {events : List Event}
    (hcalm : Each (step formula) (Calm i) s events) :
    ∀ job : ActiveJob, (run (step formula) s events).jobs[i]? = some job →
      Undisturbed job ((run (step formula) s events).regionsOf i) := by
  induction events generalizing s with
  | nil => exact h
  | cons e rest ih => exact ih (hsound.step e) (undisturbed_step hsound h hcalm.1) hcalm.2

theorem concurrency_step (formula : TileFormula) (s : OfflineMapsDownloader) (e : Event) :
    (s.step formula e).concurrency = s.concurrency := by
  cases e with
  | online b => rfl
  | start req =>
      rcases start_cases formula s req with hsame | ⟨new, hnew, hstart⟩
      · exact congrArg concurrency hsame
      · exact (congrArg concurrency hstart).trans rfl
  | cancel j =>
      rcases cancel_cases s j with hsame | ⟨other, hother, hopen, hcancel⟩
      · exact congrArg concurrency hsame
      · exact (congrArg concurrency hcancel).trans rfl
  | job j e =>
      rcases job_cases formula s j e with hsame | ⟨other, turn, hother, hturn, htake⟩
      · exact congrArg concurrency hsame
      · exact (congrArg concurrency htake).trans rfl

-- What holds of a job whenever it is looked at.
structure AccountsFor (formula : TileFormula) (s : OfflineMapsDownloader) (i : ℕ) (job : ActiveJob) : Prop where
  oneFinal : (s.finalsOf i).length = if job.phase = .ended then 1 else 0
  goesOn : job.phase ≠ .ended → (∃ e turn, job.turn s.concurrency s.online e = some turn) ∧
    ∀ e turn, job.turn s.concurrency s.online e = some turn → s.online = true ∨ job.cancelled = true →
      turn.job.turnsLeft < job.turnsLeft
  inFlight : job.inFlight.length ≤ s.concurrency
  counted : job.counted.length = job.completed + job.failed
  once : (job.counted ++ job.queue ++ job.inFlight).Subperm (regionTiles formula job.request)
  everyTile : job.cancelled = false → (job.counted ++ job.queue ++ job.inFlight).Perm (regionTiles formula job.request)
  sum : job.cancelled = false → job.completed + job.failed + job.queue.length + job.inFlight.length = job.total
  done : ∀ r, .done r ∈ s.finalsOf i → r = job.result ∧ (r.cancelled = false → r.completed + r.failed = job.total)
  region : (∃ r, .done r ∈ s.finalsOf i ∧ r.cancelled = false) → s.regionsOf i = [job.region i]
  noRegion : .error ∈ s.finalsOf i → s.regionsOf i = []

theorem finals_of_ended {i : ℕ} {job : ActiveJob} {finals : List Callback} {regions : List Region}
    (h : Booked i job finals regions)
    (hsome : finals ≠ []) :
    job.phase = .ended ∧ (finals = [.done job.result] ∧ (job.cancelled = false → regions = [job.region i]) ∨
      finals = [.error] ∧ regions = []) := by
  unfold Booked at h
  cases hphase : job.phase <;> rw [hphase] at h
  case ended => exact ⟨rfl, h⟩
  all_goals exact absurd h.1 hsome

theorem Sound.accountsFor {formula : TileFormula} {s : OfflineMapsDownloader} (h : Sound formula s)
    (hconcurrency : 0 < s.concurrency)
    {i : ℕ} {job : ActiveJob} (hjob : s.jobs[i]? = some job) : AccountsFor formula s i job := by
  have haccounted := h.accounted i job hjob
  have hbooked := h.booked i job hjob
  obtain ⟨givenUp, hplaces, hnone⟩ := haccounted.places
  have hevery : job.cancelled = false →
      (job.counted ++ job.queue ++ job.inFlight).Perm (regionTiles formula job.request) := by
    intro hrunning
    rw [hnone hrunning, List.append_nil] at hplaces
    exact hplaces
  have hsum : job.cancelled = false → job.completed + job.failed + job.queue.length + job.inFlight.length = job.total := by
    intro hrunning
    have hlength := (hevery hrunning).length_eq
    rw [List.length_append, List.length_append, haccounted.counted, ← haccounted.total] at hlength
    exact hlength
  have hfinals : ∀ {c : Callback}, c ∈ s.finalsOf i → _ := fun hc => finals_of_ended hbooked (List.ne_nil_of_mem hc)
  constructor
  · by_cases hended : job.phase = .ended
    · rw [if_pos hended]
      simp only [Booked, hended] at hbooked
      rcases hbooked with ⟨hfinal, -⟩ | ⟨hfinal, -⟩ <;> rw [hfinal] <;> rfl
    · rw [if_neg hended, List.length_eq_zero_iff]
      by_contra hsome
      exact hended (finals_of_ended hbooked hsome).1
  · intro hopen
    exact ⟨exists_turn job s.concurrency s.online hopen, fun e turn hturn hgo =>
      (turn_turned hturn).turnsLeft_lt hconcurrency hgo⟩
  · unfold ActiveJob.inFlight
    cases hphase : job.phase with
    | fetching batch => exact (tilesOf_length_le batch).trans (haccounted.batch batch hphase)
    | _ => exact Nat.zero_le _
  · exact haccounted.counted
  · exact (List.sublist_append_left _ givenUp).subperm.trans hplaces.subperm
  · exact hevery
  · exact hsum
  · intro r hr
    obtain ⟨hended, ⟨hfinal, -⟩ | ⟨hfinal, -⟩⟩ := hfinals hr
    · rw [hfinal, List.mem_singleton] at hr
      obtain rfl := Callback.done.inj hr
      refine ⟨rfl, fun hrunning => ?_⟩
      have hqueue := haccounted.emptied (by rw [looping, hended]) hrunning
      have hall := hsum hrunning
      rw [hqueue, ActiveJob.inFlight, hended] at hall
      exact hall
    · rw [hfinal, List.mem_singleton] at hr
      cases hr
  · intro hdone
    obtain ⟨r, hr, hrunning⟩ := hdone
    obtain ⟨hended, ⟨hfinal, hregion⟩ | ⟨hfinal, -⟩⟩ := hfinals hr
    · rw [hfinal, List.mem_singleton] at hr
      obtain rfl := Callback.done.inj hr
      exact hregion hrunning
    · rw [hfinal, List.mem_singleton] at hr
      cases hr
  · intro herror
    obtain ⟨hended, ⟨hfinal, -⟩ | ⟨hfinal, hregion⟩⟩ := hfinals herror
    · rw [hfinal, List.mem_singleton] at herror
      cases herror
    · exact hregion

theorem jobs_account_for_every_tile (formula : TileFormula) (concurrency : ℕ) (hconcurrency : 0 < concurrency)
    (online : Bool)
    (events : List Event) (i : ℕ) (job : ActiveJob)
    (hjob : (run (step formula) { concurrency, online } events).jobs[i]? = some job) :
    AccountsFor formula (run (step formula) { concurrency, online } events) i job ∧
      (job.phase = .ended →
        (∀ more, (run (step formula) (run (step formula) { concurrency, online } events) more).jobs[i]? = some job ∧
          (run (step formula) (run (step formula) { concurrency, online } events) more).callbacksOf i =
            (run (step formula) { concurrency, online } events).callbacksOf i) ∧
        (Each (step formula) (Calm i) { concurrency, online } events →
          ((∃ r, .done r ∈ (run (step formula) { concurrency, online } events).finalsOf i ∧ r.cancelled = false) ↔
            (run (step formula) { concurrency, online } events).regionsOf i ≠ []))) := by
  have hstart := sound_start formula concurrency online
  have hsound : Sound formula (run (step formula) { concurrency, online } events) :=
    invariant_run (fun s e h => h.step e) hstart events
  have hsame : (run (step formula) { concurrency, online } events).concurrency = concurrency :=
    @invariant_run _ _ (step formula) (fun s => s.concurrency = concurrency)
      (fun s e h => (concurrency_step formula s e).trans h) { concurrency, online } rfl events
  have haccounts := hsound.accountsFor (by rw [hsame]; exact hconcurrency) hjob
  refine ⟨haccounts, fun hended => ⟨fun more => ?_, fun hcalm => ?_⟩⟩
  · obtain ⟨hjob', hcallbacks, -⟩ := ended_run formula hjob hended more
    exact ⟨hjob', hcallbacks⟩
  · have hundisturbed := undisturbed_run hstart (fun job h => by simp at h) hcalm job hjob
    have hbooked := hsound.booked i job hjob
    simp only [Undisturbed, Booked, hended] at hundisturbed hbooked
    constructor
    · intro hdone
      rw [haccounts.region hdone]
      exact List.cons_ne_nil _ _
    · intro hsome
      rcases hbooked with ⟨hfinal, -⟩ | ⟨-, hnone⟩
      · refine ⟨job.result, by rw [hfinal]; exact List.mem_singleton_self _, ?_⟩
        by_contra hcancelled
        exact hsome (hundisturbed (by simpa [result] using hcancelled))
      · exact absurd hnone hsome

def squareRequest : OfflineMapsDownloadRequest := ⟨⟨10, 0, 10, 0⟩, 0, 1, .usgsTopo⟩

-- The three tiles are in the cache.
def cachedRun : List Event :=
  [.start squareRequest, .job 0 (.answer 0 (.cached (some 1))), .job 0 (.answer 1 (.cached (some 1))),
    .job 0 (.answer 2 (.cached (some 1))), .job 0 .resume, .job 0 (.manifest true), .job 0 .resume]

theorem square_is_accounted_for :
    ∃ job, (run (step evenFormula) { concurrency := 4, online := true } cachedRun).jobs[0]? = some job ∧ job.phase = .ended ∧
      AccountsFor evenFormula (run (step evenFormula) { concurrency := 4, online := true } cachedRun) 0 job ∧
      ((∃ r, .done r ∈ (run (step evenFormula) { concurrency := 4, online := true } cachedRun).finalsOf 0 ∧
        r.cancelled = false) ↔
        (run (step evenFormula) { concurrency := 4, online := true } cachedRun).regionsOf 0 ≠ []) := by
  have hended : ((run (step evenFormula) { concurrency := 4, online := true } cachedRun).jobs[0]?).any
      (fun job => job.phase = .ended) = true := by decide +kernel
  obtain ⟨job, hjob, hphase⟩ := (Option.any_eq_true _ _).mp hended
  have hphase := of_decide_eq_true hphase
  have hno : ∀ (s : OfflineMapsDownloader) {e : Event}, e ≠ .cancel 0 → Calm 0 s e := fun s e hne heq => absurd heq hne
  have hcalm : Each (step evenFormula) (Calm 0) { concurrency := 4, online := true } cachedRun :=
    ⟨hno _ (by simp), hno _ (by simp), hno _ (by simp), hno _ (by simp), hno _ (by simp), hno _ (by simp),
      hno _ (by simp), trivial⟩
  obtain ⟨haccounts, hafter⟩ := jobs_account_for_every_tile evenFormula 4 (by decide) true cachedRun 0 job hjob
  exact ⟨job, hjob, hphase, haccounts, (hafter hphase).2 hcalm⟩

-- Three tiles are in flight; the first is given up.
def givenUpRun : List Event :=
  [.start squareRequest, .cancel 0, .job 0 (.answer 0 (.cached none)), .job 0 (.answer 0 .rejected)]

-- The job is cancelled after its region has been written.
def lateCancelRun : List Event :=
  [.start squareRequest, .job 0 (.answer 0 (.cached (some 1))), .job 0 (.answer 1 (.cached (some 1))),
    .job 0 (.answer 2 (.cached (some 1))), .job 0 .resume, .job 0 (.manifest true), .cancel 0, .job 0 .resume]

def SumsUp (job : ActiveJob) : Prop :=
  job.phase = .ended ∨ job.completed + job.failed + job.queue.length + job.inFlight.length = job.total

instance (job : ActiveJob) : Decidable (SumsUp job) := inferInstanceAs (Decidable (_ ∨ _))

theorem cancelled_job_gives_up_tiles :
    (¬ ∀ (events : List Event) (job : ActiveJob),
      (run (step evenFormula) { concurrency := 4, online := true } events).jobs[0]? = some job → SumsUp job) ∧
    ¬ ∀ events : List Event,
      (run (step evenFormula) { concurrency := 4, online := true } events).regionsOf 0 ≠ [] →
        ∀ r, .done r ∈ (run (step evenFormula) { concurrency := 4, online := true } events).finalsOf 0 →
          r.cancelled = false := by
  constructor
  · intro hall
    have hgivenUp : ((run (step evenFormula) { concurrency := 4, online := true } givenUpRun).jobs[0]?).any
        (fun job => ¬ SumsUp job) = true := by decide +kernel
    obtain ⟨job, hjob, hsums⟩ := (Option.any_eq_true _ _).mp hgivenUp
    exact of_decide_eq_true hsums (hall givenUpRun job hjob)
  · intro hall
    have hregion : (run (step evenFormula) { concurrency := 4, online := true } lateCancelRun).regionsOf 0 ≠ [] := by
      decide +kernel
    have hdone : .done ⟨3, 0, 3, true⟩ ∈
        (run (step evenFormula) { concurrency := 4, online := true } lateCancelRun).finalsOf 0 := by
      decide +kernel
    exact absurd (hall lateCancelRun hregion _ hdone) (by decide)

end MeshClient.OfflineMaps.OfflineMapsDownloader
