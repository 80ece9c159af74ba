import MeshClient.OfflineMaps.Downloader

namespace MeshClient.OfflineMaps.ActiveJob

def tilesOf (batch : List Flight) : List WebMercatorTile := (batch.filter fun flight => flight.stage ≠ .over).map Flight.tile

def inFlight (job : ActiveJob) : List WebMercatorTile :=
  match job.phase with
  | .fetching batch => tilesOf batch
  | _ => []

-- The loop of `runJob` goes on.
def looping (job : ActiveJob) : Bool :=
  match job.phase with
  | .waiting _ _ | .fetching _ => true
  | _ => false

-- Every tile of the region is in one place, but for those that a cancelled job gave up.
structure Accounted (concurrency : ℕ) (tiles : List WebMercatorTile) (job : ActiveJob) : Prop where
  total : job.total = tiles.length
  counted : job.counted.length = job.completed + job.failed
  places : ∃ givenUp, (job.counted ++ job.queue ++ job.inFlight ++ givenUp).Perm tiles ∧
    (job.cancelled = false → givenUp = [])
  batch : ∀ batch, job.phase = .fetching batch → batch.length ≤ concurrency
  emptied : job.looping = false → job.cancelled = false → job.queue = []

-- How many answers a fetch waits for at most.
def answersLeft : Stage → ℕ
  | .cache => 4
  | .response => 3
  | .body => 2
  | .store _ => 1
  | .over => 0

-- What one answer does to a job: the fetch goes on, its tile is counted or put back, or a
-- cancelled job gives it up.
inductive Answered (job : ActiveJob) (online : Bool) (flight : Flight) : ActiveJob × Stage → Prop
  | moved (stage : Stage) (h : stage ≠ .over) (hless : answersLeft stage < answersLeft flight.stage) :
      Answered job online flight (job, stage)
  | completed (byteLength : ℕ) : Answered job online flight (job.complete flight.tile byteLength, .over)
  | failed : Answered job online flight (job.fail flight.tile, .over)
  | putBack (hcancelled : job.cancelled = false) (honline : online = false) :
      Answered job online flight ({ job with queue := flight.tile :: job.queue }, .over)
  | givenUp (hcancelled : job.cancelled = true) : Answered job online flight (job, .over)

theorem caught_answered (job : ActiveJob) (online : Bool) (flight : Flight) :
    Answered job online flight (job.caught online flight.tile, .over) := by
  unfold caught
  split_ifs with hcancelled honline
  · exact .givenUp hcancelled
  · exact .putBack (by simpa using hcancelled) (by simpa using honline)
  · exact .failed

theorem fetchAnswer_answered {job : ActiveJob} {online : Bool} {flight : Flight} {a : Answer} {answered : ActiveJob × Stage}
    (h : job.fetchAnswer online flight a = some answered) : flight.stage ≠ .over ∧ Answered job online flight answered := by
  unfold fetchAnswer at h
  split at h
  case h_1 byteLength hstage =>
    obtain rfl := Option.some.inj h
    exact ⟨by simp [hstage], .completed byteLength⟩
  case h_2 hstage =>
    obtain rfl := Option.some.inj h
    exact ⟨by simp [hstage], .moved .response (by simp) (by simp [hstage, answersLeft])⟩
  case h_3 ok hstage =>
    refine ⟨by simp [hstage], ?_⟩
    split_ifs at h with hcancelled hok
    · obtain rfl := Option.some.inj h
      exact .givenUp hcancelled
    · obtain rfl := Option.some.inj h
      exact .failed
    · obtain rfl := Option.some.inj h
      exact .moved .body (by simp) (by simp [hstage, answersLeft])
  case h_4 byteLength hstage =>
    obtain rfl := Option.some.inj h
    exact ⟨by simp [hstage], .moved (.store byteLength) (by simp) (by simp [hstage, answersLeft])⟩
  case h_5 byteLength hstage =>
    obtain rfl := Option.some.inj h
    exact ⟨by simp [hstage], .completed byteLength⟩
  case h_6 hstage =>
    obtain rfl := Option.some.inj h
    exact ⟨by simp [hstage], caught_answered job online flight⟩
  case h_7 hstage =>
    obtain rfl := Option.some.inj h
    exact ⟨by simp [hstage], caught_answered job online flight⟩
  case h_8 byteLength hstage =>
    obtain rfl := Option.some.inj h
    exact ⟨by simp [hstage], caught_answered job online flight⟩
  case h_9 => cases h

-- What a job can do between two awaits.
inductive Turned (job : ActiveJob) (concurrency : ℕ) (online : Bool) : Turn → Prop
  | answered (batch : List Flight) (i : ℕ) (flight : Flight) (answered : ActiveJob × Stage)
      (hphase : job.phase = .fetching batch) (hflight : batch[i]? = some flight) (hstage : flight.stage ≠ .over)
      (hanswered : Answered job online flight answered) :
      Turned job concurrency online { job := { answered.1 with phase := .fetching (batch.set i ⟨flight.tile, answered.2⟩) } }
  | timer (levels : ℕ) (timer : Timer) (hphase : job.phase = .waiting levels (some timer)) :
      Turned job concurrency online { job := { job with phase := job.timerFires online levels timer } }
  | unwound (levels : ℕ) (hphase : job.phase = .waiting (levels + 1) none) :
      Turned job concurrency online { job := { job with phase := .waiting levels none } }
  | manifest (ok : Bool) (hphase : job.phase = .writing) :
      Turned job concurrency online { job := { job with phase := .written ok }, stored := ok }
  | brokeOff (hphase : job.phase = .waiting 0 none) (hcancelled : job.cancelled = true) :
      Turned job concurrency online job.finish
  | resumed (hphase : job.phase = .waiting 0 none) (hcancelled : job.cancelled = false) :
      Turned job concurrency online ({ job with paused := false }.thenTop concurrency online)
  | settled (batch : List Flight) (hphase : job.phase = .fetching batch)
      (hover : (batch.all fun flight => flight.stage = .over) = true) :
      Turned job concurrency online (job.thenTop concurrency online)
  | stored (hphase : job.phase = .written true) : Turned job concurrency online job.finish
  | notStored (hphase : job.phase = .written false) :
      Turned job concurrency online { job := { job with phase := .ended }, callbacks := [.error] }

theorem turn_turned {job : ActiveJob} {concurrency : ℕ} {online : Bool} {e : JobEvent} {turn : Turn}
    (h : job.turn concurrency online e = some turn) : Turned job concurrency online turn := by
  unfold ActiveJob.turn at h
  cases e with
  | answer i a =>
      cases hphase : job.phase with
      | fetching batch =>
          simp only [hphase] at h
          cases hflight : batch[i]? with
          | none => simp [hflight] at h
          | some flight =>
              simp only [hflight, Option.map_eq_some_iff] at h
              obtain ⟨answered, hanswer, rfl⟩ := h
              obtain ⟨hstage, hanswered⟩ := fetchAnswer_answered hanswer
              exact .answered batch i flight answered hphase hflight hstage hanswered
      | _ => simp [hphase] at h
  | timer =>
      simp only at h
      split at h
      case h_1 levels timer hphase =>
        obtain rfl := Option.some.inj h
        exact .timer levels timer hphase
      case h_2 => cases h
  | unwind =>
      simp only at h
      split at h
      case h_1 levels hphase =>
        obtain rfl := Option.some.inj h
        exact .unwound levels hphase
      case h_2 => cases h
  | manifest ok =>
      simp only at h
      split at h
      case h_1 hphase =>
        obtain rfl := Option.some.inj h
        exact .manifest ok hphase
      case h_2 => cases h
  | resume =>
      simp only at h
      split at h
      case h_1 hphase =>
        split_ifs at h with hcancelled
        · obtain rfl := Option.some.inj h
          exact .brokeOff hphase hcancelled
        · obtain rfl := Option.some.inj h
          exact .resumed hphase (by simpa using hcancelled)
      case h_2 batch hphase =>
        split_ifs at h with hover
        obtain rfl := Option.some.inj h
        exact .settled batch hphase hover
      case h_3 stored hphase =>
        cases stored with
        | true =>
            obtain rfl := Option.some.inj h
            exact .stored hphase
        | false =>
            obtain rfl := Option.some.inj h
            exact .notStored hphase
      case h_4 => cases h

section Batch

variable {batch : List Flight} {i : ℕ} {flight : Flight}

theorem tilesOf_append (front back : List Flight) : tilesOf (front ++ back) = tilesOf front ++ tilesOf back := by
  rw [tilesOf, List.filter_append, List.map_append]
  rfl

theorem tilesOf_cons (flight : Flight) (rest : List Flight) :
    tilesOf (flight :: rest) = (if flight.stage = .over then [] else [flight.tile]) ++ tilesOf rest := by
  by_cases hover : flight.stage = .over
  · rw [tilesOf, List.filter_cons, if_neg (by simp [hover]), if_pos hover]
    rfl
  · rw [tilesOf, List.filter_cons, if_pos (by simp [hover]), if_neg hover]
    rfl

theorem tilesOf_length_le (batch : List Flight) : (tilesOf batch).length ≤ batch.length := by
  rw [tilesOf, List.length_map]
  exact List.length_filter_le _ _

theorem set_split (hflight : batch[i]? = some flight) (flight' : Flight) :
    ∃ front back, batch = front ++ flight :: back ∧ batch.set i flight' = front ++ flight' :: back := by
  obtain ⟨hi, rfl⟩ := List.getElem?_eq_some_iff.mp hflight
  refine ⟨batch.take i, batch.drop (i + 1), ?_, ?_⟩
  · rw [List.getElem_cons_drop, List.take_append_drop]
  · rw [List.set_eq_take_append_cons_drop, if_pos hi]

theorem tilesOf_set_moved (hflight : batch[i]? = some flight) (hstage : flight.stage ≠ .over) {stage : Stage}
    (h : stage ≠ .over) :
    tilesOf (batch.set i ⟨flight.tile, stage⟩) = tilesOf batch := by
  obtain ⟨front, back, hbatch, hset⟩ := set_split hflight ⟨flight.tile, stage⟩
  rw [hset, hbatch, tilesOf_append, tilesOf_append, tilesOf_cons, tilesOf_cons, if_neg hstage, if_neg h]

theorem tilesOf_set_over (hflight : batch[i]? = some flight) (hstage : flight.stage ≠ .over) :
    (flight.tile :: tilesOf (batch.set i ⟨flight.tile, .over⟩)).Perm (tilesOf batch) := by
  obtain ⟨front, back, hbatch, hset⟩ := set_split hflight ⟨flight.tile, .over⟩
  rw [hset, hbatch, tilesOf_append, tilesOf_append, tilesOf_cons, tilesOf_cons, if_neg hstage, if_pos rfl, List.nil_append]
  exact List.perm_middle.symm

-- All tiles of a new batch are in flight.
theorem tilesOf_fetchOne {job : ActiveJob} (hcancelled : job.cancelled = false) (tiles : List WebMercatorTile) :
    tilesOf (tiles.map job.fetchOne) = tiles := by
  induction tiles with
  | nil => rfl
  | cons tile rest ih =>
      rw [List.map_cons, tilesOf_cons, ih, fetchOne, hcancelled, if_neg (by simp)]
      rfl

theorem tilesOf_all_over (h : (batch.all fun flight => flight.stage = .over) = true) : tilesOf batch = [] := by
  induction batch with
  | nil => rfl
  | cons flight rest ih =>
      rw [List.all_cons, Bool.and_eq_true, decide_eq_true_eq] at h
      rw [tilesOf_cons, if_pos h.1, ih h.2]
      rfl

end Batch

section Accounted

variable {concurrency : ℕ} {tiles : List WebMercatorTile} {job : ActiveJob} (h : Accounted concurrency tiles job)
include h

theorem Accounted.answer {online : Bool} {batch : List Flight} (hphase : job.phase = .fetching batch) {i : ℕ}
    {flight : Flight}
    (hflight : batch[i]? = some flight) (hstage : flight.stage ≠ .over) {answered : ActiveJob × Stage}
    (hanswered : Answered job online flight answered) :
    Accounted concurrency tiles { answered.1 with phase := .fetching (batch.set i ⟨flight.tile, answered.2⟩) } := by
  obtain ⟨givenUp, hplaces, hnone⟩ := h.places
  have hbatch : ∀ {stage : Stage} (batch' : List Flight),
      Phase.fetching (batch.set i ⟨flight.tile, stage⟩) = .fetching batch' →
      batch'.length ≤ concurrency := by
    intro stage batch' heq
    obtain rfl := Phase.fetching.inj heq
    rw [List.length_set]
    exact h.batch batch hphase
  simp only [inFlight, hphase] at hplaces
  -- A tile that leaves the batch goes to one of the other places.
  have hmove : ∀ counted queue givenUp' : List WebMercatorTile,
      (counted ++ queue ++ givenUp').Perm (flight.tile :: (job.counted ++ job.queue ++ givenUp)) →
      (counted ++ queue ++ tilesOf (batch.set i ⟨flight.tile, .over⟩) ++ givenUp').Perm tiles := by
    intro counted queue givenUp' hperm
    rw [List.perm_iff_count]
    intro tile
    have hbefore := hplaces.count_eq tile
    have hafter := (tilesOf_set_over hflight hstage).count_eq tile
    have hmoved := hperm.count_eq tile
    simp only [List.count_append, List.count_cons] at hbefore hafter hmoved ⊢
    omega
  cases hanswered with
  | moved stage hmoved hless =>
      refine ⟨h.total, h.counted, ⟨givenUp, ?_, hnone⟩, hbatch, fun hloop => by cases hloop⟩
      simp only [inFlight, tilesOf_set_moved hflight hstage hmoved]
      exact hplaces
  | completed byteLength =>
      refine ⟨h.total, ?_, ⟨givenUp, hmove _ _ _ ?_, hnone⟩, hbatch, fun hloop => by cases hloop⟩
      · simp only [complete, List.length_append, List.length_singleton, h.counted]
        omega
      · simp only [complete, List.append_assoc, List.singleton_append]
        exact List.perm_middle
  | failed =>
      refine ⟨h.total, ?_, ⟨givenUp, hmove _ _ _ ?_, hnone⟩, hbatch, fun hloop => by cases hloop⟩
      · simp only [fail, List.length_append, List.length_singleton, h.counted]
        omega
      · simp only [fail, List.append_assoc, List.singleton_append]
        exact List.perm_middle
  | putBack hcancelled honline =>
      refine ⟨h.total, h.counted, ⟨givenUp, hmove _ _ _ ?_, hnone⟩, hbatch, fun hloop => by cases hloop⟩
      simp only [List.append_assoc, List.cons_append]
      exact List.perm_middle
  | givenUp hcancelled =>
      refine ⟨h.total, h.counted, ⟨flight.tile :: givenUp, hmove _ _ _ List.perm_middle, ?_⟩, hbatch,
        fun hloop => by cases hloop⟩
      simp only [hcancelled]
      exact fun hfalse => by cases hfalse

-- A job without a tile in flight is accounted for in another phase that has none.
theorem Accounted.idle (hidle : job.inFlight = []) (paused : Bool) (phase : Phase)
    (hphase : ∀ batch, phase ≠ .fetching batch)
    (hemptied : (∀ levels timer, phase ≠ .waiting levels timer) → job.cancelled = false → job.queue = []) :
    Accounted concurrency tiles { job with paused, phase } := by
  obtain ⟨givenUp, hplaces, hnone⟩ := h.places
  have hnothing : inFlight { job with paused, phase } = [] := by
    cases phase with
    | fetching batch => exact absurd rfl (hphase batch)
    | waiting => rfl
    | writing => rfl
    | written => rfl
    | ended => rfl
  refine ⟨h.total, h.counted, ⟨givenUp, ?_, hnone⟩, fun batch heq => absurd heq (hphase batch), fun hloop => hemptied ?_⟩
  · rw [hnothing]
    rw [hidle] at hplaces
    exact hplaces
  · intro levels timer heq
    subst heq
    cases hloop

theorem Accounted.loopTop (hidle : job.inFlight = []) (online : Bool) :
    Accounted concurrency tiles (job.loopTop concurrency online).job := by
  unfold ActiveJob.loopTop
  split_ifs with hgo honline hcancelled
  · exact h.idle hidle true _ (by simp) fun hwait => absurd rfl (hwait 1 (some .poll))
  · rw [Bool.and_eq_true, Bool.not_eq_true'] at hgo
    obtain ⟨givenUp, hplaces, hnone⟩ := h.places
    rw [hidle, List.append_nil] at hplaces
    have hall := tilesOf_fetchOne hgo.1 (job.queue.take concurrency)
    refine ⟨h.total, h.counted, ⟨givenUp, ?_, hnone⟩, ?_, fun hloop => by cases hloop⟩
    · refine List.Perm.trans ?_ hplaces
      simp only [inFlight, hall]
      refine List.Perm.append_right _ ?_
      rw [List.append_assoc]
      refine List.Perm.append_left _ ?_
      exact List.perm_append_comm.trans (List.Perm.of_eq (List.take_append_drop _ _))
    · intro batch heq
      obtain rfl := Phase.fetching.inj heq
      rw [List.length_map, List.length_take]
      exact min_le_left _ _
  · refine h.idle hidle job.paused _ (by simp) fun _ hrunning => ?_
    by_contra hqueue
    exact hgo (by simp [hrunning, hqueue])
  · refine h.idle hidle job.paused _ (by simp) fun _ hrunning => ?_
    simp [hrunning] at hcancelled

theorem Accounted.finish (hidle : job.inFlight = []) (hemptied : job.cancelled = false → job.queue = []) :
    Accounted concurrency tiles job.finish.job :=
  h.idle hidle job.paused _ (by simp) fun _ => hemptied

theorem Accounted.cancel : Accounted concurrency tiles job.cancel := by
  obtain ⟨givenUp, hplaces, -⟩ := h.places
  have hsame : job.cancel.inFlight = job.inFlight := by
    simp only [inFlight, ActiveJob.cancel]
    cases job.phase <;> rfl
  refine ⟨h.total, h.counted, ⟨givenUp, ?_, fun hfalse => by cases hfalse⟩, ?_, fun _ hfalse => by cases hfalse⟩
  · rw [hsame]
    exact hplaces
  · intro batch heq
    refine h.batch batch ?_
    simp only [ActiveJob.cancel] at heq
    cases hphase : job.phase <;> rw [hphase] at heq <;> first | exact heq | cases heq

-- Whatever comes, the tiles stay accounted for.
theorem Accounted.turn {online : Bool} {turn : Turn} (hturned : Turned job concurrency online turn) :
    Accounted concurrency tiles turn.job := by
  have hwaiting : ∀ {levels timer}, job.phase = .waiting levels timer → job.inFlight = [] := by
    intro levels timer hphase
    rw [inFlight, hphase]
  cases hturned with
  | answered batch i flight answered hphase hflight hstage hanswered => exact h.answer hphase hflight hstage hanswered
  | timer levels timer hphase =>
      obtain ⟨levels', timer', hfires⟩ : ∃ levels' timer', job.timerFires online levels timer = .waiting levels' timer' := by
        cases timer <;> simp only [timerFires] <;> split_ifs <;> exact ⟨_, _, rfl⟩
      rw [hfires]
      exact h.idle (hwaiting hphase) job.paused _ (by simp) fun hwait => absurd rfl (hwait levels' timer')
  | unwound levels hphase =>
      exact h.idle (hwaiting hphase) job.paused _ (by simp) fun hwait => absurd rfl (hwait levels none)
  | manifest ok hphase =>
      exact h.idle (by rw [inFlight, hphase]) job.paused _ (by simp) fun _ => h.emptied (by rw [looping, hphase])
  | brokeOff hphase hcancelled =>
      exact h.finish (hwaiting hphase) fun hrunning => absurd (hcancelled.symm.trans hrunning) (by decide)
  | resumed hphase hcancelled =>
      have hresumed := h.idle (hwaiting hphase) false job.phase (by simp [hphase]) fun hwait => absurd hphase (hwait 0 none)
      exact hresumed.loopTop (hwaiting hphase) online
  | settled batch hphase hover => exact h.loopTop (by rw [inFlight, hphase]; exact tilesOf_all_over hover) online
  | stored hphase => exact h.finish (by rw [inFlight, hphase]) (h.emptied (by rw [looping, hphase]))
  | notStored hphase => exact h.finish (by rw [inFlight, hphase]) (h.emptied (by rw [looping, hphase]))

end Accounted

end MeshClient.OfflineMaps.ActiveJob
