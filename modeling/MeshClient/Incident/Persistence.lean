import MeshClient.Incident.Replay

namespace MeshClient.Incident

-- `object` tells two journal entries with equal contents apart, as `===` does.
structure JournalWrite extends PendingIncidentWrite where
  object : Nat
deriving DecidableEq

-- Where one run of the flush loop stands: waiting for a save, with the save answered but its
-- continuation still to run, or left, with the `finally` handler still to run.
inductive Flush where
  | saving (write : JournalWrite)
  | accepted (write : JournalWrite)
  | rejected (write : JournalWrite)
  | finished (failed : Bool)
deriving DecidableEq

-- `taken` and `stored` record the snapshots that were put into the journal and those that the
-- database accepted, in order; the code does not keep them.
structure Persistence where
  memory : IncidentSnapshot
  database : IncidentSnapshot
  baseline : IncidentSnapshot
  pendingWrite : Option JournalWrite
  flushing : Bool
  flushes : List Flush
  objects : Nat
  taken : List IncidentSnapshot
  stored : List IncidentSnapshot
deriving DecidableEq

def queueIncidentWrite (p : Persistence) : Persistence :=
  if p.flushing then p
  else match p.pendingWrite with
    | none => p
    | some write => { p with flushing := true, flushes := p.flushes ++ [.saving write] }

def journalBaseline (p : Persistence) : IncidentSnapshot :=
  (p.pendingWrite.map fun write => write.baseline).getD p.baseline

def trackMutation (js : Js.Runtime) (op : TimedOp) (p : Persistence) : Persistence :=
  match op.2.update js op.1 p.memory with
  | none => p
  | some value => queueIncidentWrite { p with
      memory := value
      pendingWrite := some ⟨⟨journalBaseline p, value⟩, p.objects⟩
      objects := p.objects + 1
      taken := p.taken ++ [value] }

-- What follows the `await` of a save that went through. A newer entry is based on it.
def bookkeep (write : JournalWrite) (p : Persistence) : Persistence :=
  { p with
    baseline := write.value
    pendingWrite := p.pendingWrite.bind fun pending =>
      if pending.object = write.object then none
      else some ⟨⟨write.value, pending.value⟩, p.objects⟩
    objects := p.objects + 1 }

def loopAgain (pendingWrite : Option JournalWrite) : Flush :=
  match pendingWrite with
  | some write => .saving write
  | none => .finished false

-- Events of the flush loops name the loop by its place in `flushes`.
inductive PersistenceEvent where
  | mutate (op : TimedOp)
  | flush
  | accept (i : Nat)
  | reject (i : Nat)
  | resume (i : Nat)
  | finish (i : Nat)

def accept (i : Nat) (p : Persistence) : Persistence :=
  match p.flushes[i]? with
  | some (.saving write) => { p with
      database := write.value
      flushes := p.flushes.set i (.accepted write)
      stored := p.stored ++ [write.value] }
  | _ => p

def reject (i : Nat) (p : Persistence) : Persistence :=
  match p.flushes[i]? with
  | some (.saving write) => { p with flushes := p.flushes.set i (.rejected write) }
  | _ => p

def resume (i : Nat) (p : Persistence) : Persistence :=
  match p.flushes[i]? with
  | some (.accepted write) => { bookkeep write p with
      flushes := p.flushes.set i (loopAgain (bookkeep write p).pendingWrite) }
  | some (.rejected _) => { p with flushes := p.flushes.set i (.finished true) }
  | _ => p

def finish (i : Nat) (p : Persistence) : Persistence :=
  match p.flushes[i]? with
  | some (.finished failed) =>
      let p := { p with flushing := false, flushes := p.flushes.eraseIdx i }
      if failed then p else queueIncidentWrite p
  | _ => p

def persist (js : Js.Runtime) (p : Persistence) : PersistenceEvent → Persistence
  | .mutate op => trackMutation js op p
  | .flush => queueIncidentWrite p
  | .accept i => accept i p
  | .reject i => reject i p
  | .resume i => resume i p
  | .finish i => finish i p

-- The end of hydration, which read `snapshot` and left `value` in memory. `sameText` is false
-- where the two are equal but their JSON texts differ.
def hydrated (sameText : Bool) (snapshot value : IncidentSnapshot) : Persistence :=
  let same := decide (snapshot = value) && sameText
  queueIncidentWrite {
    memory := value
    database := snapshot
    baseline := snapshot
    pendingWrite := if same then none else some ⟨⟨snapshot, value⟩, 0⟩
    flushing := false
    flushes := []
    objects := 1
    taken := if same then [] else [value]
    stored := [] }

def lastAccepted (snapshot : IncidentSnapshot) (stored : List IncidentSnapshot) : IncidentSnapshot :=
  stored.getLast?.getD snapshot

@[simp] theorem lastAccepted_concat (snapshot : IncidentSnapshot) (stored : List IncidentSnapshot)
    (value : IncidentSnapshot) : lastAccepted snapshot (stored ++ [value]) = value := by
  simp [lastAccepted]

-- The pending entry holds what is in memory.
def PendingLatest (p : Persistence) : Prop :=
  ∀ write, p.pendingWrite = some write → write.value = p.memory ∧ write.object < p.objects

-- Both copies of the baseline are what the database holds.
structure BaselineCurrent (snapshot : IncidentSnapshot) (p : Persistence) : Prop where
  database_eq : p.database = lastAccepted snapshot p.stored
  baseline_eq : p.baseline = p.database
  pending_eq : ∀ write, p.pendingWrite = some write → write.baseline = p.baseline

-- Nothing is being saved: what was stored was taken before the pending entry.
def Waiting (p : Persistence) : Prop :=
  match p.pendingWrite with
  | none => p.memory = p.database ∧ p.stored.Sublist p.taken
  | some write => ∃ earlier, p.taken = earlier ++ [write.value] ∧ p.stored.Sublist earlier

-- The entry being saved was taken after `before`, and the pending one is it or a later one.
def Covers (p : Persistence) (write : JournalWrite) (before : List IncidentSnapshot) : Prop :=
  write.object < p.objects ∧ ∃ after pending, p.taken = before ++ write.value :: after ∧
    p.pendingWrite = some pending ∧
    (pending = write ∧ after = [] ∨
      pending.object ≠ write.object ∧ ∃ mid, after = mid ++ [pending.value])

inductive Phase (snapshot : IncidentSnapshot) (p : Persistence) : Prop
  | idle (hflushes : p.flushes = []) (hflushing : p.flushing = false)
      (hbase : BaselineCurrent snapshot p) (hwait : Waiting p)
  | saving (write : JournalWrite) (before : List IncidentSnapshot)
      (hflushes : p.flushes = [.saving write]) (hflushing : p.flushing = true)
      (hbase : BaselineCurrent snapshot p) (hcovers : Covers p write before)
      (horder : p.stored.Sublist before)
  | accepted (write : JournalWrite) (before earlier : List IncidentSnapshot)
      (hflushes : p.flushes = [.accepted write]) (hflushing : p.flushing = true)
      (hdatabase : p.database = write.value) (hstored : p.stored = earlier ++ [write.value])
      (hbase : p.baseline = lastAccepted snapshot earlier)
      (hpending : ∀ pending, p.pendingWrite = some pending → pending.baseline = p.baseline)
      (hcovers : Covers p write before) (horder : earlier.Sublist before)
  | rejected (write : JournalWrite) (hflushes : p.flushes = [.rejected write])
      (hflushing : p.flushing = true) (hbase : BaselineCurrent snapshot p) (hwait : Waiting p)
  | finished (failed : Bool) (hflushes : p.flushes = [.finished failed])
      (hflushing : p.flushing = true) (hbase : BaselineCurrent snapshot p) (hwait : Waiting p)

structure PersistenceInvariant (snapshot : IncidentSnapshot) (p : Persistence) : Prop where
  latest : PendingLatest p
  phase : Phase snapshot p

theorem Covers.waiting {p : Persistence} {write : JournalWrite} {before : List IncidentSnapshot}
    (h : Covers p write before) (horder : p.stored.Sublist before) : Waiting p := by
  obtain ⟨_, after, pending, htaken, hpending, hcase⟩ := h
  unfold Waiting
  rw [hpending]
  rcases hcase with ⟨rfl, rfl⟩ | ⟨_, mid, rfl⟩
  · exact ⟨before, htaken, horder⟩
  · exact ⟨before ++ write.value :: mid, by simpa using htaken, horder.trans (by simp)⟩

theorem Waiting.stored_sublist {p : Persistence} (h : Waiting p) : p.stored.Sublist p.taken := by
  unfold Waiting at h
  split at h
  · exact h.2
  · obtain ⟨earlier, htaken, horder⟩ := h
    exact htaken ▸ horder.trans (List.sublist_append_left ..)

-- The loop starts with the pending entry.
theorem queueIncidentWrite_invariant {snapshot : IncidentSnapshot} {p : Persistence}
    (hlatest : PendingLatest p) (hflushes : p.flushes = []) (hflushing : p.flushing = false)
    (hbase : BaselineCurrent snapshot p) (hwait : Waiting p) :
    PersistenceInvariant snapshot (queueIncidentWrite p) := by
  rcases Option.eq_none_or_eq_some p.pendingWrite with hpending | ⟨write, hpending⟩
  · have hnone : queueIncidentWrite p = p := by simp [queueIncidentWrite, hflushing, hpending]
    rw [hnone]
    exact ⟨hlatest, .idle hflushes hflushing hbase hwait⟩
  · have hstart : queueIncidentWrite p =
        { p with flushing := true, flushes := p.flushes ++ [.saving write] } := by
      simp [queueIncidentWrite, hflushing, hpending]
    rw [hstart]
    simp only [Waiting, hpending] at hwait
    obtain ⟨earlier, htaken, horder⟩ := hwait
    exact {
      latest := hlatest
      phase := .saving write earlier (by simp [hflushes]) rfl
        ⟨hbase.database_eq, hbase.baseline_eq, hbase.pending_eq⟩
        ⟨(hlatest write hpending).2, [], write, htaken, hpending, .inl ⟨rfl, rfl⟩⟩ horder }

theorem queueIncidentWrite_flushing {p : Persistence} (h : p.flushing = true) :
    queueIncidentWrite p = p := if_pos h

theorem PersistenceInvariant.queue {snapshot : IncidentSnapshot} {p : Persistence}
    (h : PersistenceInvariant snapshot p) :
    PersistenceInvariant snapshot (queueIncidentWrite p) := by
  cases h.phase with
  | idle hflushes hflushing hbase hwait =>
      exact queueIncidentWrite_invariant h.latest hflushes hflushing hbase hwait
  | saving write before hflushes hflushing => rwa [queueIncidentWrite_flushing hflushing]
  | accepted write before earlier hflushes hflushing => rwa [queueIncidentWrite_flushing hflushing]
  | rejected write hflushes hflushing => rwa [queueIncidentWrite_flushing hflushing]
  | finished failed hflushes hflushing => rwa [queueIncidentWrite_flushing hflushing]

theorem hydrated_invariant (sameText : Bool) (snapshot value : IncidentSnapshot) :
    PersistenceInvariant snapshot (hydrated sameText snapshot value) := by
  unfold hydrated
  apply queueIncidentWrite_invariant
  · intro write hwrite
    dsimp only at hwrite
    split_ifs at hwrite
    cases hwrite
    exact ⟨rfl, Nat.zero_lt_one⟩
  · rfl
  · rfl
  · refine ⟨rfl, rfl, fun write hwrite => ?_⟩
    dsimp only at hwrite
    split_ifs at hwrite
    cases hwrite
    rfl
  · unfold Waiting
    dsimp only
    split_ifs with hsame
    · simp only [Bool.and_eq_true, decide_eq_true_eq] at hsame
      exact ⟨hsame.1.symm, List.Sublist.refl _⟩
    · exact ⟨[], rfl, List.Sublist.refl _⟩

theorem Waiting.mutated {p q : Persistence} {value : IncidentSnapshot} {write : JournalWrite}
    (h : Waiting p) (htaken : q.taken = p.taken ++ [value]) (hstored : q.stored = p.stored)
    (hpending : q.pendingWrite = some write) (hvalue : write.value = value) : Waiting q := by
  unfold Waiting
  rw [hpending, hstored]
  exact ⟨p.taken, by rw [htaken, hvalue], h.stored_sublist⟩

theorem Covers.mutated {p q : Persistence} {write pending : JournalWrite}
    {before : List IncidentSnapshot} (h : Covers p write before)
    (htaken : q.taken = p.taken ++ [pending.value]) (hpending : q.pendingWrite = some pending)
    (hobject : pending.object = p.objects) (hobjects : q.objects = p.objects + 1) :
    Covers q write before := by
  obtain ⟨hlt, after, _, hold, _⟩ := h
  refine ⟨by omega, after ++ [pending.value], pending, by rw [htaken, hold]; simp, hpending, ?_⟩
  exact .inr ⟨by omega, after, rfl⟩

theorem BaselineCurrent.journalBaseline_eq {snapshot : IncidentSnapshot} {p : Persistence}
    (h : BaselineCurrent snapshot p) : journalBaseline p = p.baseline := by
  unfold journalBaseline
  rcases Option.eq_none_or_eq_some p.pendingWrite with hp | ⟨write, hp⟩
  · simp [hp]
  · simp [hp, h.pending_eq write hp]

theorem PersistenceInvariant.mutate {js : Js.Runtime} {snapshot : IncidentSnapshot}
    {p : Persistence} (h : PersistenceInvariant snapshot p) (op : TimedOp) :
    PersistenceInvariant snapshot (trackMutation js op p) := by
  unfold trackMutation
  split
  · exact h
  · rename_i value _
    apply PersistenceInvariant.queue
    refine ⟨fun write hwrite => ?_, ?_⟩
    · cases hwrite
      exact ⟨rfl, Nat.lt_succ_self _⟩
    · have hcurrent : ∀ _ : BaselineCurrent snapshot p, BaselineCurrent snapshot { p with
          memory := value
          pendingWrite := some ⟨⟨journalBaseline p, value⟩, p.objects⟩
          objects := p.objects + 1
          taken := p.taken ++ [value] } := by
        refine fun hbase => ⟨hbase.database_eq, hbase.baseline_eq, fun write hwrite => ?_⟩
        cases hwrite
        exact hbase.journalBaseline_eq
      cases h.phase with
      | idle hflushes hflushing hbase hwait =>
          exact .idle hflushes hflushing (hcurrent hbase) (hwait.mutated rfl rfl rfl rfl)
      | saving write before hflushes hflushing hbase hcovers horder =>
          exact .saving write before hflushes hflushing (hcurrent hbase)
            (hcovers.mutated rfl rfl rfl rfl) horder
      | accepted write before earlier hflushes hflushing hdatabase hstored hbase hpending hcovers
          horder =>
          refine .accepted write before earlier hflushes hflushing hdatabase hstored hbase
            (fun pending hp => ?_) (hcovers.mutated rfl rfl rfl rfl) horder
          cases hp
          obtain ⟨_, _, old, _, hold, _⟩ := hcovers
          simp [journalBaseline, hold, hpending old hold]
      | rejected write hflushes hflushing hbase hwait =>
          exact .rejected write hflushes hflushing (hcurrent hbase) (hwait.mutated rfl rfl rfl rfl)
      | finished failed hflushes hflushing hbase hwait =>
          exact .finished failed hflushes hflushing (hcurrent hbase) (hwait.mutated rfl rfl rfl rfl)

-- There is one loop at most, so an event that names a loop finds it in the first place.
theorem Phase.only {snapshot : IncidentSnapshot} {p : Persistence} (h : Phase snapshot p) {i : Nat}
    {flush : Flush} (hi : p.flushes[i]? = some flush) : i = 0 ∧ p.flushes = [flush] := by
  have hshort : p.flushes.length ≤ 1 := by
    cases h with
    | idle hflushes => simp [hflushes]
    | saving _ _ hflushes => simp [hflushes]
    | accepted _ _ _ hflushes => simp [hflushes]
    | rejected _ hflushes => simp [hflushes]
    | finished _ hflushes => simp [hflushes]
  obtain ⟨hlt, hget⟩ := List.getElem?_eq_some_iff.mp hi
  have hzero : i = 0 := by omega
  subst hzero
  obtain ⟨only, honly⟩ := List.length_eq_one_iff.mp (by omega : p.flushes.length = 1)
  simp_all

theorem PersistenceInvariant.accept {snapshot : IncidentSnapshot} {p : Persistence}
    (h : PersistenceInvariant snapshot p) (i : Nat) :
    PersistenceInvariant snapshot (Incident.accept i p) := by
  unfold Incident.accept
  split
  · rename_i write hi
    obtain ⟨rfl, hf⟩ := h.phase.only hi
    cases h.phase with
    | saving saved before hflushes hflushing hbase hcovers horder =>
        cases hflushes.symm.trans hf
        exact ⟨h.latest, .accepted write before p.stored (by simp [hf]) hflushing rfl rfl
          (hbase.baseline_eq.trans hbase.database_eq) hbase.pending_eq hcovers horder⟩
    | idle hflushes => cases hflushes.symm.trans hf
    | accepted _ _ _ hflushes => cases hflushes.symm.trans hf
    | rejected _ hflushes => cases hflushes.symm.trans hf
    | finished _ hflushes => cases hflushes.symm.trans hf
  · exact h

theorem PersistenceInvariant.reject {snapshot : IncidentSnapshot} {p : Persistence}
    (h : PersistenceInvariant snapshot p) (i : Nat) :
    PersistenceInvariant snapshot (Incident.reject i p) := by
  unfold Incident.reject
  split
  · rename_i write hi
    obtain ⟨rfl, hf⟩ := h.phase.only hi
    cases h.phase with
    | saving saved before hflushes hflushing hbase hcovers horder =>
        exact ⟨h.latest, .rejected write (by simp [hf]) hflushing
          ⟨hbase.database_eq, hbase.baseline_eq, hbase.pending_eq⟩ (hcovers.waiting horder)⟩
    | idle hflushes => cases hflushes.symm.trans hf
    | accepted _ _ _ hflushes => cases hflushes.symm.trans hf
    | rejected _ hflushes => cases hflushes.symm.trans hf
    | finished _ hflushes => cases hflushes.symm.trans hf
  · exact h

-- After a save that went through, the loop leaves where the entry it saved is still the pending
-- one, and otherwise goes on with the pending entry, now based on what was saved.
theorem bookkeep_invariant {snapshot : IncidentSnapshot} {p : Persistence} {write : JournalWrite}
    {before earlier : List IncidentSnapshot} (hlatest : PendingLatest p)
    (hf : p.flushes = [.accepted write]) (hflushing : p.flushing = true)
    (hdatabase : p.database = write.value) (hstored : p.stored = earlier ++ [write.value])
    (hcovers : Covers p write before) (horder : earlier.Sublist before) :
    PersistenceInvariant snapshot { bookkeep write p with
      flushes := p.flushes.set 0 (loopAgain (bookkeep write p).pendingWrite) } := by
  obtain ⟨_, after, pending, htaken, hpending, hcase⟩ := hcovers
  have hdone : p.database = lastAccepted snapshot p.stored := by
    rw [hstored, lastAccepted_concat, hdatabase]
  have hsaved : p.stored.Sublist (before ++ [write.value]) :=
    hstored ▸ horder.append (List.Sublist.refl _)
  rcases hcase with ⟨rfl, rfl⟩ | ⟨hne, mid, rfl⟩
  · have hnone : (bookkeep pending p).pendingWrite = none := by simp [bookkeep, hpending]
    refine ⟨fun next hnext => ?_, .finished false (by simp [hf, hnone, loopAgain]) hflushing ?_ ?_⟩
    · exact absurd (hnone.symm.trans hnext) (by simp)
    · exact ⟨hdone, hdatabase.symm, fun next hnext => absurd (hnone.symm.trans hnext) (by simp)⟩
    · simp only [Waiting, hnone]
      exact ⟨(hlatest pending hpending).1.symm.trans hdatabase.symm, htaken ▸ hsaved⟩
  · have hnext : (bookkeep write p).pendingWrite = some ⟨⟨write.value, pending.value⟩, p.objects⟩ := by
      simp [bookkeep, hpending, hne]
    refine ⟨fun next h => ?_, .saving ⟨⟨write.value, pending.value⟩, p.objects⟩
      (before ++ write.value :: mid) (by simp [hf, hnext, loopAgain]) hflushing ?_ ?_ ?_⟩
    · cases hnext.symm.trans h
      exact ⟨(hlatest pending hpending).1, Nat.lt_succ_self _⟩
    · refine ⟨hdone, hdatabase.symm, fun next h => ?_⟩
      cases hnext.symm.trans h
      rfl
    · exact ⟨Nat.lt_succ_self _, [], _, by simpa [bookkeep] using htaken, hnext, .inl ⟨rfl, rfl⟩⟩
    · exact hsaved.trans (by simp)

theorem PersistenceInvariant.resume {snapshot : IncidentSnapshot} {p : Persistence}
    (h : PersistenceInvariant snapshot p) (i : Nat) :
    PersistenceInvariant snapshot (Incident.resume i p) := by
  unfold Incident.resume
  split
  · rename_i write hi
    obtain ⟨rfl, hf⟩ := h.phase.only hi
    cases h.phase with
    | accepted saved before earlier hflushes hflushing hdatabase hstored hbase hpending hcovers
        horder =>
        cases hflushes.symm.trans hf
        exact bookkeep_invariant h.latest hf hflushing hdatabase hstored hcovers horder
    | idle hflushes => cases hflushes.symm.trans hf
    | saving _ _ hflushes => cases hflushes.symm.trans hf
    | rejected _ hflushes => cases hflushes.symm.trans hf
    | finished _ hflushes => cases hflushes.symm.trans hf
  · rename_i write hi
    obtain ⟨rfl, hf⟩ := h.phase.only hi
    cases h.phase with
    | rejected saved hflushes hflushing hbase hwait =>
        exact ⟨h.latest, .finished true (by simp [hf]) hflushing
          ⟨hbase.database_eq, hbase.baseline_eq, hbase.pending_eq⟩ hwait⟩
    | idle hflushes => cases hflushes.symm.trans hf
    | saving _ _ hflushes => cases hflushes.symm.trans hf
    | accepted _ _ _ hflushes => cases hflushes.symm.trans hf
    | finished _ hflushes => cases hflushes.symm.trans hf
  · exact h

theorem PersistenceInvariant.finish {snapshot : IncidentSnapshot} {p : Persistence}
    (h : PersistenceInvariant snapshot p) (i : Nat) :
    PersistenceInvariant snapshot (Incident.finish i p) := by
  unfold Incident.finish
  split
  · rename_i failed hi
    obtain ⟨rfl, hf⟩ := h.phase.only hi
    cases h.phase with
    | finished left hflushes hflushing hbase hwait =>
        have hidle : PersistenceInvariant snapshot
            { p with flushing := false, flushes := p.flushes.eraseIdx 0 } :=
          ⟨h.latest, .idle (by simp [hf]) rfl
            ⟨hbase.database_eq, hbase.baseline_eq, hbase.pending_eq⟩ hwait⟩
        dsimp only
        split_ifs
        · exact hidle
        · exact hidle.queue
    | idle hflushes => cases hflushes.symm.trans hf
    | saving _ _ hflushes => cases hflushes.symm.trans hf
    | accepted _ _ _ hflushes => cases hflushes.symm.trans hf
    | rejected _ hflushes => cases hflushes.symm.trans hf
  · exact h

theorem PersistenceInvariant.step {js : Js.Runtime} {snapshot : IncidentSnapshot} {p : Persistence}
    (h : PersistenceInvariant snapshot p) (event : PersistenceEvent) :
    PersistenceInvariant snapshot (persist js p event) := by
  cases event with
  | mutate op => exact h.mutate op
  | flush => exact h.queue
  | accept i => exact h.accept i
  | reject i => exact h.reject i
  | resume i => exact h.resume i
  | finish i => exact h.finish i

def Flush.inFlight : Flush → Bool
  | .saving _ => true
  | _ => false

def Flush.isAccepted : Flush → Bool
  | .accepted _ => true
  | _ => false

-- The save protocol: one save at a time, in the order in which the snapshots were taken, with
-- the baseline following the database as soon as the continuation of an accepted save has run,
-- and nothing left to save once no entry is pending and no loop runs.
theorem persistence_protocol (js : Js.Runtime) (sameText : Bool) (snapshot value : IncidentSnapshot)
    (events : List PersistenceEvent) :
    let p := Run.run (persist js) (hydrated sameText snapshot value) events
    p.flushes.countP Flush.inFlight ≤ 1 ∧
    p.stored.Sublist p.taken ∧
    p.database = lastAccepted snapshot p.stored ∧
    (∀ baseline ∈ p.baseline :: (p.pendingWrite.map fun write => write.baseline).toList,
      baseline = lastAccepted snapshot
        (if p.flushes.any Flush.isAccepted then p.stored.dropLast else p.stored)) ∧
    (p.pendingWrite = none → p.flushing = false → p.database = p.memory) := by
  intro p
  have h : PersistenceInvariant snapshot p :=
    Run.invariant_run (fun _ event h => h.step event) (hydrated_invariant sameText snapshot value) events
  have hbaselines : ∀ {last : IncidentSnapshot}, p.baseline = last →
      (∀ write, p.pendingWrite = some write → write.baseline = p.baseline) →
      ∀ baseline ∈ p.baseline :: (p.pendingWrite.map fun write => write.baseline).toList,
        baseline = last := by
    intro last hlast hpending baseline hmem
    simp only [List.mem_cons, Option.mem_toList, Option.map_eq_some_iff] at hmem
    rcases hmem with rfl | ⟨write, hwrite, rfl⟩
    · exact hlast
    · exact (hpending write hwrite).trans hlast
  have hcurrent : ∀ flush, BaselineCurrent snapshot p → p.flushes = flush → flush.any Flush.isAccepted = false →
      ∀ baseline ∈ p.baseline :: (p.pendingWrite.map fun write => write.baseline).toList,
        baseline = lastAccepted snapshot
          (if p.flushes.any Flush.isAccepted then p.stored.dropLast else p.stored) := by
    intro flush hbase hflush hnone
    rw [hflush, hnone, if_neg Bool.false_ne_true]
    exact hbaselines (hbase.baseline_eq.trans hbase.database_eq) hbase.pending_eq
  cases h.phase with
  | idle hflushes hflushing hbase hwait =>
      refine ⟨by simp [hflushes], hwait.stored_sublist, hbase.database_eq, hcurrent _ hbase hflushes rfl,
        fun hnone _ => ?_⟩
      simp only [Waiting, hnone] at hwait
      exact hwait.1.symm
  | saving write before hflushes hflushing hbase hcovers horder =>
      exact ⟨by simp [hflushes, Flush.inFlight], (hcovers.waiting horder).stored_sublist,
        hbase.database_eq, hcurrent _ hbase hflushes rfl, fun _ hidle => by simp [hflushing] at hidle⟩
  | accepted write before earlier hflushes hflushing hdatabase hstored hbase hpending hcovers horder =>
      refine ⟨by simp [hflushes, Flush.inFlight], ?_, by simp [hstored, hdatabase], ?_,
        fun _ hidle => by simp [hflushing] at hidle⟩
      · obtain ⟨_, after, _, htaken, _⟩ := hcovers
        rw [htaken, hstored]
        exact horder.append (by simp)
      · rw [hflushes, hstored]
        simpa [Flush.isAccepted] using hbaselines hbase hpending
  | rejected write hflushes hflushing hbase hwait =>
      exact ⟨by simp [hflushes, Flush.inFlight], hwait.stored_sublist, hbase.database_eq,
        hcurrent _ hbase hflushes rfl, fun _ hidle => by simp [hflushing] at hidle⟩
  | finished failed hflushes hflushing hbase hwait =>
      exact ⟨by simp [hflushes, Flush.inFlight], hwait.stored_sublist, hbase.database_eq,
        hcurrent _ hbase hflushes rfl, fun _ hidle => by simp [hflushing] at hidle⟩

-- Between the acceptance of a save and its continuation the baseline is behind the database.
theorem baseline_behind_database :
    let mayday := heardReport "alice" 0 ["M01"] "broken leg" 1000
    let p := Run.run (persist Js.asciiRuntime) (hydrated true .empty .empty)
      [.mutate (1000, .upsertFromMecp mayday), .accept 0]
    p.database = lastAccepted .empty p.stored ∧ p.baseline ≠ p.database ∧
      journalBaseline p ≠ p.database := by
  decide +kernel

end MeshClient.Incident
