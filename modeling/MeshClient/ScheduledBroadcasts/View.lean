import MeshClient.ScheduledBroadcasts.Scheduler
import MeshClient.Lib.Run

namespace MeshClient.ScheduledBroadcasts

open Run

-- The due time a saved row brings to memory, once it is on its way.
def Pending.saves (p : Pending) : Option (Nat × Option Int) :=
  match p.await, p.answer with
  | .filled _ slot, some (.row row) => some (slot, row.nextDueAt)
  | .saved slot, some (.row row) => some (slot, row.nextDueAt)
  | _, _ => none

-- The due time a run or a pass has claimed or captured and will write to memory.
def Pending.holds (p : Pending) : Option (Nat × Option Int) :=
  match p.await, p.answer with
  | .skipped _ slot next, some (.claimed true) => some (slot, some next)
  | .missed _ slot next, _ => some (slot, some next)
  | .claimed _ slot _ next, some (.claimed true) => some (slot, some next)
  | .delivered _ slot nextDueAt, _ => some (slot, nextDueAt)
  | .recorded _ slot patch, _ => some (slot, patch.nextDueAt)
  | _, _ => none

def Pending.brings (p : Pending) (slot : Nat) (due : Option (Option Int)) : Prop :=
  ∃ v, due = some v ∧ (p.saves = some (slot, v) ∨ p.holds = some (slot, v))

instance (p : Pending) (slot : Nat) (due : Option (Option Int)) : Decidable (p.brings slot due) :=
  decidable_of_iff (∃ v ∈ due, p.saves = some (slot, v) ∨ p.holds = some (slot, v)) Iff.rfl

-- The slots that were in memory when the wait began.
def Await.touches : Await → List Nat
  | .filled pass slot => slot :: pass.rest.map Prod.fst
  | .skipped pass slot _ => slot :: pass.rest.map Prod.fst
  | .missed pass slot _ => slot :: pass.rest.map Prod.fst
  | .normalized _ => []
  | .claimed _ slot _ _ => [slot]
  | .delivered _ slot _ => [slot]
  | .recorded _ slot _ => [slot]
  | .saved _ => []

-- The call is the one its wait is about.
def Pending.Fits (p : Pending) : Prop :=
  match p.await with
  | .filled _ slot => ∃ input, p.call = some (.saveScheduledBroadcast slot input)
  | .skipped _ slot next => ∃ due now, p.call = some (.claimScheduledBroadcastDue slot due next now)
  | .missed _ slot _ => (∃ now result, p.call = some (.setScheduledBroadcastResult slot now result)) ∧
      (p.answer = none ∨ p.answer = some .done)
  | .normalized _ => p.call = none
  | .claimed _ slot _ next => ∃ due now, p.call = some (.claimScheduledBroadcastDue slot due next now)
  | .delivered _ slot _ => ∃ row, p.call = some (.deliver slot row)
  | .recorded _ slot _ => ∃ now result, p.call = some (.setScheduledBroadcastResult slot now result)
  | .saved slot => ∃ input, p.call = some (.saveScheduledBroadcast slot input)

-- Memory has the due times of the database, or will have them from something on its way.
structure Synced (s : Scheduler) : Prop where
  view : ∀ n, s.slots.due n = s.db.due n ∨ ∃ p ∈ s.pending, p.brings n (s.db.due n)
  held : ∀ p ∈ s.pending, ∀ n v, p.holds = some (n, v) → s.db.due n = some v
  fits : ∀ p ∈ s.pending, p.Fits
  present : ∀ p ∈ s.pending, ∀ n ∈ p.await.touches, (s.slots n).isSome

-- No run, pass or save is under way.
def Scheduler.Quiet (s : Scheduler) : Prop := ∀ p ∈ s.pending, ∃ caller, p.await = .normalized caller

def Await.isMissed : Await → Bool
  | .missed _ _ _ => true
  | _ => false

-- The step loses no due time: Send now captures none that is about to change, a call changes none
-- that a run or a pass has yet to write to memory, no recording of a missed slot fails, and the
-- answer of a save is not overtaken.
def Scheduler.KeepsView (env : Platform) (s : Scheduler) : Event → Prop
  | .sendNow slot => s.running = false → ∀ p ∈ s.pending, p.brings slot (s.db.due slot) →
      s.slots.due slot = s.db.due slot
  | .handled i now => ∀ p ∈ s.pending[i]?, p.answer = none → ∀ call ∈ p.call, ∀ q ∈ s.pending,
      ∀ e ∈ q.holds, (call.handle env.slotCount s.db now).1.due e.1 = s.db.due e.1
  | .rejected i => ∀ p ∈ s.pending[i]?, p.await.isMissed = false
  | .answered i _ => ∀ p ∈ s.pending[i]?, ∀ e ∈ p.saves,
      s.db.due e.1 = some e.2 ∨ ∃ q ∈ s.pending.eraseIdx i, q.brings e.1 (s.db.due e.1)
  | _ => True

-- Nothing but calls on their way is added.
structure Opens (s s' : Scheduler) : Prop where
  db : s'.db = s.db
  slots : s'.slots = s.slots
  pending : ∃ more, s'.pending = s.pending ++ more ∧ ∀ p ∈ more, p.saves = none ∧ p.holds = none ∧ p.Fits ∧
    ∀ n ∈ p.await.touches, (s.slots n).isSome

variable {env : Platform} {s s' s'' : Scheduler}

theorem Opens.refl (s : Scheduler) : Opens s s := ⟨rfl, rfl, [], (List.append_nil _).symm, by simp⟩

theorem Opens.of_eq (hdb : s'.db = s.db) (hslots : s'.slots = s.slots) (hpending : s'.pending = s.pending) :
    Opens s s' :=
  ⟨hdb, hslots, [], by rw [hpending, List.append_nil], by simp⟩

theorem Opens.trans (h : Opens s s') (h' : Opens s' s'') : Opens s s'' := by
  obtain ⟨more, hmore, hall⟩ := h.pending
  obtain ⟨more', hmore', hall'⟩ := h'.pending
  refine ⟨h'.db.trans h.db, h'.slots.trans h.slots, more ++ more', ?_, fun p hp => ?_⟩
  · rw [hmore', hmore, List.append_assoc]
  · rcases List.mem_append.mp hp with hp | hp
    · exact hall p hp
    · rw [← h.slots]
      exact hall' p hp

theorem Opens.after (h : Opens s' s'') (hdb : s'.db = s.db) (hslots : s'.slots = s.slots)
    (hpending : s'.pending = s.pending) : Opens s s'' :=
  (Opens.of_eq hdb hslots hpending).trans h

theorem Synced.opens (h : Synced s) (ho : Opens s s') : Synced s' := by
  obtain ⟨more, hmore, hall⟩ := ho.pending
  have hsplit : ∀ p ∈ s'.pending, p ∈ s.pending ∨ p ∈ more := fun p hp => by
    rwa [hmore, List.mem_append] at hp
  refine ⟨fun n => ?_, fun p hp n v hv => ?_, fun p hp => ?_, fun p hp n hn => ?_⟩
  · rw [ho.slots, ho.db]
    refine (h.view n).imp_right fun ⟨p, hp, hbrings⟩ => ⟨p, ?_, hbrings⟩
    rw [hmore]
    exact List.mem_append_left _ hp
  · rw [ho.db]
    rcases hsplit p hp with hp | hp
    · exact h.held p hp n v hv
    · rw [(hall p hp).2.1] at hv
      cases hv
  · rcases hsplit p hp with hp | hp
    · exact h.fits p hp
    · exact (hall p hp).2.2.1
  · rw [ho.slots]
    rcases hsplit p hp with hp | hp
    · exact h.present p hp n hn
    · exact (hall p hp).2.2.2 n hn

theorem mem_getSlots {e : Nat × Row} (h : e ∈ s.getSlots env) : s.slots e.1 = some e.2 := by
  obtain ⟨slot, _, hslot⟩ := List.mem_filterMap.mp h
  obtain ⟨row, hrow, rfl⟩ := Option.map_eq_some_iff.mp hslot
  exact hrow

theorem mem_enabledSlots {e : Nat × Row} (h : e ∈ s.enabledSlots env) : s.slots e.1 = some e.2 ∧ e.2.enabled := by
  obtain ⟨hmem, henabled⟩ := List.mem_filter.mp h
  exact ⟨mem_getSlots hmem, henabled⟩

theorem opens_arm (now : Int) : Opens s (s.arm env now) := by
  unfold Scheduler.arm
  split_ifs <;> exact .of_eq rfl rfl rfl

theorem opens_request {await : Await} {call : Call} (hfits : ({ await, call := some call } : Pending).Fits)
    (hopen : ({ await, call := some call } : Pending).holds = none)
    (htouches : ∀ n ∈ await.touches, (s.slots n).isSome) : Opens s (s.request await call) := by
  refine ⟨rfl, rfl, _, rfl, fun p hp => ?_⟩
  obtain rfl := List.mem_singleton.mp hp
  refine ⟨?_, hopen, hfits, htouches⟩
  cases await <;> rfl

theorem opens_normalizeFrom (mode : Mode) (caller : Caller) (now : Int) (rows : List (Nat × Row))
    (hrows : ∀ e ∈ rows, (s.slots e.1).isSome) : Opens s (s.normalizeFrom env mode caller now rows) := by
  induction rows with
  | nil =>
      refine ⟨rfl, rfl, _, rfl, fun p hp => ?_⟩
      obtain rfl := List.mem_singleton.mp hp
      exact ⟨rfl, rfl, rfl, by simp [Await.touches]⟩
  | cons e rest ih =>
      obtain ⟨slot, row⟩ := e
      have hrest := ih fun e he => hrows e (List.mem_cons_of_mem _ he)
      have htouches : ∀ n ∈ slot :: rest.map Prod.fst, (s.slots n).isSome := by
        intro n hn
        rcases List.mem_cons.mp hn with rfl | hn
        · exact hrows _ List.mem_cons_self
        · obtain ⟨e, he, rfl⟩ := List.mem_map.mp hn
          exact hrows e (List.mem_cons_of_mem _ he)
      unfold Scheduler.normalizeFrom
      cases row.nextDueAt with
      | none =>
          dsimp only
          cases env.time.computeNextDue row.toRule now with
          | none => exact hrest
          | some next => exact opens_request ⟨_, rfl⟩ rfl htouches
      | some due =>
          dsimp only
          split_ifs
          · exact hrest
          · cases env.time.advancePastDue row.toRule due now with
            | none => exact hrest
            | some next => exact opens_request ⟨_, _, rfl⟩ rfl htouches

theorem opens_normalizeSlots (mode : Mode) (caller : Caller) (now : Int) :
    Opens s (s.normalizeSlots env mode caller now) :=
  opens_normalizeFrom mode caller now _ fun _ he => by rw [(mem_enabledSlots he).1]; rfl

theorem opens_refresh (now : Int) : Opens s (s.refresh env now) := by
  unfold Scheduler.refresh
  dsimp only
  split_ifs
  · exact (opens_normalizeSlots _ _ now).after rfl rfl rfl
  · exact (opens_normalizeSlots _ _ now).after rfl rfl rfl
  · exact (opens_arm now).after rfl rfl rfl
  · exact (opens_arm now).after rfl rfl rfl
  · exact .refl s

theorem opens_fireDue {finish : Scheduler → Scheduler} (hfinish : ∀ t, Opens t (finish t)) (run : TickRun) (now : Int) :
    Opens s (s.fireDue env finish run now) := by
  have hfrom : ∀ (rows : List (Int × Nat × Row)) (run : TickRun), (∀ e ∈ rows, (s.slots e.2.1).isSome) →
      Opens s (s.fireFrom env finish now run rows) := by
    intro rows
    induction rows with
    | nil =>
        intro run _
        exact hfinish s
    | cons e rest ih =>
        intro run hrows
        obtain ⟨due, slot, row⟩ := e
        unfold Scheduler.fireFrom
        dsimp only
        cases env.time.computeNextDue row.toRule (max now due) with
        | none => exact ih _ fun e he => hrows e (List.mem_cons_of_mem _ he)
        | some next =>
            refine opens_request ⟨_, _, rfl⟩ rfl fun n hn => ?_
            obtain rfl := List.mem_singleton.mp hn
            exact hrows _ List.mem_cons_self
  unfold Scheduler.fireDue
  split_ifs
  · exact hfinish s
  · refine hfrom _ run fun e he => ?_
    obtain ⟨⟨slot, row⟩, hslot, hdue⟩ := List.mem_filterMap.mp ((List.mem_insertionSort _).mp he)
    obtain ⟨due, _, he⟩ := Option.bind_eq_some_iff.mp hdue
    split_ifs at he
    obtain rfl := Option.some.inj he
    rw [(mem_enabledSlots hslot).1]
    rfl

theorem opens_tickWith {finish : Scheduler → Scheduler} (hfinish : ∀ t, Opens t (finish t)) (now : Int) :
    Opens s (s.tickWith env finish now) := by
  unfold Scheduler.tickWith
  split_ifs
  · exact .of_eq rfl rfl rfl
  · exact (opens_fireDue hfinish _ now).after rfl rfl rfl
  · exact opens_arm now
  · exact .refl s

theorem opens_finishRun (now : Int) : Opens s (s.finishRun env now) := by
  unfold Scheduler.finishRun
  dsimp only
  split_ifs
  · exact (opens_normalizeSlots _ _ now).after rfl rfl rfl
  · have harm : Opens s
        ({ s with running := false, reconcilePending := false, tickPending := false }.arm env now) :=
      (opens_arm now).after rfl rfl rfl
    refine harm.trans (opens_tickWith (fun t => ?_) now)
    exact (opens_arm now).after rfl rfl rfl
  · exact (opens_arm now).after rfl rfl rfl

theorem opens_tick (now : Int) : Opens s (s.tick env now) := opens_tickWith (fun _ => opens_finishRun now) now

theorem opens_start (now : Int) : Opens s (s.start env now) := by
  unfold Scheduler.start
  dsimp only
  split_ifs
  · exact (opens_normalizeSlots _ _ now).after rfl rfl rfl
  · have harm : Opens s ({ s with started := true, lastEnabled := s.enabled }.arm env now) :=
      (opens_arm now).after rfl rfl rfl
    exact harm.trans (.of_eq rfl rfl rfl)

theorem opens_onPowerResume (now : Int) : Opens s (s.onPowerResume env now) := by
  unfold Scheduler.onPowerResume
  dsimp only
  split_ifs
  · exact .of_eq rfl rfl rfl
  · exact (opens_normalizeSlots _ _ now).after rfl rfl rfl
  · exact (opens_arm now).after rfl rfl rfl
  · exact .refl s

theorem opens_setSlot (slot : Nat) (row : Row) (now : Int) :
    Opens { s with slots := s.slots.put slot row } (s.setSlot env slot row now) := by
  unfold Scheduler.setSlot
  dsimp only
  split_ifs
  · exact opens_refresh now
  · exact .refl _

theorem mem_eraseIdx_or {l : List Pending} {i : Nat} {p q : Pending} (hp : l[i]? = some p) (hq : q ∈ l) :
    q = p ∨ q ∈ l.eraseIdx i := by
  obtain ⟨j, hj⟩ := List.mem_iff_getElem?.mp hq
  by_cases hij : j = i
  · subst hij
    exact .inl (Option.some.inj (hj.symm.trans hp))
  · exact .inr (List.mem_eraseIdx_iff_getElem?.mpr ⟨j, hij, hj⟩)

theorem mem_set_or {l : List Pending} {i : Nat} {p p' q : Pending} (hp : l[i]? = some p) (hq : q ∈ l) :
    q = p ∨ q ∈ l.set i p' := by
  obtain ⟨j, hj⟩ := List.mem_iff_getElem?.mp hq
  by_cases hij : j = i
  · subst hij
    exact .inl (Option.some.inj (hj.symm.trans hp))
  · refine .inr (List.mem_iff_getElem?.mpr ⟨j, ?_⟩)
    rwa [List.getElem?_set_ne fun h => hij h.symm]

theorem mem_set_self {l : List Pending} {i : Nat} {p p' : Pending} (hp : l[i]? = some p) : p' ∈ l.set i p' :=
  List.mem_set (List.getElem?_eq_some_iff.mp hp).1 _

-- An answer only adds to what a wait brings to memory.
theorem Pending.brings_answer {p : Pending} {n : Nat} {due : Option (Option Int)} (hnone : p.answer = none)
    (h : p.brings n due) (answer : Answer) : ({ p with answer := some answer } : Pending).brings n due := by
  obtain ⟨await, call, _⟩ := p
  obtain rfl := hnone
  obtain ⟨v, hv, hsaves | hholds⟩ := h
  · cases await <;> cases hsaves
  · refine ⟨v, hv, .inr ?_⟩
    cases await <;> first | exact hholds | cases hholds

section Steps

variable {i : Nat} {p : Pending}

theorem Synced.answered (h : Synced s) (hp : s.pending[i]? = some p) (hnone : p.answer = none) {db : Rows}
    {answer : Answer} (hfits : ({ p with answer := some answer } : Pending).Fits)
    (hview : ∀ n, db.due n = s.db.due n ∨ ({ p with answer := some answer } : Pending).brings n (db.due n))
    (hheld : ∀ q ∈ s.pending, ∀ n v, q.holds = some (n, v) → db.due n = s.db.due n)
    (hown : ∀ n v, ({ p with answer := some answer } : Pending).holds = some (n, v) → db.due n = some v) :
    Synced ({ s with db }.answer i p answer) := by
  have hmem : p ∈ s.pending := List.mem_of_getElem? hp
  refine ⟨fun n => ?_, fun q hq n v hv => ?_, fun q hq => ?_, fun q hq n hn => ?_⟩
  · change s.slots.due n = db.due n ∨
      ∃ q ∈ s.pending.set i { p with answer := some answer }, q.brings n (db.due n)
    rcases hview n with hsame | hbrings
    · rw [hsame]
      refine (h.view n).imp_right fun ⟨q, hq, hbrings⟩ => ?_
      rcases mem_set_or hp hq with rfl | hq
      · exact ⟨_, mem_set_self hp, Pending.brings_answer hnone hbrings answer⟩
      · exact ⟨q, hq, hbrings⟩
    · exact .inr ⟨_, mem_set_self hp, hbrings⟩
  · change db.due n = some v
    rcases List.mem_or_eq_of_mem_set hq with hq | rfl
    · exact (hheld q hq n v hv).trans (h.held q hq n v hv)
    · exact hown n v hv
  · rcases List.mem_or_eq_of_mem_set hq with hq | rfl
    · exact h.fits q hq
    · exact hfits
  · rcases List.mem_or_eq_of_mem_set hq with hq | rfl
    · exact h.present q hq n hn
    · exact h.present p hmem n hn

-- A wait that brings nothing to memory is over.
theorem Synced.drop (h : Synced s) (hp : s.pending[i]? = some p) (hsaves : p.saves = none) (hholds : p.holds = none) :
    Synced { s with pending := s.pending.eraseIdx i } := by
  refine ⟨fun n => (h.view n).imp_right fun ⟨q, hq, hbrings⟩ => ?_, fun q hq => h.held q (List.mem_of_mem_eraseIdx hq),
    fun q hq => h.fits q (List.mem_of_mem_eraseIdx hq), fun q hq => h.present q (List.mem_of_mem_eraseIdx hq)⟩
  rcases mem_eraseIdx_or hp hq with rfl | hq
  · obtain ⟨v, _, hv | hv⟩ := hbrings
    · rw [hsaves] at hv
      cases hv
    · rw [hholds] at hv
      cases hv
  · exact ⟨q, hq, hbrings⟩

-- A wait is over and has written its due time to memory.
theorem Synced.wrote (h : Synced s) (hp : s.pending[i]? = some p) {slot : Nat} {row : Row}
    (hsaves : ∀ e, p.saves = some e → e = (slot, row.nextDueAt))
    (hholds : ∀ e, p.holds = some e → e = (slot, row.nextDueAt))
    (hdue : s.db.due slot = some row.nextDueAt ∨ ∃ q ∈ s.pending.eraseIdx i, q.brings slot (s.db.due slot)) :
    Synced { s with pending := s.pending.eraseIdx i, slots := s.slots.put slot row } := by
  refine ⟨fun n => ?_, fun q hq => h.held q (List.mem_of_mem_eraseIdx hq),
    fun q hq => h.fits q (List.mem_of_mem_eraseIdx hq), fun q hq n hn => ?_⟩
  · change (s.slots.put slot row).due n = s.db.due n ∨ ∃ q ∈ s.pending.eraseIdx i, q.brings n (s.db.due n)
    rw [Rows.due_put]
    split_ifs with hn
    · rw [hn]
      exact hdue.imp_left Eq.symm
    · refine (h.view n).imp_right fun ⟨q, hq, hbrings⟩ => ?_
      rcases mem_eraseIdx_or hp hq with rfl | hq
      · obtain ⟨v, _, hv | hv⟩ := hbrings
        · exact absurd (congrArg Prod.fst (hsaves _ hv)) hn
        · exact absurd (congrArg Prod.fst (hholds _ hv)) hn
      · exact ⟨q, hq, hbrings⟩
  · change (s.slots.put slot row n).isSome
    unfold Rows.put
    rw [Function.update_apply]
    split_ifs
    · rfl
    · exact h.present q (List.mem_of_mem_eraseIdx hq) n hn

-- A wait goes over into one that brings the same.
theorem Synced.handOver (h : Synced s) (hp : s.pending[i]? = some p) {await : Await} {call : Call}
    (hsaves : p.saves = none) (hholds : ({ await, call := some call } : Pending).holds = p.holds)
    (hfits : ({ await, call := some call } : Pending).Fits) (hpresent : ∀ m ∈ await.touches, (s.slots m).isSome) :
    Synced ({ s with pending := s.pending.eraseIdx i }.request await call) := by
  have hsplit : ∀ q ∈ s.pending.eraseIdx i ++ [{ await, call := some call }],
      q ∈ s.pending ∨ q = { await, call := some call } := fun q hq =>
    (List.mem_append.mp hq).imp List.mem_of_mem_eraseIdx List.mem_singleton.mp
  refine ⟨fun n => ?_, fun q hq m w hw => ?_, fun q hq => ?_, fun q hq m hm => ?_⟩
  · refine (h.view n).imp_right fun ⟨q, hq, v, hv, hbrings⟩ => ?_
    rcases mem_eraseIdx_or hp hq with rfl | hq
    · rw [hsaves] at hbrings
      refine ⟨_, List.mem_append_right _ (List.mem_singleton_self _), v, hv, .inr ?_⟩
      exact hholds.trans (hbrings.resolve_left (by simp))
    · exact ⟨q, List.mem_append_left _ hq, v, hv, hbrings⟩
  · rcases hsplit q hq with hq | rfl
    · exact h.held q hq m w hw
    · exact h.held p (List.mem_of_getElem? hp) m w (hholds.symm.trans hw)
  · rcases hsplit q hq with hq | rfl
    · exact h.fits q hq
    · exact hfits
  · rcases hsplit q hq with hq | rfl
    · exact h.present q hq m hm
    · exact hpresent m hm

-- A wait that will write to memory what the database has begins.
theorem Synced.hold (h : Synced s) {await : Await} {call : Call} {n : Nat} {v : Option Int}
    (hholds : ({ await, call := some call } : Pending).holds = some (n, v)) (hdue : s.db.due n = some v)
    (hfits : ({ await, call := some call } : Pending).Fits) (hpresent : ∀ m ∈ await.touches, (s.slots m).isSome) :
    Synced (s.request await call) := by
  have hsplit : ∀ q ∈ (s.request await call).pending, q ∈ s.pending ∨ q = { await, call := some call } :=
    fun q hq => (List.mem_append.mp hq).imp_right List.mem_singleton.mp
  refine ⟨fun m => ?_, fun q hq m w hw => ?_, fun q hq => ?_, fun q hq m hm => ?_⟩
  · exact (h.view m).imp_right fun ⟨q, hq, hbrings⟩ => ⟨q, List.mem_append_left _ hq, hbrings⟩
  · rcases hsplit q hq with hq | rfl
    · exact h.held q hq m w hw
    · obtain ⟨rfl, rfl⟩ := Prod.mk.inj (Option.some.inj (hholds.symm.trans hw))
      exact hdue
  · rcases hsplit q hq with hq | rfl
    · exact h.fits q hq
    · exact hfits
  · rcases hsplit q hq with hq | rfl
    · exact h.present q hq m hm
    · exact hpresent m hm

theorem Synced.handled_save (h : Synced s) {await : Await} {slot : Nat} {input : Input}
    (hp : s.pending[i]? = some { await, call := some (.saveScheduledBroadcast slot input) })
    (hawait : await = .saved slot ∨ ∃ pass, await = .filled pass slot) {now : Int}
    (hkeeps : ∀ q ∈ s.pending, ∀ n v, q.holds = some (n, v) →
      (Call.handle env.slotCount s.db now (.saveScheduledBroadcast slot input)).1.due n = s.db.due n)
    (hfits : ∀ answer, ({ await, call := some (.saveScheduledBroadcast slot input), answer := some answer } :
      Pending).Fits) :
    Synced ({ s with db := (Call.handle env.slotCount s.db now (.saveScheduledBroadcast slot input)).1 }.answer i
      { await, call := some (.saveScheduledBroadcast slot input) }
      (Call.handle env.slotCount s.db now (.saveScheduledBroadcast slot input)).2) := by
  have hholds : ∀ answer, ({ await, call := some (.saveScheduledBroadcast slot input), answer := some answer } :
      Pending).holds = none := by
    intro answer
    rcases hawait with rfl | ⟨pass, rfl⟩ <;> rfl
  refine h.answered hp rfl (hfits _) (fun n => ?_) hkeeps fun n v hv => absurd ((hholds _).symm.trans hv) (by simp)
  rcases handle_save env.slotCount s.db now slot input with hrejected | ⟨row, hrow, _⟩
  · rw [hrejected]
    exact .inl rfl
  · rw [hrow]
    dsimp only
    rw [Rows.due_put]
    split_ifs with hn
    · refine .inr ⟨row.nextDueAt, rfl, .inl ?_⟩
      rw [hn]
      rcases hawait with rfl | ⟨pass, rfl⟩ <;> rfl
    · exact .inl rfl

theorem Synced.handled_claim (h : Synced s) {await : Await} {slot : Nat} {due next claimedAt : Int}
    (hp : s.pending[i]? = some { await, call := some (.claimScheduledBroadcastDue slot due next claimedAt) })
    (hawait : (∃ pass, await = .skipped pass slot next) ∨ ∃ run row, await = .claimed run slot row next) {now : Int}
    (hkeeps : ∀ q ∈ s.pending, ∀ n v, q.holds = some (n, v) →
      (Call.handle env.slotCount s.db now (.claimScheduledBroadcastDue slot due next claimedAt)).1.due n =
        s.db.due n) :
    Synced ({ s with
        db := (Call.handle env.slotCount s.db now (.claimScheduledBroadcastDue slot due next claimedAt)).1 }.answer i
      { await, call := some (.claimScheduledBroadcastDue slot due next claimedAt) }
      (Call.handle env.slotCount s.db now (.claimScheduledBroadcastDue slot due next claimedAt)).2) := by
  have hfits : ∀ answer,
      ({ ({ await, call := some (.claimScheduledBroadcastDue slot due next claimedAt) } : Pending) with
        answer := some answer } : Pending).Fits := by
    intro answer
    rcases hawait with ⟨pass, rfl⟩ | ⟨run, row, rfl⟩
    · exact ⟨due, claimedAt, rfl⟩
    · exact ⟨due, claimedAt, rfl⟩
  rcases handle_claim env.slotCount s.db now slot due next claimedAt with ⟨hlost, _⟩ | ⟨row, hrow, _, hclaimed⟩
  · rw [hlost] at hkeeps ⊢
    refine h.answered hp rfl (hfits _) (fun n => .inl rfl) hkeeps fun n v hv => ?_
    rcases hawait with ⟨pass, rfl⟩ | ⟨run, row, rfl⟩ <;> cases hv
  · rw [hclaimed] at hkeeps ⊢
    have hholds : ({ ({ await, call := some (.claimScheduledBroadcastDue slot due next claimedAt) } : Pending) with
        answer := some (.claimed true) } : Pending).holds = some (slot, some next) := by
      rcases hawait with ⟨pass, rfl⟩ | ⟨run, row, rfl⟩ <;> rfl
    refine h.answered hp rfl (hfits _) (fun n => ?_) hkeeps fun n v hv => ?_
    · dsimp only
      rw [Rows.due_put]
      split_ifs with hn
      · exact .inr ⟨some next, rfl, .inr (hn ▸ hholds)⟩
      · exact .inl rfl
    · obtain ⟨rfl, rfl⟩ := Prod.mk.inj (Option.some.inj (hholds.symm.trans hv))
      dsimp only
      rw [Rows.due_put, if_pos rfl]

theorem Synced.handled_result (h : Synced s) {await : Await} {slot : Nat} {lastAttemptAt : Int} {lastResult : LastResult}
    (hp : s.pending[i]? = some { await, call := some (.setScheduledBroadcastResult slot lastAttemptAt lastResult) })
    (hawait : (∃ pass next, await = .missed pass slot next) ∨ ∃ owner patch, await = .recorded owner slot patch)
    {now : Int} :
    Synced ({ s with
        db := (Call.handle env.slotCount s.db now (.setScheduledBroadcastResult slot lastAttemptAt lastResult)).1 }.answer i
      { await, call := some (.setScheduledBroadcastResult slot lastAttemptAt lastResult) }
      (Call.handle env.slotCount s.db now (.setScheduledBroadcastResult slot lastAttemptAt lastResult)).2) := by
  obtain ⟨hdue, hdone⟩ := handle_setResult env.slotCount s.db now slot lastAttemptAt lastResult
  rw [hdone]
  refine h.answered hp rfl ?_ (fun n => .inl (congrFun hdue n)) (fun _ _ n _ _ => congrFun hdue n) fun n v hv => ?_
  · rcases hawait with ⟨pass, next, rfl⟩ | ⟨owner, patch, rfl⟩
    · exact ⟨⟨_, _, rfl⟩, .inr rfl⟩
    · exact ⟨_, _, rfl⟩
  · rw [hdue]
    refine h.held _ (List.mem_of_getElem? hp) n v ?_
    rcases hawait with ⟨pass, next, rfl⟩ | ⟨owner, patch, rfl⟩ <;> exact hv

theorem Synced.handle (h : Synced s) {now : Int} (hkeeps : s.KeepsView env (.handled i now)) :
    Synced (s.handle env i now) := by
  unfold Scheduler.handle
  cases hp : s.pending[i]? with
  | none => exact h
  | some p =>
      obtain ⟨await, call, answer⟩ := p
      dsimp only
      cases call with
      | none => exact h
      | some call =>
          dsimp only
          split_ifs with hskip
          · exact h
          · obtain ⟨hanswer, hdelivery⟩ := not_or.mp hskip
            obtain rfl : answer = none := by simpa using hanswer
            have hfits := h.fits _ (List.mem_of_getElem? hp)
            have hkept : ∀ q ∈ s.pending, ∀ n v, q.holds = some (n, v) →
                (call.handle env.slotCount s.db now).1.due n = s.db.due n := fun q hq n v hv =>
              hkeeps _ hp rfl call rfl q hq (n, v) hv
            cases await with
            | filled pass slot =>
                obtain ⟨input, hinput⟩ := hfits
                obtain rfl := Option.some.inj hinput
                exact h.handled_save hp (.inr ⟨pass, rfl⟩) hkept fun _ => ⟨input, rfl⟩
            | skipped pass slot next =>
                obtain ⟨due, claimedAt, hclaim⟩ := hfits
                obtain rfl := Option.some.inj hclaim
                exact h.handled_claim hp (.inl ⟨pass, rfl⟩) hkept
            | missed pass slot next =>
                obtain ⟨⟨_, _, hresult⟩, _⟩ := hfits
                obtain rfl := Option.some.inj hresult
                exact h.handled_result hp (.inl ⟨pass, next, rfl⟩)
            | normalized caller => cases hfits
            | claimed run slot row next =>
                obtain ⟨due, claimedAt, hclaim⟩ := hfits
                obtain rfl := Option.some.inj hclaim
                exact h.handled_claim hp (.inr ⟨run, row, rfl⟩) hkept
            | delivered owner slot nextDueAt =>
                obtain ⟨row, hdeliver⟩ := hfits
                obtain rfl := Option.some.inj hdeliver
                exact absurd rfl hdelivery
            | recorded owner slot patch =>
                obtain ⟨_, _, hresult⟩ := hfits
                obtain rfl := Option.some.inj hresult
                exact h.handled_result hp (.inr ⟨owner, patch, rfl⟩)
            | saved slot =>
                obtain ⟨input, hinput⟩ := hfits
                obtain rfl := Option.some.inj hinput
                exact h.handled_save hp (.inl rfl) hkept fun _ => ⟨input, rfl⟩

theorem Synced.goOn (h : Synced s) (pass : Pass) (hrest : ∀ n ∈ pass.rest.map Prod.fst, (s.slots n).isSome) :
    Synced (s.goOn env pass) :=
  h.opens (opens_normalizeFrom _ _ _ _ fun e he => hrest e.1 (List.mem_map_of_mem he))

theorem Synced.fireDue (h : Synced s) (run : TickRun) (now : Int) :
    Synced (s.fireDue env (fun last => last.finishRun env now) run now) :=
  h.opens (opens_fireDue (fun _ => opens_finishRun now) run now)

-- Slots in memory stay there.
theorem isSome_setSlot {n : Nat} (hn : (s.slots n).isSome) (slot : Nat) (row : Row) (now : Int) :
    ((s.setSlot env slot row now).slots n).isSome := by
  rw [(opens_setSlot slot row now).slots]
  change (s.slots.put slot row n).isSome
  unfold Rows.put
  rw [Function.update_apply]
  split_ifs
  · rfl
  · exact hn

theorem Synced.setSlot (h : Synced s) (hp : s.pending[i]? = some p) {slot : Nat} {row : Row} {now : Int}
    (hsaves : p.saves = some (slot, row.nextDueAt)) (hholds : p.holds = none)
    (hdue : s.db.due slot = some row.nextDueAt ∨ ∃ q ∈ s.pending.eraseIdx i, q.brings slot (s.db.due slot)) :
    Synced ({ s with pending := s.pending.eraseIdx i }.setSlot env slot row now) := by
  refine Synced.opens ?_ (opens_setSlot slot row now)
  refine h.wrote hp (fun e he => ?_) (fun e he => ?_) hdue
  · exact (Option.some.inj (hsaves.symm.trans he)).symm
  · rw [hholds] at he
    cases he

theorem Synced.applyRuntimeState (h : Synced s) (hp : s.pending[i]? = some p) {slot : Nat} {patch : RuntimePatch}
    {now : Int} (hholds : p.holds = some (slot, patch.nextDueAt)) (hsaves : p.saves = none)
    (hslot : slot ∈ p.await.touches) :
    Synced ({ s with pending := s.pending.eraseIdx i }.applyRuntimeState env slot patch now) := by
  have hmem := List.mem_of_getElem? hp
  obtain ⟨prev, hprev⟩ := Option.isSome_iff_exists.mp (h.present p hmem slot hslot)
  unfold Scheduler.applyRuntimeState
  dsimp only
  rw [hprev]
  refine Synced.opens ?_ (opens_setSlot slot _ now)
  refine h.wrote hp (fun e he => ?_) (fun e he => ?_) (.inl (h.held p hmem _ _ hholds))
  · rw [hsaves] at he
    cases he
  · exact (Option.some.inj (hholds.symm.trans he)).symm

theorem applyRuntimeState_db (slot : Nat) (patch : RuntimePatch) (now : Int) :
    (s.applyRuntimeState env slot patch now).db = s.db := by
  unfold Scheduler.applyRuntimeState
  split
  · rfl
  · exact (opens_setSlot slot _ now).db

theorem isSome_applyRuntimeState {n : Nat} (hn : (s.slots n).isSome) (slot : Nat) (patch : RuntimePatch) (now : Int) :
    ((s.applyRuntimeState env slot patch now).slots n).isSome := by
  unfold Scheduler.applyRuntimeState
  split
  · exact hn
  · exact isSome_setSlot hn slot _ now

end Steps

section Steps

variable {i : Nat}

theorem mem_getSlots_find {slot : Nat} {e : Nat × Row} (h : (s.getSlots env).find? (fun e => e.1 == slot) = some e) :
    e.1 = slot ∧ s.slots slot = some e.2 := by
  have hslot : e.1 = slot := by simpa using List.find?_some h
  exact ⟨hslot, hslot ▸ mem_getSlots (List.mem_of_find?_eq_some h)⟩

theorem Synced.sendNow (h : Synced s) {slot : Nat} (hkeeps : s.KeepsView env (.sendNow slot)) :
    Synced (s.sendNow env slot) := by
  unfold Scheduler.sendNow
  cases hfind : (s.getSlots env).find? fun e => e.1 == slot with
  | none => exact h
  | some e =>
      obtain ⟨found, row⟩ := e
      obtain ⟨rfl, hrow⟩ := mem_getSlots_find hfind
      dsimp only
      split_ifs with hrunning
      · exact h
      · have hmemory : s.slots.due found = some row.nextDueAt := by
          rw [Rows.due, hrow]
          rfl
        have hdue : s.db.due found = some row.nextDueAt := by
          rcases h.view found with hview | ⟨q, hq, hbrings⟩
          · rw [← hview, hmemory]
          · rw [← hkeeps (by simpa using hrunning) q hq hbrings, hmemory]
        have hopened : Synced { s with running := true } := h.opens (.of_eq rfl rfl rfl)
        refine hopened.hold rfl hdue ⟨row, rfl⟩ fun m hm => ?_
        obtain rfl := List.mem_singleton.mp hm
        exact Option.isSome_iff_exists.mpr ⟨row, hrow⟩

theorem Synced.rejected (h : Synced s) (hkeeps : s.KeepsView env (.rejected i)) :
    Synced (s.step env (.rejected i)) := by
  simp only [Scheduler.step]
  cases hp : s.pending[i]? with
  | none => exact h
  | some p =>
      dsimp only
      split_ifs with hskip
      · exact h
      · obtain ⟨hanswer, hdelivery⟩ := not_or.mp hskip
        have hnone : p.answer = none := by simpa using hanswer
        have hmem := List.mem_of_getElem? hp
        have hfits := h.fits p hmem
        have hmissed := hkeeps p hp
        obtain ⟨await, call, answer⟩ := p
        refine h.answered hp hnone ?_ (fun n => .inl rfl) (fun _ _ _ _ _ => rfl) fun n v hv => ?_
        · cases await <;> first | exact hfits | cases hmissed
        · refine h.held _ hmem n v ?_
          cases await <;> first | exact hv | cases hv

theorem Synced.delivered (h : Synced s) (outcome : Option RunOutcome) : Synced (s.step env (.delivered i outcome)) := by
  simp only [Scheduler.step]
  cases hp : s.pending[i]? with
  | none => exact h
  | some p =>
      dsimp only
      split_ifs with hskip
      · exact h
      · obtain ⟨hanswer, hdelivery⟩ := not_or.mp hskip
        have hnone : p.answer = none := by simpa using hanswer
        have hmem := List.mem_of_getElem? hp
        have hfits := h.fits p hmem
        obtain ⟨await, call, answer⟩ := p
        have hdelivered : ({ await, call, answer } : Pending).isDelivery = true := by simpa using hdelivery
        refine h.answered hp hnone ?_ (fun n => .inl rfl) (fun _ _ _ _ _ => rfl) fun n v hv => ?_
        · cases await with
          | missed pass slot next =>
              obtain ⟨⟨_, _, hresult⟩, _⟩ := hfits
              obtain rfl : call = _ := hresult
              cases hdelivered
          | _ => exact hfits
        · refine h.held _ hmem n v ?_
          cases await <;> first | exact hv | cases hv

theorem Synced.answeredStep (h : Synced s) {now : Int} (hkeeps : s.KeepsView env (.answered i now)) :
    Synced (s.step env (.answered i now)) := by
  simp only [Scheduler.step]
  cases hp : s.pending[i]? with
  | none => exact h
  | some p =>
      have hmem := List.mem_of_getElem? hp
      have hfits := h.fits p hmem
      have hpresent := h.present p hmem
      have hkept := hkeeps p hp
      obtain ⟨await, call, answer⟩ := p
      dsimp only
      cases answer with
      | none => exact h
      | some answer =>
          dsimp only
          cases await with
          | filled pass slot =>
              have hrest : ∀ n ∈ pass.rest.map Prod.fst, (s.slots n).isSome := fun n hn =>
                hpresent n (List.mem_cons_of_mem _ hn)
              cases answer with
              | row row =>
                  refine (h.setSlot hp rfl rfl (hkept _ rfl)).goOn pass fun n hn => ?_
                  refine isSome_setSlot ?_ slot row now
                  exact hrest n hn
              | _ => exact (h.drop hp rfl rfl).goOn pass hrest
          | skipped pass slot next =>
              have hrest : ∀ n ∈ pass.rest.map Prod.fst, (s.slots n).isSome := fun n hn =>
                hpresent n (List.mem_cons_of_mem _ hn)
              cases answer with
              | claimed claimed =>
                  cases claimed with
                  | true => exact h.handOver hp rfl rfl ⟨⟨_, _, rfl⟩, .inl rfl⟩ hpresent
                  | false => exact (h.drop hp rfl rfl).goOn pass hrest
              | _ => exact (h.drop hp rfl rfl).goOn pass hrest
          | missed pass slot next =>
              obtain ⟨_, hanswer⟩ := hfits
              obtain rfl : answer = .done := by simpa using hanswer
              refine (h.applyRuntimeState hp rfl rfl List.mem_cons_self).goOn pass fun n hn => ?_
              refine isSome_applyRuntimeState ?_ slot _ now
              exact hpresent n (List.mem_cons_of_mem _ hn)
          | normalized caller =>
              have hdropped := h.drop hp rfl rfl
              cases caller with
              | start => exact (hdropped.opens (opens_arm now)).opens (.of_eq rfl rfl rfl)
              | refresh => exact hdropped.opens (opens_arm now)
              | finishRun => exact hdropped.opens ((opens_arm now).after rfl rfl rfl)
              | onPowerResume => exact hdropped.opens ((opens_arm now).after rfl rfl rfl)
          | claimed run slot row next =>
              cases answer with
              | claimed claimed =>
                  cases claimed with
                  | true =>
                      have happlied := @Synced.applyRuntimeState env _ _ _ h hp slot
                        ⟨some next, row.lastResult, row.lastAttemptAt⟩ now rfl rfl List.mem_cons_self
                      refine happlied.hold rfl ?_ ⟨row, rfl⟩ fun n hn => ?_
                      · rw [applyRuntimeState_db]
                        exact h.held _ hmem slot _ rfl
                      · refine isSome_applyRuntimeState ?_ slot _ now
                        exact hpresent n hn
                  | false => exact (h.drop hp rfl rfl).fireDue run now
              | _ => exact (h.drop hp rfl rfl).fireDue run now
          | delivered owner slot nextDueAt => exact h.handOver hp rfl rfl ⟨_, _, rfl⟩ hpresent
          | recorded owner slot patch =>
              have happlied := @Synced.applyRuntimeState env _ _ _ h hp slot patch now rfl rfl List.mem_cons_self
              cases owner with
              | tick run => exact happlied.fireDue run now
              | sendNow => exact happlied.opens (opens_finishRun now)
          | saved slot =>
              cases answer with
              | row row => exact h.setSlot hp rfl rfl (hkept _ rfl)
              | _ => exact h.drop hp rfl rfl

end Steps

theorem Synced.step (h : Synced s) (event : Event) (hkeeps : s.KeepsView env event) : Synced (s.step env event) := by
  cases event with
  | booted now =>
      simp only [Scheduler.step]
      split_ifs
      · exact h
      · exact h.opens (opens_start now)
  | settingChanged enabled now =>
      simp only [Scheduler.step]
      split_ifs
      · exact h.opens ((opens_refresh now).after rfl rfl rfl)
      · exact h.opens (.of_eq rfl rfl rfl)
  | powerResumed now =>
      simp only [Scheduler.step]
      split_ifs
      · exact h.opens (opens_onPowerResume now)
      · exact h
  | timerFired now =>
      simp only [Scheduler.step]
      split_ifs
      · exact h.opens ((opens_tick now).after rfl rfl rfl)
      · exact h
  | intervalFired now =>
      simp only [Scheduler.step]
      split_ifs
      · exact h.opens (opens_tick now)
      · exact h
  | sendNow slot => exact h.sendNow hkeeps
  | save slot input => exact h.opens (opens_request ⟨input, rfl⟩ rfl (by simp [Await.touches]))
  | handled i now => exact h.handle hkeeps
  | rejected i => exact h.rejected hkeeps
  | delivered i outcome => exact h.delivered outcome
  | answered i now => exact h.answeredStep hkeeps

theorem hydrated_synced (rows : Rows) (enabled : Bool) : Synced (.hydrated rows enabled) :=
  ⟨fun _ => .inl rfl, by simp [Scheduler.hydrated], by simp [Scheduler.hydrated], by simp [Scheduler.hydrated]⟩

theorem quiet_of_nil (h : s.pending = []) : s.Quiet := by
  intro p hp
  rw [h] at hp
  cases hp

-- Memory agrees with the database whenever nothing is under way, so that the next claim of every
-- slot is granted, as long as no step loses a due time.
theorem view_kept (rows : Rows) (enabled : Bool) (events : List Event)
    (h : Each (Scheduler.step env) (Scheduler.KeepsView env) (.hydrated rows enabled) events)
    (hquiet : (run (Scheduler.step env) (.hydrated rows enabled) events).Quiet) :
    let s := run (Scheduler.step env) (.hydrated rows enabled) events
    (∀ n, s.slots.due n = s.db.due n) ∧
      ∀ n due next now, s.slots.due n = some (some due) →
        (Call.handle env.slotCount s.db now (.claimScheduledBroadcastDue n due next now)).2 = .claimed true := by
  intro s
  have hsynced : Synced s :=
    invariant_of_each (P := Synced) (fun _ event hkeeps hsynced => hsynced.step event hkeeps) h
      (hydrated_synced rows enabled)
  have hview : ∀ n, s.slots.due n = s.db.due n := by
    intro n
    refine (hsynced.view n).resolve_right ?_
    rintro ⟨p, hp, v, _, hbrings⟩
    obtain ⟨caller, hcaller⟩ := hquiet p hp
    obtain ⟨await, call, answer⟩ := p
    obtain rfl : await = .normalized caller := hcaller
    rcases hbrings with hbrings | hbrings <;> cases hbrings
  refine ⟨hview, fun n due next now hdue => ?_⟩
  rcases handle_claim env.slotCount s.db now n due next now with ⟨_, hlost⟩ | ⟨row, _, _, hclaimed⟩
  · exact absurd (hview n ▸ hdue) hlost
  · rw [hclaimed]

instance Scheduler.KeepsView.decidable (s : Scheduler) : (event : Event) → Decidable (s.KeepsView env event)
  | .booted _ => inferInstanceAs (Decidable True)
  | .settingChanged _ _ => inferInstanceAs (Decidable True)
  | .powerResumed _ => inferInstanceAs (Decidable True)
  | .timerFired _ => inferInstanceAs (Decidable True)
  | .intervalFired _ => inferInstanceAs (Decidable True)
  | .sendNow slot => inferInstanceAs (Decidable (s.running = false → ∀ p ∈ s.pending,
      p.brings slot (s.db.due slot) → s.slots.due slot = s.db.due slot))
  | .save _ _ => inferInstanceAs (Decidable True)
  | .handled i now => inferInstanceAs (Decidable (∀ p ∈ s.pending[i]?, p.answer = none → ∀ call ∈ p.call,
      ∀ q ∈ s.pending, ∀ e ∈ q.holds, (call.handle env.slotCount s.db now).1.due e.1 = s.db.due e.1))
  | .rejected i => inferInstanceAs (Decidable (∀ p ∈ s.pending[i]?, p.await.isMissed = false))
  | .delivered _ _ => inferInstanceAs (Decidable True)
  | .answered i _ => inferInstanceAs (Decidable (∀ p ∈ s.pending[i]?, ∀ e ∈ p.saves,
      s.db.due e.1 = some e.2 ∨ ∃ q ∈ s.pending.eraseIdx i, q.brings e.1 (s.db.due e.1)))

-- Slot 1 goes out every day at nine.
def dailyAtNine : Rows := fun slot =>
  if slot = 1 then
    some { interval := .daily, timeOfDayMin := 540, enabled := true, nextDueAt := some 32400000, updatedAt := 0 }
  else none

theorem view_kept_timer_fire :
    let s := run (Scheduler.step utcPlatform) (.hydrated dailyAtNine true)
      [.booted 0, .answered 0 0, .timerFired 32400000, .handled 0 32400000, .answered 0 32400005,
        .delivered 0 (some .sent), .answered 0 32400900, .handled 0 32400900, .answered 0 32400950]
    (∀ n, s.slots.due n = s.db.due n) ∧
      ∀ n due next now, s.slots.due n = some (some due) →
        (Call.handle 12 s.db now (.claimScheduledBroadcastDue n due next now)).2 = .claimed true :=
  view_kept dailyAtNine true _ (by decide) (quiet_of_nil (by decide))

-- A save that moves the slot to ten while Send now delivers it is undone in memory when the
-- delivery ends: every claim made from memory is then refused.
theorem save_during_delivery_lost :
    let s := run (Scheduler.step utcPlatform) (.hydrated dailyAtNine true)
      [.booted 0, .answered 0 0, .sendNow 1, .save 1 { timeOfDayMin := some 600, nextDueAt := some (some 36000000) },
        .handled 1 20, .answered 1 30, .delivered 0 (some .sent), .answered 0 40, .handled 0 40, .answered 0 50]
    s.pending = [] ∧ s.slots.due 1 = some (some 32400000) ∧ s.db.due 1 = some (some 36000000) ∧
      (Call.handle 12 s.db 32400000 (.claimScheduledBroadcastDue 1 32400000 118800000 32400000)).2 =
        .claimed false := by
  decide

end MeshClient.ScheduledBroadcasts
