import MeshClient.ScheduledBroadcasts.Watch

namespace MeshClient.ScheduledBroadcasts

open Run

def Row.config (row : Row) : Rule × Bool := (row.toRule, row.enabled)

-- The call is the one its wait is about, and moves the due time on.
def Pending.Shape (env : Platform) (rows : Rows) (p : Pending) : Prop :=
  match p.await with
  | .filled pass slot => (∃ next, p.call = some (.saveScheduledBroadcast slot { nextDueAt := some (some next) }) ∧
      pass.now < next) ∧ (rows slot).isSome
  | .skipped pass slot next => ∃ due, p.call = some (.claimScheduledBroadcastDue slot due next pass.now) ∧ due < next
  | .missed _ slot _ => ∃ now result, p.call = some (.setScheduledBroadcastResult slot now result)
  | .normalized _ => p.call = none
  | .claimed _ slot row next => slot ∈ List.range' 1 env.slotCount ∧ row.enabled = true ∧
      (rows slot).map Row.config = some row.config ∧ ∃ due now, row.nextDueAt = some due ∧ due < next ∧
        p.call = some (.claimScheduledBroadcastDue slot due next now)
  | .delivered _ slot _ => (∃ row, p.call = some (.deliver slot row)) ∧ (rows slot).isSome
  | .recorded _ slot _ => (∃ now result, p.call = some (.setScheduledBroadcastResult slot now result)) ∧
      (rows slot).isSome
  | .saved _ => False

def Pending.Sound (env : Platform) (rows : Rows) (p : Pending) : Prop :=
  p.Shape env rows ∧ ∀ pass ∈ p.await.pass, ∀ e ∈ pass.rest, (rows e.1).isSome

-- A saved row on its way keeps what the user set.
def Pending.KeepsConfig (rows : Rows) (p : Pending) : Prop :=
  ∀ pass slot row, p.await = .filled pass slot → p.answer = some (.row row) → (rows slot).map Row.config = some row.config

-- Every missed occurrence is still to be skipped: at the end of the run, by a pass that waits, or
-- by the pass in hand.
def Scheduler.Covered (env : Platform) (rows : Rows) (s : Scheduler) (hand : Option Pass) (bound : Int) : Prop :=
  ∀ n ∈ List.range' 1 env.slotCount, (rows n).any (·.enabled) = true → ∀ due, s.db.due n = some (some due) →
    due ≤ bound → s.reconcilePending = true ∨ (∃ p ∈ s.pending, p.advances env bound n due) ∨
      ∃ pass ∈ hand, pass.advances env bound n due

structure Tidy (env : Platform) (rows : Rows) (w : Watch) : Prop where
  seen : w.scheduler.started = true → w.scheduler.enabled = true → w.scheduler.lastEnabled = true
  sound : ∀ p ∈ w.scheduler.pending, p.Sound env rows
  db : ∀ n, (w.scheduler.db n).map Row.config = (rows n).map Row.config
  slots : ∀ n, (w.scheduler.slots n).map Row.config = (rows n).map Row.config
  answers : ∀ p ∈ w.scheduler.pending, p.KeepsConfig rows
  once : w.claimed.Nodup
  spent : ∀ e ∈ w.claimed, ∃ v, w.scheduler.db.due e.1 = some (some v) ∧ e.2 < v
  fired : (w.delivered.map Delivery.occurrence).Nodup
  past : ∀ d ∈ w.delivered, d.occurrence ∈ w.claimed ∧ ∀ b ∈ d.boundary, b < d.due
  granted : ∀ p ∈ w.scheduler.pending, ∀ e ∈ p.granted, e ∈ w.claimed ∧
    e ∉ w.delivered.map Delivery.occurrence ∧ ∀ b ∈ w.boundary, b < e.2

structure Orderly (env : Platform) (rows : Rows) (w : Watch) : Prop where
  single : w.scheduler.Single
  tidy : Tidy env rows w
  covered : w.scheduler.started = true → w.scheduler.enabled = true → ∀ b ∈ w.boundary,
    w.scheduler.Covered env rows none b

-- Nothing but sound calls on their way is added.
structure Calls (env : Platform) (rows : Rows) (s s' : Scheduler) : Prop where
  db : s'.db = s.db
  slots : s'.slots = s.slots
  started : s'.started = s.started
  enabled : s'.enabled = s.enabled
  seen : s.enabled = true → s.lastEnabled = true → s'.lastEnabled = true
  pending : ∃ more, s'.pending = s.pending ++ more ∧ ∀ p ∈ more, p.Sound env rows ∧ p.KeepsConfig rows ∧ p.granted = none

variable {env : Platform} {rows : Rows} {s s' s'' : Scheduler}

theorem Calls.of_eq (hdb : s'.db = s.db) (hslots : s'.slots = s.slots) (hstarted : s'.started = s.started)
    (henabled : s'.enabled = s.enabled) (hseen : s.enabled = true → s.lastEnabled = true → s'.lastEnabled = true)
    (hpending : s'.pending = s.pending) : Calls env rows s s' :=
  ⟨hdb, hslots, hstarted, henabled, hseen, [], by rw [hpending, List.append_nil], by simp⟩

theorem Calls.refl (s : Scheduler) : Calls env rows s s := .of_eq rfl rfl rfl rfl (fun _ h => h) rfl

theorem Calls.trans (h : Calls env rows s s') (h' : Calls env rows s' s'') : Calls env rows s s'' := by
  obtain ⟨more, hmore, hall⟩ := h.pending
  obtain ⟨more', hmore', hall'⟩ := h'.pending
  refine ⟨h'.db.trans h.db, h'.slots.trans h.slots, h'.started.trans h.started, h'.enabled.trans h.enabled,
    fun henabled hlast => h'.seen (h.enabled.trans henabled) (h.seen henabled hlast), more ++ more', ?_,
    fun p hp => (List.mem_append.mp hp).elim (hall p) (hall' p)⟩
  rw [hmore', hmore, List.append_assoc]

theorem Calls.mem (h : Calls env rows s s') {p : Pending} (hp : p ∈ s.pending) : p ∈ s'.pending := by
  obtain ⟨more, hmore, _⟩ := h.pending
  rw [hmore]
  exact List.mem_append_left _ hp

theorem Calls.cases (h : Calls env rows s s') {p : Pending} (hp : p ∈ s'.pending) :
    p ∈ s.pending ∨ p.Sound env rows ∧ p.KeepsConfig rows ∧ p.granted = none := by
  obtain ⟨more, hmore, hall⟩ := h.pending
  rw [hmore] at hp
  exact (List.mem_append.mp hp).imp_right (hall p)

theorem Scheduler.Covered.mono {hand : Option Pass} {bound : Int} (h : s.Covered env rows hand bound)
    (hdb : s'.db = s.db) (hreconcile : s.reconcilePending = true → s'.reconcilePending = true)
    (hpending : ∀ p ∈ s.pending, p ∈ s'.pending) : s'.Covered env rows hand bound := by
  intro n hn henabled due hdue hpast
  rw [hdb] at hdue
  refine (h n hn henabled due hdue hpast).imp hreconcile fun hrest => hrest.imp_left ?_
  exact fun ⟨p, hp, hadvances⟩ => ⟨p, hpending p hp, hadvances⟩

-- A step that only adds calls keeps what is covered.
theorem Calls.covered (h : Calls env rows s s') (hreconcile : s.reconcilePending = true → s'.reconcilePending = true)
    {hand : Option Pass} {bound : Int} (hb : s.Covered env rows hand bound) : s'.Covered env rows hand bound :=
  hb.mono h.db hreconcile fun _ hp => h.mem hp

theorem mem_getSlots' {e : Nat × Row} (h : e ∈ s.getSlots env) :
    e.1 ∈ List.range' 1 env.slotCount ∧ s.slots e.1 = some e.2 := by
  obtain ⟨slot, hrange, hslot⟩ := List.mem_filterMap.mp h
  obtain ⟨row, hrow, rfl⟩ := Option.map_eq_some_iff.mp hslot
  exact ⟨hrange, hrow⟩

theorem mem_enabledSlots' {e : Nat × Row} : e ∈ s.enabledSlots env ↔
    e.1 ∈ List.range' 1 env.slotCount ∧ s.slots e.1 = some e.2 ∧ e.2.enabled = true := by
  constructor
  · intro h
    obtain ⟨hmem, henabled⟩ := List.mem_filter.mp h
    exact ⟨(mem_getSlots' hmem).1, (mem_getSlots' hmem).2, henabled⟩
  · rintro ⟨hrange, hslot, henabled⟩
    refine List.mem_filter.mpr ⟨List.mem_filterMap.mpr ⟨e.1, hrange, ?_⟩, henabled⟩
    rw [hslot]
    rfl

theorem calls_arm (now : Int) : Calls env rows s (s.arm env now) := by
  unfold Scheduler.arm
  split_ifs <;> exact .of_eq rfl rfl rfl rfl (fun _ h => h) rfl

theorem arm_reconcile (now : Int) : (s.arm env now).reconcilePending = s.reconcilePending := by
  unfold Scheduler.arm
  split_ifs <;> rfl

theorem calls_request {await : Await} {call : Call} (hsound : ({ await, call := some call } : Pending).Sound env rows) :
    Calls env rows s (s.request await call) := by
  refine ⟨rfl, rfl, rfl, rfl, fun _ h => h, _, rfl, fun p hp => ?_⟩
  obtain rfl := List.mem_singleton.mp hp
  refine ⟨hsound, fun pass slot row _ hanswer => ?_, ?_⟩
  · cases hanswer
  · cases await <;> rfl

theorem calls_normalizeFrom (mode : Mode) (caller : Caller) (now : Int) (items : List (Nat × Row))
    (hitems : ∀ e ∈ items, (rows e.1).isSome) : Calls env rows s (s.normalizeFrom env mode caller now items) := by
  induction items with
  | nil =>
      refine ⟨rfl, rfl, rfl, rfl, fun _ h => h, _, rfl, fun p hp => ?_⟩
      obtain rfl := List.mem_singleton.mp hp
      refine ⟨⟨rfl, fun pass hpass => ?_⟩, fun pass slot row hawait => ?_, rfl⟩
      · cases hpass
      · cases hawait
  | cons e rest ih =>
      obtain ⟨slot, row⟩ := e
      have hlater : ∀ e ∈ rest, (rows e.1).isSome := fun e he => hitems e (List.mem_cons_of_mem _ he)
      have hrest := ih hlater
      have hpass : ∀ pass ∈ some (⟨mode, caller, now, rest⟩ : Pass), ∀ e ∈ pass.rest, (rows e.1).isSome := by
        intro pass hpass
        obtain rfl := Option.some.inj hpass
        exact hlater
      unfold Scheduler.normalizeFrom
      cases row.nextDueAt with
      | none =>
          dsimp only
          cases hnext : env.time.computeNextDue row.toRule now with
          | none => exact hrest
          | some next =>
              have hgt := LocalTime.computeNextDue_gt hnext
              exact calls_request ⟨⟨⟨next, rfl, hgt⟩, hitems _ List.mem_cons_self⟩, hpass⟩
      | some due =>
          dsimp only
          split_ifs with hskip
          · exact hrest
          · cases hnext : env.time.advancePastDue row.toRule due now with
            | none => exact hrest
            | some next =>
                have hpast : due ≤ now := not_lt.mp (not_or.mp hskip).2
                exact calls_request ⟨⟨due, rfl, hpast.trans_lt (LocalTime.advancePastDue_gt hnext)⟩, hpass⟩

theorem normalizeFrom_reconcile (mode : Mode) (caller : Caller) (now : Int) (items : List (Nat × Row)) :
    (s.normalizeFrom env mode caller now items).reconcilePending = s.reconcilePending := by
  induction items with
  | nil => rfl
  | cons e rest ih =>
      obtain ⟨slot, row⟩ := e
      unfold Scheduler.normalizeFrom
      cases row.nextDueAt with
      | none =>
          dsimp only
          cases env.time.computeNextDue row.toRule now with
          | none => exact ih
          | some next => rfl
      | some due =>
          dsimp only
          split_ifs
          · exact ih
          · cases env.time.advancePastDue row.toRule due now with
            | none => exact ih
            | some next => rfl

-- A pass over missed slots takes up every row it is given.
theorem normalizeFrom_advances {caller : Caller} {now bound due : Int} {n : Nat} (hbound : bound ≤ now)
    (hpast : due ≤ bound) {items : List (Nat × Row)} {row : Row} (hitem : (n, row) ∈ items)
    (hdue : row.nextDueAt = some due) (hnext : (env.time.advancePastDue row.toRule due now).isSome) :
    ∃ p ∈ (s.normalizeFrom env .skipMissed caller now items).pending, p.advances env bound n due := by
  induction items with
  | nil => cases hitem
  | cons e rest ih =>
      obtain ⟨slot, first⟩ := e
      have hlater : ∀ await call, (∃ slot next, await = .skipped ⟨.skipMissed, caller, now, rest⟩ slot next) ∨
          (∃ slot, await = .filled ⟨.skipMissed, caller, now, rest⟩ slot) → (n, row) ∈ rest →
          ∃ p ∈ (s.request await call).pending, p.advances env bound n due := by
        intro await call hawait hrest
        refine ⟨_, List.mem_append_right _ (List.mem_singleton_self _), .inr ⟨⟨.skipMissed, caller, now, rest⟩, ?_,
          rfl, hbound, (n, row), hrest, rfl, hdue, hnext⟩⟩
        rcases hawait with ⟨slot, next, rfl⟩ | ⟨slot, rfl⟩ <;> rfl
      unfold Scheduler.normalizeFrom
      rcases List.mem_cons.mp hitem with hfirst | hrest
      · obtain ⟨rfl, rfl⟩ := Prod.mk.inj hfirst
        rw [hdue]
        dsimp only
        rw [if_neg (by simpa using hpast.trans hbound)]
        obtain ⟨next, hsome⟩ := Option.isSome_iff_exists.mp hnext
        rw [hsome]
        refine ⟨_, List.mem_append_right _ (List.mem_singleton_self _), .inl ⟨rfl, rfl, ?_⟩⟩
        exact hbound.trans_lt (LocalTime.advancePastDue_gt hsome)
      · cases first.nextDueAt with
        | none =>
            dsimp only
            cases env.time.computeNextDue first.toRule now with
            | none => exact ih hrest
            | some next => exact hlater _ _ (.inr ⟨slot, rfl⟩) hrest
        | some firstDue =>
            dsimp only
            split_ifs
            · exact ih hrest
            · cases env.time.advancePastDue first.toRule firstDue now with
              | none => exact ih hrest
              | some next => exact hlater _ _ (.inl ⟨slot, next, rfl⟩) hrest

theorem Rows.due_eq_some {table : Rows} {n : Nat} {due : Option Int} (h : table.due n = some due) :
    ∃ row, table n = some row ∧ row.nextDueAt = due :=
  Option.map_eq_some_iff.mp h

theorem isSome_of_config {table : Rows} {n : Nat} {row : Row} (hrow : table n = some row)
    (hconfig : (table n).map Row.config = (rows n).map Row.config) : (rows n).map Row.config = some row.config := by
  rw [← hconfig, hrow]
  rfl

theorem calls_normalizeSlots (hslots : ∀ n, (s.slots n).map Row.config = (rows n).map Row.config) (mode : Mode)
    (caller : Caller) (now : Int) : Calls env rows s (s.normalizeSlots env mode caller now) := by
  refine calls_normalizeFrom mode caller now _ fun e he => ?_
  have hconfig := isSome_of_config (mem_enabledSlots'.mp he).2.1 (hslots e.1)
  cases hrow : rows e.1 with
  | none =>
      rw [hrow] at hconfig
      cases hconfig
  | some row => rfl

-- A fresh pass takes up everything that is missed.
theorem Scheduler.Knows.covered {now : Int} (hknows : s.Knows env s.slots.due now)
    (hdb : ∀ n, (s.db n).map Row.config = (rows n).map Row.config)
    (hslots : ∀ n, (s.slots n).map Row.config = (rows n).map Row.config) {bound : Int} (hbound : bound ≤ now)
    (caller : Caller) : (s.normalizeSlots env .skipMissed caller now).Covered env rows none bound := by
  intro n hn henabled due hdue hpast
  rw [(calls_normalizeSlots hslots .skipMissed caller now).db] at hdue
  obtain ⟨row, hrow, hrowDue⟩ := Rows.due_eq_some hdue
  have hconfig := isSome_of_config hrow (hdb n)
  have hrowEnabled : row.enabled = true := by
    cases huser : rows n with
    | none =>
        rw [huser] at hconfig
        cases hconfig
    | some user =>
        rw [huser] at hconfig henabled
        have hsame : user.enabled = row.enabled := congrArg Prod.snd (Option.some.inj hconfig)
        rw [← hsame]
        exact henabled
  obtain ⟨hmemory, hnext⟩ := hknows n hn row hrow hrowEnabled due hrowDue (hpast.trans hbound)
  obtain ⟨held, hheld, hheldDue⟩ := Rows.due_eq_some hmemory
  have hsame : held.config = row.config := by
    have hheldConfig := isSome_of_config hheld (hslots n)
    exact Option.some.inj (hheldConfig.symm.trans hconfig)
  have hrule : held.toRule = row.toRule := congrArg Prod.fst hsame
  have hitem : (n, held) ∈ s.enabledSlots env :=
    mem_enabledSlots'.mpr ⟨hn, hheld, (congrArg Prod.snd hsame).trans hrowEnabled⟩
  exact .inr (.inl (normalizeFrom_advances hbound hpast hitem hheldDue (hrule ▸ hnext)))

theorem Calls.after (h : Calls env rows s' s'') (hdb : s'.db = s.db) (hslots : s'.slots = s.slots)
    (hstarted : s'.started = s.started) (henabled : s'.enabled = s.enabled)
    (hseen : s.enabled = true → s.lastEnabled = true → s'.lastEnabled = true) (hpending : s'.pending = s.pending) :
    Calls env rows s s'' :=
  (Calls.of_eq hdb hslots hstarted henabled hseen hpending).trans h

section Config

variable (hslots : ∀ n, (s.slots n).map Row.config = (rows n).map Row.config)

include hslots

theorem calls_refresh (now : Int) : Calls env rows s (s.refresh env now) := by
  unfold Scheduler.refresh
  dsimp only
  split_ifs
  · refine Calls.after (calls_normalizeSlots ?_ _ _ now) rfl rfl rfl rfl (fun h _ => h) rfl
    exact hslots
  · refine Calls.after (calls_normalizeSlots ?_ _ _ now) rfl rfl rfl rfl (fun h _ => h) rfl
    exact hslots
  · exact Calls.after (calls_arm now) rfl rfl rfl rfl (fun h _ => h) rfl
  · exact Calls.after (calls_arm now) rfl rfl rfl rfl (fun h _ => h) rfl
  · exact .refl s

theorem calls_fireDue {finish : Scheduler → Scheduler} (hfinish : Calls env rows s (finish s)) (run : TickRun)
    (now : Int) : Calls env rows s (s.fireDue env finish run now) := by
  have hfrom : ∀ (items : List (Int × Nat × Row)) (run : TickRun),
      (∀ e ∈ items, e.2 ∈ s.enabledSlots env ∧ e.2.2.nextDueAt = some e.1) →
      Calls env rows s (s.fireFrom env finish now run items) := by
    intro items
    induction items with
    | nil => exact fun _ _ => hfinish
    | cons e rest ih =>
        intro run hitems
        obtain ⟨due, slot, row⟩ := e
        unfold Scheduler.fireFrom
        dsimp only
        cases hnext : env.time.computeNextDue row.toRule (max now due) with
        | none => exact ih _ fun e he => hitems e (List.mem_cons_of_mem _ he)
        | some next =>
            obtain ⟨hmem, hdue⟩ := hitems _ List.mem_cons_self
            obtain ⟨hrange, hslot, henabled⟩ := mem_enabledSlots'.mp hmem
            have hlater : due < next := (le_max_right now due).trans_lt (LocalTime.computeNextDue_gt hnext)
            refine calls_request
              ⟨⟨hrange, henabled, isSome_of_config hslot (hslots slot), due, now, hdue, hlater, rfl⟩, ?_⟩
            intro pass hpass
            cases hpass
  unfold Scheduler.fireDue
  split_ifs
  · exact hfinish
  · refine hfrom _ run fun e he => ?_
    obtain ⟨⟨slot, row⟩, hslot, hdue⟩ := List.mem_filterMap.mp ((List.mem_insertionSort _).mp he)
    obtain ⟨due, hrow, he⟩ := Option.bind_eq_some_iff.mp hdue
    split_ifs at he
    obtain rfl := Option.some.inj he
    exact ⟨hslot, hrow⟩

theorem calls_tickWith {finish : Scheduler → Scheduler}
    (hfinish : Calls env rows { s with running := true } (finish { s with running := true })) (now : Int) :
    Calls env rows s (s.tickWith env finish now) := by
  unfold Scheduler.tickWith
  split_ifs
  · exact .of_eq rfl rfl rfl rfl (fun _ h => h) rfl
  · refine Calls.after (calls_fireDue ?_ hfinish _ now) rfl rfl rfl rfl (fun _ h => h) rfl
    exact hslots
  · exact calls_arm now
  · exact .refl s

theorem calls_finishRun (now : Int) : Calls env rows s (s.finishRun env now) := by
  have harm : Calls env rows s
      ({ s with running := false, reconcilePending := false, tickPending := false }.arm env now) :=
    Calls.after (calls_arm now) rfl rfl rfl rfl (fun _ h => h) rfl
  unfold Scheduler.finishRun
  dsimp only
  split_ifs
  · refine Calls.after (calls_normalizeSlots ?_ _ _ now) rfl rfl rfl rfl (fun _ h => h) rfl
    exact hslots
  · refine harm.trans (calls_tickWith (fun n => ?_) ?_ now)
    · rw [harm.slots]
      exact hslots n
    · exact Calls.after (calls_arm now) rfl rfl rfl rfl (fun _ h => h) rfl
  · exact harm

theorem calls_tick (now : Int) : Calls env rows s (s.tick env now) := by
  refine calls_tickWith hslots (calls_finishRun ?_ now) now
  exact hslots

end Config

theorem refresh_reconcile (now : Int) (h : s.reconcilePending = true) :
    (s.refresh env now).reconcilePending = true := by
  unfold Scheduler.refresh
  dsimp only
  split_ifs
  · exact (normalizeFrom_reconcile _ _ _ _).trans h
  · exact (normalizeFrom_reconcile _ _ _ _).trans h
  · exact arm_reconcile now
  · exact (arm_reconcile now).trans h
  · exact h

theorem covered_fireDue {finish : Scheduler → Scheduler} {bound : Int} (h : s.Covered env rows none bound)
    (hfinish : (finish s).Covered env rows none bound) (run : TickRun) (now : Int) :
    (s.fireDue env finish run now).Covered env rows none bound := by
  have hfrom : ∀ (items : List (Int × Nat × Row)) (run : TickRun),
      (s.fireFrom env finish now run items).Covered env rows none bound := by
    intro items
    induction items with
    | nil => exact fun _ => hfinish
    | cons e rest ih =>
        intro run
        obtain ⟨due, slot, row⟩ := e
        unfold Scheduler.fireFrom
        dsimp only
        cases env.time.computeNextDue row.toRule (max now due) with
        | none => exact ih _
        | some next => exact h.mono rfl id fun p hp => List.mem_append_left _ hp
  unfold Scheduler.fireDue
  split_ifs
  · exact hfinish
  · exact hfrom _ run

theorem covered_tickWith {finish : Scheduler → Scheduler} {bound : Int} (h : s.Covered env rows none bound)
    (hfinish : (finish { s with running := true }).Covered env rows none bound) (now : Int) :
    (s.tickWith env finish now).Covered env rows none bound := by
  unfold Scheduler.tickWith
  split_ifs
  · exact h.mono rfl id fun _ hp => hp
  · have hrunning : ({ s with running := true } : Scheduler).Covered env rows none bound := h
    exact covered_fireDue hrunning hfinish _ now
  · exact (calls_arm now).covered (fun hr => (arm_reconcile now).trans hr) h
  · exact h

-- A run that ends makes good for the pass it owes.
theorem covered_finishRun {bound now : Int} (h : s.Covered env rows none bound)
    (hdb : ∀ n, (s.db n).map Row.config = (rows n).map Row.config)
    (hslots : ∀ n, (s.slots n).map Row.config = (rows n).map Row.config)
    (hready : s.reconcilePending = true → bound ≤ now ∧ s.Knows env s.slots.due now) :
    (s.finishRun env now).Covered env rows none bound := by
  unfold Scheduler.finishRun
  dsimp only
  split_ifs with hreconcile htick
  · obtain ⟨hbound, hknows⟩ := hready hreconcile
    have hcleared : Scheduler.Knows env
        { s with running := true, reconcilePending := false, tickPending := false } s.slots.due now := hknows
    exact hcleared.covered hdb hslots hbound .finishRun
  all_goals
    have harm : ({ s with running := false, reconcilePending := false, tickPending := false }.arm env now).Covered
        env rows none bound := by
      have hcalls : Calls env rows s
          ({ s with running := false, reconcilePending := false, tickPending := false }.arm env now) :=
        Calls.after (calls_arm now) rfl rfl rfl rfl (fun _ hlast => hlast) rfl
      exact h.mono hcalls.db (fun hr => absurd hr hreconcile) fun p hp => hcalls.mem hp
  · refine covered_tickWith harm ?_ now
    refine Calls.covered (calls_arm now) (fun hr => (arm_reconcile now).trans hr) ?_
    exact harm
  · exact harm

theorem covered_tick {bound now : Int} (h : s.Covered env rows none bound)
    (hdb : ∀ n, (s.db n).map Row.config = (rows n).map Row.config)
    (hslots : ∀ n, (s.slots n).map Row.config = (rows n).map Row.config)
    (hready : s.reconcilePending = true → bound ≤ now ∧ s.Knows env s.slots.due now) :
    (s.tick env now).Covered env rows none bound := by
  refine covered_tickWith h ?_ now
  have hrunning : ({ s with running := true } : Scheduler).Covered env rows none bound := h
  exact covered_finishRun hrunning hdb hslots hready

theorem isSome_of_map_eq_some {n : Nat} {config : Rule × Bool} (h : (rows n).map Row.config = some config) :
    (rows n).isSome := by
  obtain ⟨row, hrow, _⟩ := Option.map_eq_some_iff.mp h
  rw [hrow]
  rfl

theorem calls_setSlot (hslots : ∀ n, (s.slots n).map Row.config = (rows n).map Row.config) {slot : Nat} {row : Row}
    (hrow : (rows slot).map Row.config = some row.config) (now : Int) :
    Calls env rows { s with slots := s.slots.put slot row } (s.setSlot env slot row now) := by
  unfold Scheduler.setSlot
  dsimp only
  split_ifs
  · refine calls_refresh (fun n => ?_) now
    change (s.slots.put slot row n).map Row.config = _
    unfold Rows.put
    rw [Function.update_apply]
    split_ifs with hn
    · rw [hn, hrow]
      rfl
    · exact hslots n
  · exact .refl _

theorem setSlot_reconcile (slot : Nat) (row : Row) (now : Int) (h : s.reconcilePending = true) :
    (s.setSlot env slot row now).reconcilePending = true := by
  unfold Scheduler.setSlot
  dsimp only
  split_ifs
  · exact refresh_reconcile now h
  · exact h

theorem config_put {table : Rows} (htable : ∀ n, (table n).map Row.config = (rows n).map Row.config) {slot : Nat}
    {row : Row} (hrow : (rows slot).map Row.config = some row.config) (n : Nat) :
    (table.put slot row n).map Row.config = (rows n).map Row.config := by
  unfold Rows.put
  rw [Function.update_apply]
  split_ifs with hn
  · rw [hn, hrow]
    rfl
  · exact htable n

-- What an answer leads to: a row or two in memory, and calls.
theorem resume_calls (hslots : ∀ n, (s.slots n).map Row.config = (rows n).map Row.config) {p : Pending}
    (hsound : p.Sound env rows) (hconfig : p.KeepsConfig rows) {answer : Answer} (hanswer : p.answer = some answer)
    (now : Int) : ∃ table : Rows, (∀ n, (table n).map Row.config = (rows n).map Row.config) ∧
      Calls env rows { s with slots := table } (s.resume env now p.await answer) := by
  have hset : ∀ {slot row}, (rows slot).map Row.config = some row.config → ∀ {t : Scheduler},
      Calls env rows (s.setSlot env slot row now) t → ∃ table : Rows,
        (∀ n, (table n).map Row.config = (rows n).map Row.config) ∧ Calls env rows { s with slots := table } t := by
    intro slot row hrow t ht
    exact ⟨_, config_put hslots hrow, (calls_setSlot hslots hrow now).trans ht⟩
  have hsame : ∀ {t : Scheduler}, Calls env rows s t → ∃ table : Rows,
      (∀ n, (table n).map Row.config = (rows n).map Row.config) ∧ Calls env rows { s with slots := table } t :=
    fun ht => ⟨s.slots, hslots, ht⟩
  have happly : ∀ {slot patch} {t : Scheduler}, Calls env rows (s.applyRuntimeState env slot patch now) t →
      ∃ table : Rows, (∀ n, (table n).map Row.config = (rows n).map Row.config) ∧
        Calls env rows { s with slots := table } t := by
    intro slot patch t ht
    unfold Scheduler.applyRuntimeState at ht
    cases hprev : s.slots slot with
    | none =>
        rw [hprev] at ht
        exact hsame ht
    | some prev =>
        rw [hprev] at ht
        have hrow := isSome_of_config hprev (hslots slot)
        refine hset ?_ ht
        exact hrow
  have hfire : ∀ {t : Scheduler} run, (∀ n, (t.slots n).map Row.config = (rows n).map Row.config) →
      Calls env rows t (t.fireDue env (fun last => last.finishRun env now) run now) :=
    fun run ht => calls_fireDue ht (calls_finishRun ht now) run now
  obtain ⟨await, call, _⟩ := p
  obtain rfl := hanswer
  obtain ⟨hshape, hrest⟩ := hsound
  cases await with
  | filled pass slot =>
      cases answer with
      | row row => exact hset (hconfig pass slot row rfl rfl) (calls_normalizeFrom _ _ _ _ (hrest pass rfl))
      | _ => exact hsame (calls_normalizeFrom _ _ _ _ (hrest pass rfl))
  | skipped pass slot next =>
      cases answer with
      | claimed claimed =>
          cases claimed with
          | true => exact hsame (calls_request ⟨⟨_, _, rfl⟩, hrest⟩)
          | false => exact hsame (calls_normalizeFrom _ _ _ _ (hrest pass rfl))
      | _ => exact hsame (calls_normalizeFrom _ _ _ _ (hrest pass rfl))
  | missed pass slot next =>
      cases answer with
      | done => exact happly (calls_normalizeFrom _ _ _ _ (hrest pass rfl))
      | _ => exact hsame (calls_normalizeFrom _ _ _ _ (hrest pass rfl))
  | normalized caller =>
      cases caller with
      | start => exact hsame ((calls_arm now).trans (.of_eq rfl rfl rfl rfl (fun _ h => h) rfl))
      | refresh => exact hsame (calls_arm now)
      | finishRun => exact hsame (Calls.after (calls_arm now) rfl rfl rfl rfl (fun _ h => h) rfl)
      | onPowerResume => exact hsame (Calls.after (calls_arm now) rfl rfl rfl rfl (fun _ h => h) rfl)
  | claimed run slot row next =>
      cases answer with
      | claimed claimed =>
          cases claimed with
          | true =>
              obtain ⟨_, _, hrow, _⟩ := hshape
              refine happly (calls_request ⟨⟨⟨row, rfl⟩, isSome_of_map_eq_some hrow⟩, fun pass hpass => ?_⟩)
              cases hpass
          | false => exact hsame (hfire run hslots)
      | _ => exact hsame (hfire run hslots)
  | delivered owner slot nextDueAt =>
      obtain ⟨_, hslot⟩ := hshape
      refine hsame (calls_request ⟨⟨⟨_, _, rfl⟩, hslot⟩, fun pass hpass => ?_⟩)
      cases hpass
  | recorded owner slot patch =>
      have hconfigs : ∀ n, ((s.applyRuntimeState env slot patch now).slots n).map Row.config =
          (rows n).map Row.config := by
        obtain ⟨table, htable, hcalls⟩ := @happly slot patch _ (.refl _)
        intro n
        rw [hcalls.slots]
        exact htable n
      cases owner with
      | tick run => exact happly (hfire run hconfigs)
      | sendNow => exact happly (calls_finishRun hconfigs now)
  | saved slot => exact absurd hshape id

section Watched

variable {boundary : Option Int} {claimed : List (Nat × Int)} {delivered : List Delivery}

theorem Tidy.calls (h : Tidy env rows ⟨s, boundary, claimed, delivered⟩) (hc : Calls env rows s s') :
    Tidy env rows ⟨s', boundary, claimed, delivered⟩ := by
  refine ⟨?_, fun p hp => ?_, ?_, ?_, fun p hp => ?_, h.once, ?_, h.fired, h.past, fun p hp e he => ?_⟩
  · intro hstarted henabled
    rw [hc.started] at hstarted
    rw [hc.enabled] at henabled
    exact hc.seen henabled (h.seen hstarted henabled)
  · exact (hc.cases hp).elim (h.sound p) fun hnew => hnew.1
  · exact fun n => by rw [hc.db]; exact h.db n
  · exact fun n => by rw [hc.slots]; exact h.slots n
  · exact (hc.cases hp).elim (h.answers p) fun hnew => hnew.2.1
  · intro e he
    change ∃ v, s'.db.due e.1 = some (some v) ∧ e.2 < v
    rw [hc.db]
    exact h.spent e he
  · rcases hc.cases hp with hp | ⟨_, _, hnone⟩
    · exact h.granted p hp e he
    · rw [hnone] at he
      cases he

theorem Tidy.slots' (h : Tidy env rows ⟨s, boundary, claimed, delivered⟩) {table : Rows}
    (htable : ∀ n, (table n).map Row.config = (rows n).map Row.config) :
    Tidy env rows ⟨{ s with slots := table }, boundary, claimed, delivered⟩ :=
  ⟨h.seen, h.sound, h.db, htable, h.answers, h.once, h.spent, h.fired, h.past, h.granted⟩

-- A wait that is over is forgotten.
theorem Tidy.erase (h : Tidy env rows ⟨s, boundary, claimed, delivered⟩) (i : Nat) :
    Tidy env rows ⟨{ s with pending := s.pending.eraseIdx i }, boundary, claimed, delivered⟩ :=
  ⟨h.seen, fun p hp => h.sound p (List.mem_of_mem_eraseIdx hp), h.db, h.slots,
    fun p hp => h.answers p (List.mem_of_mem_eraseIdx hp), h.once, h.spent, h.fired, h.past,
    fun p hp => h.granted p (List.mem_of_mem_eraseIdx hp)⟩

end Watched

-- The boot code never finds the switch turned on behind its back.
theorem setSlot_reconcile_eq (hseen : s.started = true → s.enabled = true → s.lastEnabled = true) (slot : Nat)
    (row : Row) (now : Int) : (s.setSlot env slot row now).reconcilePending = s.reconcilePending := by
  unfold Scheduler.setSlot Scheduler.refresh
  dsimp only
  split_ifs with hsubscribed hstarted hrun hjust hjust
  · exact normalizeFrom_reconcile _ _ _ _
  · exact normalizeFrom_reconcile _ _ _ _
  · have hlast := hseen (by simpa using hstarted)
    simp_all
  · exact arm_reconcile now
  · rfl
  · rfl

theorem applyRuntimeState_result (hseen : s.started = true → s.enabled = true → s.lastEnabled = true)
    (hslots : ∀ n, (s.slots n).map Row.config = (rows n).map Row.config) {slot : Nat} (hslot : (rows slot).isSome)
    (patch : RuntimePatch) (now : Int) :
    (s.applyRuntimeState env slot patch now).db = s.db ∧
      (∀ n, ((s.applyRuntimeState env slot patch now).slots n).map Row.config = (rows n).map Row.config) ∧
      (s.applyRuntimeState env slot patch now).reconcilePending = s.reconcilePending ∧
      (s.applyRuntimeState env slot patch now).slots.due =
        Function.update s.slots.due slot (some patch.nextDueAt) := by
  obtain ⟨row, hrow⟩ := Option.isSome_iff_exists.mp hslot
  obtain ⟨prev, hprev, _⟩ := Option.map_eq_some_iff.mp ((hslots slot).trans (congrArg (Option.map Row.config) hrow))
  have hconfig := isSome_of_config hprev (hslots slot)
  unfold Scheduler.applyRuntimeState
  rw [hprev]
  dsimp only
  set patched : Row := { prev with
    nextDueAt := patch.nextDueAt, lastResult := patch.lastResult, lastAttemptAt := patch.lastAttemptAt } with hpatched
  have hsame : (rows slot).map Row.config = some patched.config := hconfig
  have hcalls : Calls env rows _ (s.setSlot env slot patched now) := calls_setSlot hslots hsame now
  refine ⟨hcalls.db, fun n => ?_, setSlot_reconcile_eq hseen slot patched now, funext fun n => ?_⟩
  · rw [hcalls.slots]
    change (s.slots.put slot patched n).map Row.config = _
    unfold Rows.put
    rw [Function.update_apply]
    split_ifs with hn
    · rw [hn, hsame]
      rfl
    · exact hslots n
  · rw [hcalls.slots]
    change (s.slots.put slot patched).due n = _
    rw [Rows.due_put, Function.update_apply]

section Covering

variable {hand : Option Pass} {bound now : Int}

theorem covered_setSlot (h : s.Covered env rows hand bound)
    (hslots : ∀ n, (s.slots n).map Row.config = (rows n).map Row.config) {slot : Nat} {row : Row}
    (hrow : (rows slot).map Row.config = some row.config) :
    (s.setSlot env slot row now).Covered env rows hand bound := by
  have hcalls : Calls env rows _ (s.setSlot env slot row now) := calls_setSlot hslots hrow now
  exact h.mono hcalls.db (setSlot_reconcile slot row now) fun p hp => hcalls.mem hp

theorem covered_applyRuntimeState (h : s.Covered env rows hand bound)
    (hslots : ∀ n, (s.slots n).map Row.config = (rows n).map Row.config) (slot : Nat) (patch : RuntimePatch) :
    (s.applyRuntimeState env slot patch now).Covered env rows hand bound := by
  unfold Scheduler.applyRuntimeState
  cases hprev : s.slots slot with
  | none => exact h
  | some prev =>
      have hrow := isSome_of_config hprev (hslots slot)
      refine covered_setSlot h hslots ?_
      exact hrow

-- A pass that goes on takes the slots in its hand with it.
theorem covered_goOn {pass : Pass} (h : s.Covered env rows (some pass) bound)
    (hrest : ∀ e ∈ pass.rest, (rows e.1).isSome) : (s.goOn env pass).Covered env rows none bound := by
  have hcalls : Calls env rows s (s.goOn env pass) := calls_normalizeFrom _ _ _ _ hrest
  intro n hn henabled due hdue hpast
  rw [hcalls.db] at hdue
  rcases h n hn henabled due hdue hpast with hreconcile | ⟨p, hp, hadvances⟩ | ⟨taken, htaken, hadvances⟩
  · exact .inl ((normalizeFrom_reconcile _ _ _ _).trans hreconcile)
  · exact .inr (.inl ⟨p, hcalls.mem hp, hadvances⟩)
  · obtain rfl := Option.some.inj htaken
    obtain ⟨hmode, hbound, ⟨m, row⟩, he, rfl, hrowDue, hnext⟩ := hadvances
    have htaken : ∃ p ∈ (s.normalizeFrom env .skipMissed pass.caller pass.now pass.rest).pending,
        p.advances env bound m due := normalizeFrom_advances hbound hpast he hrowDue hnext
    unfold Scheduler.goOn
    rw [hmode]
    exact .inr (.inl htaken)

theorem covered_request {await : Await} {call : Call} (h : s.Covered env rows hand bound)
    (hpass : ∀ pass ∈ hand, await.pass = some pass) : (s.request await call).Covered env rows none bound := by
  intro n hn henabled due hdue hpast
  rcases h n hn henabled due hdue hpast with hreconcile | ⟨p, hp, hadvances⟩ | ⟨pass, htaken, hadvances⟩
  · exact .inl hreconcile
  · exact .inr (.inl ⟨p, List.mem_append_left _ hp, hadvances⟩)
  · refine .inr (.inl ⟨_, List.mem_append_right _ (List.mem_singleton_self _), .inr ⟨pass, ?_, hadvances⟩⟩)
    exact hpass pass htaken

-- The pass whose answer has come is in hand.
theorem covered_erase (h : s.Covered env rows none bound) {i : Nat} {p : Pending} (hp : s.pending[i]? = some p)
    (hanswer : p.answer.isSome) :
    ({ s with pending := s.pending.eraseIdx i } : Scheduler).Covered env rows p.await.pass bound := by
  intro n hn henabled due hdue hpast
  rcases h n hn henabled due hdue hpast with hreconcile | ⟨q, hq, hadvances⟩ | ⟨pass, htaken, _⟩
  · exact .inl hreconcile
  · obtain ⟨j, hj⟩ := List.mem_iff_getElem?.mp hq
    by_cases hij : j = i
    · subst hij
      obtain rfl : q = p := Option.some.inj (hj.symm.trans hp)
      rcases hadvances with ⟨hclaim, _⟩ | htaken
      · obtain ⟨answer, hsome⟩ := Option.isSome_iff_exists.mp hanswer
        unfold Pending.claim at hclaim
        rw [hsome] at hclaim
        split at hclaim <;> simp_all
      · exact .inr (.inr htaken)
    · exact .inr (.inl ⟨q, List.mem_eraseIdx_iff_getElem?.mpr ⟨j, hij, hj⟩, hadvances⟩)
  · cases htaken

theorem covered_resume {p : Pending} (h : s.Covered env rows p.await.pass bound)
    (hseen : s.started = true → s.enabled = true → s.lastEnabled = true)
    (hdb : ∀ n, (s.db n).map Row.config = (rows n).map Row.config)
    (hslots : ∀ n, (s.slots n).map Row.config = (rows n).map Row.config) (hsound : p.Sound env rows)
    (hconfig : p.KeepsConfig rows) {answer : Answer} (hanswer : p.answer = some answer)
    (hready : p.mayEnd = true → s.reconcilePending = true →
      bound ≤ now ∧ s.Knows env (p.await.memory s.slots) now) :
    (s.resume env now p.await answer).Covered env rows none bound := by
  obtain ⟨await, call, _⟩ := p
  obtain rfl := hanswer
  obtain ⟨hshape, hrest⟩ := hsound
  cases await with
  | filled pass slot =>
      cases answer with
      | row row => exact covered_goOn (covered_setSlot h hslots (hconfig pass slot row rfl rfl)) (hrest pass rfl)
      | _ => exact covered_goOn h (hrest pass rfl)
  | skipped pass slot next =>
      cases answer with
      | claimed claimed =>
          cases claimed with
          | true => exact covered_request h fun taken htaken => htaken
          | false => exact covered_goOn h (hrest pass rfl)
      | _ => exact covered_goOn h (hrest pass rfl)
  | missed pass slot next =>
      cases answer with
      | done => exact covered_goOn (covered_applyRuntimeState h hslots slot _) (hrest pass rfl)
      | _ => exact covered_goOn h (hrest pass rfl)
  | normalized caller =>
      have harm : ∀ t : Scheduler, t.Covered env rows none bound → (t.arm env now).Covered env rows none bound :=
        fun t ht => (calls_arm now).covered (fun hr => (arm_reconcile now).trans hr) ht
      cases caller with
      | start => exact harm s h
      | refresh => exact harm s h
      | finishRun => exact harm _ h
      | onPowerResume => exact harm _ h
  | claimed run slot row next =>
      cases answer with
      | claimed claimed =>
          cases claimed with
          | true =>
              refine covered_request (covered_applyRuntimeState h hslots slot _) fun pass htaken => ?_
              cases htaken
          | false => exact covered_fireDue h (covered_finishRun h hdb hslots (hready rfl)) run now
      | _ => exact covered_fireDue h (covered_finishRun h hdb hslots (hready rfl)) run now
  | delivered owner slot nextDueAt => exact covered_request h (by simp [Await.pass])
  | recorded owner slot patch =>
      obtain ⟨_, hslot⟩ := hshape
      have happlied := @covered_applyRuntimeState env rows s none bound now h hslots slot patch
      obtain ⟨htable, hconfigs, hreconcile, hmemory⟩ :=
        @applyRuntimeState_result env rows s hseen hslots slot hslot patch now
      set t := s.applyRuntimeState env slot patch now with ht
      have hended : t.reconcilePending = true → bound ≤ now ∧ t.Knows env t.slots.due now := by
        intro howed
        obtain ⟨hbound, hknows⟩ := hready rfl (hreconcile ▸ howed)
        refine ⟨hbound, ?_⟩
        unfold Scheduler.Knows
        rw [htable, hmemory]
        exact hknows
      have hfinished : (t.finishRun env now).Covered env rows none bound :=
        covered_finishRun happlied (fun n => htable ▸ hdb n) hconfigs hended
      cases owner with
      | tick run => exact covered_fireDue happlied hfinished run now
      | sendNow => exact hfinished
  | saved slot => exact absurd hshape id

end Covering

end MeshClient.ScheduledBroadcasts
