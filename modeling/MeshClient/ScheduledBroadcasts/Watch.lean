import MeshClient.ScheduledBroadcasts.Running

namespace MeshClient.ScheduledBroadcasts

open Run

-- A timer delivery, with the last boundary before it.
structure Delivery where
  slot : Nat
  due : Int
  boundary : Option Int
deriving DecidableEq

def Delivery.occurrence (d : Delivery) : Nat × Int := (d.slot, d.due)

-- A run beside what it has claimed and delivered, and the moment the scheduler was last started,
-- the switch last turned on or the power last resumed.
structure Watch where
  scheduler : Scheduler
  boundary : Option Int
  claimed : List (Nat × Int)
  delivered : List Delivery

def Pending.claim (p : Pending) : Option (Nat × Int) :=
  match p.call, p.answer with
  | some (.claimScheduledBroadcastDue slot expected _ _), none => some (slot, expected)
  | _, _ => none

-- The occurrence the claim that is handled now is granted for.
def Scheduler.granting (s : Scheduler) (i : Nat) : Option (Nat × Int) :=
  (s.pending[i]?.bind Pending.claim).filter fun e => s.db.due e.1 == some (some e.2)

-- The occurrence of a granted claim of a tick that is on its way back.
def Pending.granted (p : Pending) : Option (Nat × Int) :=
  match p.await, p.answer with
  | .claimed _ slot row _, some (.claimed true) => row.nextDueAt.map fun due => (slot, due)
  | _, _ => none

def Watch.bound (w : Watch) : Event → Option Int
  | .booted now => if w.scheduler.started then w.boundary else some now
  | .settingChanged enabled now => if enabled && !w.scheduler.enabled then some now else w.boundary
  | .powerResumed now => some now
  | _ => w.boundary

def Watch.step (env : Platform) (w : Watch) (event : Event) : Watch where
  scheduler := w.scheduler.step env event
  boundary := w.bound event
  claimed := match event with
    | .handled i _ => w.claimed ++ (w.scheduler.granting i).toList
    | _ => w.claimed
  delivered := match event with
    | .answered i _ => w.delivered ++
        ((w.scheduler.pending[i]?.bind Pending.granted).map fun e => (⟨e.1, e.2, w.boundary⟩ : Delivery)).toList
    | _ => w.delivered

def Watch.hydrated (rows : Rows) (enabled : Bool) : Watch := ⟨.hydrated rows enabled, none, [], []⟩

def Await.pass : Await → Option Pass
  | .filled pass _ => some pass
  | .skipped pass _ _ => some pass
  | .missed pass _ _ => some pass
  | _ => none

-- The pass has the slot still before it, and will move it past `bound`.
def Pass.advances (env : Platform) (pass : Pass) (bound : Int) (slot : Nat) (due : Int) : Prop :=
  pass.mode = .skipMissed ∧ bound ≤ pass.now ∧ ∃ e ∈ pass.rest, e.1 = slot ∧ e.2.nextDueAt = some due ∧
    (env.time.advancePastDue e.2.toRule due pass.now).isSome

def Await.skips (await : Await) (bound : Int) (slot : Nat) : Prop :=
  match await with
  | .skipped _ n next => n = slot ∧ bound < next
  | _ => False

-- A pass over missed slots moves the slot past `bound`: with its claim on the way, or later.
def Pending.advances (env : Platform) (p : Pending) (bound : Int) (slot : Nat) (due : Int) : Prop :=
  (p.claim = some (slot, due) ∧ p.await.skips bound slot) ∨ ∃ pass ∈ p.await.pass, pass.advances env bound slot due

-- Memory knows the due times of the database that are past at `now`, and all of them have a next.
def Scheduler.Knows (env : Platform) (s : Scheduler) (memory : Nat → Option (Option Int)) (now : Int) : Prop :=
  ∀ n ∈ List.range' 1 env.slotCount, ∀ row ∈ s.db n, row.enabled = true → ∀ due ∈ row.nextDueAt, due ≤ now →
    memory n = some (some due) ∧ (env.time.advancePastDue row.toRule due now).isSome

-- The due times in memory once the wait is over.
def Await.memory (await : Await) (slots : Rows) : Nat → Option (Option Int) :=
  match await with
  | .recorded _ slot patch => Function.update slots.due slot (some patch.nextDueAt)
  | _ => slots.due

-- The run that waits may end with the answer.
def Pending.mayEnd (p : Pending) : Bool :=
  match p.await, p.answer with
  | .claimed _ _ _ _, answer => answer != some (.claimed true)
  | .recorded _ _ _, _ => true
  | _, _ => false

-- The pass that a run owes at its end finds all missed slots.
def Watch.Ready (env : Platform) (w : Watch) (memory : Nat → Option (Option Int)) (now : Int) : Prop :=
  w.scheduler.reconcilePending = true → (∀ b ∈ w.boundary, b ≤ now) ∧ w.scheduler.Knows env memory now

def Pending.fill (p : Pending) : Option (Nat × Int) :=
  match p.await, p.call with
  | .filled _ slot, some (.saveScheduledBroadcast _ input) => (input.nextDueAt.getD none).map fun next => (slot, next)
  | _, _ => none

def Await.skipTo : Await → Option Int
  | .skipped _ _ next => some next
  | _ => none

def Await.fires : Await → Bool
  | .claimed _ _ _ _ => true
  | _ => false

-- A filled or skipped due time that reaches the database is past the boundary and all that has
-- been claimed; a tick's claim of a missed one comes when no pass has the slot still before it.
def Watch.Handles (env : Platform) (w : Watch) (p : Pending) : Prop :=
  (∀ e ∈ p.fill, (∀ b ∈ w.boundary, b < e.2) ∧ ∀ c ∈ w.claimed, c.1 = e.1 → c.2 < e.2) ∧
    ∀ e ∈ p.claim, w.scheduler.db.due e.1 = some (some e.2) → ∀ b ∈ w.boundary,
      (∀ next ∈ p.await.skipTo, b < next) ∧ (p.await.fires = true → e.2 ≤ b →
        w.scheduler.started = true ∧ w.scheduler.enabled = true ∧ w.scheduler.reconcilePending = false ∧
          ∀ q ∈ w.scheduler.pending, ¬q.advances env b e.1 e.2)

def Watch.NoGrant (w : Watch) : Prop := ∀ p ∈ w.scheduler.pending, p.granted = none

def Watch.Timely (env : Platform) (w : Watch) : Event → Prop
  | .booted now => w.scheduler.started = false →
      w.NoGrant ∧ (w.scheduler.enabled = true → w.scheduler.Knows env w.scheduler.slots.due now)
  | .settingChanged enabled now => enabled = true → w.scheduler.enabled = false → w.NoGrant ∧
      (w.scheduler.started = true → w.scheduler.subscribed = true ∧ w.scheduler.lastEnabled = false ∧
        (w.scheduler.running = false → w.scheduler.Knows env w.scheduler.slots.due now))
  | .powerResumed now => w.NoGrant ∧ (w.scheduler.started = true → w.scheduler.subscribed = true ∧
      (w.scheduler.running = false → w.scheduler.enabled = true →
        w.scheduler.Knows env w.scheduler.slots.due now))
  | .timerFired now => w.Ready env w.scheduler.slots.due now
  | .intervalFired now => w.Ready env w.scheduler.slots.due now
  | .save _ _ => False
  | .handled i _ => ∀ p ∈ w.scheduler.pending[i]?, p.answer = none → w.Handles env p
  | .rejected i => ∀ p ∈ w.scheduler.pending[i]?, ∀ e ∈ p.claim,
      ∀ b ∈ w.boundary, p.await.skips b e.1 → w.scheduler.db.due e.1 ≠ some (some e.2)
  | .answered i now => ∀ p ∈ w.scheduler.pending[i]?, p.mayEnd = true →
      w.Ready env (p.await.memory w.scheduler.slots) now
  | _ => True

end MeshClient.ScheduledBroadcasts
