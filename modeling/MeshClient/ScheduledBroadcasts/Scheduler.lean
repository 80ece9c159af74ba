import MeshClient.ScheduledBroadcasts.Store

namespace MeshClient.ScheduledBroadcasts

def MAX_TIMER_DELAY_MS : Int := 2147483647

-- The local time of the platform, and how many slots there are (12 in the application).
structure Platform where
  time : LocalTime
  slotCount : Nat

inductive Mode where
  | skipMissed
  | fillNull
deriving DecidableEq

-- Who waits for a `normalizeSlots` to end.
inductive Caller where
  | start
  | refresh
  | finishRun
  | onPowerResume
deriving DecidableEq

-- A `normalizeSlots` between two of its awaits, with the rows it has still to look at.
structure Pass where
  mode : Mode
  caller : Caller
  now : Int
  rest : List (Nat × Row)
deriving DecidableEq

structure TickRun where
  epoch : Nat
  attempted : List (Nat × Int)
deriving DecidableEq

inductive Owner where
  | tick (run : TickRun)
  | sendNow
deriving DecidableEq

structure RuntimePatch where
  nextDueAt : Option Int
  lastResult : Option LastResult
  lastAttemptAt : Option Int
deriving DecidableEq

-- The places where the renderer waits for an answer.
inductive Await where
  -- `saveNextDueAt` and, for the missed slots, `claimDue` and `setResult` of `normalizeSlots`
  | filled (pass : Pass) (slot : Nat)
  | skipped (pass : Pass) (slot : Nat) (next : Int)
  | missed (pass : Pass) (slot : Nat) (next : Int)
  | normalized (caller : Caller)
  -- `claimDue` of `fireDueSlot`, `deliver` and `setResult` of `deliverAndRecord`
  | claimed (run : TickRun) (slot : Nat) (row : Row) (next : Int)
  | delivered (owner : Owner) (slot : Nat) (nextDueAt : Option Int)
  | recorded (owner : Owner) (slot : Nat) (patch : RuntimePatch)
  -- the store's `save`, called by the user
  | saved (slot : Nat)
deriving DecidableEq

structure Pending where
  await : Await
  -- `none` where what is awaited is over already
  call : Option Call
  answer : Option Answer := none
deriving DecidableEq

structure Scheduler where
  db : Rows
  slots : Rows
  -- the App setting `isEnabled` reads
  enabled : Bool
  started : Bool := false
  subscribed : Bool := false
  -- when the timer fires, where one is set
  timer : Option Int := none
  interval : Bool := false
  running : Bool := false
  tickPending : Bool := false
  reconcilePending : Bool := false
  resumeEpoch : Nat := 0
  lastEnabled : Bool := false
  pending : List Pending := []

namespace Scheduler

variable (env : Platform)

def request (s : Scheduler) (await : Await) (call : Call) : Scheduler :=
  { s with pending := s.pending ++ [{ await, call := some call }] }

def getSlots (s : Scheduler) : List (Nat × Row) :=
  (List.range' 1 env.slotCount).filterMap fun slot => (s.slots slot).map fun row => (slot, row)

def enabledSlots (s : Scheduler) : List (Nat × Row) := (s.getSlots env).filter fun e => e.2.enabled

def arm (s : Scheduler) (now : Int) : Scheduler :=
  if ¬s.started ∨ ¬s.enabled then { s with timer := none, interval := false }
  else if s.running then { s with timer := none }
  else
    let earliest := ((s.enabledSlots env).filterMap fun e => e.2.nextDueAt).min?
    { s with
      interval := true
      timer := earliest.map fun due => now + min (max (due - now) 0) MAX_TIMER_DELAY_MS }

-- The loop of `normalizeSlots`, up to its next await.
def normalizeFrom (s : Scheduler) (mode : Mode) (caller : Caller) (now : Int) : List (Nat × Row) → Scheduler
  | [] => { s with pending := s.pending ++ [{ await := .normalized caller, call := none, answer := some .done }] }
  | (slot, row) :: rest =>
      match row.nextDueAt with
      | none =>
          match env.time.computeNextDue row.toRule now with
          | none => normalizeFrom s mode caller now rest
          | some next => s.request (.filled ⟨mode, caller, now, rest⟩ slot)
              (.saveScheduledBroadcast slot { nextDueAt := some (some next) })
      | some due =>
          if mode ≠ .skipMissed ∨ due > now then normalizeFrom s mode caller now rest
          else
            match env.time.advancePastDue row.toRule due now with
            | none => normalizeFrom s mode caller now rest
            | some next => s.request (.skipped ⟨mode, caller, now, rest⟩ slot next)
                (.claimScheduledBroadcastDue slot due next now)

def normalizeSlots (s : Scheduler) (mode : Mode) (caller : Caller) (now : Int) : Scheduler :=
  s.normalizeFrom env mode caller now (s.enabledSlots env)

def goOn (s : Scheduler) (pass : Pass) : Scheduler := s.normalizeFrom env pass.mode pass.caller pass.now pass.rest

def refresh (s : Scheduler) (now : Int) : Scheduler :=
  if ¬s.started then s
  else
    let justEnabled := s.enabled && !s.lastEnabled
    let seen := { s with lastEnabled := s.enabled }
    if seen.enabled ∧ ¬seen.running then
      seen.normalizeSlots env (if justEnabled then .skipMissed else .fillNull) .refresh now
    else if justEnabled ∧ seen.running then { seen with reconcilePending := true }.arm env now
    else seen.arm env now

-- A change of the store's `slots`; the boot code calls `refresh` on each one.
def setSlot (s : Scheduler) (slot : Nat) (row : Row) (now : Int) : Scheduler :=
  let changed := { s with slots := s.slots.put slot row }
  if changed.subscribed then changed.refresh env now else changed

def applyRuntimeState (s : Scheduler) (slot : Nat) (patch : RuntimePatch) (now : Int) : Scheduler :=
  match s.slots slot with
  | none => s
  | some prev => s.setSlot env slot { prev with
      nextDueAt := patch.nextDueAt, lastResult := patch.lastResult, lastAttemptAt := patch.lastAttemptAt } now

-- The slots a run would fire, first due first.
def dueSlots (s : Scheduler) (run : TickRun) (now : Int) : List (Int × Nat × Row) :=
  ((s.enabledSlots env).filterMap fun (slot, row) =>
    row.nextDueAt.bind fun due => if due ≤ now ∧ (slot, due) ∉ run.attempted then some (due, slot, row) else none)
    |>.insertionSort fun a b => a.1 < b.1 ∨ (a.1 = b.1 ∧ a.2.1 ≤ b.2.1)

-- The loop of `tick`, up to its next await; `finish` is what it does once nothing is due.
def fireFrom (finish : Scheduler → Scheduler) (s : Scheduler) (now : Int) :
    TickRun → List (Int × Nat × Row) → Scheduler
  | _, [] => finish s
  | run, (due, slot, row) :: rest =>
      let tried := { run with attempted := run.attempted ++ [(slot, due)] }
      match env.time.computeNextDue row.toRule (max now due) with
      | none => fireFrom finish s now tried rest
      | some next => s.request (.claimed tried slot row next) (.claimScheduledBroadcastDue slot due next now)

def fireDue (finish : Scheduler → Scheduler) (s : Scheduler) (run : TickRun) (now : Int) : Scheduler :=
  if ¬s.enabled ∨ run.epoch ≠ s.resumeEpoch then finish s
  else s.fireFrom env finish now run (s.dueSlots env run now)

def tickWith (finish : Scheduler → Scheduler) (s : Scheduler) (now : Int) : Scheduler :=
  if ¬s.started then s
  else if ¬s.enabled then s.arm env now
  else if s.running then { s with tickPending := true }
  else { s with running := true }.fireDue env finish ⟨s.resumeEpoch, []⟩ now

-- The tick that `finishRun` may start finds both flags clear when it ends.
def finishRun (s : Scheduler) (now : Int) : Scheduler :=
  let cleared := { s with running := false, reconcilePending := false, tickPending := false }
  if s.reconcilePending then
    { cleared with running := true }.normalizeSlots env .skipMissed .finishRun now
  else if s.tickPending then
    (cleared.arm env now).tickWith env (fun last => { last with running := false }.arm env now) now
  else cleared.arm env now

def tick (s : Scheduler) (now : Int) : Scheduler := s.tickWith env (fun last => last.finishRun env now) now

def start (s : Scheduler) (now : Int) : Scheduler :=
  let opened := { s with started := true, lastEnabled := s.enabled }
  if opened.enabled then opened.normalizeSlots env .skipMissed .start now
  else { opened.arm env now with subscribed := true }

def onPowerResume (s : Scheduler) (now : Int) : Scheduler :=
  if ¬s.started then s
  else
    let resumed := { s with resumeEpoch := s.resumeEpoch + 1 }
    if resumed.running then { resumed with reconcilePending := true }
    else if resumed.enabled then
      { resumed with running := true }.normalizeSlots env .skipMissed .onPowerResume now
    else resumed.arm env now

def deliver (s : Scheduler) (owner : Owner) (slot : Nat) (row : Row) (nextDueAt : Option Int) : Scheduler :=
  s.request (.delivered owner slot nextDueAt) (.deliver slot row)

def sendNow (s : Scheduler) (slot : Nat) : Scheduler :=
  match ((s.getSlots env).find? fun e => e.1 == slot) with
  | none => s
  | some (_, row) =>
      if s.running then s else { s with running := true }.deliver .sendNow slot row row.nextDueAt

-- What the renderer does when the thing it awaits is there.
def resume (s : Scheduler) (now : Int) : Await → Answer → Scheduler
  | .filled pass slot, .row row => (s.setSlot env slot row now).goOn env pass
  | .filled pass _, _ => s.goOn env pass
  | .skipped pass slot next, .claimed true =>
      s.request (.missed pass slot next) (.setScheduledBroadcastResult slot pass.now ⟨pass.now, .missed⟩)
  | .skipped pass _ _, _ => s.goOn env pass
  | .missed pass slot next, .done =>
      (s.applyRuntimeState env slot ⟨some next, some ⟨pass.now, .missed⟩, some pass.now⟩ now).goOn env pass
  | .missed pass _ _, _ => s.goOn env pass
  | .normalized .start, _ => { s.arm env now with subscribed := true }
  | .normalized .refresh, _ => s.arm env now
  | .normalized .finishRun, _ => { s with running := false }.arm env now
  | .normalized .onPowerResume, _ => { s with running := false }.arm env now
  | .claimed run slot row next, .claimed true =>
      (s.applyRuntimeState env slot ⟨some next, row.lastResult, row.lastAttemptAt⟩ now).deliver (.tick run) slot row
        (some next)
  | .claimed run _ _ _, _ => s.fireDue env (fun last => last.finishRun env now) run now
  | .delivered owner slot nextDueAt, answer =>
      let outcome := match answer with
        | .delivered (some outcome) => outcome
        | _ => .failed
      s.request (.recorded owner slot ⟨nextDueAt, some ⟨now, outcome⟩, some now⟩)
        (.setScheduledBroadcastResult slot now ⟨now, outcome⟩)
  | .recorded (.tick run) slot patch, _ =>
      (s.applyRuntimeState env slot patch now).fireDue env (fun last => last.finishRun env now) run now
  | .recorded .sendNow slot patch, _ => (s.applyRuntimeState env slot patch now).finishRun env now
  | .saved slot, .row row => s.setSlot env slot row now
  | .saved _, _ => s

end Scheduler

inductive Event where
  | booted (now : Int)
  | settingChanged (enabled : Bool) (now : Int)
  | powerResumed (now : Int)
  | timerFired (now : Int)
  | intervalFired (now : Int)
  | sendNow (slot : Nat)
  | save (slot : Nat) (input : Input)
  -- The main process handles the i-th outstanding call, or the call fails before it does anything.
  | handled (i : Nat) (now : Int)
  | rejected (i : Nat)
  -- The i-th outstanding call is a delivery, and it ends; `none` where it throws.
  | delivered (i : Nat) (outcome : Option RunOutcome)
  -- The answer to the i-th outstanding call reaches the renderer.
  | answered (i : Nat) (now : Int)

def Pending.isDelivery (p : Pending) : Bool :=
  match p.call with
  | some (.deliver _ _) => true
  | _ => false

def Scheduler.answer (s : Scheduler) (i : Nat) (p : Pending) (answer : Answer) : Scheduler :=
  { s with pending := s.pending.set i { p with answer := some answer } }

def Scheduler.handle (env : Platform) (s : Scheduler) (i : Nat) (now : Int) : Scheduler :=
  match s.pending[i]? with
  | none => s
  | some p =>
      match p.call with
      | none => s
      | some call =>
          if p.answer.isSome ∨ p.isDelivery then s
          else
            let (db, answer) := call.handle env.slotCount s.db now
            { s with db }.answer i p answer

def Scheduler.step (env : Platform) (s : Scheduler) : Event → Scheduler
  | .booted now => if s.started then s else s.start env now
  | .settingChanged enabled now =>
      let changed := { s with enabled }
      if changed.subscribed then changed.refresh env now else changed
  | .powerResumed now => if s.subscribed then s.onPowerResume env now else s
  | .timerFired now => if s.timer.any (· ≤ now) then { s with timer := none }.tick env now else s
  | .intervalFired now => if s.interval then s.tick env now else s
  | .sendNow slot => s.sendNow env slot
  | .save slot input => s.request (.saved slot) (.saveScheduledBroadcast slot input)
  | .handled i now => s.handle env i now
  | .rejected i =>
      match s.pending[i]? with
      | none => s
      | some p => if p.answer.isSome ∨ p.isDelivery then s else s.answer i p .rejected
  | .delivered i outcome =>
      match s.pending[i]? with
      | none => s
      | some p => if p.answer.isSome ∨ ¬p.isDelivery then s else s.answer i p (.delivered outcome)
  | .answered i now =>
      match s.pending[i]? with
      | none => s
      | some p =>
          match p.answer with
          | none => s
          | some answer => { s with pending := s.pending.eraseIdx i }.resume env now p.await answer

def utcPlatform : Platform := ⟨.constantOffset 0, 12⟩

-- The application with its rows read from the database.
def Scheduler.hydrated (rows : Rows) (enabled : Bool) : Scheduler := { db := rows, slots := rows, enabled }

end MeshClient.ScheduledBroadcasts
