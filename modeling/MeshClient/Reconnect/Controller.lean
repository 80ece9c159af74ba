import MeshClient.Lib.Trace

namespace MeshClient.Reconnect

inductive RfReconnectPhase where
  | idle
  | backoff
  | opening
deriving DecidableEq, Repr

structure RfReconnectLinkLostResult where
  shouldStartOwner : Bool
  generation : Nat
deriving DecidableEq, Repr

structure EndAttemptResult where
  shouldSchedule : Bool
  generation : Nat
deriving DecidableEq, Repr

structure RfReconnectController where
  phase : RfReconnectPhase := .idle
  generation : Nat := 0
  attempt : Nat := 0
  isReconnecting : Bool := false
  dirty : Bool := false
  attemptActive : Bool := false
  schedulePending : Bool := false
deriving DecidableEq, Repr

namespace RfReconnectController

def onLinkLost (c : RfReconnectController) : RfReconnectController × RfReconnectLinkLostResult :=
  let generation := c.generation + 1
  if c.isReconnecting then ({ c with generation, dirty := true }, ⟨false, generation⟩)
  else ({ c with generation, isReconnecting := true, dirty := false }, ⟨true, generation⟩)

def cancel (c : RfReconnectController) : RfReconnectController :=
  { generation := c.generation + 1 }

def markSuccess (c : RfReconnectController) : RfReconnectController :=
  { c with isReconnecting := false, dirty := false, attemptActive := false, attempt := 0, phase := .idle }

def markExhausted (c : RfReconnectController) : RfReconnectController :=
  { c with isReconnecting := false, dirty := false, attemptActive := false, phase := .idle }

def beginAttempt (c : RfReconnectController) (attemptNumber : Nat) : RfReconnectController :=
  { c with attempt := attemptNumber, attemptActive := true, phase := .backoff }

def beginOpening (c : RfReconnectController) : RfReconnectController := { c with phase := .opening }

def endAttempt (c : RfReconnectController) (keepReconnecting : Option Bool) :
    RfReconnectController × EndAttemptResult :=
  let c := { c with attemptActive := false, phase := .idle }
  let keep := keepReconnecting.getD c.isReconnecting
  if !keep then ({ c with dirty := false, isReconnecting := false }, ⟨false, c.generation⟩)
  else if c.dirty then ({ c with dirty := false }, ⟨true, c.generation⟩)
  else (c, ⟨false, c.generation⟩)

-- Whether a microtask is queued for the owner's run.
def scheduleOwner (c : RfReconnectController) : RfReconnectController × Bool :=
  if c.schedulePending then (c, false) else ({ c with schedulePending := true }, true)

-- The microtask of `scheduleOwner`: whether it calls `run`.
def ownerTask (c : RfReconnectController) : RfReconnectController × Bool :=
  let c := { c with schedulePending := false }
  if !c.isReconnecting then (c, false)
  else if c.attemptActive then ({ c with dirty := true }, false)
  else (c, true)

def markDirty (c : RfReconnectController) : RfReconnectController := { c with dirty := true }

end RfReconnectController

-- The controller with its callers. `kicks` are the calls of `scheduleOwner` that onLinkLost or
-- endAttempt have asked for and that are still to come, `tasks` the queued microtasks;
-- attempts are numbered in the order they start.
structure System where
  controller : RfReconnectController := {}
  kicks : Nat := 0
  tasks : Nat := 0
  unsettled : List Nat := []
  started : Nat := 0
  -- attempts below it were started before the last cancel
  cancelMark : Nat := 0
deriving DecidableEq, Repr

inductive Event where
  | linkLost
  | schedule
  | task (attemptNumber : Nat)
  | opening
  | settle (i : Nat) (keepReconnecting : Option Bool)
  | cancel
  | markSuccess
  | markExhausted
  | markDirty
deriving DecidableEq, Repr

-- What is seen of a run; a loss names the attempt that is active.
inductive Mark where
  | lost (active : Option Nat)
  | started (i : Nat)
  | settled (i : Nat)
  | cancelled
  | succeeded
  | exhausted
  | dirtied
deriving DecidableEq, Repr

namespace System

def step (s : System) : Event → System
  | .linkLost =>
      let (controller, lost) := s.controller.onLinkLost
      { s with controller, kicks := s.kicks + lost.shouldStartOwner.toNat }
  | .schedule =>
      if s.kicks = 0 then s
      else
        let (controller, queued) := s.controller.scheduleOwner
        { s with controller, kicks := s.kicks - 1, tasks := s.tasks + queued.toNat }
  | .task attemptNumber =>
      if s.tasks = 0 then s
      else
        let (controller, runs) := s.controller.ownerTask
        if runs then
          { s with
            controller := controller.beginAttempt attemptNumber
            tasks := s.tasks - 1
            unsettled := s.started :: s.unsettled
            started := s.started + 1 }
        else { s with controller, tasks := s.tasks - 1 }
  | .opening => { s with controller := s.controller.beginOpening }
  | .settle i keepReconnecting =>
      if i ∈ s.unsettled then
        let (controller, ended) := s.controller.endAttempt keepReconnecting
        { s with controller, unsettled := s.unsettled.erase i, kicks := s.kicks + ended.shouldSchedule.toNat }
      else s
  | .cancel => { s with controller := s.controller.cancel, cancelMark := s.started }
  | .markSuccess => { s with controller := s.controller.markSuccess }
  | .markExhausted => { s with controller := s.controller.markExhausted }
  | .markDirty => { s with controller := s.controller.markDirty }

def marks (s : System) : Event → List Mark
  | .linkLost => [.lost (if s.controller.attemptActive then some (s.started - 1) else none)]
  | .task _ => if s.tasks ≠ 0 ∧ s.controller.ownerTask.2 then [.started s.started] else []
  | .settle i _ => if i ∈ s.unsettled then [.settled i] else []
  | .cancel => [.cancelled]
  | .markSuccess => [.succeeded]
  | .markExhausted => [.exhausted]
  | .markDirty => [.dirtied]
  | _ => []

-- Nothing of an earlier cycle acts in a later one: an attempt that is no longer the active one
-- settles neither during its successor nor while a loss waits to be answered, and a new cycle
-- begins with no owner run outstanding and no unsettled attempt but cancelled ones.
def Orderly (s : System) : Event → Prop
  | .linkLost => s.controller.isReconnecting = false →
      s.kicks = 0 ∧ s.tasks = 0 ∧ ∀ i ∈ s.unsettled, i < s.cancelMark
  | .settle i keepReconnecting =>
      (keepReconnecting = none ∨ keepReconnecting = some s.controller.isReconnecting) ∧
      (s.controller.attemptActive = true ∧ i + 1 = s.started ∨
        s.controller.attemptActive = false ∧ (s.controller.isReconnecting = true → s.controller.dirty = false))
  | .markExhausted => s.controller.attemptActive = false
  | _ => True

instance (s : System) (e : Event) : Decidable (s.Orderly e) := by
  cases e <;> unfold Orderly <;> infer_instance

end System

end MeshClient.Reconnect
