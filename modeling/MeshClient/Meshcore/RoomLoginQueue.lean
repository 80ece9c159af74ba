import MeshClient.Lib.OrderedMap
import MeshClient.Lib.Run
import MeshClient.Lib.Turns

namespace MeshClient.Meshcore.RoomLogin

def MESHCORE_ROOM_SYNC_MIN_MESH_TX_SPACING_MS : Nat := 60000

def MESHCORE_ROOM_LOGIN_QUEUE_SKIP_POLL_MS : Nat := 50

-- How far a job is: its turn has not come, it waits out the spacing until `deadline` and looks
-- again at `wakeAt`, its login function runs, its promise has settled.
inductive Phase where
  | waiting
  | spacing (deadline wakeAt : Nat)
  | running
  | settled
deriving DecidableEq, Repr

-- `before` is the promise of the chain that the job waits for; `starts` counts the calls of its
-- login function.
structure Job where
  nodeId : Nat
  gen : Nat
  before : Option Nat
  phase : Phase := .waiting
  starts : Nat := 0
deriving DecidableEq, Repr

-- Jobs are numbered as they are enqueued. `cancelled` records the jobs that were dequeued, cleared
-- or superseded before their login function started, `successes` when logins succeeded; the clock
-- is positive.
structure Queue where
  chain : Option Nat := none
  activeNodeId : Option Nat := none
  pendingNodeIds : List Nat := []
  jobGenerationByNode : OrderedMap Nat Nat := ∅
  lastMeshLoginTxAt : Nat := 0
  jobs : List Job := []
  now : Nat := 1
  cancelled : List Nat := []
  successes : List Nat := []

inductive Event where
  | enqueue (nodeId : Nat)
  | dequeue (nodeId : Nat)
  | clear
  | turn (i : Nat)
  | wake (i : Nat)
  | finish (i : Nat) (ok : Bool)
  | wait (ms : Nat)
deriving DecidableEq, Repr

def Job.isWaiting (j : Job) : Bool := j.phase = .waiting

def Job.isSpacing (j : Job) : Bool :=
  match j.phase with
  | .spacing _ _ => true
  | _ => false

-- The login function has not started and may still do so.
def Job.isUnstarted (j : Job) : Bool := j.isWaiting || j.isSpacing

def Job.isActive (j : Job) : Bool := j.isSpacing || j.phase = .running

namespace Queue

def generation (s : Queue) (nodeId : Nat) : Nat := (s.jobGenerationByNode.get? nodeId).getD 0

def bumpJobGeneration (s : Queue) (nodeId : Nat) : Queue :=
  { s with jobGenerationByNode := s.jobGenerationByNode.set nodeId (s.generation nodeId + 1) }

-- The numbers of the jobs of a kind.
def numbers (s : Queue) (p : Job → Bool) : List Nat :=
  (List.range s.jobs.length).filter fun i => (s.jobs[i]?).any p

def cancel (s : Queue) (p : Job → Bool) : Queue := { s with cancelled := s.cancelled ++ s.numbers p }

def addPending (s : Queue) (nodeId : Nat) : Queue :=
  if nodeId ∈ s.pendingNodeIds then s else { s with pendingNodeIds := s.pendingNodeIds ++ [nodeId] }

def deletePending (s : Queue) (nodeId : Nat) : Queue :=
  { s with pendingNodeIds := s.pendingNodeIds.filter (· ≠ nodeId) }

def meshcoreIsRoomLoginQueued (s : Queue) (nodeId : Nat) : Bool :=
  s.activeNodeId = some nodeId || nodeId ∈ s.pendingNodeIds

def enqueue (s : Queue) (nodeId : Nat) : Queue :=
  let s := ((s.cancel fun j => j.nodeId = nodeId && j.isUnstarted).bumpJobGeneration nodeId).addPending nodeId
  { s with
    jobs := s.jobs ++ [{ nodeId, gen := s.generation nodeId, before := s.chain }]
    chain := some s.jobs.length }

def dequeue (s : Queue) (nodeId : Nat) : Queue :=
  ((s.cancel fun j => j.nodeId = nodeId && j.isUnstarted).bumpJobGeneration nodeId).deletePending nodeId

-- It skips the pending logins; the active one is to be aborted separately.
def clear (s : Queue) : Queue :=
  let s := s.cancel Job.isWaiting
  { s.pendingNodeIds.foldl bumpJobGeneration s with pendingNodeIds := [] }

def put (s : Queue) (i : Nat) (j : Job) : Queue := { s with jobs := s.jobs.set i j }

def isStale (s : Queue) (j : Job) : Bool := s.generation j.nodeId ≠ j.gen

-- The promise that the job waits for has settled.
def chainResolved (s : Queue) (j : Job) : Bool := j.before.all fun p => (s.jobs[p]?).any fun y => y.phase = .settled

def waitMs (s : Queue) : Nat :=
  if s.lastMeshLoginTxAt > 0 then MESHCORE_ROOM_SYNC_MIN_MESH_TX_SPACING_MS - (s.now - s.lastMeshLoginTxAt) else 0

-- `throwIfJobStale`, then `run`.
def runUnlessStale (s : Queue) (i : Nat) (j : Job) : Queue :=
  if s.isStale j then s.put i { j with phase := .settled }
  else s.put i { j with phase := .running, starts := j.starts + 1 }

-- A turn of the loop of `sleepMsUnlessStale`, and what follows it.
def sleepUnlessStale (s : Queue) (i : Nat) (j : Job) (deadline : Nat) : Queue :=
  if s.now < deadline ∧ s.isStale j = false then
    s.put i { j with phase := .spacing deadline (s.now + min MESHCORE_ROOM_LOGIN_QUEUE_SKIP_POLL_MS (deadline - s.now)) }
  else s.runUnlessStale i j

-- The callback of the chain.
def turn (s : Queue) (i : Nat) : Queue :=
  match s.jobs[i]? with
  | none => s
  | some j =>
      if j.phase = .waiting ∧ s.chainResolved j = true then
        let s := s.deletePending j.nodeId
        if s.isStale j then s.put i { j with phase := .settled }
        else
          let s := { s with activeNodeId := some j.nodeId }
          if s.waitMs > 0 then s.sleepUnlessStale i j (s.now + s.waitMs) else s.runUnlessStale i j
      else s

def wake (s : Queue) (i : Nat) : Queue :=
  match s.jobs[i]? with
  | none => s
  | some j =>
      match j.phase with
      | .spacing deadline wakeAt => if wakeAt ≤ s.now then s.sleepUnlessStale i j deadline else s
      | _ => s

-- The login function settles.
def finish (s : Queue) (i : Nat) (ok : Bool) : Queue :=
  match s.jobs[i]? with
  | none => s
  | some j =>
      if j.phase = .running then
        { s.put i { j with phase := .settled } with
          lastMeshLoginTxAt := if ok then s.now else s.lastMeshLoginTxAt
          successes := if ok then s.successes ++ [s.now] else s.successes
          activeNodeId := if s.activeNodeId = some j.nodeId then none else s.activeNodeId }
      else s

def step (s : Queue) : Event → Queue
  | .enqueue nodeId => s.enqueue nodeId
  | .dequeue nodeId => s.dequeue nodeId
  | .clear => s.clear
  | .turn i => s.turn i
  | .wake i => s.wake i
  | .finish i ok => s.finish i ok
  | .wait ms => { s with now := s.now + ms }

end Queue

end MeshClient.Meshcore.RoomLogin
