import MeshClient.Lib.OrderedMap
import MeshClient.Lib.Run
import MeshClient.Lib.Turns

namespace MeshClient.Meshcore

open Run Turns

inductive MeshcoreRepeaterRpcKind where
  | neighbors
  | telemetry
  | status
  | trace
  | cli
deriving DecidableEq

def MeshcoreRepeaterRpcKind.name : MeshcoreRepeaterRpcKind → String
  | .neighbors => "neighbors"
  | .telemetry => "telemetry"
  | .status => "status"
  | .trace => "trace"
  | .cli => "cli"

-- How far the promise of a call is: its function is not called yet, is under way, has settled,
-- and the `finally` behind it has run, which settles the promise that the caller holds.
inductive RpcPhase where
  | queued
  | running
  | settled
  | done
deriving DecidableEq

-- One call that was not joined to an earlier one. `before` is the promise at the tail of its
-- queue, `none` where that is `Promise.resolve()`. The code keeps neither of the two counts of
-- resets, at the call and at the start of the function.
structure Rpc where
  kind : MeshcoreRepeaterRpcKind
  nodeId : Int
  key : String
  before : Option Nat
  phase : RpcPhase
  madeIn : Nat
  startedIn : Nat
deriving DecidableEq

-- A CLI command between its begin and its end.
structure CliHold where
  madeIn : Nat
  ended : Bool
deriving DecidableEq

structure RepeaterRpcs where
  inFlightByKey : OrderedMap String Nat := ∅
  traceQueueTail : Option Nat := none
  traceInFlightByKey : OrderedMap String Nat := ∅
  traceInFlightCountByNode : OrderedMap Nat Nat := ∅
  adminQueueTailByNode : OrderedMap Int Nat := ∅
  cliReplyHoldCount : Nat := 0
  rpcs : List Rpc := []
  holds : List CliHold := []
  resets : Nat := 0
deriving DecidableEq

-- `nodeId >>> 0`
def normalizedNodeId (nodeId : Int) : Nat := (nodeId % 2 ^ 32).toNat

def rpcKey (kind : MeshcoreRepeaterRpcKind) (nodeId : Int) (coalesceKey : Option String) : String :=
  match coalesceKey with
  | some k => if k ≠ "" then kind.name ++ ":" ++ nodeId.repr ++ ":" ++ k else kind.name ++ ":" ++ nodeId.repr
  | none => kind.name ++ ":" ++ nodeId.repr

namespace RepeaterRpcs

def beginMeshcoreCliReplyHold (s : RepeaterRpcs) : RepeaterRpcs :=
  { s with
    cliReplyHoldCount := s.cliReplyHoldCount + 1
    holds := s.holds ++ [⟨s.resets, false⟩] }

def endMeshcoreCliReplyHold (s : RepeaterRpcs) (hold : Nat) : RepeaterRpcs :=
  match s.holds[hold]? with
  | some h =>
      if h.ended then s
      else
        { s with
          cliReplyHoldCount := s.cliReplyHoldCount - 1
          holds := s.holds.set hold { h with ended := true } }
  | none => s

def runMeshcoreTraceRpcOnce (s : RepeaterRpcs) (nodeId : Int) (coalesceKey : Option String) : RepeaterRpcs :=
  let key := rpcKey .trace nodeId coalesceKey
  if (s.traceInFlightByKey.get? key).isSome then s
  else
    let normalizedId := normalizedNodeId nodeId
    { s with
      traceQueueTail := some s.rpcs.length
      traceInFlightCountByNode :=
        s.traceInFlightCountByNode.set normalizedId ((s.traceInFlightCountByNode.get? normalizedId).getD 0 + 1)
      traceInFlightByKey := s.traceInFlightByKey.set key s.rpcs.length
      rpcs := s.rpcs ++ [⟨.trace, nodeId, key, s.traceQueueTail, .queued, s.resets, 0⟩] }

def runMeshcoreAdminRpcOnce (s : RepeaterRpcs) (kind : MeshcoreRepeaterRpcKind) (nodeId : Int)
    (coalesceKey : Option String) : RepeaterRpcs :=
  let key := rpcKey kind nodeId coalesceKey
  if (s.inFlightByKey.get? key).isSome then s
  else
    { s with
      adminQueueTailByNode := s.adminQueueTailByNode.set nodeId s.rpcs.length
      inFlightByKey := s.inFlightByKey.set key s.rpcs.length
      rpcs := s.rpcs ++ [⟨kind, nodeId, key, s.adminQueueTailByNode.get? nodeId, .queued, s.resets, 0⟩] }

def runMeshcoreRepeaterRpcOnce (s : RepeaterRpcs) (kind : MeshcoreRepeaterRpcKind) (nodeId : Int)
    (coalesceKey : Option String) : RepeaterRpcs :=
  if kind = .trace then s.runMeshcoreTraceRpcOnce nodeId coalesceKey
  else s.runMeshcoreAdminRpcOnce kind nodeId coalesceKey

def put (s : RepeaterRpcs) (id : Nat) (r : Rpc) : RepeaterRpcs := { s with rpcs := s.rpcs.set id r }

-- The tail of the queue that a call came to has resolved.
def tailResolved (s : RepeaterRpcs) (r : Rpc) : Bool :=
  r.before.all fun p => (s.rpcs[p]?).any fun y => y.phase = .settled || y.phase = .done

-- The callback behind the tail. A trace fails fast while a CLI reply is awaited.
def start (s : RepeaterRpcs) (id : Nat) : RepeaterRpcs :=
  match s.rpcs[id]? with
  | some r =>
      if r.phase = .queued ∧ s.tailResolved r = true then
        if r.kind = .trace ∧ 0 < s.cliReplyHoldCount then s.put id { r with phase := .settled }
        else s.put id { r with phase := .running, startedIn := s.resets }
      else s
  | none => s

def settle (s : RepeaterRpcs) (id : Nat) : RepeaterRpcs :=
  match s.rpcs[id]? with
  | some r => if r.phase = .running then s.put id { r with phase := .settled } else s
  | none => s

def forgetAdmin (s : RepeaterRpcs) (id : Nat) (key : String) : RepeaterRpcs :=
  if s.inFlightByKey.get? key = some id then { s with inFlightByKey := s.inFlightByKey.erase key } else s

def forgetTrace (s : RepeaterRpcs) (id : Nat) (key : String) : RepeaterRpcs :=
  if s.traceInFlightByKey.get? key = some id then { s with traceInFlightByKey := s.traceInFlightByKey.erase key }
  else s

def countTraceDown (s : RepeaterRpcs) (normalizedId : Nat) : RepeaterRpcs :=
  let next := (s.traceInFlightCountByNode.get? normalizedId).getD 1 - 1
  { s with
    traceInFlightCountByNode :=
      if next = 0 then s.traceInFlightCountByNode.erase normalizedId
      else s.traceInFlightCountByNode.set normalizedId next }

-- The callback of `finally`.
def cleanUp (s : RepeaterRpcs) (id : Nat) : RepeaterRpcs :=
  match s.rpcs[id]? with
  | some r =>
      if r.phase = .settled then
        if r.kind = .trace then
          ((s.put id { r with phase := .done }).forgetTrace id r.key).countTraceDown (normalizedNodeId r.nodeId)
        else (s.put id { r with phase := .done }).forgetAdmin id r.key
      else s
  | none => s

def resetMeshcoreRepeaterRpcInFlightOnDisconnect (s : RepeaterRpcs) : RepeaterRpcs :=
  { s with
    inFlightByKey := ∅
    traceInFlightByKey := ∅
    traceInFlightCountByNode := ∅
    adminQueueTailByNode := ∅
    traceQueueTail := none
    cliReplyHoldCount := 0
    resets := s.resets + 1 }

def meshcoreCliReplyHoldActive (s : RepeaterRpcs) : Bool := 0 < s.cliReplyHoldCount

def meshcoreRepeaterTraceActiveForNode (s : RepeaterRpcs) (nodeId : Int) : Bool :=
  0 < (s.traceInFlightCountByNode.get? (normalizedNodeId nodeId)).getD 0

def meshcoreCompanionRepeaterRfBusy (s : RepeaterRpcs) (traceResponsesInFlight : Nat) : Bool :=
  decide (0 < s.cliReplyHoldCount) || decide (0 < s.inFlightByKey.size) ||
    decide (0 < s.traceInFlightByKey.size) || decide (0 < traceResponsesInFlight)

end RepeaterRpcs

inductive RepeaterRpcEvent where
  | call (kind : MeshcoreRepeaterRpcKind) (nodeId : Int) (coalesceKey : Option String)
  | start (id : Nat)
  | settle (id : Nat)
  | cleanUp (id : Nat)
  | beginHold
  | endHold (hold : Nat)
  | reset
deriving DecidableEq

-- An event that the promises do not allow changes nothing.
def RepeaterRpcs.step (s : RepeaterRpcs) : RepeaterRpcEvent → RepeaterRpcs
  | .call kind nodeId coalesceKey => s.runMeshcoreRepeaterRpcOnce kind nodeId coalesceKey
  | .start id => s.start id
  | .settle id => s.settle id
  | .cleanUp id => s.cleanUp id
  | .beginHold => s.beginMeshcoreCliReplyHold
  | .endHold hold => s.endMeshcoreCliReplyHold hold
  | .reset => s.resetMeshcoreRepeaterRpcInFlightOnDisconnect

end MeshClient.Meshcore
