import MeshClient.Lib.Lists
import MeshClient.Lib.OrderedMap
import MeshClient.Lib.Trace

namespace MeshClient.Meshcore.TraceMux

open Lists

-- `traceDataPayloadToResult` may throw.
structure Env (π ρ : Type) where
  traceDataPayloadToResult : π → Except String ρ

inductive TraceError where
  | cancelled (reason : String)
  | disconnect
  | timeout
  | waitingForPriorTrace
  | send (message : String)
  | invalidResponse (message : String)
deriving DecidableEq, Repr

-- A trace with its promise. `mux` is the map that it was entered into; `timer` is when its
-- timeout is due while it is set; `accepted` records that the radio acknowledged the send.
structure PendingTrace where
  tag : Int
  mux : Nat
  extraTimeoutMillis : Nat
  settled : Bool := false
  awaitingResponse : Bool := false
  accepted : Bool := false
  timer : Option Nat := none
deriving DecidableEq, Repr

-- How far the serialized function of a trace is: in its wait for earlier traces, in the wait for
-- the acknowledgement, or about to go on after it.
inductive Phase where
  | idle (idleWaitStart : Nat)
  | awaitingSent
  | acknowledged (estTimeoutMs : Nat)
  | failed (message : String)
deriving DecidableEq, Repr

structure Running where
  trace : Nat
  phase : Phase
deriving DecidableEq, Repr

-- `muxes` are the maps of pending traces that were made for the connection, each with a listener
-- that stays; `mux` is the one that `muxByConn` holds. Traces are numbered as they start.
structure Multiplex where
  traceResponsesInFlight : Nat := 0
  tracePendingRouteCount : Nat := 0
  muxes : List (OrderedMap Int Nat) := []
  mux : Option Nat := none
  traces : List PendingTrace := []
  queue : List Nat := []
  running : Option Running := none
  now : Nat := 0

inductive Mark (ρ : Type) where
  | settled (i : Nat) (outcome : Except TraceError ρ)
  | sendTracePath (i : Nat) (tag : Int)

-- A tag that the radio reports is a number, `none` where it is not finite.
inductive Event (π : Type) where
  | start (tag : BitVec 32) (extraTimeoutMillis : Nat)
  | cancel (i : Nat) (reason : String)
  | cancelAll (reason : String)
  | resetOnDisconnect
  | traceData (tag : Option Int) (payload : π)
  | dequeue
  | poll
  | sentAck (estTimeoutMs : Nat)
  | sentFails (message : String)
  | resume
  | traceTimeout (i : Nat)
  | wait (ms : Nat)

namespace Multiplex

variable {π ρ : Type}

def update (s : Multiplex) (i : Nat) (f : PendingTrace → PendingTrace) : Multiplex :=
  { s with traces := s.traces.modify i f }

def close (t : PendingTrace) : PendingTrace := { t with settled := true, awaitingResponse := false, timer := none }

-- `clearTimeout`
def untimed (t : PendingTrace) : PendingTrace := { t with timer := none }

-- `fail` and `succeed`.
def settle (s : Multiplex) (i : Nat) (outcome : Except TraceError ρ) : Multiplex × List (Mark ρ) :=
  match s.traces[i]? with
  | none => (s, [])
  | some t =>
      if t.settled then (s, [])
      else
        ({ s.update i close with
            traceResponsesInFlight :=
              if t.awaitingResponse then s.traceResponsesInFlight - 1 else s.traceResponsesInFlight
            tracePendingRouteCount := s.tracePendingRouteCount - 1
            muxes := s.muxes.modify t.mux fun m => m.erase t.tag },
          [.settled i outcome])

def settleAll (s : Multiplex) (outcome : Except TraceError ρ) : List Nat → Multiplex × List (Mark ρ)
  | [] => (s, [])
  | i :: rest =>
      let (s', marks) := s.settle i outcome
      let (s'', more) := s'.settleAll outcome rest
      (s'', marks ++ more)

def getMuxState (s : Multiplex) : Multiplex × Nat :=
  match s.mux with
  | some m => (s, m)
  | none => ({ s with muxes := s.muxes ++ [∅], mux := some s.muxes.length }, s.muxes.length)

-- A tag that a pending trace has is drawn again.
def start (s : Multiplex) (tag : Int) (extraTimeoutMillis : Nat) : Multiplex :=
  let (s, m) := s.getMuxState
  if (s.muxes[m]?).any fun pendingByTag => (pendingByTag.get? tag).isSome then s
  else
    { s with
      muxes := s.muxes.modify m fun pendingByTag => pendingByTag.set tag s.traces.length
      tracePendingRouteCount := s.tracePendingRouteCount + 1
      traces := s.traces ++ [{ tag, mux := m, extraTimeoutMillis }]
      queue := s.queue ++ [s.traces.length] }

def pendingTraces (s : Multiplex) (m : Nat) : List Nat := ((s.muxes[m]?).map fun pendingByTag => pendingByTag.values).getD []

def cancelAllPending (s : Multiplex) (reason : String) : Multiplex × List (Mark ρ) :=
  match s.mux with
  | none => (s, [])
  | some m => s.settleAll (.error (.cancelled reason)) (unique (s.pendingTraces m))

def resetOnDisconnect (s : Multiplex) : Multiplex × List (Mark ρ) :=
  match s.mux with
  | none => ({ s with traceResponsesInFlight := 0, tracePendingRouteCount := 0 }, [])
  | some m =>
      let (s, marks) := s.settleAll (.error .disconnect) (s.pendingTraces m)
      ({ s with
          muxes := s.muxes.modify m fun _ => ∅
          mux := none
          traceResponsesInFlight := 0
          tracePendingRouteCount := 0 }, marks)

-- The listener of one map.
def onTraceData (env : Env π ρ) (s : Multiplex) (tagSigned : Int) (payload : π) (m : Nat) :
    Multiplex × List (Mark ρ) :=
  match s.muxes[m]? with
  | none => (s, [])
  | some pendingByTag =>
      let tagUnsigned := tagSigned % 2 ^ 32
      match (pendingByTag.get? tagUnsigned).or (pendingByTag.get? tagSigned) with
      | none => (s, [])
      | some i =>
          let s := { s.update i untimed with
            muxes := s.muxes.modify m fun pendingByTag => (pendingByTag.erase tagUnsigned).erase tagSigned }
          s.settle i
            (match env.traceDataPayloadToResult payload with
            | .ok result => .ok result
            | .error message => .error (.invalidResponse message))

def onTraceDataAll (env : Env π ρ) (s : Multiplex) (tagSigned : Int) (payload : π) :
    List Nat → Multiplex × List (Mark ρ)
  | [] => (s, [])
  | m :: rest =>
      let (s', marks) := s.onTraceData env tagSigned payload m
      let (s'', more) := s'.onTraceDataAll env tagSigned payload rest
      (s'', marks ++ more)

def returned (s : Multiplex) : Multiplex := { s with running := none }

-- One turn of the wait for earlier traces.
def poll (s : Multiplex) : Multiplex × List (Mark ρ) :=
  match s.running with
  | some ⟨i, .idle idleWaitStart⟩ =>
      match s.traces[i]? with
      | none => (s, [])
      | some t =>
          if s.traceResponsesInFlight > 0 then
            if t.settled then (s.returned, [])
            else if s.now - idleWaitStart > t.extraTimeoutMillis + 60000 then
              s.returned.settle i (.error .waitingForPriorTrace)
            else (s, [])
          else if t.settled then (s.returned, [])
          else ({ s with running := some ⟨i, .awaitingSent⟩ }, [.sendTracePath i t.tag])
  | _ => (s, [])

-- `runSerialized` calls the next function when none is running.
def dequeue (s : Multiplex) : Multiplex × List (Mark ρ) :=
  match s.running, s.queue with
  | none, i :: rest => ({ s with queue := rest, running := some ⟨i, .idle s.now⟩ } : Multiplex).poll
  | _, _ => (s, [])

def sentAck (s : Multiplex) (estTimeoutMs : Nat) : Multiplex :=
  match s.running with
  | some ⟨i, .awaitingSent⟩ =>
      { s.update i (fun t => { t with accepted := true }) with running := some ⟨i, .acknowledged estTimeoutMs⟩ }
  | _ => s

def sentFails (s : Multiplex) (message : String) : Multiplex :=
  match s.running with
  | some ⟨i, .awaitingSent⟩ => { s with running := some ⟨i, .failed message⟩ }
  | _ => s

-- The function goes on after its wait for the acknowledgement.
def resume (s : Multiplex) : Multiplex × List (Mark ρ) :=
  match s.running with
  | some ⟨i, .acknowledged estTimeoutMs⟩ =>
      match s.traces[i]? with
      | none => (s, [])
      | some t =>
          if t.settled then (s.returned, [])
          else
            ({ s.returned.update i (fun t =>
                { t with awaitingResponse := true, timer := some (s.now + (estTimeoutMs + t.extraTimeoutMillis)) }) with
                traceResponsesInFlight := s.traceResponsesInFlight + 1 }, [])
  | some ⟨i, .failed message⟩ => s.returned.settle i (.error (.send message))
  | _ => (s, [])

def traceTimeout (s : Multiplex) (i : Nat) : Multiplex × List (Mark ρ) :=
  if (s.traces[i]?).any fun t => t.timer.any (· ≤ s.now) then s.settle i (.error .timeout) else (s, [])

def handle (env : Env π ρ) (s : Multiplex) : Event π → Multiplex × List (Mark ρ)
  | .start tag extraTimeoutMillis => (s.start tag.toNat extraTimeoutMillis, [])
  | .cancel i reason => s.settle i (.error (.cancelled reason))
  | .cancelAll reason => s.cancelAllPending reason
  | .resetOnDisconnect => s.resetOnDisconnect
  | .traceData none _ => (s, [])
  | .traceData (some tag) payload => s.onTraceDataAll env tag payload (List.range s.muxes.length)
  | .dequeue => s.dequeue
  | .poll => s.poll
  | .sentAck estTimeoutMs => (s.sentAck estTimeoutMs, [])
  | .sentFails message => (s.sentFails message, [])
  | .resume => s.resume
  | .traceTimeout i => s.traceTimeout i
  | .wait ms => ({ s with now := s.now + ms }, [])

def step (env : Env π ρ) (s : Multiplex) (e : Event π) : Multiplex := (s.handle env e).1

def marks (env : Env π ρ) (s : Multiplex) (e : Event π) : List (Mark ρ) := (s.handle env e).2

end Multiplex

end MeshClient.Meshcore.TraceMux
