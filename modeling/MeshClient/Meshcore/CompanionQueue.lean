import MeshClient.Lib.Run
import MeshClient.Lib.Turns

namespace MeshClient.Meshcore.Companion

-- The request function has not been called, its promise is open, or the slot is released.
inductive Phase where
  | waiting
  | running
  | finished
deriving DecidableEq, Repr

inductive Outcome where
  | aborted
  | resolved
  | rejected
deriving DecidableEq, Repr

-- One call: `before` is the slot that was the tail, `outcome` what its promise settled with.
structure Request where
  before : Option Nat
  hasSignal : Bool
  listening : Bool := false
  cancelled : Bool := false
  phase : Phase := .waiting
  outcome : Option Outcome := none
deriving DecidableEq, Repr

-- What can be seen from outside: a signal fires, a request function is called, a slot is released.
inductive Act where
  | fired (i : Nat)
  | started (i : Nat)
  | finished (i : Nat)
deriving DecidableEq, Repr

-- The calls on one connection, numbered as they come; `tail` is its entry in the map of tails.
structure Queue where
  tail : Option Nat := none
  requests : List Request := []
  trace : List Act := []
deriving DecidableEq, Repr

-- `call` has no signal, one that is still quiet, or one that has fired already. A promise that
-- settles and a request function that throws both end in `settle`.
inductive Event where
  | call (signal : Option Bool)
  | turn (i : Nat)
  | abort (i : Nat)
  | settle (i : Nat) (ok : Bool)
deriving DecidableEq, Repr

-- Only the first settling of a promise counts.
def Request.settle (r : Request) (outcome : Outcome) : Request := { r with outcome := r.outcome.or (some outcome) }

def Request.onAbort (r : Request) : Request :=
  { r.settle .aborted with
    cancelled := true
    listening := false }

namespace Queue

def put (s : Queue) (i : Nat) (r : Request) : Queue := { s with requests := s.requests.set i r }

def act (s : Queue) (a : Act) : Queue := { s with trace := s.trace ++ [a] }

def finish (s : Queue) (i : Nat) (r : Request) : Queue :=
  { (s.put i { r with phase := .finished }).act (.finished i) with
    tail := if s.tail = some i then none else s.tail }

def start (s : Queue) (i : Nat) (r : Request) : Queue :=
  if r.cancelled then s.finish i { r with listening := false }
  else (s.put i { r with
    listening := false
    phase := .running }).act (.started i)

-- A new slot at the end, and its listener.
def register (s : Queue) (signal : Option Bool) : Queue :=
  let r : Request := { before := s.tail, hasSignal := signal.isSome }
  let s := { s with
    requests := s.requests ++ [if signal = some true then r.onAbort else { r with listening := signal.isSome }]
    tail := some s.requests.length }
  if signal = some true then s.act (.fired (s.requests.length - 1)) else s

-- The promise that the request waits for has settled.
def isDue (s : Queue) (r : Request) : Bool := r.before.all fun p => (s.requests[p]?).any fun y => y.phase = .finished

-- The start of a request that waits for no one, or whose predecessor has released its slot.
def turn (s : Queue) (i : Nat) : Queue :=
  match s.requests[i]? with
  | none => s
  | some r => if r.phase = .waiting ∧ s.isDue r = true then s.start i r else s

def call (s : Queue) (signal : Option Bool) : Queue :=
  let registered := s.register signal
  if s.tail = none then registered.turn s.requests.length else registered

def abort (s : Queue) (i : Nat) : Queue :=
  match s.requests[i]? with
  | none => s
  | some r =>
      if r.hasSignal then (s.put i (if r.listening then r.onAbort else r)).act (.fired i) else s

def settle (s : Queue) (i : Nat) (ok : Bool) : Queue :=
  match s.requests[i]? with
  | none => s
  | some r =>
      if r.phase = .running then s.finish i (r.settle (if ok then .resolved else .rejected)) else s

def step (s : Queue) : Event → Queue
  | .call signal => s.call signal
  | .turn i => s.turn i
  | .abort i => s.abort i
  | .settle i ok => s.settle i ok

end Queue

end MeshClient.Meshcore.Companion
