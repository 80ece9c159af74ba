import MeshClient.Lib.Trace

namespace MeshClient.Meshcore.TxEcho

abbrev Frame := List UInt8

def TX_ECHO_TTL_MS : Nat := 500

def MAX_RECENT_TX : Nat := 16

def SYNC_NEXT_MESSAGE_ECHO_HOLD_MS : Nat := 150

def MC_RESP_NO_MORE_MESSAGES : UInt8 := 10

-- `SyncNextMessage` is the same frame.
abbrev isLoneNoMoreMessages (frame : Frame) : Prop := frame = [MC_RESP_NO_MORE_MESSAGES]

structure Sent where
  frame : Frame
  sentAt : Nat
deriving DecidableEq, Repr

inductive Verdict where
  | drop
  | hold
  | deliver
deriving DecidableEq, Repr

structure Filter where
  recent : List Sent := []
  pendingSyncNext : Bool := false
  heldSyncEcho : Option Frame := none
  holdTimer : Option Nat := none
deriving DecidableEq, Repr

def fresh (now : Nat) (sent : Sent) : Bool := now ≤ sent.sentAt + TX_ECHO_TTL_MS

namespace Filter

def prune (f : Filter) (now : Nat) : Filter := { f with recent := f.recent.filter (fresh now) }

def noteOutbound (f : Filter) (now : Nat) (frame : Frame) : Filter :=
  let recent := (f.prune now).recent ++ [⟨frame, now⟩]
  { f with
    recent := if recent.length > MAX_RECENT_TX then recent.drop 1 else recent
    pendingSyncNext := decide (isLoneNoMoreMessages frame) || f.pendingSyncNext }

def isEcho (f : Filter) (now : Nat) (inbound : Frame) : Bool :=
  if isLoneNoMoreMessages inbound then false else (f.prune now).recent.any fun sent => sent.frame = inbound

-- What a call of `isEcho` leaves behind.
def afterIsEcho (f : Filter) (now : Nat) (inbound : Frame) : Filter :=
  if isLoneNoMoreMessages inbound then f else f.prune now

def clearHold (f : Filter) : Filter := { f with heldSyncEcho := none, holdTimer := none }

def ingestUnheld (f : Filter) (now : Nat) (inbound : Frame) : Verdict × Filter :=
  if f.pendingSyncNext ∧ isLoneNoMoreMessages inbound then
    (.hold, { f with heldSyncEcho := some inbound, holdTimer := some (now + SYNC_NEXT_MESSAGE_ECHO_HOLD_MS) })
  else if f.isEcho now inbound then (.drop, f.afterIsEcho now inbound)
  else (.deliver, f.afterIsEcho now inbound)

def ingest (f : Filter) (now : Nat) (inbound : Frame) : Verdict × Filter :=
  if f.heldSyncEcho.isSome then
    if f.isEcho now inbound then (.drop, f.afterIsEcho now inbound)
    else
      let f := (f.afterIsEcho now inbound).clearHold
      if inbound.length > 1 then (.deliver, f)
      else if isLoneNoMoreMessages inbound then (.deliver, { f with pendingSyncNext := false })
      else f.ingestUnheld now inbound
  else f.ingestUnheld now inbound

-- The callback of the hold timer.
def expire (f : Filter) : Filter := { f with heldSyncEcho := none, holdTimer := none, pendingSyncNext := false }

end Filter

inductive Origin where
  | echo
  | device
deriving DecidableEq, Repr

-- The filter between a client and a device. `inFlight` are the frames that are still to be
-- echoed, `due` the `SyncNextMessage` frames that the device has still to answer; `sent` and
-- `heldFrom` record what was sent and whose frame is held, `own` the frames of the device that are
-- to be passed on and `passed` those that were.
structure System where
  echoes : Bool
  filter : Filter := {}
  now : Nat := 0
  inFlight : List Frame := []
  due : Nat := 0
  sent : List Sent := []
  heldFrom : Option Origin := none
  own : List Frame := []
  passed : List Frame := []
deriving DecidableEq, Repr

inductive Event where
  | wait (ms : Nat)
  | send (frame : Frame)
  | echo
  | answer (frame : Frame)
  | other (frame : Frame)
  | holdExpires
deriving DecidableEq, Repr

namespace System

def recentlySent (s : System) (frame : Frame) : Prop :=
  ¬ isLoneNoMoreMessages frame ∧ ∃ sent ∈ s.sent, sent.frame = frame ∧ fresh s.now sent

instance (s : System) (frame : Frame) : Decidable (s.recentlySent frame) :=
  inferInstanceAs (Decidable (_ ∧ _))

-- A frame arrives and is passed on, held or dropped.
def arrive (s : System) (origin : Origin) (frame : Frame) : System :=
  { s with
    filter := (s.filter.ingest s.now frame).2
    own := if origin = .device ∧ ¬ s.recentlySent frame then s.own ++ [frame] else s.own
    passed := if (s.filter.ingest s.now frame).1 = .deliver then s.passed ++ [frame] else s.passed
    heldFrom :=
      match (s.filter.ingest s.now frame).1 with
      | .drop => s.heldFrom
      | .hold => some origin
      | .deliver => none }

def received (s : System) (frame : Frame) : System :=
  if isLoneNoMoreMessages frame then { s with due := s.due + 1 } else s

def send (s : System) (frame : Frame) : System :=
  let s : System := { s with filter := s.filter.noteOutbound s.now frame, sent := s.sent ++ [⟨frame, s.now⟩] }
  if s.echoes then { s with inFlight := s.inFlight ++ [frame] } else s.received frame

-- The echo of a frame comes before the device's answer to it.
def echo (s : System) : System :=
  match s.inFlight with
  | [] => s
  | frame :: rest => { (s.arrive .echo frame).received frame with inFlight := rest }

def answer (s : System) (frame : Frame) : System :=
  if s.due = 0 then s else { s.arrive .device frame with due := s.due - 1 }

-- Pushes, and answers to other commands.
def other (s : System) (frame : Frame) : System :=
  if isLoneNoMoreMessages frame then s else s.arrive .device frame

def holdDue (s : System) : Bool := s.filter.holdTimer.any fun deadline => deadline ≤ s.now

def holdExpires (s : System) : System :=
  if s.holdDue then
    { s with filter := s.filter.expire, passed := s.passed ++ s.filter.heldSyncEcho.toList, heldFrom := none }
  else s

def step (s : System) : Event → System
  | .wait ms => { s with now := s.now + ms }
  | .send frame => s.send frame
  | .echo => s.echo
  | .answer frame => s.answer frame
  | .other frame => s.other frame
  | .holdExpires => s.holdExpires

end System

end MeshClient.Meshcore.TxEcho
