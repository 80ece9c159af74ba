import MeshClient.Lib.Run
import MeshClient.Js.Text
import MeshClient.Reticulum.RrcSession

namespace MeshClient.Reticulum.Inbound

open Run

def MAX_LXMF_INBOUND_LOG : ℕ := 200

def U64_MAX : ℕ := 2 ^ 64 - 1

-- What the ring, the cursor and the client's checks read of an `lxmf_message` payload.
structure Payload where
  messageHash : Option String := none
  timestamp : Option ℤ := none
  ringSeq : Option ℕ := none
  senderHash : Option String := none
  text : Option String := none
  direction : Option String := none
deriving DecidableEq, Repr

-- The sidecar's ring of recent payloads.
structure LxmfInboundBuffer where
  max : ℕ := MAX_LXMF_INBOUND_LOG
  nextSeq : ℕ := 1
  rows : List Payload := []
deriving Repr

namespace LxmfInboundBuffer

def holdsHash (buf : LxmfInboundBuffer) (hash : String) : Bool :=
  buf.rows.any fun row => row.messageHash.any fun h => eqIgnoreAsciiCase h.toList hash.toList

def isFull (buf : LxmfInboundBuffer) : Bool := buf.max ≤ buf.rows.length

def push (buf : LxmfInboundBuffer) (payload : Payload) : LxmfInboundBuffer × Option Payload :=
  if (payload.messageHash.filter (· ≠ "")).any buf.holdsHash then (buf, none)
  else
    let stamped := { payload with ringSeq := some buf.nextSeq }
    let kept := if buf.isFull then buf.rows.drop 1 else buf.rows
    ({ buf with nextSeq := min (buf.nextSeq + 1) U64_MAX, rows := kept ++ [stamped] }, some stamped)

end LxmfInboundBuffer

def rowRingSeq (row : Payload) : ℕ := row.ringSeq.getD 0

def afterCatchUpCursor (row : Payload) (sinceTs : Option ℤ) (sinceSeq : Option ℕ) : Bool :=
  sinceTs.all fun minTs => row.timestamp.any fun ts =>
    if minTs < ts then true
    else if ts < minTs then false
    else sinceSeq.any fun minSeq => minSeq < rowRingSeq row

def LxmfInboundBuffer.snapshot (buf : LxmfInboundBuffer) (sinceTs : Option ℤ) (sinceSeq : Option ℕ) (limit : ℕ) :
    List Payload :=
  let out := buf.rows.filter fun row => afterCatchUpCursor row sinceTs sinceSeq
  out.drop (out.length - Nat.max limit 1)

-- The cursor of a catch-up call; its reason and its `ingest` are the same for every call here.
structure CatchUpOpts where
  sinceTs : Option ℤ := none
  sinceSeq : Option ℕ := none
deriving DecidableEq, Repr

def seqOrMinusOne (seq : Option ℕ) : ℤ := seq.elim (-1) (↑)

def mergeCatchUpOpts (base next : CatchUpOpts) : CatchUpOpts :=
  match base.sinceTs, next.sinceTs with
  | some baseTs, some nextTs =>
      if baseTs < nextTs then next
      else if nextTs < baseTs then base
      else if seqOrMinusOne base.sinceSeq ≤ seqOrMinusOne next.sinceSeq then next
      else base
  | _, _ => ⟨next.sinceTs.or base.sinceTs, next.sinceSeq.or base.sinceSeq⟩

def isInboundLxmfPayload (row : Payload) : Bool :=
  row.senderHash.any (· ≠ "") && row.text.any (· ≠ "") && row.direction.all (· = "inbound")

def rowAlreadyInMessageStore (stored : List String) (row : Payload) : Bool :=
  row.messageHash.any fun hash => Js.trim hash ≠ "" && stored.contains (Js.trim hash)

def isCursorAfter (ts : ℤ) (seq : Option ℕ) (maxTs : ℤ) (maxSeq : Option ℕ) : Bool :=
  if maxTs < ts then true
  else if ts < maxTs then false
  else seq.any fun seq => maxSeq.all (· < seq)

-- `maxTs` and `maxSeq` of catchUpRecentInboundLxmfOnce.
structure Cursor where
  ts : ℤ
  seq : Option ℕ
deriving DecidableEq, Repr

def Cursor.pass (cursor : Cursor) (row : Payload) : Cursor :=
  match row.timestamp with
  | none => cursor
  | some ts => if isCursorAfter ts row.ringSeq cursor.ts cursor.seq then ⟨ts, row.ringSeq⟩ else cursor

def CatchUpOpts.cursor (opts : CatchUpOpts) : Cursor := ⟨opts.sinceTs.getD 0, opts.sinceSeq⟩

structure CatchUpRecentInboundLxmfOutcome where
  count : ℕ
  watermarkTs : Option ℤ
  watermarkSeq : Option ℕ
deriving DecidableEq, Repr

def outcomeOf (opts : CatchUpOpts) (rows : List Payload) : Option CatchUpRecentInboundLxmfOutcome :=
  if rows = [] then none
  else
    let cursor := rows.foldl Cursor.pass opts.cursor
    if 0 < cursor.ts then some ⟨rows.length, some cursor.ts, cursor.seq⟩
    else some ⟨rows.length, none, none⟩

-- A request under way: `served` is the sidecar's answer on its way back, with the number the
-- ring had reached.
structure CatchUpFlight where
  opts : CatchUpOpts
  pending : Option CatchUpOpts := none
  served : Option (List Payload × ℕ) := none
deriving Repr

-- The sidecar and the client of one identity. `accepted`, `taken` and `caughtUpTo` record what
-- has happened: the payloads the ring took, those handed to the message store or found there,
-- and the number the ring had reached at the latest answer that came through.
structure System where
  ring : LxmfInboundBuffer := {}
  stored : List String := []
  inboundCatchUpWatermarkTs : Option ℤ := none
  inboundCatchUpWatermarkSeq : Option ℕ := none
  flight : Option CatchUpFlight := none
  ingesting : List Payload := []
  accepted : List Payload := []
  taken : List Payload := []
  caughtUpTo : ℕ := 0
deriving Repr

inductive Event where
  | receive (payload : Payload)
  | live (payload : Payload)
  | ingested (i : ℕ)
  | store (ids : List String)
  | full
  | periodic
  | serve
  | answer
  | fail
deriving Repr

namespace System

def receive (s : System) (payload : Payload) : System :=
  match s.ring.push payload with
  | (ring, none) => { s with ring }
  | (ring, some stamped) => { s with ring, accepted := s.accepted ++ [stamped] }

def advanceReticulumInboundCatchUpWatermark (s : System) (ts : ℤ) (seq : Option ℕ) : System :=
  match s.inboundCatchUpWatermarkTs with
  | none => { s with inboundCatchUpWatermarkTs := some ts, inboundCatchUpWatermarkSeq := seq }
  | some curTs =>
      if curTs < ts then { s with inboundCatchUpWatermarkTs := some ts, inboundCatchUpWatermarkSeq := seq }
      else if ts = curTs && seq.any fun seq => s.inboundCatchUpWatermarkSeq.all (· < seq) then
        { s with inboundCatchUpWatermarkSeq := seq }
      else s

-- ingestLxmfPayload: the message is written after its attachments are cached, and then the
-- watermark moves.
def ingestLxmfPayload (s : System) (payload : Payload) : System :=
  { s with ingesting := s.ingesting ++ [payload], taken := s.taken ++ [payload] }

def ingested (s : System) (i : ℕ) : System :=
  match s.ingesting[i]? with
  | none => s
  | some payload =>
      let s := { s with ingesting := s.ingesting.eraseIdx i }
      if payload.direction = some "outbound" then s
      else payload.timestamp.elim s fun ts => s.advanceReticulumInboundCatchUpWatermark ts payload.ringSeq

def catchUpRecentInboundLxmf (s : System) (opts : CatchUpOpts) : System :=
  match s.flight with
  | none => { s with flight := some { opts } }
  | some flight =>
      { s with flight := some { flight with pending := some (mergeCatchUpOpts (flight.pending.getD flight.opts) opts) } }

def serve (s : System) : System :=
  match s.flight with
  | some ⟨opts, pending, none⟩ =>
      let rows := s.ring.snapshot opts.sinceTs opts.sinceSeq 200
      { s with flight := some ⟨opts, pending, some (rows, s.ring.nextSeq)⟩ }
  | _ => s

-- The end of one request: the pending one starts, or the callers move the watermark.
def finish (s : System) (flight : CatchUpFlight) (outcome : Option CatchUpRecentInboundLxmfOutcome) : System :=
  match flight.pending with
  | some opts => { s with flight := some { opts } }
  | none =>
      let s := { s with flight := none }
      match outcome with
      | some ⟨_, some ts, seq⟩ => s.advanceReticulumInboundCatchUpWatermark ts seq
      | _ => s

def take (s : System) (rows : List Payload) (upTo : ℕ) : System :=
  let fresh := rows.filter fun row => !rowAlreadyInMessageStore s.stored row
  { s with ingesting := s.ingesting ++ fresh, taken := s.taken ++ rows, caughtUpTo := Nat.max s.caughtUpTo upTo }

def answer (s : System) : System :=
  match s.flight with
  | some ⟨opts, pending, some (served, upTo)⟩ =>
      let rows := served.filter isInboundLxmfPayload
      (s.take rows upTo).finish ⟨opts, pending, none⟩ (outcomeOf opts rows)
  | _ => s

def fail (s : System) : System :=
  match s.flight with
  | some flight => s.finish flight none
  | none => s

def step (s : System) : Event → System
  | .receive payload => s.receive payload
  | .live payload => s.ingestLxmfPayload payload
  | .ingested i => s.ingested i
  | .store ids => { s with stored := ids }
  | .full => s.catchUpRecentInboundLxmf {}
  | .periodic => s.catchUpRecentInboundLxmf ⟨s.inboundCatchUpWatermarkTs, s.inboundCatchUpWatermarkSeq⟩
  | .serve => s.serve
  | .answer => s.answer
  | .fail => s.fail

end System

end MeshClient.Reticulum.Inbound
