import MeshClient.Lib.Utf8
import MeshClient.Lib.Matcher
import MeshClient.Lib.Chunks

namespace MeshClient.Tak

open Matcher Chunks

abbrev Bytes := List UInt8

def COT_FRAME_MAX_BYTES : Nat := 64 * 1024

-- "<event" and "</event>"
def EVENT_START_BYTES : Bytes := [0x3c, 0x65, 0x76, 0x65, 0x6e, 0x74]
def EVENT_END_BYTES : Bytes := [0x3c, 0x2f, 0x65, 0x76, 0x65, 0x6e, 0x74, 0x3e]

inductive CotFrameTooLargeError where
  | mk
deriving DecidableEq, Repr

def isEventStartBoundary (byte : UInt8) : Bool :=
  byte = 0x3e || byte = 0x09 || byte = 0x0a || byte = 0x0d || byte = 0x20

-- `frame` holds the first `frameLength` bytes of the buffer.
structure CotFramer where
  frame : Bytes := []
  eventStartMatch : Nat := 0
  eventEndMatch : Nat := 0
deriving DecidableEq, Repr

namespace CotFramer

def seekEventStart (framer : CotFramer) (byte : UInt8) : CotFramer :=
  if framer.eventStartMatch < EVENT_START_BYTES.length then
    if EVENT_START_BYTES[framer.eventStartMatch]? = some byte then
      { framer with eventStartMatch := framer.eventStartMatch + 1 }
    else { framer with eventStartMatch := if EVENT_START_BYTES[0]? = some byte then 1 else 0 }
  else if !isEventStartBoundary byte then
    { framer with eventStartMatch := if EVENT_START_BYTES[0]? = some byte then 1 else 0 }
  else { frame := EVENT_START_BYTES ++ [byte], eventStartMatch := 0, eventEndMatch := 0 }

-- One turn of the loop in `push`: the frame the byte completes, if any.
def pushByte (framer : CotFramer) (byte : UInt8) :
    CotFramer × Except CotFrameTooLargeError (Option (List Char)) :=
  if framer.frame.length = 0 then (framer.seekEventStart byte, .ok none)
  else if framer.frame.length ≥ COT_FRAME_MAX_BYTES then ({}, .error .mk)
  else
    let frame := framer.frame ++ [byte]
    let eventEndMatch :=
      if EVENT_END_BYTES[framer.eventEndMatch]? = some byte then framer.eventEndMatch + 1
      else if EVENT_END_BYTES[0]? = some byte then 1 else 0
    if eventEndMatch ≠ EVENT_END_BYTES.length then ({ framer with frame, eventEndMatch }, .ok none)
    else
      let decodedFrame := Utf8.decode frame
      let decodedBytes := (Utf8.encode decodedFrame).length
      if frame.length > COT_FRAME_MAX_BYTES ∨ decodedBytes > COT_FRAME_MAX_BYTES then ({}, .error .mk)
      else ({}, .ok (some decodedFrame))

def push (framer : CotFramer) (chunk : Bytes) :
    CotFramer × Except CotFrameTooLargeError (List (List Char)) :=
  feed pushByte framer chunk

end CotFramer

-- The data handler reads until the first error, which destroys the socket.
def framesOf (chunks : List Bytes) : List (List Char) × Option CotFrameTooLargeError :=
  delivered CotFramer.pushByte {} chunks

def startClasses : List (UInt8 → Bool) := EVENT_START_BYTES.map (fun c b => decide (b = c)) ++ [isEventStartBoundary]

def endClasses : List (UInt8 → Bool) := EVENT_END_BYTES.map (fun c b => decide (b = c))

-- A stretch of the stream that starts like an event: with its end tag, or without one up to
-- the end of the stream.
structure EventRange where
  start : Nat
  raw : Bytes
  closed : Bool
deriving DecidableEq

-- The leftmost ranges that do not overlap; each ends at the first end tag after its start.
def eventRanges (offset : Nat) (bytes : Bytes) : List EventRange :=
  match bytes with
  | [] => []
  | b :: rest =>
      if fits startClasses (b :: rest) then
        match leftmost endClasses ((b :: rest).drop startClasses.length) with
        | none => [⟨offset, b :: rest, false⟩]
        | some n =>
            let length := startClasses.length + n + endClasses.length
            ⟨offset, (b :: rest).take length, true⟩ ::
              eventRanges (offset + length) ((b :: rest).drop length)
      else eventRanges (offset + 1) rest
termination_by bytes.length
decreasing_by
  · simp only [List.length_drop, List.length_cons, startClasses, List.length_append, List.length_map,
      EVENT_START_BYTES, List.length_nil]
    omega
  · simp

namespace EventRange

def end' (range : EventRange) : Nat := range.start + range.raw.length

def decodedLength (range : EventRange) : Nat := (Utf8.encode (Utf8.decode range.raw)).length

-- The position of the byte at which the range turns out too large.
def tooLargeAt (range : EventRange) : Option Nat :=
  if COT_FRAME_MAX_BYTES < range.raw.length then some (range.start + COT_FRAME_MAX_BYTES)
  else if range.closed ∧ COT_FRAME_MAX_BYTES < range.decodedLength then some (range.end' - 1)
  else none

end EventRange

-- What reading the stream byte by byte gives: the frames up to the first range that is too large.
def spec : List EventRange → List (Nat × List Char) × Option (Nat × CotFrameTooLargeError)
  | [] => ([], none)
  | range :: rest =>
      match range.tooLargeAt with
      | some i => ([], some (i, .mk))
      | none =>
          if range.closed then ((range.end', Utf8.decode range.raw) :: (spec rest).1, (spec rest).2)
          else ([], none)

@[simp] theorem startClasses_length : startClasses.length = 7 := rfl

@[simp] theorem endClasses_length : endClasses.length = 8 := rfl

theorem startClasses_apart : HeadApart startClasses := by
  intro i hi x h
  by_cases hlt : i < 7
  · interval_cases i <;> simp_all [startClasses, EVENT_START_BYTES, fitsAt, isEventStartBoundary]
    rcases h with (((rfl | rfl) | rfl) | rfl) | rfl <;> decide
  · have hnone : startClasses[i]? = none := List.getElem?_eq_none (by simp; omega)
    simp [fitsAt, hnone] at h

theorem endClasses_apart : HeadApart endClasses := by
  intro i hi x h
  by_cases hlt : i < 8
  · interval_cases i <;> simp_all [endClasses, EVENT_END_BYTES, fitsAt]
  · have hnone : endClasses[i]? = none := List.getElem?_eq_none (by simp; omega)
    simp [fitsAt, hnone] at h

theorem advance_end {m : Nat} (hm : m < 8) (byte : UInt8) :
    (if EVENT_END_BYTES[m]? = some byte then m + 1 else if EVENT_END_BYTES[0]? = some byte then 1 else 0) =
      advance endClasses m byte := by
  interval_cases m <;> simp [advance, fitsAt, endClasses, EVENT_END_BYTES, eq_comm]

theorem fitsAt_start {m : Nat} (hm : m < 6) (byte : UInt8) :
    fitsAt startClasses m byte = true ↔ EVENT_START_BYTES[m]? = some byte := by
  interval_cases m <;> simp [fitsAt, startClasses, EVENT_START_BYTES, eq_comm]

theorem fitsAt_boundary (byte : UInt8) : fitsAt startClasses 6 byte = isEventStartBoundary byte := rfl

-- The seeking matcher is the one for the start tag and its boundary; at the boundary it opens
-- the frame.
theorem seekEventStart_eq {framer : CotFramer} (hm : framer.eventStartMatch < 7) (byte : UInt8) :
    framer.seekEventStart byte =
      if advance startClasses framer.eventStartMatch byte = 7 then ⟨EVENT_START_BYTES ++ [byte], 0, 0⟩
      else { framer with eventStartMatch := advance startClasses framer.eventStartMatch byte } := by
  have hzero := fitsAt_start (show 0 < 6 by omega) byte
  have hlen : EVENT_START_BYTES.length = 6 := rfl
  unfold CotFramer.seekEventStart advance
  simp only [hlen, hzero]
  by_cases hlt : framer.eventStartMatch < 6
  · have hfit := fitsAt_start hlt byte
    have hne : (if EVENT_START_BYTES[framer.eventStartMatch]? = some byte then framer.eventStartMatch + 1
        else if EVENT_START_BYTES[0]? = some byte then 1 else 0) ≠ 7 := by
      split_ifs <;> omega
    simp only [hfit, if_pos hlt, if_neg hne]
    by_cases hbyte : EVENT_START_BYTES[framer.eventStartMatch]? = some byte
    · simp only [if_pos hbyte]
    · simp only [if_neg hbyte]
  · have hsix : framer.eventStartMatch = 6 := by omega
    rw [if_neg hlt]
    simp only [hsix, fitsAt_boundary]
    by_cases hbyte : isEventStartBoundary byte = true
    · simp [hbyte]
    · have hne : (if EVENT_START_BYTES[0]? = some byte then 1 else 0) ≠ 7 := by
        split_ifs <;> omega
      simp [hbyte, hne]

-- Between events: the bytes that may still become a start tag.
structure Seeking (framer : CotFramer) (held : Bytes) : Prop where
  frame : framer.frame = []
  startMatch : framer.eventStartMatch = held.length
  held_partial : Partial startClasses held

-- Inside an event: the end of the frame that may still become the end tag.
structure InFrame (framer : CotFramer) (front held : Bytes) : Prop where
  fits : fits startClasses framer.frame = true
  length_le : framer.frame.length ≤ COT_FRAME_MAX_BYTES
  body : framer.frame.drop 7 = front ++ held
  endMatch : framer.eventEndMatch = held.length
  held_partial : Partial endClasses held
  search : ∀ xs, leftmost endClasses (framer.frame.drop 7 ++ xs) =
    (leftmost endClasses (held ++ xs)).map (· + front.length)

theorem InFrame.seven_le {framer : CotFramer} {front held : Bytes} (h : InFrame framer front held) :
    7 ≤ framer.frame.length := fits_length h.fits

theorem InFrame.frame_length {framer : CotFramer} {front held : Bytes} (h : InFrame framer front held) :
    framer.frame.length = 7 + front.length + held.length := by
  have hlen := congrArg List.length h.body
  rw [List.length_drop, List.length_append] at hlen
  have := h.seven_le
  omega

theorem seeking_start : Seeking {} [] := ⟨rfl, rfl, partial_nil (by simp [startClasses])⟩

-- Bytes at which no start tag begins are not part of any range.
theorem eventRanges_skip (d : Nat) (offset : Nat) {bytes : Bytes} (hd : d ≤ bytes.length)
    (h : leftmost startClasses bytes = (leftmost startClasses (bytes.drop d)).map (· + d)) :
    eventRanges offset bytes = eventRanges (offset + d) (bytes.drop d) := by
  induction d generalizing offset bytes with
  | zero => simp
  | succ d ih =>
      cases bytes with
      | nil => simp at hd
      | cons b rest =>
          have hnot : Matcher.fits startClasses (b :: rest) = false := by
            by_contra hfits
            rw [leftmost_of_fits (by simpa using hfits)] at h
            obtain ⟨k, _, hk⟩ := Option.map_eq_some_iff.mp h.symm
            omega
          rw [List.drop_succ_cons] at h ⊢
          have hrest : leftmost startClasses rest = (leftmost startClasses (rest.drop d)).map (· + d) := by
            rw [leftmost_cons hnot] at h
            cases hr : leftmost startClasses rest with
            | none =>
                rw [hr, Option.map_none, eq_comm, Option.map_eq_none_iff] at h
                rw [h, Option.map_none]
            | some k =>
                rw [hr, Option.map_some, eq_comm, Option.map_eq_some_iff] at h
                obtain ⟨j, hj, hjk⟩ := h
                rw [hj, Option.map_some]
                congr 1
                omega
          have hstep : eventRanges offset (b :: rest) = eventRanges (offset + 1) rest := by
            rw [eventRanges, if_neg (by simp [hnot])]
          rw [hstep, ih (offset + 1) (by simpa using hd) hrest, Nat.add_assoc, Nat.add_comm 1 d]

theorem eventRanges_of_short (offset : Nat) {bytes : Bytes} (h : bytes.length < 7) :
    eventRanges offset bytes = [] := by
  have hskip := eventRanges_skip bytes.length offset (le_refl _) (by
    rw [List.drop_length, leftmost_of_short (by simpa using h), leftmost_of_short (by simp)]
    rfl)
  rw [hskip, List.drop_length, eventRanges]

theorem eventRanges_of_fits (offset : Nat) {bytes : Bytes} (h : Matcher.fits startClasses bytes = true) :
    eventRanges offset bytes = (leftmost endClasses (bytes.drop 7)).elim [⟨offset, bytes, false⟩]
      fun n => ⟨offset, bytes.take (15 + n), true⟩ ::
        eventRanges (offset + (15 + n)) (bytes.drop (15 + n)) := by
  cases bytes with
  | nil => simp [Matcher.fits, startClasses, EVENT_START_BYTES] at h
  | cons b rest =>
      rw [eventRanges, if_pos h, startClasses_length]
      cases leftmost endClasses ((b :: rest).drop 7) with
      | none => rfl
      | some n =>
          have hlen : 7 + n + 8 = 15 + n := by omega
          simp only [endClasses_length, hlen, Option.elim_some]

theorem partial_start_complete {held : Bytes} (h : Partial startClasses held) (hlen : held.length = 6) :
    held = EVENT_START_BYTES := by
  apply List.ext_getElem? 
  intro i
  by_cases hi : i < 6
  · have hfit := h.2 i (by omega)
    rw [(fitsAt_start hi _).mp hfit, List.getElem?_eq_getElem]
  · rw [List.getElem?_eq_none (by omega), List.getElem?_eq_none (by simp [EVENT_START_BYTES]; omega)]

theorem pushByte_seeking {framer : CotFramer} {held : Bytes} (h : Seeking framer held) (b : UInt8) :
    framer.pushByte b = (framer.seekEventStart b, .ok none) := by
  rw [CotFramer.pushByte, if_pos (by simp [h.frame])]

-- The boundary byte after a start tag opens a frame of the bytes held so far.
theorem seeking_opens {framer : CotFramer} {held : Bytes} (h : Seeking framer held) {b : UInt8}
    (hb : advance startClasses held.length b = 7) :
    InFrame (framer.seekEventStart b) [] [] ∧ (framer.seekEventStart b).frame = held ++ [b] := by
  have hlt : held.length < 7 := h.held_partial.1
  have hfits := h.held_partial.complete (x := b) hb
  have hlen := fits_length hfits
  rw [List.length_append, List.length_singleton, startClasses_length] at hlen
  have heq := partial_start_complete h.held_partial (by omega)
  have hopen : framer.seekEventStart b = ⟨held ++ [b], 0, 0⟩ := by
    rw [seekEventStart_eq (by rw [h.startMatch]; exact hlt), h.startMatch, if_pos hb, ← heq]
  have hdrop : (held ++ [b]).drop 7 = [] := List.drop_eq_nil_of_le (by simp; omega)
  rw [hopen]
  refine ⟨⟨hfits, ?_, hdrop, rfl, partial_nil (by simp [endClasses, EVENT_END_BYTES]), ?_⟩, rfl⟩
  · simp only [List.length_append, List.length_singleton, COT_FRAME_MAX_BYTES]
    omega
  · intro xs
    simp [hdrop]

theorem seeking_advances {framer : CotFramer} {held : Bytes} (h : Seeking framer held) {b : UInt8}
    (hb : advance startClasses held.length b ≠ 7) :
    ∃ dropped held', held ++ [b] = dropped ++ held' ∧ Seeking (framer.seekEventStart b) held' ∧
      ∀ offset bs, eventRanges offset (held ++ b :: bs) =
        eventRanges (offset + dropped.length) (held' ++ bs) := by
  obtain ⟨dropped, held', hsplit, hlen, hpartial, hsearch⟩ :=
    h.held_partial.advance startClasses_apart (x := b) hb (by simp)
  refine ⟨dropped, held', hsplit, ⟨?_, ?_, hpartial⟩, ?_⟩
  · rw [seekEventStart_eq (by rw [h.startMatch]; exact h.held_partial.1), h.startMatch, if_neg hb]
    exact h.frame
  · rw [seekEventStart_eq (by rw [h.startMatch]; exact h.held_partial.1), h.startMatch, if_neg hb, hlen]
  · intro offset bs
    have hbytes : held ++ b :: bs = dropped ++ (held' ++ bs) := by
      rw [← List.append_assoc, ← hsplit, List.append_assoc]
      rfl
    have hdrop : (held ++ b :: bs).drop dropped.length = held' ++ bs := by
      rw [hbytes, List.drop_left]
    have hskip := @eventRanges_skip dropped.length offset (held ++ b :: bs)
      (by rw [hbytes, List.length_append]; omega) (by rw [hdrop, hsearch bs])
    rw [hskip, hdrop]

-- The end tag is complete: it is the first one of the frame.
theorem inFrame_closes {framer : CotFramer} {front held : Bytes} (h : InFrame framer front held) {b : UInt8}
    (hb : advance endClasses held.length b = 8) (bs : Bytes) :
    leftmost endClasses ((framer.frame ++ b :: bs).drop 7) = some front.length ∧
    framer.frame.length + 1 = 15 + front.length := by
  have hfits := h.held_partial.complete (x := b) hb
  have hlen := fits_length hfits
  have hlt : held.length < 8 := h.held_partial.1
  rw [List.length_append, List.length_singleton, endClasses_length] at hlen
  have hdrop : (framer.frame ++ b :: bs).drop 7 = framer.frame.drop 7 ++ b :: bs :=
    List.drop_append_of_le_length h.seven_le
  have hall : Matcher.fits endClasses (held ++ b :: bs) = true := by
    have happ := @fits_append _ endClasses (held ++ [b]) (by simp; omega) bs
    rw [List.append_assoc, List.cons_append, List.nil_append] at happ
    rw [happ, hfits]
  constructor
  · rw [hdrop, h.search, leftmost_of_fits hall]
    simp
  · rw [h.frame_length]
    omega

theorem inFrame_advances {framer : CotFramer} {front held : Bytes} (h : InFrame framer front held) {b : UInt8}
    (hb : advance endClasses held.length b ≠ 8) (hroom : framer.frame.length < COT_FRAME_MAX_BYTES) :
    ∃ front' held', InFrame ⟨framer.frame ++ [b], framer.eventStartMatch, advance endClasses held.length b⟩
      front' held' := by
  obtain ⟨dropped, held', hsplit, hlen, hpartial, hsearch⟩ :=
    h.held_partial.advance endClasses_apart (x := b) hb (by simp)
  have hdrop : ∀ xs, (framer.frame ++ [b]).drop 7 ++ xs = framer.frame.drop 7 ++ b :: xs := by
    intro xs
    rw [List.drop_append_of_le_length h.seven_le, List.append_assoc]
    rfl
  refine ⟨front ++ dropped, held', ⟨?_, ?_, ?_, hlen.symm, hpartial, ?_⟩⟩
  · exact (fits_append (by simpa using h.seven_le) [b]).trans h.fits
  · rw [List.length_append, List.length_singleton]
    omega
  · have hbody := hdrop []
    rw [List.append_nil] at hbody
    rw [hbody, h.body, List.append_assoc, hsplit, List.append_assoc]
  · intro xs
    rw [hdrop xs, h.search, hsearch xs, Option.map_map]
    congr 1
    funext k
    simp only [Function.comp_apply, List.length_append]
    omega

-- A frame that is not complete yet ends, if at all, beyond the bytes it has.
theorem inFrame_open {framer : CotFramer} {front held : Bytes} (h : InFrame framer front held) (bs : Bytes) {n : Nat}
    (hn : leftmost endClasses ((framer.frame ++ bs).drop 7) = some n) : framer.frame.length < 15 + n := by
  have hlt : held.length < 8 := h.held_partial.1
  rw [List.drop_append_of_le_length h.seven_le, h.search] at hn
  obtain ⟨k, _, rfl⟩ := Option.map_eq_some_iff.mp hn
  rw [h.frame_length]
  omega

theorem pushByte_full {framer : CotFramer} {front held : Bytes} (h : InFrame framer front held)
    (hfull : ¬ framer.frame.length < COT_FRAME_MAX_BYTES) (b : UInt8) :
    framer.pushByte b = ({}, .error .mk) := by
  have hne := h.seven_le
  rw [CotFramer.pushByte, if_neg (by omega), if_pos (by omega)]

theorem pushByte_open {framer : CotFramer} {front held : Bytes} (h : InFrame framer front held)
    (hroom : framer.frame.length < COT_FRAME_MAX_BYTES) {b : UInt8}
    (hb : advance endClasses held.length b ≠ 8) :
    framer.pushByte b =
      (⟨framer.frame ++ [b], framer.eventStartMatch, advance endClasses held.length b⟩, .ok none) := by
  have hne := h.seven_le
  have hend : EVENT_END_BYTES.length = 8 := rfl
  rw [CotFramer.pushByte, if_neg (by omega), if_neg (by omega)]
  simp only [h.endMatch, advance_end h.held_partial.1, hend]
  rw [if_pos hb]

theorem pushByte_closes {framer : CotFramer} {front held : Bytes} (h : InFrame framer front held)
    (hroom : framer.frame.length < COT_FRAME_MAX_BYTES) {b : UInt8}
    (hb : advance endClasses held.length b = 8) :
    framer.pushByte b =
      if COT_FRAME_MAX_BYTES < (Utf8.encode (Utf8.decode (framer.frame ++ [b]))).length then ({}, .error .mk)
      else ({}, .ok (some (Utf8.decode (framer.frame ++ [b])))) := by
  have hne := h.seven_le
  have hend : EVENT_END_BYTES.length = 8 := rfl
  have hraw : ¬ (framer.frame ++ [b]).length > COT_FRAME_MAX_BYTES := by
    rw [List.length_append, List.length_singleton]
    omega
  rw [CotFramer.pushByte, if_neg (by omega), if_neg (by omega)]
  simp only [h.endMatch, advance_end h.held_partial.1, hend, hb]
  rw [if_neg (by simp)]
  simp only [hraw, false_or, gt_iff_lt]

theorem spec_tooLarge {range : EventRange} {rest : List EventRange} {i : Nat}
    (h : range.tooLargeAt = some i) : spec (range :: rest) = ([], some (i, .mk)) := by simp [spec, h]

-- Reading on from any point of the stream gives what the ranges give that begin with the bytes
-- held at this point.
theorem trace_eq_spec (bs : Bytes) :
    (∀ framer held n, Seeking framer held → held.length ≤ n →
      trace CotFramer.pushByte framer n bs = spec (eventRanges (n - held.length) (held ++ bs))) ∧
    (∀ framer front held n, InFrame framer front held → framer.frame.length ≤ n →
      trace CotFramer.pushByte framer n bs =
        spec (eventRanges (n - framer.frame.length) (framer.frame ++ bs))) := by
  induction bs with
  | nil =>
      constructor
      · intro framer held n h _
        rw [List.append_nil, eventRanges_of_short _ h.held_partial.1]
        rfl
      · intro framer front held n h _
        have hnone : leftmost endClasses (framer.frame.drop 7) = none := by
          have hsearch := h.search []
          rw [List.append_nil, List.append_nil, leftmost_of_short h.held_partial.1] at hsearch
          exact hsearch
        have hfine : ¬ COT_FRAME_MAX_BYTES < framer.frame.length := not_lt.mpr h.length_le
        rw [List.append_nil, eventRanges_of_fits _ h.fits, hnone]
        simp [spec, EventRange.tooLargeAt, hfine, trace]
  | cons b bs ih =>
      obtain ⟨ihseek, ihframe⟩ := ih
      constructor
      · intro framer held n h hn
        have htrace : trace CotFramer.pushByte framer n (b :: bs) =
            trace CotFramer.pushByte (framer.seekEventStart b) (n + 1) bs := by
          simp [trace, pushByte_seeking h]
        rw [htrace]
        by_cases hb : advance startClasses held.length b = 7
        · obtain ⟨hframe, heq⟩ := seeking_opens h hb
          have hlen : (framer.seekEventStart b).frame.length = held.length + 1 := by simp [heq]
          have hoffset : n + 1 - (held.length + 1) = n - held.length := by omega
          rw [ihframe _ _ _ (n + 1) hframe (by omega), hlen, hoffset, heq, List.append_assoc]
          rfl
        · obtain ⟨dropped, held', hsplit, hseek, hranges⟩ := seeking_advances h hb
          have hlen := congrArg List.length hsplit
          rw [List.length_append, List.length_append, List.length_singleton] at hlen
          have hoffset : n - held.length + dropped.length = n + 1 - held'.length := by omega
          rw [ihseek _ held' (n + 1) hseek (by omega), hranges, hoffset]
      · intro framer front held n h hn
        have hfits : Matcher.fits startClasses (framer.frame ++ b :: bs) = true :=
          (fits_append (by simpa using h.seven_le) _).trans h.fits
        by_cases hroom : framer.frame.length < COT_FRAME_MAX_BYTES
        · by_cases hb : advance endClasses held.length b = 8
          · -- the byte completes the end tag
            obtain ⟨hsearch, hlen⟩ := inFrame_closes h hb bs
            have htake : (framer.frame ++ b :: bs).take (15 + front.length) = framer.frame ++ [b] := by
              rw [← hlen, List.take_length_add_append]
              rfl
            have hdrop : (framer.frame ++ b :: bs).drop (15 + front.length) = bs := by
              rw [← hlen, List.drop_length_add_append]
              rfl
            have hend : n - framer.frame.length + (15 + front.length) = n + 1 := by omega
            have hraw : ¬ COT_FRAME_MAX_BYTES < framer.frame.length + 1 := by omega
            rw [eventRanges_of_fits _ hfits, hsearch, Option.elim_some, htake, hdrop, hend, trace,
              pushByte_closes h hroom hb]
            by_cases hdecoded :
                COT_FRAME_MAX_BYTES < (Utf8.encode (Utf8.decode (framer.frame ++ [b]))).length
            · rw [if_pos hdecoded, spec_tooLarge (i := n)]
              simp only [EventRange.tooLargeAt, EventRange.decodedLength, EventRange.end',
                List.length_append, List.length_singleton, if_neg hraw, hdecoded, and_self, if_true]
              congr 1
              omega
            · have hrest := ihseek {} [] (n + 1) seeking_start (by simp)
              rw [List.length_nil, Nat.sub_zero, List.nil_append] at hrest
              have hfine : (⟨n - framer.frame.length, framer.frame ++ [b], true⟩ : EventRange).tooLargeAt = none := by
                simp only [EventRange.tooLargeAt, EventRange.decodedLength, List.length_append,
                  List.length_singleton, if_neg hraw, hdecoded, and_false, if_false]
              have hpos : n - framer.frame.length + (framer.frame.length + 1) = n + 1 := by omega
              rw [if_neg hdecoded]
              simp only [spec, hfine, EventRange.end', List.length_append, List.length_singleton, if_true,
                hrest, hpos]
              rfl
          · obtain ⟨front', held', hframe⟩ := inFrame_advances h hb hroom
            have hrest := ihframe _ _ _ (n + 1) hframe (by simp; omega)
            have hoffset : n + 1 - (framer.frame.length + 1) = n - framer.frame.length := by omega
            simp only [List.length_append, List.length_singleton, hoffset, List.append_assoc,
              List.cons_append, List.nil_append] at hrest
            rw [trace, pushByte_open h hroom hb, ← hrest]
            simp
        · -- one byte more than a frame holds
          have hfull := h.length_le
          have hmax : n - framer.frame.length + COT_FRAME_MAX_BYTES = n := by omega
          rw [trace, pushByte_full h hroom, eventRanges_of_fits _ hfits]
          cases hsearch : leftmost endClasses ((framer.frame ++ b :: bs).drop 7) with
          | none =>
              rw [Option.elim_none, spec_tooLarge (i := n)]
              rw [EventRange.tooLargeAt, if_pos, hmax]
              simp only [List.length_append, List.length_cons]
              omega
          | some k =>
              have hbeyond := inFrame_open h (b :: bs) hsearch
              rw [Option.elim_some, spec_tooLarge (i := n)]
              rw [EventRange.tooLargeAt, if_pos, hmax]
              simp only [List.length_take, List.length_append, List.length_cons]
              omega

theorem trace_start (bs : Bytes) :
    trace CotFramer.pushByte {} 0 bs = spec (eventRanges 0 bs) :=
  (trace_eq_spec bs).1 {} [] 0 seeking_start (by simp)

-- The position at which the stream breaks the size limit.
def streamTooLargeAt (ranges : List EventRange) : Option Nat := ranges.findSome? EventRange.tooLargeAt

-- The ranges stand one behind the other, and only the last one may be open.
def Ordered (ranges : List EventRange) : Prop :=
  ranges.Pairwise fun a b => a.closed = true ∧ a.end' ≤ b.start

theorem eventRanges_ordered (offset : Nat) (bytes : Bytes) :
    Ordered (eventRanges offset bytes) ∧ ∀ range ∈ eventRanges offset bytes, offset ≤ range.start := by
  induction offset, bytes using eventRanges.induct with
  | case1 offset => simp [eventRanges, Ordered]
  | case2 offset b rest hfits hnone =>
      rw [startClasses_length] at hnone
      rw [eventRanges_of_fits _ hfits, hnone]
      simp [Ordered]
  | case3 offset b rest hfits n hsome length ih =>
      have hlength : length = 15 + n := by
        simp only [length, startClasses_length, endClasses_length]
        omega
      obtain ⟨hordered, hstart⟩ := ih
      rw [startClasses_length] at hsome
      rw [hlength] at hordered hstart
      rw [eventRanges_of_fits _ hfits, hsome, Option.elim_some]
      refine ⟨List.pairwise_cons.mpr ⟨?_, hordered⟩, ?_⟩
      · intro range hrange
        refine ⟨rfl, le_trans ?_ (hstart range hrange)⟩
        simp only [EventRange.end', List.length_take]
        omega
      · intro range hrange
        rcases List.mem_cons.mp hrange with rfl | hrange
        · exact le_refl _
        · exact le_trans (by omega) (hstart range hrange)
  | case4 offset b rest hnot ih =>
      rw [eventRanges, if_neg hnot]
      exact ⟨ih.1, fun range hrange => le_trans (by omega) (ih.2 range hrange)⟩

theorem EventRange.tooLargeAt_bounds {range : EventRange} {i : Nat} (h : range.tooLargeAt = some i) :
    range.start ≤ i ∧ i < range.end' := by
  unfold EventRange.tooLargeAt at h
  by_cases hraw : COT_FRAME_MAX_BYTES < range.raw.length
  · rw [if_pos hraw, Option.some.injEq] at h
    simp only [EventRange.end']
    omega
  · rw [if_neg hraw] at h
    by_cases hdecoded : range.closed ∧ COT_FRAME_MAX_BYTES < range.decodedLength
    · rw [if_pos hdecoded, Option.some.injEq] at h
      have hpos : 0 < range.raw.length := by
        rw [List.length_pos_iff]
        intro hnil
        simp [EventRange.decodedLength, hnil, Utf8.decode, Utf8.decodeFrom, Utf8.State.start] at hdecoded
      simp only [EventRange.end'] at h ⊢
      omega
    · rw [if_neg hdecoded] at h
      cases h

-- The frames given before the stream breaks the limit are the ranges that end by then.
theorem spec_of_ordered {ranges : List EventRange} (h : Ordered ranges) :
    (spec ranges).2 = (streamTooLargeAt ranges).map (·, .mk) ∧
    ∀ o, o ∈ (spec ranges).1 ↔ ∃ range ∈ ranges, range.closed = true ∧
      o = (range.end', Utf8.decode range.raw) ∧
      ∀ i, streamTooLargeAt ranges = some i → range.end' ≤ i := by
  induction ranges with
  | nil => simp [spec, streamTooLargeAt]
  | cons range rest ih =>
      obtain ⟨hhead, hrest⟩ := List.pairwise_cons.mp h
      cases hlarge : range.tooLargeAt with
      | some i =>
          have hbounds := EventRange.tooLargeAt_bounds hlarge
          simp only [streamTooLargeAt, spec, List.findSome?_cons, hlarge, Option.map_some, true_and,
            Option.some.injEq, forall_eq', List.not_mem_nil, false_iff, not_exists, not_and, not_le]
          intro o other hother hclosed _
          rcases List.mem_cons.mp hother with rfl | hother
          · exact hbounds.2
          · have hstart := (hhead other hother).2
            have : other.start ≤ other.end' := Nat.le_add_right _ _
            omega
      | none =>
          obtain ⟨hfail, hmem⟩ := ih hrest
          have hfind : streamTooLargeAt (range :: rest) = streamTooLargeAt rest := by
            simp [streamTooLargeAt, hlarge]
          rw [hfind]
          by_cases hclosed : range.closed = true
          · simp only [spec, hlarge, hclosed, if_true]
            refine ⟨hfail, ?_⟩
            intro o
            rw [List.mem_cons, hmem o]
            constructor
            · rintro (rfl | ⟨other, hother, hrest'⟩)
              · refine ⟨range, List.mem_cons_self, hclosed, rfl, ?_⟩
                intro i hi
                obtain ⟨other, hother, hi⟩ := List.exists_of_findSome?_eq_some hi
                exact ((hhead other hother).2).trans (EventRange.tooLargeAt_bounds hi).1
              · exact ⟨other, List.mem_cons_of_mem _ hother, hrest'⟩
            · rintro ⟨other, hother, hother'⟩
              rcases List.mem_cons.mp hother with rfl | hother
              · exact Or.inl hother'.2.1
              · exact Or.inr ⟨other, hother, hother'⟩
          · have hnil : rest = [] := by
              by_contra hne
              obtain ⟨other, tail, rfl⟩ := List.exists_cons_of_ne_nil hne
              exact hclosed (hhead other List.mem_cons_self).1
            subst hnil
            simp [spec, hlarge, hclosed, streamTooLargeAt]

theorem spec_of_fits {ranges : List EventRange} (h : Ordered ranges) (hfits : streamTooLargeAt ranges = none) :
    (spec ranges).1.map Prod.snd = (ranges.filter (·.closed)).map (Utf8.decode ·.raw) := by
  induction ranges with
  | nil => rfl
  | cons range rest ih =>
      obtain ⟨hhead, hrest⟩ := List.pairwise_cons.mp h
      simp only [streamTooLargeAt, List.findSome?_eq_none_iff, List.mem_cons, forall_eq_or_imp] at hfits ih
      obtain ⟨hlarge, hfits⟩ := hfits
      by_cases hclosed : range.closed = true
      · simp [spec, hlarge, hclosed, ih hrest hfits]
      · have hnil : rest = [] := by
          by_contra hne
          obtain ⟨other, tail, rfl⟩ := List.exists_cons_of_ne_nil hne
          exact hclosed (hhead other List.mem_cons_self).1
        simp [spec, hlarge, hclosed, hnil]

theorem chunkStart_le (chunks : List Bytes) (i : Nat) : chunkStart chunks i ≤ i := by
  induction chunks generalizing i with
  | nil => simp [chunkStart]
  | cons c cs ih =>
      unfold chunkStart
      by_cases h : i < c.length
      · rw [if_pos h]
        omega
      · rw [if_neg h]
        have := ih (i - c.length)
        omega

-- Without a range that is too large, all complete events arrive, decoded and in order.
theorem framesOf_exact {chunks : List Bytes} (h : streamTooLargeAt (eventRanges 0 chunks.flatten) = none) :
    framesOf chunks =
      (((eventRanges 0 chunks.flatten).filter (·.closed)).map (Utf8.decode ·.raw), none) := by
  have hordered := (eventRanges_ordered 0 chunks.flatten).1
  have hfail := (spec_of_ordered hordered).1
  rw [h, Option.map_none] at hfail
  rw [framesOf, delivered_eq CotFramer.pushByte {} 0, trace_start, hfail]
  simp only [spec_of_fits hordered h]

-- The two cuttings deliver the same frames and the same error if and only if no event ends
-- between the beginnings of the two chunks in which the stream breaks the limit.
theorem framer_exact_iff (chunks chunks' : List Bytes) (h : chunks.flatten = chunks'.flatten) :
    (framesOf chunks = framesOf chunks' ∧
      (streamTooLargeAt (eventRanges 0 chunks.flatten) = none →
        framesOf chunks =
          (((eventRanges 0 chunks.flatten).filter (·.closed)).map (Utf8.decode ·.raw), none))) ↔
      ∀ i, streamTooLargeAt (eventRanges 0 chunks.flatten) = some i →
        ∀ range ∈ eventRanges 0 chunks.flatten, range.closed = true →
          (range.end' ≤ chunkStart chunks i ↔ range.end' ≤ chunkStart chunks' i) := by
  rw [and_iff_left framesOf_exact, framesOf, framesOf, delivered_agree_iff _ _ h, trace_start]
  obtain ⟨hfail, hmem⟩ := spec_of_ordered (eventRanges_ordered 0 chunks.flatten).1
  rw [hfail]
  cases hlarge : streamTooLargeAt (eventRanges 0 chunks.flatten) with
  | none => simp
  | some i =>
      simp only [Option.map_some, Option.mem_def, Option.some.injEq, forall_eq', hmem, hlarge]
      constructor
      · intro hagree range hrange hclosed
        by_cases hle : range.end' ≤ i
        · exact hagree _ ⟨range, hrange, hclosed, rfl, hle⟩
        · have hstart := chunkStart_le chunks i
          have hstart' := chunkStart_le chunks' i
          omega
      · rintro hagree o ⟨range, hrange, hclosed, rfl, _⟩
        exact hagree range hrange hclosed

def emptyEvent : Bytes := EVENT_START_BYTES ++ [0x3e] ++ EVENT_END_BYTES

theorem eventRanges_emptyEvent (offset : Nat) (rest : Bytes) :
    eventRanges offset (emptyEvent ++ rest) = ⟨offset, emptyEvent, true⟩ :: eventRanges (offset + 15) rest := by
  have hfits : Matcher.fits startClasses (emptyEvent ++ rest) = true :=
    (fits_append (by decide) rest).trans (by decide)
  have hend : leftmost endClasses ((emptyEvent ++ rest).drop 7) = some 0 :=
    leftmost_of_fits ((@fits_append _ endClasses EVENT_END_BYTES (by decide) rest).trans (by decide))
  have hlen : emptyEvent.length = 15 := rfl
  rw [eventRanges_of_fits _ hfits, hend, Option.elim_some, ← hlen, Nat.add_zero, List.take_left, List.drop_left]

-- An event that is never closed and keeps growing.
def unclosedEvent (n : Nat) : Bytes := EVENT_START_BYTES ++ [0x3e] ++ List.replicate n 0x61

theorem unclosedEvent_length (n : Nat) : (unclosedEvent n).length = 7 + n := by
  simp [unclosedEvent, EVENT_START_BYTES]
  omega

theorem eventRanges_unclosed (offset n : Nat) :
    eventRanges offset (unclosedEvent n) =
      [⟨offset, unclosedEvent n, false⟩] := by
  have hfits : Matcher.fits startClasses (unclosedEvent n) = true :=
    (fits_append (by decide) _).trans (by decide)
  have hend : leftmost endClasses ((unclosedEvent n).drop 7) = none := by
    have hskip := @leftmost_skip _ endClasses (List.replicate n 0x61) [] (by
      intro x hx
      rw [List.eq_of_mem_replicate hx]
      rfl) (by simp [endClasses, EVENT_END_BYTES])
    rw [List.append_nil] at hskip
    exact hskip
  rw [eventRanges_of_fits _ hfits, hend, Option.elim_none]

-- An oversized event takes with it the frames that were complete in its chunk.
theorem oversized_event_drops_earlier_frames :
    framesOf [emptyEvent, unclosedEvent COT_FRAME_MAX_BYTES] =
      (["<event></event>".toList], some .mk) ∧
    framesOf [emptyEvent ++ unclosedEvent COT_FRAME_MAX_BYTES] =
      ([], some .mk) := by
  have hspec : ∀ chunks : List Bytes, chunks.flatten =
      emptyEvent ++ unclosedEvent COT_FRAME_MAX_BYTES →
      trace CotFramer.pushByte {} 0 chunks.flatten =
        ([(15, "<event></event>".toList)], some (15 + COT_FRAME_MAX_BYTES, .mk)) := by
    intro chunks h
    rw [trace_start, h, eventRanges_emptyEvent, eventRanges_unclosed]
    have hfine : (⟨0, emptyEvent, true⟩ : EventRange).tooLargeAt = none := by decide
    have hlarge : (⟨0 + 15, unclosedEvent COT_FRAME_MAX_BYTES,
        false⟩ : EventRange).tooLargeAt = some (15 + COT_FRAME_MAX_BYTES) := by
      rw [EventRange.tooLargeAt, if_pos]
      rw [unclosedEvent_length]
      omega
    have hdecode : Utf8.decode emptyEvent = "<event></event>".toList := by decide
    simp only [spec, hfine, hlarge, hdecode]
    rfl
  have hstart : chunkStart [emptyEvent, unclosedEvent COT_FRAME_MAX_BYTES] (15 + COT_FRAME_MAX_BYTES) = 15 := by
    have hlen : emptyEvent.length = 15 := rfl
    rw [chunkStart, if_neg (by omega), chunkStart, if_pos]
    · rfl
    · rw [unclosedEvent_length]
      omega
  have hstart' : chunkStart [emptyEvent ++ (unclosedEvent COT_FRAME_MAX_BYTES)] (15 + COT_FRAME_MAX_BYTES) = 0 := by
    have hlen : emptyEvent.length = 15 := rfl
    rw [chunkStart, if_pos]
    rw [List.length_append, unclosedEvent_length, hlen]
    omega
  constructor
  · rw [framesOf, delivered_eq CotFramer.pushByte {} 0, hspec _ (by simp)]
    simp only [Nat.sub_zero, Nat.zero_add, hstart]
    rfl
  · rw [framesOf, delivered_eq CotFramer.pushByte {} 0, hspec _ (by simp)]
    simp only [Nat.sub_zero, Nat.zero_add, hstart']
    rfl

theorem emptyEvent_eq : emptyEvent = Utf8.encode "<event></event>".toList := by decide

theorem tooLargeAt_emptyEvent (start : Nat) (closed : Bool) : (⟨start, emptyEvent, closed⟩ : EventRange).tooLargeAt = none := by
  have hlength : emptyEvent.length = 15 := by decide
  have hdecoded : (⟨start, emptyEvent, closed⟩ : EventRange).decodedLength = 15 := by
    rw [EventRange.decodedLength, emptyEvent_eq, Utf8.decode_encode, ← emptyEvent_eq, hlength]
  unfold EventRange.tooLargeAt
  rw [hdecoded, hlength, if_neg (by decide), if_neg]
  rintro ⟨-, hcon⟩
  exact absurd hcon (by decide)

theorem framer_exact_iff_two_events :
    framesOf [emptyEvent ++ emptyEvent] = framesOf [emptyEvent ++ [0x3c], emptyEvent.drop 1] ∧
      framesOf [emptyEvent ++ emptyEvent] = (["<event></event>".toList, "<event></event>".toList], none) := by
  have hranges : eventRanges 0 [emptyEvent ++ emptyEvent].flatten =
      [⟨0, emptyEvent, true⟩, ⟨15, emptyEvent, true⟩] := by
    have hlast := eventRanges_emptyEvent (0 + 15) []
    have hnil : eventRanges (0 + 15 + 15) [] = [] := by rw [eventRanges]
    rw [List.append_nil, hnil] at hlast
    rw [List.flatten_singleton, eventRanges_emptyEvent, hlast]
  have hfits : streamTooLargeAt (eventRanges 0 [emptyEvent ++ emptyEvent].flatten) = none := by
    rw [hranges, streamTooLargeAt, List.findSome?_cons, tooLargeAt_emptyEvent, List.findSome?_cons, tooLargeAt_emptyEvent]
    rfl
  obtain ⟨hsame, hexact⟩ :=
    (framer_exact_iff [emptyEvent ++ emptyEvent] [emptyEvent ++ [0x3c], emptyEvent.drop 1] rfl).mpr (by
      intro i hi
      rw [hfits] at hi
      cases hi)
  refine ⟨hsame, (hexact hfits).trans ?_⟩
  rw [hranges]
  show ([Utf8.decode emptyEvent, Utf8.decode emptyEvent], none) = _
  rw [emptyEvent_eq, Utf8.decode_encode]

end MeshClient.Tak
