import MeshClient.Tak.GeochatRead

namespace MeshClient.Tak

open Matcher

theorem lt_of_mem_encodeChar {c : Char} (h : (0x3c : UInt8) ∈ String.utf8EncodeChar c) : c = '<' := by
  have hbyte : ∀ n, (0x3c : UInt8) = UInt8.ofNat n → n % 256 = 0x3c := by
    intro n hn
    have hnat := congrArg UInt8.toNat hn
    simpa using hnat.symm
  rw [Utf8.utf8EncodeChar_eq] at h
  unfold Utf8.charBytes at h
  apply Char.toNat_inj.mp
  have hlt : '<'.toNat = 0x3c := rfl
  rw [hlt]
  split_ifs at h <;> simp only [List.mem_cons, List.not_mem_nil, or_false] at h
  · have := hbyte _ h
    omega
  · rcases h with h | h
    all_goals
      have := hbyte _ h
      omega
  · rcases h with h | h | h
    all_goals
      have := hbyte _ h
      omega
  · rcases h with h | h | h | h
    all_goals
      have := hbyte _ h
      omega

-- Text without markup holds no byte an end tag starts with.
theorem end_apart_encode {text : List Char} (h : '<' ∉ text) : ∀ b ∈ Utf8.encode text, fitsAt endClasses 0 b = false := by
  intro b hb
  obtain ⟨c, hc, hbyte⟩ := List.mem_flatMap.mp hb
  by_contra hfits
  have hb : b = 0x3c := by simpa [fitsAt, endClasses, EVENT_END_BYTES] using hfits
  subst hb
  rw [lt_of_mem_encodeChar hbyte] at hc
  exact h hc

-- A stretch whose first two characters are plain and not those of the end tag.
def ApartFromEnd (piece : List Char) : Prop :=
  ∃ a b tail, piece = a :: b :: tail ∧ a.toNat < 0x80 ∧ b.toNat < 0x80 ∧ ¬ (a = '/' ∧ b = 'e')

theorem encodeChar_ascii {c : Char} (h : c.toNat < 0x80) : String.utf8EncodeChar c = [UInt8.ofNat c.toNat] := by
  rw [Utf8.utf8EncodeChar_eq, Utf8.charBytes, if_pos (by omega)]

theorem fits_end_apart {piece : List Char} (h : ApartFromEnd piece) (rest : Bytes) :
    fits endClasses (Utf8.encode ('<' :: piece) ++ rest) = false := by
  obtain ⟨a, b, tail, rfl, ha, hb, hne⟩ := h
  have hlt : String.utf8EncodeChar '<' = [0x3c] := by decide
  simp only [Utf8.encode_cons, hlt, encodeChar_ascii ha, encodeChar_ascii hb, List.cons_append, List.nil_append]
  by_contra hfits
  rw [Bool.not_eq_false] at hfits
  simp only [endClasses, EVENT_END_BYTES, List.map_cons, fits, Bool.and_eq_true, decide_eq_true_eq] at hfits
  obtain ⟨-, hslash, hletter, -⟩ := hfits
  have hletters : ∀ (c d : Char), c.toNat < 0x80 → d.toNat < 0x80 → UInt8.ofNat c.toNat = UInt8.ofNat d.toNat → c = d := by
    intro c d hc hd heq
    have hnat := congrArg UInt8.toNat heq
    simp only [UInt8.toNat_ofNat'] at hnat
    apply Char.toNat_inj.mp
    omega
  exact hne ⟨hletters a '/' ha (by decide) hslash, hletters b 'e' hb (by decide) hletter⟩

-- The first end tag stands behind all stretches that are apart from it.
theorem leftmost_end_pieces {pieces : List (List Char)} (h : ∀ piece ∈ pieces, '<' ∉ piece ∧ ApartFromEnd piece)
    (rest : Bytes) :
    leftmost endClasses (Utf8.encode (pieces.flatMap ('<' :: ·)) ++ rest) =
      (leftmost endClasses rest).map (· + (Utf8.encode (pieces.flatMap ('<' :: ·))).length) := by
  induction pieces with
  | nil => simp
  | cons piece pieces ih =>
      obtain ⟨hpiece, hapart⟩ := h piece List.mem_cons_self
      have hlt : String.utf8EncodeChar '<' = [0x3c] := by decide
      have hfits := fits_end_apart hapart (Utf8.encode (pieces.flatMap ('<' :: ·)) ++ rest)
      rw [Utf8.encode_cons, hlt, List.singleton_append, List.cons_append] at hfits
      rw [List.flatMap_cons, Utf8.encode_append, Utf8.encode_cons, hlt, List.singleton_append, List.append_assoc,
        List.cons_append, leftmost_cons hfits,
        leftmost_skip _ (end_apart_encode hpiece) (by simp [endClasses, EVENT_END_BYTES]),
        ih fun p hp => h p (List.mem_cons_of_mem piece hp), Option.map_map, Option.map_map]
      congr 1
      funext n
      simp only [Function.comp_apply, List.length_append, List.length_cons]
      omega

namespace EventTexts

variable {e : EventTexts}

theorem pieces_apart (h : e.Clean) : ∀ piece ∈ e.pieces.tail, '<' ∉ piece ∧ ApartFromEnd piece := by
  intro piece hpiece
  refine ⟨h.pieces_closed piece (List.mem_of_mem_tail hpiece), ?_⟩
  simp only [pieces, List.tail_cons, List.mem_cons, List.not_mem_nil, or_false] at hpiece
  rcases hpiece with rfl | rfl | rfl | rfl | rfl | rfl | rfl | rfl | rfl
  all_goals
    try unfold point
    try unfold chatgrp
    try unfold link
    try unfold TagName.text
    rw [String.toList_ofList]
    exact ⟨_, _, _, rfl, by decide, by decide, by decide⟩

theorem encode_start : Utf8.encode "<event ".toList = EVENT_START_BYTES ++ [0x20] := by decide

theorem encode_end : Utf8.encode "</event>".toList = EVENT_END_BYTES := by decide

-- The event is a start tag, a body without end tag and the end tag.
theorem exists_body (h : e.Clean) : ∃ body, e.xml = "<event ".toList ++ body ++ "</event>".toList ∧
    leftmost endClasses (Utf8.encode body ++ EVENT_END_BYTES) = some (Utf8.encode body).length := by
  have hattrs : e.eventAttrs = ' ' :: e.eventAttrs.tail := by
    unfold eventAttrs
    rw [String.toList_ofList]
    rfl
  have hopen : '<' :: TagName.event.text ++ [' '] = "<event ".toList := by decide
  have hfirst := h.pieces_closed (TagName.event.text ++ e.eventAttrs ++ ['>']) (by simp [pieces])
  refine ⟨e.eventAttrs.tail ++ ['>'] ++ e.pieces.tail.flatMap ('<' :: ·), ?_, ?_⟩
  · have hpieces : e.pieces = (TagName.event.text ++ e.eventAttrs ++ ['>']) :: e.pieces.tail := rfl
    rw [xml, hpieces, List.flatMap_cons, List.tail_cons, hattrs, ← hopen]
    simp only [List.tail_cons, List.cons_append, List.append_assoc, List.nil_append]
  · have htail : '<' ∉ e.eventAttrs.tail ++ ['>'] := by
      rw [hattrs] at hfirst
      simp only [List.mem_append, List.mem_cons, not_or] at hfirst ⊢
      exact ⟨hfirst.1.2.2, hfirst.2⟩
    have hend : fits endClasses EVENT_END_BYTES = true := by decide
    rw [Utf8.encode_append, List.append_assoc, leftmost_skip _ (end_apart_encode htail) (by simp [endClasses, EVENT_END_BYTES]),
      leftmost_end_pieces (pieces_apart h), leftmost_of_fits hend]
    simp only [Option.map_some, List.length_append, Option.some.injEq]
    omega

-- The framer gives back the event as long as it fits into the buffer.
theorem push_xml (h : e.Clean) (hsize : (Utf8.encode e.xml).length ≤ COT_FRAME_MAX_BYTES) :
    (CotFramer.push {} (Utf8.encode e.xml)).2 = .ok [e.xml] := by
  obtain ⟨body, hxml, hsearch⟩ := exists_body h
  have hbytes : Utf8.encode e.xml = EVENT_START_BYTES ++ [0x20] ++ Utf8.encode body ++ EVENT_END_BYTES := by
    rw [hxml, Utf8.encode_append, Utf8.encode_append, encode_start, encode_end]
  have hfits : fits startClasses (Utf8.encode e.xml) = true := by
    have hstart : fits startClasses (EVENT_START_BYTES ++ [0x20]) = true := by decide
    rw [hbytes, List.append_assoc, fits_append (by decide), hstart]
  have hdrop : (Utf8.encode e.xml).drop 7 = Utf8.encode body ++ EVENT_END_BYTES := by
    rw [hbytes, List.append_assoc]
    rfl
  have hlength : (Utf8.encode e.xml).length = 15 + (Utf8.encode body).length := by
    rw [hbytes]
    simp only [List.length_append, EVENT_START_BYTES, EVENT_END_BYTES, List.length_cons, List.length_nil]
    omega
  have hranges : eventRanges 0 (Utf8.encode e.xml) = [⟨0, Utf8.encode e.xml, true⟩] := by
    rw [eventRanges_of_fits 0 hfits, hdrop, hsearch, Option.elim_some, ← hlength, List.take_length, List.drop_length,
      eventRanges]
  have htrace := trace_start (Utf8.encode e.xml)
  have hfeed := Chunks.feed_eq_trace CotFramer.pushByte {} 0 (Utf8.encode e.xml)
  have hlarge : (EventRange.tooLargeAt ⟨0, Utf8.encode e.xml, true⟩) = none := by
    have hdecoded : EventRange.decodedLength ⟨0, Utf8.encode e.xml, true⟩ = (Utf8.encode e.xml).length := by
      rw [EventRange.decodedLength, Utf8.decode_encode]
    rw [EventRange.tooLargeAt, hdecoded, if_neg (by simpa using hsize), if_neg (by simp; omega)]
  rw [hranges] at htrace
  simp only [spec, hlarge, Utf8.decode_encode] at htrace
  rw [htrace] at hfeed
  exact hfeed

end EventTexts

end MeshClient.Tak
