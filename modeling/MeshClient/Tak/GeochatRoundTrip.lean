import MeshClient.Tak.GeochatFrame

namespace MeshClient.Tak

open Scan Js

-- A single-line label of at most `max` code units with nothing to trim.
structure Label (text : List Char) (max : Nat) : Prop where
  trimmed : trimChars text = text
  no_control : ∀ c ∈ text, isControl c = false
  nonempty : text ≠ []
  length_le : textLength text ≤ max

section Texts

variable {text : List Char}

theorem charCodes_pos (c : Char) : 1 ≤ (charCodes c).length := by
  unfold charCodes
  split_ifs <;> simp

theorem length_le_textLength (text : List Char) : text.length ≤ textLength text := by
  unfold textLength
  induction text with
  | nil => simp
  | cons c cs ih =>
      have := charCodes_pos c
      simp only [List.flatMap_cons, List.length_append, List.length_cons]
      omega

theorem length_escapeXml (text : List Char) : (escapeXml text).length ≤ 6 * textLength text := by
  have hentity : ∀ c, (entity c).length ≤ 6 := by
    intro c
    unfold entity
    split_ifs <;> simp
  have hchars : (escapeXml text).length ≤ 6 * text.length := by
    rw [escapeXml_eq]
    induction text with
    | nil => simp
    | cons c cs ih =>
        have := hentity c
        simp only [List.flatMap_cons, List.length_append, List.length_cons]
        omega
  have := length_le_textLength text
  omega

theorem singleLine_of_no_control (h : ∀ c ∈ text, isControl c = false) : singleLine (some text) = some text := by
  have hrun : ∀ x xs, ¬ isControl x = true → controlRun (x :: xs) = none := by
    intro x xs hx
    rw [controlRun, if_neg hx]
  rw [singleLine, Option.map_some, replaceAll_eq_self hrun]
  intro c hc
  simp [h c hc]

theorem Label.clip {max : Nat} (h : Label text max) : clip (singleLine (some text)) max = some text := by
  have hlength := h.length_le
  rw [singleLine_of_no_control h.no_control, Tak.clip, Option.bind_some]
  simp only [h.trimmed, if_neg h.nonempty]
  rw [if_neg (by omega)]

theorem length_fixedDigits (width n : Nat) : (fixedDigits width n).length = width := by
  induction width generalizing n with
  | zero => rfl
  | succ width ih => rw [fixedDigits, List.length_append, ih, List.length_singleton]

theorem digitChar_mem (n : Nat) : Nat.digitChar (n % 10) ∈ "0123456789".toList := by
  have h : ∀ k < 10, Nat.digitChar k ∈ "0123456789".toList := by decide
  exact h (n % 10) (by omega)

theorem mem_fixedDigits {width n : Nat} {c : Char} (h : c ∈ fixedDigits width n) : c ∈ "0123456789".toList := by
  induction width generalizing n with
  | zero => simp [fixedDigits] at h
  | succ width ih =>
      rw [fixedDigits, List.mem_append, List.mem_singleton] at h
      rcases h with h | rfl
      · exact ih h
      · exact digitChar_mem n

-- The characters a time is written with.
def ISO_CHARS : List Char := ['+', '-', ':', '.', 'T', 'Z'] ++ "0123456789".toList

theorem digit_mem_iso {c : Char} (h : c ∈ "0123456789".toList) : c ∈ ISO_CHARS := List.mem_append_right _ h

theorem isoYear_chars (y : Int) : (isoYear y).length ≤ 7 ∧ ∀ c ∈ isoYear y, c ∈ ISO_CHARS := by
  unfold isoYear
  split_ifs
  · exact ⟨by rw [length_fixedDigits]; omega, fun c hc => digit_mem_iso (mem_fixedDigits hc)⟩
  · refine ⟨by rw [List.length_cons, length_fixedDigits], ?_⟩
    intro c hc
    rcases List.mem_cons.mp hc with rfl | hc
    · simp [ISO_CHARS]
    · exact digit_mem_iso (mem_fixedDigits hc)
  · refine ⟨by rw [List.length_cons, length_fixedDigits], ?_⟩
    intro c hc
    rcases List.mem_cons.mp hc with rfl | hc
    · simp [ISO_CHARS]
    · exact digit_mem_iso (mem_fixedDigits hc)

theorem toISOString_of_valid {ms : Int} (hlow : -MAX_TIME_MS ≤ ms) (hhigh : ms ≤ MAX_TIME_MS) :
    ∃ time, toISOString ms = .ok time ∧ time.length ≤ 27 ∧ ∀ c ∈ time, c ∈ ISO_CHARS := by
  refine ⟨_, by rw [toISOString, if_neg (by omega)], ?_, ?_⟩
  · have := (isoYear_chars (ScheduledBroadcasts.LocalTime.civilFromDays
      (ms / ScheduledBroadcasts.LocalTime.MS_PER_DAY)).1).1
    simp only [List.length_append, length_fixedDigits, List.length_singleton]
    omega
  · intro c hc
    simp only [List.mem_append, List.mem_singleton] at hc
    rcases hc with ((((((((((((hc | rfl) | hc) | rfl) | hc) | rfl) | hc) | rfl) | hc) | rfl) | hc) | rfl) | hc) | rfl
    · exact (isoYear_chars _).2 c hc
    all_goals first
      | exact digit_mem_iso (mem_fixedDigits hc)
      | simp [ISO_CHARS]

theorem iso_clean {c : Char} (h : c ∈ ISO_CHARS) : c ∉ ['<', '>', '"', '\''] := by
  revert h c
  unfold ISO_CHARS
  rw [String.toList_ofList]
  simp

theorem letter_clean {c : Char} (h : isLetterOrDigit c = true ∨ c ∈ ['+', '-', '.']) :
    c ∉ ['<', '>', '"', '\''] := by
  intro hmem
  simp only [List.mem_cons, List.not_mem_nil, or_false] at hmem
  rcases hmem with rfl | rfl | rfl | rfl <;> revert h <;> decide

end Texts

-- The uid of the event before escaping.
def eventUid (senderUid chatId messageId : List Char) : List Char :=
  "GeoChat.".toList ++ senderUid ++ ['.'] ++ chatId ++ ['.'] ++ messageId

section Build

variable {ν : Type} (numbers : NumberText ν)

structure Sendable (msg : TAKGeochatMessage ν) (nowMs : Int) (messageId senderUid : List Char) : Prop where
  uid : isChatUid senderUid = true
  foreign : ∀ p ∈ MESH_CHAT_UID_PREFIX :: COT_UID_PREFIXES, ¬ p <+: senderUid
  room : Label msg.room TAK_GEOCHAT_ROOM_MAX_LEN
  text : Label msg.text TAK_GEOCHAT_TEXT_MAX_LEN
  callsign : Label msg.senderCallsign TAK_GEOCHAT_CALLSIGN_MAX_LEN
  id : isChatMessageId messageId = true
  now : -MAX_TIME_MS ≤ nowMs ∧ nowMs + GEOCHAT_STALE_MS ≤ MAX_TIME_MS
  sent : -MAX_TIME_MS ≤ msg.timeMs

theorem coordinates_clean (msg : TAKGeochatMessage ν) :
    ((coordinates numbers msg).1.length ≤ 25 ∧ ∀ c ∈ (coordinates numbers msg).1, c ∉ ['<', '>', '"', '\'']) ∧
      (coordinates numbers msg).2.length ≤ 25 ∧ ∀ c ∈ (coordinates numbers msg).2, c ∉ ['<', '>', '"', '\''] := by
  have htext := fun n => numbers.text_length n
  have hchars := fun n c hc => letter_clean (numbers.text_chars n c hc)
  unfold coordinates
  split
  · exact ⟨⟨htext _, hchars _⟩, htext _, hchars _⟩
  · simp

theorem length_eventAttrs (e : EventTexts) : e.eventAttrs.length ≤
    90 + e.uid.length + 2 * e.time.length + e.stale.length := by
  unfold EventTexts.eventAttrs
  repeat rw [String.toList_ofList]
  simp only [List.length_append, List.length_cons, List.length_nil]
  omega

theorem length_chatAttrs (e : EventTexts) : e.chatAttrs.length ≤ 90 + 2 * e.room.length + e.callsign.length := by
  unfold EventTexts.chatAttrs
  repeat rw [String.toList_ofList]
  simp only [List.length_append, List.length_cons, List.length_nil]
  omega

theorem length_remarksAttrs (e : EventTexts) : e.remarksAttrs.length ≤
    40 + e.sender.length + e.room.length + e.sentAt.length := by
  unfold EventTexts.remarksAttrs
  repeat rw [String.toList_ofList]
  simp only [List.length_append, List.length_cons, List.length_nil]
  omega

theorem length_point (e : EventTexts) : e.point.length ≤ 70 + e.lat.length + e.lon.length := by
  unfold EventTexts.point UNKNOWN_ALTITUDE
  repeat rw [String.toList_ofList]
  simp only [List.length_append, List.length_cons, List.length_nil]
  omega

theorem length_chatgrp (e : EventTexts) : e.chatgrp.length ≤ 40 + e.sender.length + 2 * e.room.length := by
  unfold EventTexts.chatgrp
  repeat rw [String.toList_ofList]
  simp only [List.length_append, List.length_cons, List.length_nil]
  omega

theorem length_link (e : EventTexts) : e.link.length ≤ 60 + e.sender.length := by
  unfold EventTexts.link
  repeat rw [String.toList_ofList]
  simp only [List.length_append, List.length_cons, List.length_nil]
  omega

theorem length_xml (e : EventTexts) : e.xml.length ≤ 600 + e.uid.length + 2 * e.time.length + e.stale.length +
    e.sentAt.length + e.lat.length + e.lon.length + 5 * e.room.length + 3 * e.sender.length + e.callsign.length +
    e.text.length := by
  have hnames : TagName.event.text.length = 5 ∧ TagName.chat.text.length = 6 ∧ "detail>".toList.length = 7 ∧
      "/__chat>".toList.length = 8 ∧ "remarks".toList.length = 7 ∧ "/remarks>".toList.length = 9 ∧
      "/detail>".toList.length = 8 ∧ "</event>".toList.length = 8 := by decide
  obtain ⟨hevent, hchat, hdetail, hchatEnd, hremarks, hremarksEnd, hdetailEnd, hend⟩ := hnames
  have := length_eventAttrs e
  have := length_chatAttrs e
  have := length_remarksAttrs e
  have := length_point e
  have := length_chatgrp e
  have := length_link e
  simp only [EventTexts.xml, EventTexts.pieces, List.flatMap_cons, List.flatMap_nil, List.length_append, List.length_cons,
    List.length_nil, hevent, hchat, hdetail, hchatEnd, hremarks, hremarksEnd, hdetailEnd, hend]
  omega

theorem length_encode_le (text : List Char) : (Utf8.encode text).length ≤ 4 * text.length := by
  have hchar : ∀ c, (String.utf8EncodeChar c).length ≤ 4 := by
    intro c
    rw [Utf8.utf8EncodeChar_eq]
    unfold Utf8.charBytes
    split_ifs <;> simp
  induction text with
  | nil => simp
  | cons c cs ih =>
      have := hchar c
      simp only [Utf8.encode_cons, List.length_append, List.length_cons]
      omega

set_option maxRecDepth 10000 in
-- The template of the source, cut where the tags and attributes begin.
theorem template_eq (e : EventTexts) : "<event version=\"2.0\" uid=\"".toList ++ e.uid ++ "\" type=\"b-t-f\" time=\"".toList ++
    e.time ++ "\" start=\"".toList ++ e.time ++ "\"".toList ++
    " stale=\"".toList ++ e.stale ++ "\" how=\"h-g-i-g-o\">".toList ++
    "<point lat=\"".toList ++ e.lat ++ "\" lon=\"".toList ++ e.lon ++ "\" hae=\"".toList ++ UNKNOWN_ALTITUDE ++
      "\" ce=\"9999999\" le=\"9999999\"/>".toList ++
    "<detail>".toList ++
    "<__chat parent=\"RootContactGroup\" groupOwner=\"false\" chatroom=\"".toList ++ e.room ++ "\" id=\"".toList ++ e.room ++
      "\"".toList ++
    " senderCallsign=\"".toList ++ e.callsign ++ "\">".toList ++
    "<chatgrp uid0=\"".toList ++ e.sender ++ "\" uid1=\"".toList ++ e.room ++ "\" id=\"".toList ++ e.room ++ "\"/>".toList ++
    "</__chat>".toList ++
    "<link uid=\"".toList ++ e.sender ++ "\" type=\"a-f-G-U-C\" relation=\"p-p\"/>".toList ++
    "<remarks source=\"BAO.F.ATAK.".toList ++ e.sender ++ "\" to=\"".toList ++ e.room ++ "\" time=\"".toList ++ e.sentAt ++
      "\">".toList ++
    e.text ++ "</remarks>".toList ++
    "</detail>".toList ++
    "</event>".toList = e.xml := by
  unfold EventTexts.xml EventTexts.pieces EventTexts.eventAttrs EventTexts.chatAttrs EventTexts.remarksAttrs
    EventTexts.point EventTexts.chatgrp EventTexts.link TagName.text UNKNOWN_ALTITUDE
  repeat rw [List.flatMap_cons]
  rw [List.flatMap_nil]
  repeat rw [String.toList_ofList]
  simp only [List.cons_append, List.append_assoc, List.nil_append, List.append_nil]

variable {numbers} {msg : TAKGeochatMessage ν} {nowMs : Int} {messageId senderUid : List Char}

theorem ascii_of_letter {c : Char} (h : isLetterOrDigit c = true) : c.toNat < 0x80 := by
  simp only [isLetterOrDigit, isDigit, Bool.or_eq_true, Bool.and_eq_true, decide_eq_true_eq] at h
  have h0 : '9'.toNat = 57 ∧ 'z'.toNat = 122 ∧ 'Z'.toNat = 90 := by decide
  omega

theorem chatUid_ascii (h : isChatUid senderUid = true) : ∀ c ∈ senderUid, c.toNat < 0x80 := by
  simp only [isChatUid, Bool.and_eq_true, List.all_eq_true, Bool.or_eq_true, decide_eq_true_eq] at h
  intro c hc
  rcases h.1.1 c hc with hletter | hmark
  · exact ascii_of_letter hletter
  · simp only [List.mem_cons, List.not_mem_nil, or_false] at hmark
    rcases hmark with rfl | rfl | rfl | rfl | rfl <;> decide

theorem chatUid_bounds (h : isChatUid senderUid = true) : 1 ≤ senderUid.length ∧ senderUid.length ≤ 128 := by
  simp only [isChatUid, Bool.and_eq_true, decide_eq_true_eq] at h
  exact ⟨h.1.2, h.2⟩

theorem messageId_ascii (h : isChatMessageId messageId = true) : ∀ c ∈ messageId, c.toNat < 0x80 := by
  simp only [isChatMessageId, Bool.and_eq_true, List.all_eq_true, Bool.or_eq_true, decide_eq_true_eq] at h
  intro c hc
  rcases h.1.1 c hc with hletter | rfl
  · exact ascii_of_letter hletter
  · decide

theorem messageId_bounds (h : isChatMessageId messageId = true) : 1 ≤ messageId.length ∧ messageId.length ≤ 64 := by
  simp only [isChatMessageId, Bool.and_eq_true, decide_eq_true_eq] at h
  exact ⟨h.1.2, h.2⟩

theorem textLength_append (a b : List Char) : textLength (a ++ b) = textLength a + textLength b := by
  simp [textLength]

theorem textLength_ascii {text : List Char} (h : ∀ c ∈ text, c.toNat < 0x80) : textLength text = text.length := by
  unfold textLength
  induction text with
  | nil => rfl
  | cons c cs ih =>
      have hc := h c List.mem_cons_self
      rw [List.flatMap_cons, List.length_append, ih fun d hd => h d (List.mem_cons_of_mem c hd), charCodes,
        if_pos (by omega), List.length_singleton, List.length_cons, Nat.add_comm]

theorem textLength_uid (h : Sendable msg nowMs messageId senderUid) :
    textLength (eventUid senderUid msg.room messageId) ≤ 266 := by
  have hstart : textLength "GeoChat.".toList = 8 := by decide
  have hdot : textLength ['.'] = 1 := by decide
  have hroom : textLength msg.room ≤ 64 := h.room.length_le
  have huid := chatUid_bounds h.uid
  have hid := messageId_bounds h.id
  unfold eventUid
  rw [textLength_append, textLength_append, textLength_append, textLength_append, textLength_append, hstart, hdot,
    textLength_ascii (chatUid_ascii h.uid), textLength_ascii (messageId_ascii h.id)]
  omega

-- What the builder writes: the values escaped, and small enough for the framer's buffer.
theorem build_eq (h : Sendable msg nowMs messageId senderUid) : ∃ e : EventTexts,
    buildGeochatCot numbers msg nowMs messageId senderUid = .ok e.xml ∧ e.Clean ∧
    (Utf8.encode e.xml).length ≤ COT_FRAME_MAX_BYTES ∧ e.uid = escapeXml (eventUid senderUid msg.room messageId) ∧
    e.room = escapeXml msg.room ∧ e.callsign = escapeXml msg.senderCallsign ∧ e.text = escapeXml msg.text := by
  have hstale : (0 : Int) ≤ GEOCHAT_STALE_MS := by decide
  have hnow := h.now
  have hsent := h.sent
  obtain ⟨time, htime, htimeLen, htimeChars⟩ := @toISOString_of_valid nowMs (by omega) (by omega)
  obtain ⟨sentAt, hsentAt, hsentLen, hsentChars⟩ := @toISOString_of_valid (min msg.timeMs nowMs) (by omega) (by omega)
  obtain ⟨stale, hstaleAt, hstaleLen, hstaleChars⟩ :=
    @toISOString_of_valid (nowMs + GEOCHAT_STALE_MS) (by omega) (by omega)
  have hcoords := coordinates_clean numbers msg
  refine ⟨⟨escapeXml (eventUid senderUid msg.room messageId), time, stale, sentAt, (coordinates numbers msg).1,
    (coordinates numbers msg).2, escapeXml msg.room, escapeXml senderUid, escapeXml msg.senderCallsign,
    escapeXml msg.text⟩, ?_, ?_, ?_, rfl, rfl, rfl, rfl⟩
  · rw [← template_eq]
    unfold buildGeochatCot geochatEvent
    rw [htime, hsentAt, hstaleAt]
    rfl
  · constructor
    intro v hv c hc hmem
    have hescaped : ∀ text, c ∉ escapeXml text := by
      intro text
      exact not_mem_escapeXml (by simpa using hc) text
    simp only [List.mem_cons, List.not_mem_nil, or_false] at hv
    rcases hv with rfl | rfl | rfl | rfl | rfl | rfl | rfl | rfl | rfl | rfl
    · exact hescaped _ hmem
    · exact iso_clean (htimeChars c hmem) hc
    · exact iso_clean (hstaleChars c hmem) hc
    · exact iso_clean (hsentChars c hmem) hc
    · exact hcoords.1.2 c hmem hc
    · exact hcoords.2.2 c hmem hc
    all_goals exact hescaped _ hmem
  · have hlen := length_xml ⟨escapeXml (eventUid senderUid msg.room messageId), time, stale, sentAt,
      (coordinates numbers msg).1, (coordinates numbers msg).2, escapeXml msg.room, escapeXml senderUid,
      escapeXml msg.senderCallsign, escapeXml msg.text⟩
    have hbytes := length_encode_le (EventTexts.xml ⟨escapeXml (eventUid senderUid msg.room messageId), time, stale, sentAt,
      (coordinates numbers msg).1, (coordinates numbers msg).2, escapeXml msg.room, escapeXml senderUid,
      escapeXml msg.senderCallsign, escapeXml msg.text⟩)
    have huid := length_escapeXml (eventUid senderUid msg.room messageId)
    have hroom := length_escapeXml msg.room
    have hsender := length_escapeXml senderUid
    have hcallsign := length_escapeXml msg.senderCallsign
    have htext := length_escapeXml msg.text
    have huidUnits := textLength_uid h
    have hsenderUnits := textLength_ascii (chatUid_ascii h.uid)
    have hsenderLen := (chatUid_bounds h.uid).2
    have hroomMax : textLength msg.room ≤ 64 := h.room.length_le
    have htextMax : textLength msg.text ≤ 1024 := h.text.length_le
    have hcallsignMax : textLength msg.senderCallsign ≤ 64 := h.callsign.length_le
    have hlat := hcoords.1.1
    have hlon := hcoords.2.1
    have hmax : COT_FRAME_MAX_BYTES = 65536 := rfl
    simp only at hlen
    omega

end Build

end MeshClient.Tak
