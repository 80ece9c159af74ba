import MeshClient.Tak.GeochatRoundTrip

namespace MeshClient.Tak

open Scan Js

-- The parts of the event uid: the tag, the parts of the sender uid and of the room, the message id.
theorem uidParts_eq {senderUid room messageId : List Char} (hid : '.' ∉ messageId) :
    (eventUid senderUid room messageId).splitOn '.' =
      "GeoChat".toList :: (senderUid.splitOn '.' ++ (room.splitOn '.' ++ [messageId])) := by
  have hsplit : eventUid senderUid room messageId =
      "GeoChat".toList ++ '.' :: (senderUid ++ '.' :: (room ++ '.' :: messageId)) := by
    have hstart : "GeoChat.".toList = "GeoChat".toList ++ ['.'] := by decide
    unfold eventUid
    rw [hstart]
    simp only [List.append_assoc, List.singleton_append]
    rfl
  have hstart : '.' ∉ "GeoChat".toList := by decide
  rw [hsplit, List.splitOn_append_cons_self_of_not_mem hstart, List.splitOn_append_cons_self,
    List.splitOn_append_cons_self, List.splitOn_eq_singleton hid]

theorem dot_not_mem_id {messageId : List Char} (h : isChatMessageId messageId = true) : '.' ∉ messageId := by
  simp only [isChatMessageId, Bool.and_eq_true, List.all_eq_true, Bool.or_eq_true, decide_eq_true_eq] at h
  intro hmem
  have hdot := h.1.1 '.' hmem
  revert hdot
  decide

-- No attribute begins in the uid: it ends in the message id.
theorem uid_closed (senderUid room : List Char) {name messageId : List Char} (hname : PlainName name)
    (h : isChatMessageId messageId = true) :
    opensAttr name (escapeXml (eventUid senderUid room messageId)) = false := by
  rw [opensAttr_escapeXml hname]
  have hbounds := messageId_bounds h
  obtain ⟨front, c, rfl⟩ : ∃ front c, messageId = front ++ [c] := by
    refine ⟨messageId.dropLast, messageId.getLast (List.ne_nil_of_length_pos (by omega)), ?_⟩
    rw [List.dropLast_append_getLast]
  simp only [isChatMessageId, Bool.and_eq_true, List.all_eq_true, Bool.or_eq_true, decide_eq_true_eq] at h
  have hc := h.1.1 c (by simp)
  have hplain : isSpace c = false ∧ c ≠ '=' := by
    constructor
    · by_contra hspace
      rw [Bool.not_eq_false] at hspace
      have hascii : c.toNat < 0x80 := by
        rcases hc with hletter | rfl
        · exact ascii_of_letter hletter
        · decide
      simp only [isSpace, Bool.or_eq_true, Bool.and_eq_true, decide_eq_true_eq, List.mem_cons, List.not_mem_nil,
        or_false] at hspace
      rcases hc with hletter | rfl
      · simp only [isLetterOrDigit, isDigit, Bool.or_eq_true, Bool.and_eq_true, decide_eq_true_eq] at hletter
        have hcodes : '0'.toNat = 48 ∧ 'a'.toNat = 97 ∧ 'A'.toNat = 65 := by decide
        omega
      · revert hspace
        decide
    · rintro rfl
      revert hc
      decide
  unfold eventUid
  rw [← List.append_assoc]
  exact not_opensAttr_of_last hplain.1 hplain.2 _

theorem plainName (name : AttrName) : PlainName name.text := by
  cases name
  all_goals
    unfold PlainName AttrName.text
    rw [String.toList_ofList]
    simp [isSpecial]

-- The value that is read where the room ends like an attribute.
theorem stray_value : (clip (singleLine (some " id=".toList)) TAK_GEOCHAT_CALLSIGN_MAX_LEN).getD [] = "id=".toList ∧
    ((singleLine (some " id=".toList)).map trimChars).getD [] = "id=".toList := by decide

section Survival

variable {ν : Type} (numbers : NumberText ν)

-- The event comes out of a new framer whole and alone, and reads as the message it was made of.
def Survives (msg : TAKGeochatMessage ν) (nowMs : Int) (messageId senderUid : List Char) : Prop :=
  ∃ xml, buildGeochatCot numbers msg nowMs messageId senderUid = .ok xml ∧
    (CotFramer.push {} (Utf8.encode xml)).2 = .ok [xml] ∧
    parseGeochatEvent xml = some {
      room := msg.room, senderCallsign := msg.senderCallsign, senderUid, text := msg.text
      messageId := some messageId, roomId := some msg.room }

variable {numbers} {msg : TAKGeochatMessage ν} {nowMs : Int} {messageId senderUid : List Char}

-- What the parser makes of the event: the sender uid is cut at its first dot, and the room's end
-- may stand for the attributes that follow it.
theorem parse_build {e : EventTexts} (h : Sendable msg nowMs messageId senderUid) (he : e.Clean)
    (huid : e.uid = escapeXml (eventUid senderUid msg.room messageId)) (hroom : e.room = escapeXml msg.room)
    (hcallsign : e.callsign = escapeXml msg.senderCallsign) (htext : e.text = escapeXml msg.text)
    {sender : List Char} {parts : List (List Char)} (hparts : senderUid.splitOn '.' = sender :: parts) :
    parseGeochatEvent e.xml =
      if ¬ isChatUid sender then none
      else if MESH_CHAT_UID_PREFIX <+: sender then none
      else if COT_UID_PREFIXES.any (·.isPrefixOf sender) then none
      else some {
        room := msg.room, senderUid := sender, text := msg.text, messageId := some messageId
        senderCallsign := if opensAttr AttrName.senderCallsign.text msg.room then "id=".toList else msg.senderCallsign
        roomId := some (if opensAttr AttrName.id.text msg.room then "id=".toList else msg.room) } := by
  have htype := EventTexts.attr_type he (by rw [huid]; exact uid_closed _ _ (plainName .type) h.id)
  have huidAttr := EventTexts.attr_uid he
  have hchatroom := EventTexts.attr_chatroom he
  have hremarks := EventTexts.remarksText_xml he
  rw [huid, unescape_escape] at huidAttr
  rw [hroom, unescape_escape] at hchatroom
  rw [htext, unescape_escape] at hremarks
  have hopens : ∀ name : AttrName, opensAttr name.text e.room = opensAttr name.text msg.room := by
    intro name
    rw [hroom, opensAttr_escapeXml (plainName name)]
  have hnames : AttrName.id.text = 'i' :: "d".toList ∧ AttrName.senderCallsign.text = 's' :: "enderCallsign".toList ∧
      quiet 'i' (EventTexts.chatStart ++ (' ' :: AttrName.chatroom.text ++ ['=', '"'])) = true ∧
      quiet 's' (EventTexts.chatStart ++ (' ' :: AttrName.chatroom.text ++ ['=', '"'])) = true ∧
      '"' ∉ AttrName.id.text ∧ '"' ∉ AttrName.senderCallsign.text := by decide
  obtain ⟨hidName, hsenderName, hidQuiet, hsenderQuiet, hidQuote, hsenderQuote⟩ := hnames
  have hroomId : ((singleLine (attr (openTag e.xml .chat) .id)).map trimChars).getD [] =
      if opensAttr AttrName.id.text msg.room then "id=".toList else msg.room := by
    by_cases hopen : opensAttr AttrName.id.text msg.room = true
    · rw [EventTexts.attr_after_room he hidName hidQuiet hidQuote ((hopens .id).trans hopen), if_pos hopen,
        stray_value.2]
    · rw [EventTexts.attr_id he (by rw [hopens]; simpa using hopen), hroom, unescape_escape,
        singleLine_of_no_control h.room.no_control, if_neg hopen, Option.map_some, h.room.trimmed, Option.getD_some]
  have hsender : (clip (singleLine (attr (openTag e.xml .chat) .senderCallsign)) TAK_GEOCHAT_CALLSIGN_MAX_LEN).getD [] =
      if opensAttr AttrName.senderCallsign.text msg.room then "id=".toList else msg.senderCallsign := by
    by_cases hopen : opensAttr AttrName.senderCallsign.text msg.room = true
    · rw [EventTexts.attr_after_room he hsenderName hsenderQuiet hsenderQuote ((hopens .senderCallsign).trans hopen),
        if_pos hopen, stray_value.1]
    · rw [EventTexts.attr_senderCallsign he (by rw [hopens]; simpa using hopen), hcallsign, unescape_escape,
        if_neg hopen, h.callsign.clip, Option.getD_some]
  have hkept : (if opensAttr AttrName.id.text msg.room then "id=".toList else msg.room) ≠ [] ∧
      textLength (if opensAttr AttrName.id.text msg.room then "id=".toList else msg.room) ≤ MAX_CHAT_ROOM_ID_LENGTH := by
    split_ifs
    · decide
    · have hlength : textLength msg.room ≤ 64 := h.room.length_le
      have hmax : MAX_CHAT_ROOM_ID_LENGTH = 128 := rfl
      exact ⟨h.room.nonempty, by omega⟩
  have huidParts : ((eventUid senderUid msg.room messageId).splitOn '.') =
      "GeoChat".toList :: (sender :: parts ++ (msg.room.splitOn '.' ++ [messageId])) := by
    rw [uidParts_eq (dot_not_mem_id h.id), hparts]
  have hroomParts : 1 ≤ (msg.room.splitOn '.').length := List.length_pos_of_ne_nil (List.splitOn_ne_nil _ _)
  have hlength : ((eventUid senderUid msg.room messageId).splitOn '.').length ≥ 4 := by
    rw [huidParts]
    simp only [List.length_cons, List.length_append, List.length_nil]
    omega
  have hfirst : ((eventUid senderUid msg.room messageId).splitOn '.')[0]? = some "GeoChat".toList := by
    rw [huidParts, List.getElem?_cons_zero]
  have hsecond : ((eventUid senderUid msg.room messageId).splitOn '.')[1]? = some sender := by
    rw [huidParts, List.getElem?_cons_succ, List.cons_append, List.getElem?_cons_zero]
  have hlast : ((eventUid senderUid msg.room messageId).splitOn '.')[((eventUid senderUid msg.room messageId).splitOn '.').length - 1]? =
      some messageId := by
    rw [← List.getLast?_eq_getElem?, huidParts, List.getLast?_cons, List.getLast?_append]
    simp
  have hread : ¬ (msg.room = [] ∨ msg.text = []) := not_or.mpr ⟨h.room.nonempty, h.text.nonempty⟩
  have hchat : ¬ attr (openTag e.xml .event) .type ≠ some COT_GEOCHAT_TYPE := by
    rw [htype, not_not]
    rfl
  unfold parseGeochatEvent
  simp only [if_neg hchat, hchatroom, hremarks, h.room.clip, h.text.clip, Option.getD_some, if_neg hread, huidAttr, hfirst, hsecond,
    hlast, hlength, and_self, decide_true, if_true, hroomId, hsender, if_pos hkept, h.id]

-- A uid with a dot is not its own first part.
theorem dot_not_mem_of_first {parts : List (List Char)} (h : senderUid.splitOn '.' = senderUid :: parts) :
    '.' ∉ senderUid := by
  intro hmem
  obtain ⟨front, back, hsplit, hfront⟩ := List.eq_append_cons_of_mem hmem
  have hparts := List.splitOn_append_cons_self_of_not_mem hfront back
  rw [← hsplit, h] at hparts
  have hlength := congrArg List.length hsplit
  rw [(List.cons.inj hparts).1, List.length_append, List.length_cons] at hlength
  omega

theorem survives_of (h : Sendable msg nowMs messageId senderUid) (hdot : '.' ∉ senderUid)
    (hid : opensAttr AttrName.id.text msg.room = false)
    (hcallsign : opensAttr AttrName.senderCallsign.text msg.room = true → msg.senderCallsign = "id=".toList) :
    Survives numbers msg nowMs messageId senderUid := by
  obtain ⟨e, hbuild, he, hsize, heUid, heRoom, heCallsign, heText⟩ := @build_eq ν numbers _ _ _ _ h
  refine ⟨e.xml, hbuild, EventTexts.push_xml he hsize, ?_⟩
  have hprefix : ¬ MESH_CHAT_UID_PREFIX <+: senderUid := h.foreign _ List.mem_cons_self
  have hprefixes : (COT_UID_PREFIXES.any (·.isPrefixOf senderUid)) = false := by
    rw [List.any_eq_false]
    intro p hp
    rw [List.isPrefixOf_iff_prefix]
    exact h.foreign p (List.mem_cons_of_mem _ hp)
  rw [parse_build h he heUid heRoom heCallsign heText (List.splitOn_eq_singleton hdot), if_neg (by simp [h.uid]),
    if_neg hprefix, hprefixes, if_neg (by simp), hid]
  by_cases hopen : opensAttr AttrName.senderCallsign.text msg.room = true
  · rw [if_pos hopen, ← hcallsign hopen, if_neg (by simp)]
  · rw [if_neg hopen, if_neg (by simp)]

theorem survives_imp (h : Sendable msg nowMs messageId senderUid)
    (hsurvives : Survives numbers msg nowMs messageId senderUid) :
    '.' ∉ senderUid ∧ opensAttr AttrName.id.text msg.room = false ∧
      (opensAttr AttrName.senderCallsign.text msg.room = true → msg.senderCallsign = "id=".toList) := by
  obtain ⟨e, hbuild, he, -, heUid, heRoom, heCallsign, heText⟩ := @build_eq ν numbers _ _ _ _ h
  obtain ⟨xml, hxml, -, hparse⟩ := hsurvives
  obtain rfl : e.xml = xml := Except.ok.inj (hbuild.symm.trans hxml)
  obtain ⟨sender, parts, hparts⟩ := List.exists_cons_of_ne_nil (List.splitOn_ne_nil '.' senderUid)
  rw [parse_build h he heUid heRoom heCallsign heText hparts] at hparse
  by_cases huid : ¬ isChatUid sender = true
  · rw [if_pos huid] at hparse
    cases hparse
  by_cases hmesh : MESH_CHAT_UID_PREFIX <+: sender
  · rw [if_neg huid, if_pos hmesh] at hparse
    cases hparse
  by_cases hcot : (COT_UID_PREFIXES.any (·.isPrefixOf sender)) = true
  · rw [if_neg huid, if_neg hmesh, if_pos hcot] at hparse
    cases hparse
  rw [if_neg huid, if_neg hmesh, if_neg hcot] at hparse
  simp only [Option.some.injEq, CotGeochat.mk.injEq] at hparse
  obtain ⟨-, hcallsign, rfl, -, -, hroomId⟩ := hparse
  refine ⟨dot_not_mem_of_first hparts, ?_, ?_⟩
  · by_contra hopen
    rw [Bool.not_eq_false] at hopen
    rw [if_pos hopen] at hroomId
    have hstray : opensAttr AttrName.id.text "id=".toList = false := by decide
    rw [hroomId, hopen] at hstray
    cases hstray
  · intro hopen
    rw [if_pos hopen] at hcallsign
    exact hcallsign.symm

theorem geochat_survives_iff (h : Sendable msg nowMs messageId senderUid) :
    Survives numbers msg nowMs messageId senderUid ↔
      '.' ∉ senderUid ∧ opensAttr AttrName.id.text msg.room = false ∧
        (opensAttr AttrName.senderCallsign.text msg.room = true → msg.senderCallsign = "id=".toList) :=
  ⟨survives_imp h, fun hplain => survives_of h hplain.1 hplain.2.1 hplain.2.2⟩

end Survival

-- Whole degrees below ten.
def digitText : NumberText (Fin 10) where
  text n := [Nat.digitChar n]
  text_chars := by
    intro n c hc
    rw [List.mem_singleton] at hc
    subst hc
    have hdigit : ∀ k : Fin 10, isLetterOrDigit (Nat.digitChar k) = true := by decide
    exact .inl (hdigit n)
  text_length := by simp

def teamMessage : TAKGeochatMessage (Fin 10) where
  room := "Team \"Red\" & Co.".toList
  senderCallsign := "O'Neil".toList
  text := "a < b &amp; <remarks> ok".toList
  timeMs := 1700000000000
  latitude := some 4
  longitude := some 7

theorem no_control_of_all {text : List Char} (h : text.all (fun c => !isControl c) = true) :
    ∀ c ∈ text, isControl c = false := by
  intro c hc
  have hall := List.all_eq_true.mp h c hc
  rwa [Bool.not_eq_true'] at hall

theorem teamMessage_sendable {senderUid : List Char} (huid : isChatUid senderUid = true)
    (hforeign : ∀ p ∈ MESH_CHAT_UID_PREFIX :: COT_UID_PREFIXES, ¬ p <+: senderUid) :
    Sendable teamMessage 1700000001000 "m-1".toList senderUid where
  uid := huid
  foreign := hforeign
  room := by
    unfold teamMessage
    rw [String.toList_ofList]
    exact ⟨by decide, no_control_of_all (by decide), by decide, by decide⟩
  text := by
    unfold teamMessage
    rw [String.toList_ofList]
    exact ⟨by decide, no_control_of_all (by decide), by decide, by decide⟩
  callsign := by
    unfold teamMessage
    rw [String.toList_ofList]
    exact ⟨by decide, no_control_of_all (by decide), by decide, by decide⟩
  id := by decide
  now := by decide
  sent := by decide

theorem teamMessage_survives : Survives digitText teamMessage 1700000001000 "m-1".toList "ANDROID-1".toList :=
  (geochat_survives_iff (teamMessage_sendable (by decide) (by decide))).mpr
    ⟨by decide, by decide, by decide⟩

theorem dotted_uid_is_cut : Sendable teamMessage 1700000001000 "m-1".toList "ANDROID.1".toList ∧
    ¬ Survives digitText teamMessage 1700000001000 "m-1".toList "ANDROID.1".toList := by
  have hsendable := @teamMessage_sendable "ANDROID.1".toList (by decide) (by decide)
  have hdot : '.' ∈ "ANDROID.1".toList := by decide
  exact ⟨hsendable, fun hsurvives => (survives_imp hsendable hsurvives).1 hdot⟩

end MeshClient.Tak
