import MeshClient.Tak.CotAttributes
import MeshClient.Tak.CotFramer
import MeshClient.ScheduledBroadcasts.Recurrence

namespace MeshClient.Tak

open Js

-- How `${n}` writes a number: digits, a sign, a point and an exponent, or `NaN` and `Infinity`.
structure NumberText (ν : Type) where
  text : ν → List Char
  text_chars : ∀ n, ∀ c ∈ text n, isLetterOrDigit c = true ∨ c ∈ ['+', '-', '.']
  text_length : ∀ n, (text n).length ≤ 25

inductive RangeError where
  | invalidTime
deriving DecidableEq, Repr

-- The largest time, before or after the epoch, that a `Date` holds.
def MAX_TIME_MS : Int := 8640000000000000

-- The last `width` decimal digits.
def fixedDigits : Nat → Nat → List Char
  | 0, _ => []
  | width + 1, n => fixedDigits width (n / 10) ++ [Nat.digitChar (n % 10)]

def isoYear (y : Int) : List Char :=
  if 0 ≤ y ∧ y ≤ 9999 then fixedDigits 4 y.toNat
  else (if y < 0 then '-' else '+') :: fixedDigits 6 y.natAbs

def toISOString (ms : Int) : Except RangeError (List Char) :=
  if MAX_TIME_MS < ms ∨ ms < -MAX_TIME_MS then .error .invalidTime
  else
    let (y, m, d) := ScheduledBroadcasts.LocalTime.civilFromDays (ms / ScheduledBroadcasts.LocalTime.MS_PER_DAY)
    let ofDay := (ms % ScheduledBroadcasts.LocalTime.MS_PER_DAY).toNat
    .ok (isoYear y ++ ['-'] ++ fixedDigits 2 (m.toNat + 1) ++ ['-'] ++ fixedDigits 2 d.toNat ++ ['T'] ++
      fixedDigits 2 (ofDay / 3600000) ++ [':'] ++ fixedDigits 2 (ofDay / 60000 % 60) ++ [':'] ++
      fixedDigits 2 (ofDay / 1000 % 60) ++ ['.'] ++ fixedDigits 3 (ofDay % 1000) ++ ['Z'])

structure TAKGeochatMessage (ν : Type) where
  room : List Char
  senderCallsign : List Char
  text : List Char
  timeMs : Int
  latitude : Option ν
  longitude : Option ν

def GEOCHAT_STALE_MS : Int := 24 * 60 * 60 * 1000

def UNKNOWN_ALTITUDE : List Char := "9999999".toList

section Build

variable {ν : Type} (numbers : NumberText ν)

-- The coordinates as text; zero unless both are known.
def coordinates (msg : TAKGeochatMessage ν) : List Char × List Char :=
  match msg.latitude, msg.longitude with
  | some lat, some lon => (numbers.text lat, numbers.text lon)
  | _, _ => (['0'], ['0'])

def geochatEvent (msg : TAKGeochatMessage ν) (senderUid senderCallsign chatroom chatId : List Char)
    (nowMs : Int) (messageId : List Char) : Except RangeError (List Char) := do
  let room := escapeXml chatroom
  let id := escapeXml chatId
  let sender := escapeXml senderUid
  let uid := escapeXml ("GeoChat.".toList ++ senderUid ++ ['.'] ++ chatId ++ ['.'] ++ messageId)
  let time ← toISOString nowMs
  let sentAt ← toISOString (min msg.timeMs nowMs)
  let stale ← toISOString (nowMs + GEOCHAT_STALE_MS)
  let (lat, lon) := coordinates numbers msg
  return ("<event version=\"2.0\" uid=\"".toList ++ uid ++ "\" type=\"b-t-f\" time=\"".toList ++ time ++
      "\" start=\"".toList ++ time ++ "\"".toList ++
    " stale=\"".toList ++ stale ++ "\" how=\"h-g-i-g-o\">".toList ++
    "<point lat=\"".toList ++ lat ++ "\" lon=\"".toList ++ lon ++ "\" hae=\"".toList ++ UNKNOWN_ALTITUDE ++
      "\" ce=\"9999999\" le=\"9999999\"/>".toList ++
    "<detail>".toList ++
    "<__chat parent=\"RootContactGroup\" groupOwner=\"false\" chatroom=\"".toList ++ room ++ "\" id=\"".toList ++ id ++
      "\"".toList ++
    " senderCallsign=\"".toList ++ escapeXml senderCallsign ++ "\">".toList ++
    "<chatgrp uid0=\"".toList ++ sender ++ "\" uid1=\"".toList ++ id ++ "\" id=\"".toList ++ id ++ "\"/>".toList ++
    "</__chat>".toList ++
    "<link uid=\"".toList ++ sender ++ "\" type=\"a-f-G-U-C\" relation=\"p-p\"/>".toList ++
    "<remarks source=\"BAO.F.ATAK.".toList ++ sender ++ "\" to=\"".toList ++ id ++ "\" time=\"".toList ++ sentAt ++
      "\">".toList ++
    escapeXml msg.text ++ "</remarks>".toList ++
    "</detail>".toList ++
    "</event>".toList)

def buildGeochatCot (msg : TAKGeochatMessage ν) (nowMs : Int) (messageId senderUid : List Char) :
    Except RangeError (List Char) :=
  geochatEvent numbers msg senderUid msg.senderCallsign msg.room msg.room nowMs messageId

end Build

-- The values an event is made of, as they stand in it.
structure EventTexts where
  uid : List Char
  time : List Char
  stale : List Char
  sentAt : List Char
  lat : List Char
  lon : List Char
  room : List Char
  sender : List Char
  callsign : List Char
  text : List Char

namespace EventTexts

variable (e : EventTexts)

-- What stands between `<event` and `>`, and so on for the other tags.
def eventAttrs : List Char :=
  " version=\"2.0\" uid=\"".toList ++ (e.uid ++ '"' :: (" type=".toList ++ '"' :: ("b-t-f".toList ++ '"' ::
    (" time=\"".toList ++ e.time ++ "\" start=\"".toList ++ e.time ++ "\" stale=\"".toList ++ e.stale ++
      "\" how=\"h-g-i-g-o\"".toList))))

def chatAttrs : List Char :=
  " parent=\"RootContactGroup\" groupOwner=\"false\" chatroom=\"".toList ++ (e.room ++ '"' :: (" id=".toList ++ '"' ::
    (e.room ++ '"' :: (" senderCallsign=".toList ++ '"' :: (e.callsign ++ ['"'])))))

def remarksAttrs : List Char :=
  " source=\"BAO.F.ATAK.".toList ++ e.sender ++ "\" to=\"".toList ++ e.room ++ "\" time=\"".toList ++ e.sentAt ++ ['"']

def point : List Char :=
  "point lat=\"".toList ++ e.lat ++ "\" lon=\"".toList ++ e.lon ++ "\" hae=\"".toList ++ UNKNOWN_ALTITUDE ++
    "\" ce=\"9999999\" le=\"9999999\"/>".toList

def chatgrp : List Char :=
  "chatgrp uid0=\"".toList ++ e.sender ++ "\" uid1=\"".toList ++ e.room ++ "\" id=\"".toList ++ e.room ++ "\"/>".toList

def link : List Char := "link uid=\"".toList ++ e.sender ++ "\" type=\"a-f-G-U-C\" relation=\"p-p\"/>".toList

-- The stretches of the event, each behind a `<`, up to the end tag.
def pieces : List (List Char) :=
  [TagName.event.text ++ e.eventAttrs ++ ['>'], e.point, "detail>".toList,
    TagName.chat.text ++ e.chatAttrs ++ ['>'], e.chatgrp, "/__chat>".toList, e.link,
    "remarks".toList ++ e.remarksAttrs ++ ['>'] ++ e.text, "/remarks>".toList, "/detail>".toList]

def xml : List Char := e.pieces.flatMap ('<' :: ·) ++ "</event>".toList

end EventTexts

open Scan Js

-- No value brings markup or quotes into the event.
structure EventTexts.Clean (e : EventTexts) : Prop where
  value : ∀ v ∈ [e.uid, e.time, e.stale, e.sentAt, e.lat, e.lon, e.room, e.sender, e.callsign, e.text],
    ∀ c ∈ ['<', '>', '"', '\''], c ∉ v

namespace EventTexts

variable {e : EventTexts}

-- What follows the first `k` stretches.
variable (e) in
def after (k : Nat) : List Char := (e.pieces.drop k).flatMap ('<' :: ·) ++ "</event>".toList

theorem xml_split (k : Nat) : e.xml = (e.pieces.take k).flatMap ('<' :: ·) ++ e.after k := by
  rw [xml, after, ← List.append_assoc, ← List.flatMap_append, List.take_append_drop]

theorem after_succ {k : Nat} {piece : List Char} (h : e.pieces[k]? = some piece) :
    e.after k = '<' :: piece ++ e.after (k + 1) := by
  rw [after, List.drop_eq_getElem?_toList_append, h, Option.toList_some, List.singleton_append, List.flatMap_cons,
    List.append_assoc, after]

theorem Clean.not_mem (h : e.Clean) {v : List Char}
    (hv : v ∈ [e.uid, e.time, e.stale, e.sentAt, e.lat, e.lon, e.room, e.sender, e.callsign, e.text]) :
    '<' ∉ v ∧ '>' ∉ v ∧ '"' ∉ v ∧ '\'' ∉ v :=
  ⟨h.value v hv _ (by simp), h.value v hv _ (by simp), h.value v hv _ (by simp), h.value v hv _ (by simp)⟩

-- A stretch of the event holds no markup but its own.
theorem Clean.pieces_closed (h : e.Clean) : ∀ piece ∈ e.pieces, '<' ∉ piece := by
  have hmem := fun v hv => (@Clean.not_mem e h v hv).1
  have huid := hmem e.uid (by simp)
  have htime := hmem e.time (by simp)
  have hstale := hmem e.stale (by simp)
  have hsentAt := hmem e.sentAt (by simp)
  have hlat := hmem e.lat (by simp)
  have hlon := hmem e.lon (by simp)
  have hroom := hmem e.room (by simp)
  have hsender := hmem e.sender (by simp)
  have hcallsign := hmem e.callsign (by simp)
  have htext := hmem e.text (by simp)
  intro piece hpiece
  simp only [pieces, List.mem_cons, List.not_mem_nil, or_false] at hpiece
  rcases hpiece with rfl | rfl | rfl | rfl | rfl | rfl | rfl | rfl | rfl | rfl
  · unfold eventAttrs TagName.text
    repeat rw [String.toList_ofList]
    simp [huid, htime, hstale]
  · unfold point UNKNOWN_ALTITUDE
    repeat rw [String.toList_ofList]
    simp [hlat, hlon]
  · decide
  · unfold chatAttrs TagName.text
    repeat rw [String.toList_ofList]
    simp [hroom, hcallsign]
  · unfold chatgrp
    repeat rw [String.toList_ofList]
    simp [hsender, hroom]
  · decide
  · unfold link
    repeat rw [String.toList_ofList]
    simp [hsender]
  · unfold remarksAttrs
    repeat rw [String.toList_ofList]
    simp [hsender, hroom, hsentAt, htext]
  · decide
  · decide

theorem openTag_event (h : e.Clean) :
    openTag e.xml .event = some ('<' :: (TagName.event.text ++ e.eventAttrs ++ ['>'])) := by
  have huid := h.not_mem (v := e.uid) (by simp)
  have htime := h.not_mem (v := e.time) (by simp)
  have hstale := h.not_mem (v := e.stale) (by simp)
  have hattrs : '>' ∉ e.eventAttrs := by
    unfold eventAttrs
    repeat rw [String.toList_ofList]
    simp [huid, htime, hstale]
  have hboundary : e.eventAttrs.head?.any isTagBoundary = true := by
    unfold eventAttrs
    rw [String.toList_ofList, List.cons_append, List.head?_cons]
    rfl
  have htag := fun rest => @tagAt_here isTagBoundary TagName.event.text e.eventAttrs rest hboundary hattrs
  rw [openTag, xml_split 0, List.take_zero, List.flatMap_nil, List.nil_append, after_succ rfl]
  simp only [List.cons_append, List.append_assoc, List.nil_append] at htag ⊢
  rw [scan_of_some (htag _), Option.map_some]

theorem openTag_chat (h : e.Clean) :
    openTag e.xml .chat = some ('<' :: (TagName.chat.text ++ e.chatAttrs ++ ['>'])) := by
  have hroom := h.not_mem (v := e.room) (by simp)
  have hcallsign := h.not_mem (v := e.callsign) (by simp)
  have hattrs : '>' ∉ e.chatAttrs := by
    unfold chatAttrs
    repeat rw [String.toList_ofList]
    simp [hroom, hcallsign]
  have hboundary : e.chatAttrs.head?.any isTagBoundary = true := by
    unfold chatAttrs
    rw [String.toList_ofList, List.cons_append, List.head?_cons]
    rfl
  have hbefore : ∀ piece ∈ e.pieces.take 3, '<' ∉ piece ∧ (∀ y ∈ piece.head?, y ≠ '_') ∧ piece ≠ [] := by
    intro piece hpiece
    refine ⟨h.pieces_closed piece (List.mem_of_mem_take hpiece), ?_⟩
    simp only [pieces, List.take, List.mem_cons, List.not_mem_nil, or_false] at hpiece
    rcases hpiece with rfl | rfl | rfl
    all_goals
      try unfold point
      try unfold TagName.text
      rw [String.toList_ofList]
      simp
  have hname : TagName.chat.text = '_' :: "_chat".toList := by decide
  have htag := @tagAt_here isTagBoundary TagName.chat.text e.chatAttrs (e.after 4) hboundary hattrs
  rw [openTag, xml_split 3, hname, scan_pieces hbefore, ← hname, after_succ rfl]
  simp only [List.cons_append, List.append_assoc, List.nil_append] at htag ⊢
  rw [scan_of_some htag, Option.map_some]

-- The text ends at the end tag of the remarks.
theorem remarksText_xml (h : e.Clean) : remarksText e.xml = some (unescapeXml e.text) := by
  have hsender := h.not_mem (v := e.sender) (by simp)
  have hroom := h.not_mem (v := e.room) (by simp)
  have hsentAt := h.not_mem (v := e.sentAt) (by simp)
  have htext := h.not_mem (v := e.text) (by simp)
  have hattrs : '>' ∉ e.remarksAttrs := by
    unfold remarksAttrs
    repeat rw [String.toList_ofList]
    simp [hsender, hroom, hsentAt]
  have hboundary : e.remarksAttrs.head?.any isRemarksBoundary = true := by
    unfold remarksAttrs
    rw [String.toList_ofList]
    simp only [List.cons_append, List.head?_cons]
    rfl
  have hbefore : ∀ piece ∈ e.pieces.take 7, '<' ∉ piece ∧ (∀ y ∈ piece.head?, y ≠ 'r') ∧ piece ≠ [] := by
    intro piece hpiece
    refine ⟨h.pieces_closed piece (List.mem_of_mem_take hpiece), ?_⟩
    simp only [pieces, List.take, List.mem_cons, List.not_mem_nil, or_false] at hpiece
    rcases hpiece with rfl | rfl | rfl | rfl | rfl | rfl | rfl
    all_goals
      try unfold point
      try unfold chatgrp
      try unfold link
      try unfold TagName.text
      rw [String.toList_ofList]
      simp
  have hname : "remarks".toList = 'r' :: "emarks".toList := by decide
  have htag := @tagAt_here isRemarksBoundary "remarks".toList e.remarksAttrs (e.text ++ e.after 8) hboundary hattrs
  have hopen : ¬ "/>".toList <:+ '<' :: "remarks".toList ++ e.remarksAttrs ++ ['>'] := by
    unfold remarksAttrs
    have hmark : "/>".toList = ['/', '>'] := by decide
    rw [hmark]
    rintro ⟨front, hfront⟩
    have hlast := congrArg (fun text => text.reverse.tail.head?) hfront
    simp at hlast
  have hend : "</remarks>".toList = '<' :: "/remarks>".toList := by decide
  have hbody : upTo "</remarks>".toList (e.text ++ e.after 8) = some e.text := by
    rw [hend]
    apply upTo_append htext.1
    rw [after_succ rfl]
    exact List.prefix_append _ _
  rw [remarksText, xml_split 7, hname, scan_pieces hbefore, ← hname, after_succ rfl]
  simp only [List.cons_append, List.append_assoc, List.nil_append] at htag hopen ⊢
  rw [scan_of_some htag]
  simp only [Option.bind_some, if_neg hopen, hbody, Option.map_some]

-- The event tag up to its uid, and the chat tag up to its room.
def eventStart : List Char := '<' :: TagName.event.text ++ " version=\"2.0\"".toList

def chatStart : List Char := '<' :: TagName.chat.text ++ " parent=\"RootContactGroup\" groupOwner=\"false\"".toList

theorem eventAttrs_eq : '<' :: (TagName.event.text ++ e.eventAttrs ++ ['>']) =
    eventStart ++ (' ' :: (AttrName.uid.text ++ '=' :: '"' :: (e.uid ++ '"' :: (" type=".toList ++ '"' ::
      ("b-t-f".toList ++ '"' :: (" time=\"".toList ++ e.time ++ "\" start=\"".toList ++ e.time ++ "\" stale=\"".toList ++
        e.stale ++ "\" how=\"h-g-i-g-o\"".toList ++ ['>'])))))) := by
  have hsplit : " version=\"2.0\" uid=\"".toList = " version=\"2.0\"".toList ++ ' ' :: AttrName.uid.text ++ ['=', '"'] := by
    decide
  unfold eventAttrs eventStart
  rw [hsplit]
  simp only [List.cons_append, List.append_assoc, List.nil_append]

theorem chatAttrs_eq : '<' :: (TagName.chat.text ++ e.chatAttrs ++ ['>']) =
    chatStart ++ (' ' :: (AttrName.chatroom.text ++ '=' :: '"' :: (e.room ++ '"' :: (" id=".toList ++ '"' ::
      (e.room ++ '"' :: (" senderCallsign=".toList ++ '"' :: (e.callsign ++ ['"', '>']))))))) := by
  have hsplit : " parent=\"RootContactGroup\" groupOwner=\"false\" chatroom=\"".toList =
      " parent=\"RootContactGroup\" groupOwner=\"false\"".toList ++ ' ' :: AttrName.chatroom.text ++ ['=', '"'] := by
    decide
  unfold chatAttrs chatStart
  rw [hsplit]
  simp only [List.cons_append, List.append_assoc, List.nil_append]

theorem attr_uid (h : e.Clean) : attr (openTag e.xml .event) .uid = some (unescapeXml e.uid) := by
  have huid := h.not_mem (v := e.uid) (by simp)
  have hname : AttrName.uid.text = 'u' :: "id".toList := by decide
  have hquiet : quiet 'u' eventStart = true := by decide
  rw [openTag_event h, attr, Option.bind_some, eventAttrs_eq, hname, scan_attr_quiet hquiet, ← hname,
    scan_attr_here huid.2.2.1, Option.map_some]

theorem attr_type (h : e.Clean) (huid : opensAttr AttrName.type.text e.uid = false) :
    attr (openTag e.xml .event) .type = some "b-t-f".toList := by
  have hclean := h.not_mem (v := e.uid) (by simp)
  have hname : AttrName.type.text = 't' :: "ype".toList := by decide
  have hquiet : quiet 't' (eventStart ++ (' ' :: AttrName.uid.text ++ ['=', '"'])) = true := by decide
  have hvalue : '"' ∉ " type=".toList ∧ '"' ∉ AttrName.type.text ∧ '"' ∉ "b-t-f".toList := by decide
  have htype : " type=".toList = ' ' :: (AttrName.type.text ++ ['=']) := by decide
  have htext : unescapeXml "b-t-f".toList = "b-t-f".toList := by decide
  have hskip := fun rest => @scan_attr_quiet 't' "ype".toList rest _ hquiet
  rw [← hname] at hskip
  rw [openTag_event h, attr, Option.bind_some, eventAttrs_eq]
  simp only [List.cons_append, List.append_assoc, List.nil_append] at hskip ⊢
  rw [hskip, scan_attr_value hclean.2.2.1 hclean.2.2.2 hvalue.2.1 hvalue.1, huid, if_neg (by simp), htype]
  simp only [List.cons_append, List.append_assoc, List.nil_append]
  rw [scan_attr_here hvalue.2.2, Option.map_some, htext]

theorem attr_chatroom (h : e.Clean) : attr (openTag e.xml .chat) .chatroom = some (unescapeXml e.room) := by
  have hroom := h.not_mem (v := e.room) (by simp)
  have hname : AttrName.chatroom.text = 'c' :: "hatroom".toList := by decide
  have hquiet : quiet 'c' chatStart = true := by decide
  rw [openTag_chat h, attr, Option.bind_some, chatAttrs_eq, hname, scan_attr_quiet hquiet, ← hname,
    scan_attr_here hroom.2.2.1, Option.map_some]

-- A room that ends like the beginning of the attribute opens a value at its closing quote.
theorem attr_after_room (h : e.Clean) {name : AttrName} {a : Char} {letters : List Char} (hname : name.text = a :: letters)
    (hquiet : quiet a (chatStart ++ (' ' :: AttrName.chatroom.text ++ ['=', '"'])) = true) (hletters : '"' ∉ name.text)
    (hroom : opensAttr name.text e.room = true) :
    attr (openTag e.xml .chat) name = some " id=".toList := by
  have hclean := h.not_mem (v := e.room) (by simp)
  have hvalue : '"' ∉ " id=".toList := by decide
  have htext : unescapeXml " id=".toList = " id=".toList := by decide
  have hskip := fun rest => @scan_attr_quiet a letters rest _ hquiet
  rw [← hname] at hskip
  rw [openTag_chat h, attr, Option.bind_some, chatAttrs_eq]
  simp only [List.cons_append, List.append_assoc, List.nil_append] at hskip ⊢
  rw [hskip, scan_attr_value hclean.2.2.1 hclean.2.2.2 hletters hvalue, hroom, if_pos rfl, Option.map_some, htext]

theorem attr_id (h : e.Clean) (hroom : opensAttr AttrName.id.text e.room = false) :
    attr (openTag e.xml .chat) .id = some (unescapeXml e.room) := by
  have hclean := h.not_mem (v := e.room) (by simp)
  have hname : AttrName.id.text = 'i' :: "d".toList := by decide
  have hquiet : quiet 'i' (chatStart ++ (' ' :: AttrName.chatroom.text ++ ['=', '"'])) = true := by decide
  have hvalue : '"' ∉ " id=".toList ∧ '"' ∉ AttrName.id.text := by decide
  have hid : " id=".toList = ' ' :: (AttrName.id.text ++ ['=']) := by decide
  have hskip := fun rest => @scan_attr_quiet 'i' "d".toList rest _ hquiet
  rw [← hname] at hskip
  rw [openTag_chat h, attr, Option.bind_some, chatAttrs_eq]
  simp only [List.cons_append, List.append_assoc, List.nil_append] at hskip ⊢
  rw [hskip, scan_attr_value hclean.2.2.1 hclean.2.2.2 hvalue.2 hvalue.1, hroom, if_neg (by simp), hid]
  simp only [List.cons_append, List.append_assoc, List.nil_append]
  rw [scan_attr_here hclean.2.2.1, Option.map_some]

theorem attr_senderCallsign (h : e.Clean) (hroom : opensAttr AttrName.senderCallsign.text e.room = false) :
    attr (openTag e.xml .chat) .senderCallsign = some (unescapeXml e.callsign) := by
  have hclean := h.not_mem (v := e.room) (by simp)
  have hcallsign := h.not_mem (v := e.callsign) (by simp)
  have hname : AttrName.senderCallsign.text = 's' :: "enderCallsign".toList := by decide
  have hquiet : quiet 's' (chatStart ++ (' ' :: AttrName.chatroom.text ++ ['=', '"'])) = true ∧
      quiet 's' (" id=".toList ++ ['"']) = true := by decide
  have hvalue : '"' ∉ " id=".toList ∧ '"' ∉ AttrName.senderCallsign.text ∧ '"' ∉ " senderCallsign=".toList := by
    decide
  have hsender : " senderCallsign=".toList = ' ' :: (AttrName.senderCallsign.text ++ ['=']) := by decide
  have hskip := fun rest => @scan_attr_quiet 's' "enderCallsign".toList rest _ hquiet.1
  have hskipId := fun rest => @scan_attr_quiet 's' "enderCallsign".toList rest _ hquiet.2
  rw [← hname] at hskip hskipId
  rw [openTag_chat h, attr, Option.bind_some, chatAttrs_eq]
  simp only [List.cons_append, List.append_assoc, List.nil_append] at hskip hskipId ⊢
  rw [hskip, scan_attr_value hclean.2.2.1 hclean.2.2.2 hvalue.2.1 hvalue.1, hroom, if_neg (by simp), hskipId,
    scan_attr_value hclean.2.2.1 hclean.2.2.2 hvalue.2.1 hvalue.2.2, hroom, if_neg (by simp), hsender]
  simp only [List.cons_append, List.append_assoc, List.nil_append]
  rw [scan_attr_here hcallsign.2.2.1, Option.map_some]

end EventTexts

end MeshClient.Tak
