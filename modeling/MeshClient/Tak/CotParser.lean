import MeshClient.Tak.XmlEscape

namespace MeshClient.Tak

open Scan Js

-- The open tags and attributes a GeoChat event is read by.
inductive TagName where
  | event
  | chat
deriving DecidableEq, Repr

inductive AttrName where
  | id
  | uid
  | type
  | chatroom
  | senderCallsign
deriving DecidableEq, Repr

def TagName.text : TagName → List Char
  | event => "event".toList
  | chat => "__chat".toList

def AttrName.text : AttrName → List Char
  | id => "id".toList
  | uid => "uid".toList
  | type => "type".toList
  | chatroom => "chatroom".toList
  | senderCallsign => "senderCallsign".toList

def isTagBoundary (c : Char) : Bool := isSpace c || c = '/' || c = '>'

def isRemarksBoundary (c : Char) : Bool := isSpace c || c = '>'

-- `<name(?=[...])[^>]*>` at the front: the tag and what follows it.
def tagAt (boundary : Char → Bool) (name xml : List Char) : Option (List Char × List Char) :=
  (xml.dropPrefix? ('<' :: name)).bind fun rest =>
    if rest.head?.any boundary = true ∧ '>' ∈ rest then
      some ('<' :: name ++ rest.takeWhile (· ≠ '>') ++ ['>'], (rest.dropWhile (· ≠ '>')).tail)
    else none

def afterEquals : List Char → Option (List Char)
  | '=' :: rest => some rest
  | _ => none

-- `"([^"]*)"` or `'([^']*)'`
def quoted : List Char → Option (List Char)
  | '"' :: rest => if '"' ∈ rest then some (rest.takeWhile (· ≠ '"')) else none
  | '\'' :: rest => if '\'' ∈ rest then some (rest.takeWhile (· ≠ '\'')) else none
  | _ => none

-- `\sname\s*=\s*` and a quoted value at the front.
def attrAt (name : List Char) : List Char → Option (List Char)
  | [] => none
  | c :: cs =>
      if isSpace c then
        ((cs.dropPrefix? name).bind fun rest => afterEquals (rest.dropWhile isSpace)).bind fun rest =>
          quoted (rest.dropWhile isSpace)
      else none

def openTag (xml : List Char) (name : TagName) : Option (List Char) :=
  (scan (tagAt isTagBoundary name.text) xml).map Prod.fst

def attr (tag : Option (List Char)) (name : AttrName) : Option (List Char) :=
  tag.bind fun tag => (scan (attrAt name.text) tag).map unescapeXml

def remarksText (xml : List Char) : Option (List Char) :=
  (scan (tagAt isRemarksBoundary "remarks".toList) xml).bind fun (start, body) =>
    if "/>".toList <:+ start then none else (upTo "</remarks>".toList body).map unescapeXml

-- `length` counts UTF-16 code units.
def textLength (text : List Char) : Nat := (text.flatMap charCodes).length

-- The first `max` code units; U+FFFD stands for the first half of a pair that is cut.
def sliceUnits (max : Nat) : List Char → List Char
  | [] => []
  | c :: cs =>
      if (charCodes c).length ≤ max then c :: sliceUnits (max - (charCodes c).length) cs
      else if max = 0 then [] else ['\uFFFD']

def clip (text : Option (List Char)) (max : Nat) : Option (List Char) :=
  text.bind fun text =>
    let trimmed := trimChars text
    if trimmed = [] then none
    else some (if textLength trimmed > max then sliceUnits max trimmed else trimmed)

-- `\p{Cc}`
def isControl (c : Char) : Bool := c.toNat < 0x20 || (0x7F ≤ c.toNat && c.toNat ≤ 0x9F)

-- `\p{Cc}+`, for one blank
def controlRun : List Char → Option (Nat × List Char)
  | [] => none
  | c :: cs => if isControl c then some ((cs.takeWhile isControl).length, [' ']) else none

def singleLine (text : Option (List Char)) : Option (List Char) := text.map (replaceAll controlRun)

def TAK_GEOCHAT_TEXT_MAX_LEN : Nat := 1024

def TAK_GEOCHAT_ROOM_MAX_LEN : Nat := 64

def TAK_GEOCHAT_CALLSIGN_MAX_LEN : Nat := 64

def COT_GEOCHAT_TYPE : List Char := "b-t-f".toList

def MESH_CHAT_UID_PREFIX : List Char := "MESHCHAT-".toList

def COT_UID_PREFIXES : List (List Char) := ["MESH-".toList, "MC-".toList, "RN-".toList]

def MAX_CHAT_ROOM_ID_LENGTH : Nat := 128

def isLetterOrDigit (c : Char) : Bool :=
  isDigit c || ('a'.toNat ≤ c.toNat && c.toNat ≤ 'z'.toNat) || ('A'.toNat ≤ c.toNat && c.toNat ≤ 'Z'.toNat)

-- `CHAT_UID_RE`: `^[A-Za-z0-9_.:@-]{1,128}$`
def isChatUid (uid : List Char) : Bool :=
  uid.all (fun c => isLetterOrDigit c || c ∈ ['_', '.', ':', '@', '-']) && 1 ≤ uid.length && uid.length ≤ 128

-- `CHAT_MESSAGE_ID_RE`: `^[A-Za-z0-9-]{1,64}$`
def isChatMessageId (id : List Char) : Bool :=
  id.all (fun c => isLetterOrDigit c || c = '-') && 1 ≤ id.length && id.length ≤ 64

structure CotGeochat where
  room : List Char
  senderCallsign : List Char
  senderUid : List Char
  text : List Char
  messageId : Option (List Char)
  roomId : Option (List Char)
deriving DecidableEq, Repr

def parseGeochatEvent (xml : List Char) : Option CotGeochat :=
  let eventTag := openTag xml .event
  if attr eventTag .type ≠ some COT_GEOCHAT_TYPE then none
  else
    let chatTag := openTag xml .chat
    let room := (clip (singleLine (attr chatTag .chatroom)) TAK_GEOCHAT_ROOM_MAX_LEN).getD []
    let text := (clip (singleLine (remarksText xml)) TAK_GEOCHAT_TEXT_MAX_LEN).getD []
    if room = [] ∨ text = [] then none
    else
      let uidParts := ((attr eventTag .uid).getD []).splitOn '.'
      let fromEventUid : Bool := uidParts[0]? = some "GeoChat".toList ∧ uidParts.length ≥ 4
      let senderUid := if fromEventUid then (uidParts[1]?).getD [] else []
      if ¬ isChatUid senderUid then none
      else if MESH_CHAT_UID_PREFIX <+: senderUid then none
      else if COT_UID_PREFIXES.any (·.isPrefixOf senderUid) then none
      else
        let roomId := ((singleLine (attr chatTag .id)).map trimChars).getD []
        let messageId := if fromEventUid then (uidParts[uidParts.length - 1]?).getD [] else []
        some {
          room, senderUid, text
          senderCallsign :=
            (clip (singleLine (attr chatTag .senderCallsign)) TAK_GEOCHAT_CALLSIGN_MAX_LEN).getD []
          roomId := if roomId ≠ [] ∧ textLength roomId ≤ MAX_CHAT_ROOM_ID_LENGTH then some roomId else none
          messageId := if isChatMessageId messageId then some messageId else none
        }

section Tags

variable {boundary : Char → Bool} {a : Char} {name attrs rest : List Char}

theorem tagAt_of_ne (x : Char) (xs : List Char) (h : ¬ x = '<') : tagAt boundary name (x :: xs) = none := by
  simp [tagAt, List.dropPrefix?, h]

theorem tagAt_other {y : Char} (h : y ≠ a) (xs : List Char) :
    tagAt boundary (a :: name) ('<' :: y :: xs) = none := by
  simp [tagAt, List.dropPrefix?, h]

theorem dropPrefix_append (p xs : List Char) : (p ++ xs).dropPrefix? p = some xs := by
  rw [List.dropPrefix?_eq_some_iff]
  exact ⟨p, rfl, by simp⟩

theorem takeWhile_stop {p : Char → Bool} {x : Char} (hfront : ∀ c ∈ attrs, p c = true) (hx : p x = false) :
    (attrs ++ x :: rest).takeWhile p = attrs ∧ (attrs ++ x :: rest).dropWhile p = x :: rest := by
  induction attrs with
  | nil => simp [hx]
  | cons c cs ih =>
      rw [List.forall_mem_cons] at hfront
      simp [hfront.1, ih hfront.2]

theorem tagAt_here (hboundary : attrs.head?.any boundary = true) (hattrs : '>' ∉ attrs) :
    tagAt boundary name ('<' :: name ++ (attrs ++ '>' :: rest)) = some ('<' :: name ++ attrs ++ ['>'], rest) := by
  have hne : attrs ≠ [] := by
    rintro rfl
    simp at hboundary
  have hhead : (attrs ++ '>' :: rest).head? = attrs.head? := by
    rw [List.head?_append_of_ne_nil _ hne]
  have hstop := @takeWhile_stop attrs rest (fun c => decide (c ≠ '>')) '>'
    (by
      intro c hc
      simp only [ne_eq, decide_eq_true_eq]
      rintro rfl
      exact hattrs hc)
    (by simp)
  rw [tagAt, dropPrefix_append, Option.bind_some, if_pos ⟨by rw [hhead]; exact hboundary, by simp⟩, hstop.1,
    hstop.2, List.tail_cons]

-- A stretch of the event between two tags, which holds no other tag.
theorem scan_tag_skip {piece : List Char} (hpiece : '<' ∉ piece) (hname : ∀ y ∈ piece.head?, y ≠ a)
    (hne : piece ≠ []) :
    scan (tagAt boundary (a :: name)) ('<' :: piece ++ rest) = scan (tagAt boundary (a :: name)) rest := by
  obtain ⟨y, ys, rfl⟩ := List.exists_cons_of_ne_nil hne
  have hfirst := @tagAt_other boundary a name y (hname y rfl) (ys ++ rest)
  rw [List.cons_append, List.cons_append, scan_cons_of_none hfirst, ← List.cons_append]
  apply scan_skip_of_head tagAt_of_ne
  rintro x hx rfl
  exact hpiece hx

theorem scan_pieces {pieces : List (List Char)}
    (h : ∀ piece ∈ pieces, '<' ∉ piece ∧ (∀ y ∈ piece.head?, y ≠ a) ∧ piece ≠ []) :
    scan (tagAt boundary (a :: name)) (pieces.flatMap ('<' :: ·) ++ rest) = scan (tagAt boundary (a :: name)) rest := by
  induction pieces with
  | nil => rfl
  | cons piece pieces ih =>
      obtain ⟨hpiece, hhead, hne⟩ := h piece List.mem_cons_self
      rw [List.flatMap_cons, List.append_assoc, scan_tag_skip hpiece hhead hne,
        ih fun p hp => h p (List.mem_cons_of_mem piece hp)]

end Tags

end MeshClient.Tak
