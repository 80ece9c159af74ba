import MeshClient.Js.Number
import MeshClient.Lib.Trim

namespace MeshClient.Meshcore

open Js

structure MeshcoreNormalizedText where
  senderName : Option String := none
  payload : String
  bracketTargetName : Option String := none
  wireReplyKey : Option Nat := none
  hadBracketReplyPrefix : Bool := false
deriving DecidableEq

-- `/#(\d{10,})$/`: the text before the `#` and the digits after it.
def replyKeySuffix (cs : List Char) : Option (List Char × List Char) :=
  let digits := cs.rtakeWhile isDigit
  if digits.length < 10 then none
  else
    match (cs.rdropWhile isDigit).getLast? with
    | some '#' => some ((cs.rdropWhile isDigit).dropLast, digits)
    | _ => none

-- Names that the bracket wire cannot carry become empty.
def sanitizeMeshcoreWireName (name : String) : String :=
  let normalized := trim (collapseSpaces name)
  if ']' ∈ normalized.toList ∨ (replyKeySuffix normalized.toList).isSome then "" else normalized

def wireName (displayName : String) : String :=
  let clean := sanitizeMeshcoreWireName displayName
  if clean = "" then "Unknown" else clean

-- A key that is not finite is `none`.
def formatMeshcoreWireReplyPrefix (displayName : String) (replyKey : Option ℚ) : String :=
  let key := (replyKey.map fun q => q.num.tdiv q.den).getD 0
  if key ≤ 0 then "@[" ++ wireName displayName ++ "]"
  else "@[" ++ wireName displayName ++ "#" ++ String.ofList (numberText key.toNat) ++ "]"

def formatMeshcoreWireTapbackPrefix (displayName : String) : String := "@[" ++ wireName displayName ++ "]"

def parseMeshcoreBracketTarget (rawTarget : List Char) : Option String × Option Nat :=
  let trimmed := trimChars rawTarget
  if trimmed = [] then (none, none)
  else
    match replyKeySuffix trimmed with
    | none => (some (String.ofList trimmed), none)
    | some (before, digits) =>
        let targetName := trimChars before
        (if targetName = [] then none else some (String.ofList targetName),
          (finiteNumber digits).filter (0 < ·))

-- `/^@\[([^\]]*)\]\s*(.*)$/su`
def bracketPrefix : List Char → Option (List Char × List Char)
  | '@' :: '[' :: cs =>
      match cs.dropWhile (· ≠ ']') with
      | [] => none
      | _ :: rest => some (cs.takeWhile (· ≠ ']'), rest.dropWhile isSpace)
  | _ => none

structure BracketPrefix where
  hadBracketPrefix : Bool
  targetName : Option String := none
  wireReplyKey : Option Nat := none
  body : String
deriving DecidableEq

def parseMeshcoreBracketPrefix (rawText : String) : BracketPrefix :=
  let t := trimChars rawText.toList
  match bracketPrefix t with
  | none => { hadBracketPrefix := false, body := String.ofList t }
  | some (inner, rest) =>
      let (targetName, wireReplyKey) := parseMeshcoreBracketTarget inner
      { hadBracketPrefix := true, targetName, wireReplyKey, body := String.ofList (trimChars rest) }

def parseMeshcorePlainBracketLine (rawText : String) : MeshcoreNormalizedText :=
  let parsed := parseMeshcoreBracketPrefix rawText
  if !parsed.hadBracketPrefix then { payload := parsed.body }
  else
    { hadBracketReplyPrefix := true
      payload := parsed.body
      bracketTargetName := parsed.targetName
      wireReplyKey := parsed.wireReplyKey }

theorem trimChars_eq_self_iff (cs : List Char) : trimChars cs = cs ↔ Trim.Neat isSpace cs :=
  Trim.trim_eq_self_iff

-- What a name that the bracket wire can carry looks like.
structure WireSafe (name : List Char) : Prop where
  nonempty : name ≠ []
  neat : Trim.Neat isSpace name
  noBracket : ']' ∉ name
  noKey : replyKeySuffix name = none

theorem sanitizeMeshcoreWireName_safe {name : String} (h : sanitizeMeshcoreWireName name ≠ "") :
    WireSafe (sanitizeMeshcoreWireName name).toList := by
  unfold sanitizeMeshcoreWireName at h ⊢
  simp only at h ⊢
  by_cases hunsafe : ']' ∈ (trim (collapseSpaces name)).toList ∨
      (replyKeySuffix (trim (collapseSpaces name)).toList).isSome = true
  · rw [if_pos hunsafe] at h
    exact absurd rfl h
  · rw [if_neg hunsafe] at h ⊢
    obtain ⟨hbracket, hkey⟩ := not_or.mp hunsafe
    refine ⟨fun hnil => h (String.toList_injective hnil), ?_, hbracket, by simpa using hkey⟩
    rw [trim, String.toList_ofList]
    exact Trim.neat_trim _

-- Digits of at least ten places after a `#` come apart again from what stands before them.
theorem replyKeySuffix_append {name digits : List Char} (hdigits : ∀ c ∈ digits, isDigit c = true)
    (hlong : 10 ≤ digits.length) : replyKeySuffix (name ++ '#' :: digits) = some (name, digits) := by
  have hsplit : name ++ '#' :: digits = (name ++ ['#']) ++ digits := by simp
  have hdrop : (name ++ '#' :: digits).rdropWhile isDigit = name ++ ['#'] := by
    rw [hsplit, Trim.rdropWhile_append hdigits]
    exact List.rdropWhile_concat_neg _ _ _ (by decide)
  have htake : (name ++ '#' :: digits).rtakeWhile isDigit = digits := by
    have hwhole := @List.rdropWhile_append_rtakeWhile _ isDigit (name ++ '#' :: digits)
    rw [hdrop] at hwhole
    exact List.append_cancel_left (hwhole.trans hsplit)
  simp only [replyKeySuffix, htake, hdrop, if_neg (Nat.not_lt.mpr hlong)]
  simp

theorem splitAtBracket {inner rest : List Char} (hinner : ']' ∉ inner) :
    bracketPrefix ('@' :: '[' :: (inner ++ ']' :: rest)) = some (inner, rest.dropWhile isSpace) := by
  have hpos : ∀ c ∈ inner, decide (c ≠ ']') = true := by
    intro c hc
    apply decide_eq_true
    rintro rfl
    exact hinner hc
  simp only [bracketPrefix]
  rw [List.dropWhile_append_of_pos hpos, List.takeWhile_append_of_pos hpos]
  simp

-- A bracketed target in front of a text is read back together with the text.
theorem parseMeshcorePlainBracketLine_wire {wire body : String} {inner : List Char}
    (hwire : wire.toList = '@' :: '[' :: (inner ++ [']'])) (hinner : ']' ∉ inner) (hbody : trim body = body)
    (hne : body ≠ "") :
    parseMeshcorePlainBracketLine (wire ++ " " ++ body) =
      { hadBracketReplyPrefix := true
        payload := body
        bracketTargetName := (parseMeshcoreBracketTarget inner).1
        wireReplyKey := (parseMeshcoreBracketTarget inner).2 } := by
  have hneat : Trim.Neat isSpace body.toList := by
    rw [← trimChars_eq_self_iff]
    have hlist := congrArg String.toList hbody
    rwa [trim, String.toList_ofList] at hlist
  have hne' : body.toList ≠ [] := fun hnil => hne (String.toList_injective hnil)
  have htext : (wire ++ " " ++ body).toList = '@' :: '[' :: (inner ++ ']' :: (' ' :: body.toList)) := by
    simp [String.toList_append, hwire]
  have htrim : trimChars (wire ++ " " ++ body).toList = '@' :: '[' :: (inner ++ ']' :: (' ' :: body.toList)) := by
    rw [htext, trimChars_eq_self_iff]
    have hat : Trim.Neat isSpace ['@'] := by
      refine ⟨fun c hc => ?_, fun c hc => ?_⟩ <;> simp at hc <;> subst hc <;> decide
    have happend := @Trim.Neat.append _ isSpace ['@'] body.toList ('[' :: (inner ++ [']', ' '])) hat hneat (by simp) hne'
    simpa using happend
  have hspace : (' ' :: body.toList).dropWhile isSpace = body.toList := by
    rw [List.dropWhile_cons_of_pos (by decide)]
    exact Trim.dropWhile_of_head hneat.head
  have hprefix : parseMeshcoreBracketPrefix (wire ++ " " ++ body) =
      { hadBracketPrefix := true, targetName := (parseMeshcoreBracketTarget inner).1,
        wireReplyKey := (parseMeshcoreBracketTarget inner).2, body := body } := by
    simp only [parseMeshcoreBracketPrefix, htrim, splitAtBracket hinner, hspace]
    rw [(trimChars_eq_self_iff _).mpr hneat, String.ofList_toList]
  simp [parseMeshcorePlainBracketLine, hprefix]

theorem isSpace_of_isDigit {c : Char} (h : isDigit c = true) : isSpace c = false := by
  simp only [isDigit, Bool.and_eq_true, decide_eq_true_eq] at h
  have hzero : '0'.toNat = 48 := rfl
  have hnine : '9'.toNat = 57 := rfl
  simp only [isSpace, List.mem_cons, List.not_mem_nil, or_false, Bool.or_eq_false_iff, decide_eq_false_iff_not,
    Bool.and_eq_false_iff]
  omega

theorem wireName_eq {displayName : String} (h : sanitizeMeshcoreWireName displayName ≠ "") :
    wireName displayName = sanitizeMeshcoreWireName displayName := by
  rw [wireName]
  simp only [if_neg h]

theorem parseMeshcoreBracketTarget_name {name : List Char} (h : WireSafe name) :
    parseMeshcoreBracketTarget name = (some (String.ofList name), none) := by
  simp only [parseMeshcoreBracketTarget, (trimChars_eq_self_iff name).mpr h.neat, if_neg h.nonempty, h.noKey]

theorem parseMeshcoreBracketTarget_keyed {name : List Char} (h : WireSafe name) {k : Nat}
    (hk : roundToDouble k = k) (hlow : 10 ^ 9 ≤ k) (hhigh : k < 10 ^ 21) :
    parseMeshcoreBracketTarget (name ++ '#' :: numberText k) = (some (String.ofList name), some k) := by
  obtain ⟨hdigits, hlong, hread⟩ := numberText_spec hk hlow hhigh
  have hneat : Trim.Neat isSpace (name ++ '#' :: numberText k) := by
    have hkey : Trim.Neat isSpace (numberText k) :=
      (trimChars_eq_self_iff _).mp (trimChars_of_forall fun c hc => isSpace_of_isDigit (hdigits c hc))
    have hne : numberText k ≠ [] := List.ne_nil_of_length_pos (by omega)
    have happend := @Trim.Neat.append _ isSpace name (numberText k) ['#'] h.neat hkey h.nonempty hne
    simpa using happend
  have hpos : 0 < k := (Nat.pow_pos (by omega)).trans_le hlow
  have hne : name ++ '#' :: numberText k ≠ [] := by simp
  simp only [parseMeshcoreBracketTarget, (trimChars_eq_self_iff _).mpr hneat, if_neg hne, replyKeySuffix_append hdigits hlong,
    (trimChars_eq_self_iff name).mpr h.neat, if_neg h.nonempty, hread]
  simp [Option.filter, hpos]

-- Replies with a key of ten digits or more, and replies without one, come back from the wire.
theorem wire_replies_round_trip (name body : String) (hname : sanitizeMeshcoreWireName name ≠ "")
    (hbody : trim body = body) (hne : body ≠ "") :
    (∀ k : Nat, roundToDouble k = k → 10 ^ 9 ≤ k → k < 10 ^ 21 →
      parseMeshcorePlainBracketLine (formatMeshcoreWireReplyPrefix name (some k) ++ " " ++ body) =
        { hadBracketReplyPrefix := true
          payload := body
          bracketTargetName := some (sanitizeMeshcoreWireName name)
          wireReplyKey := some k }) ∧
    parseMeshcorePlainBracketLine (formatMeshcoreWireTapbackPrefix name ++ " " ++ body) =
      { hadBracketReplyPrefix := true
        payload := body
        bracketTargetName := some (sanitizeMeshcoreWireName name) } := by
  have hsafe := sanitizeMeshcoreWireName_safe hname
  refine ⟨fun k hk hlow hhigh => ?_, ?_⟩
  · obtain ⟨hdigits, -, -⟩ := numberText_spec hk hlow hhigh
    have hwire : (formatMeshcoreWireReplyPrefix name (some k)).toList =
        '@' :: '[' :: ((sanitizeMeshcoreWireName name).toList ++ '#' :: numberText k ++ [']']) := by
      have hpos : k ≠ 0 := by
        have hten := Nat.one_le_pow 9 10 (by omega)
        omega
      simp [formatMeshcoreWireReplyPrefix, hpos, wireName_eq hname]
    have hinner : ']' ∉ (sanitizeMeshcoreWireName name).toList ++ '#' :: numberText k := by
      intro hmem
      rcases List.mem_append.mp hmem with hmem | hmem
      · exact hsafe.noBracket hmem
      · rcases List.mem_cons.mp hmem with heq | hmem
        · exact absurd heq (by decide)
        · exact absurd (hdigits _ hmem) (by decide)
    rw [parseMeshcorePlainBracketLine_wire hwire hinner hbody hne,
      parseMeshcoreBracketTarget_keyed hsafe hk hlow hhigh, String.ofList_toList]
  · have hwire : (formatMeshcoreWireTapbackPrefix name).toList =
        '@' :: '[' :: ((sanitizeMeshcoreWireName name).toList ++ [']']) := by
      simp [formatMeshcoreWireTapbackPrefix, wireName_eq hname]
    rw [parseMeshcorePlainBracketLine_wire hwire hsafe.noBracket hbody hne,
      parseMeshcoreBracketTarget_name hsafe, String.ofList_toList]

theorem wire_replies_round_trip_bob :
    (∀ k : Nat, roundToDouble k = k → 10 ^ 9 ≤ k → k < 10 ^ 21 →
      parseMeshcorePlainBracketLine (formatMeshcoreWireReplyPrefix "Bob #1" (some k) ++ " " ++ "[ok]") =
        { hadBracketReplyPrefix := true
          payload := "[ok]"
          bracketTargetName := some (sanitizeMeshcoreWireName "Bob #1")
          wireReplyKey := some k }) ∧
    parseMeshcorePlainBracketLine (formatMeshcoreWireTapbackPrefix "Bob #1" ++ " " ++ "[ok]") =
      { hadBracketReplyPrefix := true
        payload := "[ok]"
        bracketTargetName := some (sanitizeMeshcoreWireName "Bob #1") } :=
  wire_replies_round_trip "Bob #1" "[ok]" (by decide) (by decide) (by decide)

-- A short key stays part of the name.
theorem short_reply_key_is_read_as_name :
    ¬∀ (name body : String) (k : Nat), sanitizeMeshcoreWireName name ≠ "" → trim body = body → body ≠ "" →
      0 < k → roundToDouble k = k →
      parseMeshcorePlainBracketLine (formatMeshcoreWireReplyPrefix name (some k) ++ " " ++ body) =
        { hadBracketReplyPrefix := true
          payload := body
          bracketTargetName := some (sanitizeMeshcoreWireName name)
          wireReplyKey := some k } := by
  intro h
  have hread := h "Bob" "hi" 5 (by decide) (by decide) (by decide) (by decide) (by decide)
  revert hread
  decide

end MeshClient.Meshcore
