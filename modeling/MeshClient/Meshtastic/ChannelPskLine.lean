import MeshClient.Js.Text
import MeshClient.Lib.Base64
import MeshClient.Lib.Trim

namespace MeshClient.Meshtastic

open Js

def NAMED_CHANNEL_LABEL_MAX_LEN : Nat := 20

inductive SplitChannelPskLine where
  | named (name : String) (index : Option Nat) (b64 : String)
  | bare (b64 : String)
deriving DecidableEq

-- `[A-Za-z0-9_-]`
def isLabelChar (c : Char) : Bool := c.isAlphanum || c = '_' || c = '-'

-- `/^([A-Za-z0-9_-]+)(@[0-7])?$/`
def namedChannelPskLeft (left : List Char) : Option (List Char × Option Nat) :=
  let name := left.takeWhile isLabelChar
  if name = [] then none
  else
    match left.dropWhile isLabelChar with
    | [] => some (name, none)
    | ['@', c] => if '0' ≤ c ∧ c ≤ '7' then some (name, some (c.toNat - '0'.toNat)) else none
    | _ => none

-- The text before the first `=` and the text after it.
def splitAtEquals (trimmed : List Char) : Option (List Char × List Char) :=
  match trimmed.dropWhile (· ≠ '=') with
  | [] => none
  | _ :: after => some (trimmed.takeWhile (· ≠ '='), after)

def splitTrimmed (trimmed : List Char) : SplitChannelPskLine :=
  let bare := SplitChannelPskLine.bare (String.ofList trimmed)
  match splitAtEquals trimmed with
  | none => bare
  | some (before, b64) =>
      if before = [] then bare
      else
        let left := trimChars before
        match namedChannelPskLeft left with
        | none => bare
        | some (name, index) =>
            if index.isSome ∨ 0 < b64.length ∨ left.length ≤ NAMED_CHANNEL_LABEL_MAX_LEN then
              .named (String.ofList name) index (String.ofList b64)
            else bare

def splitChannelPskLine (line : String) : Option SplitChannelPskLine :=
  let trimmed := trimChars line.toList
  if trimmed = [] then none else some (splitTrimmed trimmed)

-- How a channel is written before the `=`, with or without its index.
def channelLabel (name : List Char) : Option (Fin 8) → List Char
  | none => name
  | some index => name ++ ['@', Char.ofNat ('0'.toNat + index)]

def UsesPlusOrSlash (key : List UInt8) : Prop := ∃ c ∈ Base64.digits key, c = '+' ∨ c = '/'

theorem isSpace_of_isAlphanum {c : Char} (h : c.isAlphanum = true) : isSpace c = false := by
  simp only [Char.isAlphanum, Char.isAlpha, Char.isUpper, Char.isLower, Char.isDigit, Bool.or_eq_true,
    Bool.and_eq_true, decide_eq_true_eq, UInt32.le_iff_toNat_le] at h
  have hn : c.toNat = c.val.toNat := rfl
  have hbounds : 0x30 ≤ c.toNat ∧ c.toNat ≤ 0x7a := by
    rw [hn]
    rcases h with (⟨h₁, h₂⟩ | ⟨h₁, h₂⟩) | ⟨h₁, h₂⟩ <;> simp at h₁ h₂ <;> omega
  simp only [isSpace, List.mem_cons, List.not_mem_nil, or_false, Bool.or_eq_false_iff, decide_eq_false_iff_not,
    Bool.and_eq_false_iff]
  omega

theorem isSpace_of_isLabelChar {c : Char} (h : isLabelChar c = true) : isSpace c = false := by
  simp only [isLabelChar, Bool.or_eq_true, decide_eq_true_eq] at h
  rcases h with (h | rfl) | rfl
  · exact isSpace_of_isAlphanum h
  · decide
  · decide

theorem isSpace_of_isDigit {c : Char} (h : Base64.IsDigit c) : isSpace c = false := by
  rcases Base64.isDigit_alphanum h with h | rfl | rfl
  · exact isSpace_of_isAlphanum h
  · decide
  · decide

theorem isSpace_of_mem_encode {key : List UInt8} : ∀ c ∈ Base64.encode key, isSpace c = false := by
  intro c hc
  rcases List.mem_append.mp hc with hc | hc
  · exact isSpace_of_isDigit (Base64.isDigit_of_mem c hc)
  · rw [List.eq_of_mem_replicate hc]
    decide

theorem trimChars_between {before text after : List Char} (hbefore : ∀ c ∈ before, isSpace c = true)
    (hafter : ∀ c ∈ after, isSpace c = true) (htext : ∀ c ∈ text, isSpace c = false) :
    trimChars (before ++ text ++ after) = text := by
  show Trim.trim isSpace (before ++ text ++ after) = text
  rw [Trim.trim_append_right hafter, Trim.trim_append_left hbefore]
  exact trimChars_of_forall htext

theorem splitAtEquals_append {before after : List Char} (h : ∀ c ∈ before, c ≠ '=') :
    splitAtEquals (before ++ '=' :: after) = some (before, after) := by
  have hpos : ∀ c ∈ before, decide (c ≠ '=') = true := fun c hc => decide_eq_true (h c hc)
  rw [splitAtEquals, List.dropWhile_append_of_pos hpos, List.takeWhile_append_of_pos hpos]
  simp

theorem encode_eq {key : List UInt8} (hkey : key.length = 16 ∨ key.length = 32) : Base64.encode key =
    Base64.digits key ++ '=' :: List.replicate (if key.length = 16 then 1 else 0) '=' := by
  have hlen := Base64.digits_length key
  rw [Base64.encode, Base64.padding]
  rcases hkey with h | h <;> rw [hlen, h] <;> rfl

theorem namedChannelPskLeft_label {name : List Char} (index : Option (Fin 8)) (hname : name ≠ [])
    (hlabel : ∀ c ∈ name, isLabelChar c = true) :
    namedChannelPskLeft (channelLabel name index) = some (name, index.map (·.val)) := by
  cases index with
  | none =>
      simp [channelLabel, namedChannelPskLeft, List.takeWhile_eq_self_iff.mpr hlabel,
        List.dropWhile_eq_nil_iff.mpr hlabel, hname]
  | some index =>
      have hat : isLabelChar '@' = false := by decide
      have htake : (channelLabel name (some index)).takeWhile isLabelChar = name := by
        rw [channelLabel, List.takeWhile_append_of_pos hlabel, List.takeWhile_cons, hat]
        simp
      have hdrop : (channelLabel name (some index)).dropWhile isLabelChar =
          ['@', Char.ofNat ('0'.toNat + index)] := by
        rw [channelLabel, List.dropWhile_append_of_pos hlabel, List.dropWhile_cons, hat]
        simp
      have hdigit : '0' ≤ Char.ofNat ('0'.toNat + index) ∧ Char.ofNat ('0'.toNat + index) ≤ '7' ∧
          (Char.ofNat ('0'.toNat + index)).toNat - '0'.toNat = index := by
        fin_cases index <;> decide
      rw [namedChannelPskLeft, htake, hdrop]
      simp only [if_neg hname, if_pos (And.intro hdigit.1 hdigit.2.1), hdigit.2.2, Option.map_some]

theorem namedChannelPskLeft_of_mark {left : List Char} {c : Char} (hc : c ∈ left) (hmark : c = '+' ∨ c = '/') :
    namedChannelPskLeft left = none := by
  have hnot : isLabelChar c = false := by rcases hmark with rfl | rfl <;> decide
  have hdrop : c ∈ left.dropWhile isLabelChar := by
    rw [← List.takeWhile_append_dropWhile (p := isLabelChar) (l := left)] at hc
    refine (List.mem_append.mp hc).resolve_left fun htake => ?_
    exact Bool.noConfusion (hnot.symm.trans (List.mem_takeWhile_imp htake))
  unfold namedChannelPskLeft
  simp only
  split
  · rfl
  · split
    · rename_i h
      rw [h] at hdrop
      cases hdrop
    · rename_i d h
      rw [h] at hdrop
      rcases List.mem_pair.mp hdrop with rfl | rfl
      · rcases hmark with h | h <;> exact absurd h (by decide)
      · rw [if_neg]
        rcases hmark with rfl | rfl <;> decide
    · rfl

theorem isLabelChar_of_not_usesPlusOrSlash {key : List UInt8} (h : ¬UsesPlusOrSlash key) :
    ∀ c ∈ Base64.digits key, isLabelChar c = true := by
  intro c hc
  rcases Base64.isDigit_alphanum (Base64.isDigit_of_mem c hc) with halnum | hplus | hslash
  · rw [isLabelChar, halnum]
    rfl
  · exact absurd ⟨c, hc, .inl hplus⟩ h
  · exact absurd ⟨c, hc, .inr hslash⟩ h

theorem splitTrimmed_of_label {label name b64 : List Char} {index : Option Nat}
    (hequals : ∀ c ∈ label, c ≠ '=') (hspace : ∀ c ∈ label, isSpace c = false) (hne : label ≠ [])
    (hleft : namedChannelPskLeft label = some (name, index)) :
    splitTrimmed (label ++ '=' :: b64) =
      if index.isSome ∨ 0 < b64.length ∨ label.length ≤ NAMED_CHANNEL_LABEL_MAX_LEN then
        .named (String.ofList name) index (String.ofList b64)
      else .bare (String.ofList (label ++ '=' :: b64)) := by
  simp only [splitTrimmed, splitAtEquals_append hequals, if_neg hne, trimChars_of_forall hspace, hleft]

-- A bare key is taken for a channel's name exactly when its text has no character that a name lacks and
-- leaves a padding sign after the first one.
theorem splitTrimmed_encode {key : List UInt8} (hkey : key.length = 16 ∨ key.length = 32) :
    splitTrimmed (Base64.encode key) = .bare (String.ofList (Base64.encode key)) ↔
      key.length = 32 ∨ UsesPlusOrSlash key := by
  have hequals : ∀ c ∈ Base64.digits key, c ≠ '=' := fun c hc =>
    Base64.ne_pad_of_isDigit (Base64.isDigit_of_mem c hc)
  have hspace : ∀ c ∈ Base64.digits key, isSpace c = false := fun c hc =>
    isSpace_of_isDigit (Base64.isDigit_of_mem c hc)
  have hlen := Base64.digits_length key
  have hne : Base64.digits key ≠ [] := by
    intro hnil
    rw [hnil, List.length_nil] at hlen
    omega
  by_cases hmark : UsesPlusOrSlash key
  · refine iff_of_true ?_ (.inr hmark)
    obtain ⟨c, hc, hplus⟩ := hmark
    rw [encode_eq hkey]
    simp only [splitTrimmed, splitAtEquals_append hequals, if_neg hne, trimChars_of_forall hspace,
      namedChannelPskLeft_of_mark hc hplus]
  · have hleft := namedChannelPskLeft_label none hne (isLabelChar_of_not_usesPlusOrSlash hmark)
    rw [encode_eq hkey, splitTrimmed_of_label hequals hspace hne hleft, or_iff_left hmark]
    rcases hkey with h | h
    · simp [h]
    · have hlong : ¬(Base64.digits key).length ≤ NAMED_CHANNEL_LABEL_MAX_LEN := by
        rw [hlen, h, NAMED_CHANNEL_LABEL_MAX_LEN]
        omega
      simp [h, hlong]

theorem plain_of_mem_channelLabel {name : List Char} (index : Option (Fin 8))
    (hlabel : ∀ c ∈ name, isLabelChar c = true) :
    ∀ c ∈ channelLabel name index, c ≠ '=' ∧ isSpace c = false := by
  have hname : ∀ c ∈ name, c ≠ '=' ∧ isSpace c = false := by
    intro c hc
    refine ⟨?_, isSpace_of_isLabelChar (hlabel c hc)⟩
    rintro rfl
    exact absurd (hlabel '=' hc) (by decide)
  cases index with
  | none => exact hname
  | some index =>
      intro c hc
      rcases List.mem_append.mp hc with hc | hc
      · exact hname c hc
      · fin_cases index <;> rcases List.mem_pair.mp hc with rfl | rfl <;> decide

theorem splitTrimmed_label {name : List Char} {key : List UInt8} (index : Option (Fin 8)) (hname : name ≠ [])
    (hlabel : ∀ c ∈ name, isLabelChar c = true) (hkey : key ≠ []) :
    splitTrimmed (channelLabel name index ++ '=' :: Base64.encode key) =
      .named (String.ofList name) (index.map (·.val)) (String.ofList (Base64.encode key)) := by
  have hplain := plain_of_mem_channelLabel index hlabel
  have hne : channelLabel name index ≠ [] := by
    cases index with
    | none => exact hname
    | some index => simp [channelLabel]
  have hlong : 0 < (Base64.encode key).length := by
    have hdigits : Base64.digits key ≠ [] := fun h => hkey ((Base64.digits_eq_nil_iff key).mp h)
    rw [Base64.encode, List.length_append]
    have hpos := List.length_pos_iff.mpr hdigits
    omega
  rw [splitTrimmed_of_label (fun c hc => (hplain c hc).1) (fun c hc => (hplain c hc).2) hne
    (namedChannelPskLeft_label index hname hlabel), if_pos (.inr (.inl hlong))]

-- The key alone, with blanks around it, is taken for a bare key, and after a channel's label for the key of
-- that channel.
structure SplitsAsWritten (key : List UInt8) : Prop where
  bare : ∀ before after : List Char, (∀ c ∈ before, isSpace c = true) → (∀ c ∈ after, isSpace c = true) →
    splitChannelPskLine (String.ofList (before ++ Base64.encode key ++ after)) =
      some (.bare (String.ofList (Base64.encode key)))
  named : ∀ (name : List Char) (index : Option (Fin 8)), name ≠ [] → (∀ c ∈ name, isLabelChar c = true) →
    splitChannelPskLine (String.ofList (channelLabel name index ++ '=' :: Base64.encode key)) =
      some (.named (String.ofList name) (index.map (·.val)) (String.ofList (Base64.encode key)))

theorem splitChannelPskLine_of_trim {line trimmed : List Char} (h : trimChars line = trimmed) (hne : trimmed ≠ []) :
    splitChannelPskLine (String.ofList line) = some (splitTrimmed trimmed) := by
  rw [splitChannelPskLine, String.toList_ofList, h]
  exact if_neg hne

theorem splitsAsWritten_iff (key : List UInt8) (hkey : key.length = 16 ∨ key.length = 32) :
    SplitsAsWritten key ↔ key.length = 32 ∨ UsesPlusOrSlash key := by
  have hne : key ≠ [] := by
    rintro rfl
    simp at hkey
  have hencode : Base64.encode key ≠ [] := by
    rw [encode_eq hkey]
    simp
  rw [← splitTrimmed_encode hkey]
  constructor
  · intro h
    have hbare := h.bare [] [] (by simp) (by simp)
    rw [List.nil_append, List.append_nil,
      splitChannelPskLine_of_trim (trimChars_of_forall isSpace_of_mem_encode) hencode] at hbare
    exact Option.some.inj hbare
  · intro h
    refine ⟨fun before after hbefore hafter => ?_, fun name index hname hlabel => ?_⟩
    · rw [splitChannelPskLine_of_trim (trimChars_between hbefore hafter isSpace_of_mem_encode) hencode, h]
    · have hspace : ∀ c ∈ channelLabel name index ++ '=' :: Base64.encode key, isSpace c = false := by
        intro c hc
        rcases List.mem_append.mp hc with hc | hc
        · exact (plain_of_mem_channelLabel index hlabel c hc).2
        · rcases List.mem_cons.mp hc with rfl | hc
          · decide
          · exact isSpace_of_mem_encode c hc
      rw [splitChannelPskLine_of_trim (trimChars_of_forall hspace) (by simp),
        splitTrimmed_label index hname hlabel hne]

theorem splitsAsWritten_iff_long :
    SplitsAsWritten (List.replicate 32 0) ↔
      (List.replicate 32 (0 : UInt8)).length = 32 ∨ UsesPlusOrSlash (List.replicate 32 0) :=
  splitsAsWritten_iff (List.replicate 32 0) (by decide)

-- The key of sixteen zeros is taken for a channel without a name of its own.
theorem short_key_is_read_as_a_channel :
    ¬∀ key : List UInt8, key.length = 16 ∨ key.length = 32 → SplitsAsWritten key := by
  intro h
  have hbare := (h (List.replicate 16 0) (by decide)).bare [] [] (by simp) (by simp)
  revert hbare
  decide

end MeshClient.Meshtastic
