import MeshClient.Lib.Scan
import MeshClient.Js.Text

namespace MeshClient.Tak

open Scan Js

-- Five calls of `replace`, the ampersand first.
def escapeXml (text : List Char) : List Char :=
  let amp := replaceAll (literal ['&'] "&amp;".toList) text
  let lt := replaceAll (literal ['<'] "&lt;".toList) amp
  let gt := replaceAll (literal ['>'] "&gt;".toList) lt
  let quot := replaceAll (literal ['"'] "&quot;".toList) gt
  replaceAll (literal ['\''] "&apos;".toList) quot

def isHexDigit (c : Char) : Bool :=
  isDigit c || ('a'.toNat ≤ c.toNat && c.toNat ≤ 'f'.toNat) || ('A'.toNat ≤ c.toNat && c.toNat ≤ 'F'.toNat)

def hexDigitValue (c : Char) : Nat :=
  if isDigit c then c.toNat - '0'.toNat
  else if 'a'.toNat ≤ c.toNat then c.toNat - 'a'.toNat + 10
  else c.toNat - 'A'.toNat + 10

def hexValue (digits : List Char) : Nat := digits.foldl (fun n c => 16 * n + hexDigitValue c) 0

-- Half of a surrogate pair is no character; U+FFFD stands for it, as in any encoding of the text.
def codePoint (n : Nat) : List Char :=
  if 0 < n ∧ n ≤ 0x10FFFF then
    if 0xD800 ≤ n ∧ n ≤ 0xDFFF then ['\uFFFD'] else [Char.ofNat n]
  else []

-- `&#x([0-9a-f]+);` without regard to case
def hexReference : List Char → Option (Nat × List Char)
  | '&' :: '#' :: x :: rest =>
      let hex := rest.takeWhile isHexDigit
      if (x = 'x' ∨ x = 'X') ∧ hex ≠ [] ∧ (rest.dropWhile isHexDigit).head? = some ';' then
        some (2 + hex.length + 1, codePoint (hexValue hex))
      else none
  | _ => none

-- `&#(\d+);`
def decReference : List Char → Option (Nat × List Char)
  | '&' :: '#' :: rest =>
      let dec := rest.takeWhile isDigit
      if dec ≠ [] ∧ (rest.dropWhile isDigit).head? = some ';' then
        some (1 + dec.length + 1, codePoint (digitsValue dec))
      else none
  | _ => none

def unescapeXml (text : List Char) : List Char :=
  let hex := replaceAll hexReference text
  let dec := replaceAll decReference hex
  let lt := replaceAll (literal "&lt;".toList ['<']) dec
  let gt := replaceAll (literal "&gt;".toList ['>']) lt
  let quot := replaceAll (literal "&quot;".toList ['"']) gt
  let apos := replaceAll (literal "&apos;".toList ['\'']) quot
  replaceAll (literal "&amp;".toList ['&']) apos

-- What `escapeXml` writes for one character.
def entity (c : Char) : List Char :=
  if c = '&' then "&amp;".toList
  else if c = '<' then "&lt;".toList
  else if c = '>' then "&gt;".toList
  else if c = '"' then "&quot;".toList
  else if c = '\'' then "&apos;".toList
  else [c]

theorem replaceAll_char (c : Char) (out text : List Char) :
    replaceAll (literal [c] out) text = text.flatMap fun x => if x = c then out else [x] := by
  have hblock : ∀ x rest, replaceAll (literal [c] out) ([x] ++ rest) =
      (if x = c then out else [x]) ++ replaceAll (literal [c] out) rest := by
    intro x rest
    by_cases hx : x = c
    · rw [List.singleton_append, @replaceAll_cons_of_some _ _ rest x 0 out (by simp [literal, hx]), if_pos hx,
        List.drop_zero]
    · rw [List.singleton_append, replaceAll_cons_of_none (literal_of_ne (Ne.symm hx)), if_neg hx,
        List.singleton_append]
  have hall := replaceAll_flatMap hblock text
  rwa [List.flatMap_singleton'] at hall

theorem escapeXml_eq (text : List Char) : escapeXml text = text.flatMap entity := by
  simp only [escapeXml, replaceAll_char, List.flatMap_assoc]
  congr 1
  funext c
  unfold entity
  split_ifs with hamp hlt hgt hquot hapos
  · subst hamp
    decide
  · subst hlt
    decide
  · subst hgt
    decide
  · subst hquot
    decide
  · subst hapos
    decide
  · rw [List.flatMap_singleton, if_neg hlt, List.flatMap_singleton, if_neg hgt, List.flatMap_singleton, if_neg hquot,
      List.flatMap_singleton, if_neg hapos]

theorem escapeXml_append (a b : List Char) : escapeXml (a ++ b) = escapeXml a ++ escapeXml b := by
  simp only [escapeXml_eq, List.flatMap_append]

-- The characters that an entity stands for.
def isSpecial (c : Char) : Prop := c = '&' ∨ c = '<' ∨ c = '>' ∨ c = '"' ∨ c = '\''

instance : DecidablePred isSpecial := fun c =>
  inferInstanceAs (Decidable (c = '&' ∨ c = '<' ∨ c = '>' ∨ c = '"' ∨ c = '\''))

theorem entity_of_plain {c : Char} (h : ¬ isSpecial c) : entity c = [c] := by
  simp only [isSpecial, not_or] at h
  obtain ⟨hamp, hlt, hgt, hquot, hapos⟩ := h
  simp [entity, hamp, hlt, hgt, hquot, hapos]

theorem escapeXml_of_plain {text : List Char} (h : ∀ c ∈ text, ¬ isSpecial c) : escapeXml text = text := by
  rw [escapeXml_eq]
  induction text with
  | nil => rfl
  | cons c cs ih =>
      rw [List.flatMap_cons, entity_of_plain (h c List.mem_cons_self),
        ih fun d hd => h d (List.mem_cons_of_mem c hd), List.singleton_append]

-- Markup and quotes do not survive in escaped text.
theorem not_mem_escapeXml {c : Char} (hc : c = '<' ∨ c = '>' ∨ c = '"' ∨ c = '\'') (text : List Char) :
    c ∉ escapeXml text := by
  rw [escapeXml_eq, List.mem_flatMap]
  rintro ⟨d, -, hd⟩
  by_cases hspecial : isSpecial d
  · rcases hspecial with rfl | rfl | rfl | rfl | rfl <;> revert hd <;>
      rcases hc with rfl | rfl | rfl | rfl <;> decide
  · rw [entity_of_plain hspecial, List.mem_singleton] at hd
    subst hd
    simp only [isSpecial, not_or] at hspecial
    tauto

theorem entity_cons (c : Char) : ∃ first tail, entity c = first :: tail ∧ '&' ∉ tail := by
  by_cases hspecial : isSpecial c
  · rcases hspecial with rfl | rfl | rfl | rfl | rfl
    all_goals exact ⟨_, _, rfl, by decide⟩
  · exact ⟨c, [], entity_of_plain hspecial, by simp⟩

-- A pattern that starts with an ampersand and does not stand at an entity passes over it.
theorem replaceAll_entity {m : List Char → Option (Nat × List Char)} {c : Char} {rest : List Char}
    (hm : ∀ x xs, ¬ x = '&' → m (x :: xs) = none) (hc : m (entity c ++ rest) = none) :
    replaceAll m (entity c ++ rest) = entity c ++ replaceAll m rest := by
  obtain ⟨first, tail, hentity, htail⟩ := entity_cons c
  rw [hentity, List.cons_append] at hc ⊢
  rw [replaceAll_cons_of_none hc, replaceAll_skip_of_head hm, List.cons_append]
  rintro x hx rfl
  exact htail hx

-- The stages of `unescapeXml` read the entities back one after the other; `done` are the
-- characters already read back.
def pending (done : List Char) (c : Char) : List Char := if c ∈ done then [c] else entity c

theorem pending_nil (text : List Char) : text.flatMap (pending []) = escapeXml text := by
  rw [escapeXml_eq]
  congr 1

theorem reference_stage {m : List Char → Option (Nat × List Char)}
    (hm : ∀ x xs, ¬ x = '&' → m (x :: xs) = none) (hamp : ∀ y xs, y ≠ '#' → m ('&' :: y :: xs) = none)
    (text : List Char) : replaceAll m (escapeXml text) = escapeXml text := by
  rw [escapeXml_eq]
  apply replaceAll_flatMap
  intro c rest
  apply replaceAll_entity hm
  by_cases hspecial : isSpecial c
  · rcases hspecial with rfl | rfl | rfl | rfl | rfl
    all_goals exact hamp _ _ (by decide)
  · rw [entity_of_plain hspecial]
    apply hm
    rintro rfl
    exact hspecial (.inl rfl)

-- No entity is the beginning of another one.
theorem entity_apart {a c : Char} (ha : isSpecial a) (hc : isSpecial c) (hne : c ≠ a) (rest : List Char) :
    ¬ entity a <+: entity c ++ rest := by
  rcases ha with rfl | rfl | rfl | rfl | rfl <;> rcases hc with rfl | rfl | rfl | rfl | rfl
  all_goals first
    | exact absurd rfl hne
    | simp [entity]

theorem entity_stage {a : Char} {done : List Char} (ha : isSpecial a) (hdone : '&' ∉ done)
    (text : List Char) :
    replaceAll (literal (entity a) [a]) (text.flatMap (pending done)) = text.flatMap (pending (a :: done)) := by
  have hcons : ∃ tail, entity a = '&' :: tail := by
    rcases ha with rfl | rfl | rfl | rfl | rfl
    all_goals exact ⟨_, rfl⟩
  obtain ⟨tail, htail⟩ := hcons
  have hm : ∀ x xs, ¬ x = '&' → literal (entity a) [a] (x :: xs) = none := by
    intro x xs hx
    rw [htail]
    exact literal_of_ne (Ne.symm hx)
  apply replaceAll_flatMap
  intro c rest
  by_cases hplain : c ∈ done ∨ ¬ isSpecial c
  · have hpending : pending done c = [c] ∧ pending (a :: done) c = [c] := by
      rcases hplain with hmem | hspecial
      · simp [pending, hmem]
      · simp [pending, entity_of_plain hspecial]
    rw [hpending.1, hpending.2, List.singleton_append, List.singleton_append]
    apply replaceAll_cons_of_none
    apply hm
    rintro rfl
    exact hplain.elim hdone fun h => h (.inl rfl)
  · rw [not_or, not_not] at hplain
    have hpending : pending done c = entity c := by simp [pending, hplain.1]
    rw [hpending]
    by_cases hca : c = a
    · subst hca
      have hmatch : literal (entity c) [c] ('&' :: (tail ++ rest)) = some (tail.length, [c]) := by
        simp [literal, htail]
      rw [htail, List.cons_append, ← htail, replaceAll_cons_of_some hmatch, List.drop_left]
      simp [pending]
    · have hnot : literal (entity a) [a] (entity c ++ rest) = none := by
        rw [literal, if_neg (entity_apart ha hplain.2 hca rest)]
      rw [replaceAll_entity hm hnot]
      simp [pending, hca, hplain.1]

theorem unescape_escape (text : List Char) : unescapeXml (escapeXml text) = text := by
  have hhex : replaceAll hexReference (escapeXml text) = escapeXml text := by
    apply reference_stage
    · intro x xs hx
      unfold hexReference
      split <;> simp_all
    · intro y xs hy
      unfold hexReference
      split <;> simp_all
  have hdec : replaceAll decReference (escapeXml text) = escapeXml text := by
    apply reference_stage
    · intro x xs hx
      unfold decReference
      split <;> simp_all
    · intro y xs hy
      unfold decReference
      split <;> simp_all
  have hall : text.flatMap (pending ['&', '\'', '"', '>', '<']) = text := by
    have hid : pending ['&', '\'', '"', '>', '<'] = fun c => [c] := by
      funext c
      by_cases hspecial : isSpecial c
      · rcases hspecial with rfl | rfl | rfl | rfl | rfl <;> rfl
      · simp [pending, entity_of_plain hspecial]
    rw [hid, List.flatMap_singleton']
  simp only [unescapeXml, hhex, hdec]
  rw [← pending_nil]
  have hlt := @entity_stage '<' [] (by decide) (by simp) text
  have hgt := @entity_stage '>' ['<'] (by decide) (by simp) text
  have hquot := @entity_stage '"' ['>', '<'] (by decide) (by simp) text
  have hapos := @entity_stage '\'' ['"', '>', '<'] (by decide) (by simp) text
  have hamp := @entity_stage '&' ['\'', '"', '>', '<'] (by decide) (by simp) text
  have hlit : entity '<' = "&lt;".toList ∧ entity '>' = "&gt;".toList ∧ entity '"' = "&quot;".toList ∧
      entity '\'' = "&apos;".toList ∧ entity '&' = "&amp;".toList := by decide
  rw [← hlit.1, ← hlit.2.1, ← hlit.2.2.1, ← hlit.2.2.2.1, ← hlit.2.2.2.2, hlt, hgt, hquot, hapos, hamp, hall]

end MeshClient.Tak
