import MeshClient.Reticulum.StackSettingsReread

namespace MeshClient.Reticulum

open Trim

variable {v : Text} {k : Text}

-- Numbers and switches are read as they are written.
theorem parseBool_boolToIni (b : Bool) : parseBool (boolToIni b) = some b := by
  cases b <;> decide

theorem digit_of_mem_natText {n : Nat} {c : Char} (h : c ∈ natText n) : Js.isDigit c = true :=
  Js.isDigit_of_mem_toDigits h

theorem natText_ne_nil (n : Nat) : natText n ≠ [] := Nat.toDigits_ne_nil

theorem head_natText_ne {n : Nat} {c : Char} (hc : Js.isDigit c = false) : (natText n).head? ≠ some c := by
  intro h
  have hdigit := digit_of_mem_natText (List.mem_of_mem_head? h)
  rw [hc] at hdigit
  cases hdigit

theorem natText_digits (n : Nat) : ¬ (natText n = [] ∨ (!(natText n).all Js.isDigit) = true) := by
  rintro (h | h)
  · exact natText_ne_nil n h
  · have hall : (natText n).all Js.isDigit = true := List.all_eq_true.mpr fun c hc => digit_of_mem_natText hc
    rw [hall] at h
    cases h

theorem parseUnsigned_natText {bound n : Nat} (h : n < bound) : parseUnsigned bound (natText n) = some ⟨n, h⟩ := by
  have hvalue : Js.digitsValue (natText n) = n := Js.digitsValue_toDigits n
  unfold parseUnsigned
  simp only [if_neg (head_natText_ne (n := n) (c := '+') (by decide)), if_neg (natText_digits n), hvalue, dif_pos h]

theorem parseI32_intText (n : I32) : parseI32 (intText n.val) = some n := by
  obtain ⟨n, hn⟩ := n
  unfold parseI32 intText
  by_cases hneg : n < 0
  · have hvalue : (Js.digitsValue (natText n.natAbs) : Int) = -n := by
      rw [show Js.digitsValue (natText n.natAbs) = n.natAbs from Js.digitsValue_toDigits _]
      omega
    simp only [if_pos hneg, List.head?_cons, or_true, if_true, List.drop_succ_cons, List.drop_zero,
      if_neg (natText_digits _), hvalue, neg_neg, dif_pos hn]
  · have hvalue : (Js.digitsValue (natText n.natAbs) : Int) = n := by
      rw [show Js.digitsValue (natText n.natAbs) = n.natAbs from Js.digitsValue_toDigits _]
      omega
    have hplus := head_natText_ne (n := n.natAbs) (c := '+') (by decide)
    have hminus := head_natText_ne (n := n.natAbs) (c := '-') (by decide)
    simp only [if_neg hneg, hplus, hminus, or_self, if_false, if_neg (natText_digits _), hvalue, dif_pos hn]

def isLowerHex (c : Char) : Bool := "0123456789abcdef".toList.contains c

-- The text a list of discovery sources is stored as.
def NormalSources (text : Text) : Prop :=
  ∃ hashes : List Text, (∀ h ∈ hashes, h.length = 32 ∧ h.all isLowerHex = true) ∧ text = ", ".toList.intercalate hashes

set_option maxRecDepth 2000 in
theorem isLowerHex_toLower {c : Char} (h : isHexDigit c = true) : isLowerHex c.toLower = true := by
  have htable : ∀ n < 128, isHexDigit (Char.ofNat n) = true → isLowerHex (Char.ofNat n).toLower = true := by decide
  have hlt : c.toNat < 128 := by
    unfold isHexDigit Js.digitOf at h
    by_contra hge
    have h9 : '9'.toNat = 57 := rfl
    have hz : 'z'.toNat = 122 := rfl
    have hZ : 'Z'.toNat = 90 := rfl
    have hdigit : Js.isDigit c = false := by
      simp only [Js.isDigit, Bool.and_eq_false_iff, decide_eq_false_iff_not]
      omega
    rw [hdigit, if_neg (by simp), if_neg (by omega), if_neg (by omega)] at h
    cases h
  have hc := htable c.toNat hlt
  rw [Char.ofNat_toNat] at hc
  exact hc h

theorem lowerHex_facts {c : Char} (h : isLowerHex c = true) : isHexDigit c = true ∧ c.toLower = c ∧
    isWhitespace c = false ∧ c ≠ ',' ∧ c ≠ '#' ∧ c ≠ '"' ∧ c ≠ '\n' := by
  have htable : ("0123456789abcdef".toList.all fun c => isHexDigit c && c.toLower == c && !isWhitespace c && c != ',' &&
      c != '#' && c != '"' && c != '\n') = true := by rfl
  have hc := List.all_eq_true.mp htable c (List.contains_iff_mem.mp h)
  simpa [and_assoc] using hc

theorem normalizeSources_ok {parts hashes : List Text} (h : normalizeSources parts = .ok hashes) :
    ∀ hash ∈ hashes, hash.length = 32 ∧ hash.all isLowerHex = true := by
  induction parts generalizing hashes with
  | nil =>
      cases h
      exact fun _ hmem => absurd hmem List.not_mem_nil
  | cons part rest ih =>
      rw [normalizeSources] at h
      split at h
      · exact ih h
      split at h
      · cases h
      rename_i _ hgood
      rw [not_or, not_not] at hgood
      cases hrest : normalizeSources rest with
      | error e =>
          rw [hrest] at h
          cases h
      | ok later =>
          rw [hrest] at h
          cases h
          rw [List.forall_mem_cons]
          refine ⟨⟨by rw [List.length_map, hgood.1], ?_⟩, ih hrest⟩
          rw [List.all_map, List.all_eq_true]
          intro c hc
          have hall : part.all isHexDigit = true := by simpa using hgood.2
          exact isLowerHex_toLower (List.all_eq_true.mp hall c hc)

theorem normalizeSources_cons {hash : Text} {parts hashes : List Text}
    (hhash : hash.length = 32 ∧ hash.all isLowerHex = true) (h : normalizeSources parts = .ok hashes) :
    normalizeSources (hash :: parts) = .ok (hash :: hashes) := by
  obtain ⟨hlen, hall⟩ := hhash
  rw [List.all_eq_true] at hall
  have hne : hash ≠ [] := fun hnil => by rw [hnil] at hlen; cases hlen
  have hhex : hash.all isHexDigit = true := List.all_eq_true.mpr fun c hc => (lowerHex_facts (hall c hc)).1
  have hlower : hash.map Char.toLower = hash := by
    conv_rhs => rw [← List.map_id hash]
    exact List.map_congr_left fun c hc => (lowerHex_facts (hall c hc)).2.1
  rw [normalizeSources, if_neg hne, if_neg (by simp [hlen, hhex]), h]
  exact congrArg (fun first => Except.ok (first :: hashes)) hlower

def isSourceBreak (c : Char) : Bool := c = ',' || isWhitespace c

theorem split_hash {hash : Text} (h : hash.all isLowerHex = true) : ∀ c ∈ hash, isSourceBreak c = false := by
  intro c hc
  have hfacts := lowerHex_facts (List.all_eq_true.mp h c hc)
  simp [isSourceBreak, hfacts.2.2.1, hfacts.2.2.2.1]

-- The stored text is taken apart into its hashes again.
theorem normalizeSources_intercalate {hashes : List Text}
    (h : ∀ hash ∈ hashes, hash.length = 32 ∧ hash.all isLowerHex = true) :
    normalizeSources ((", ".toList.intercalate hashes).splitOnP isSourceBreak) = .ok hashes := by
  induction hashes with
  | nil => rfl
  | cons hash rest ih =>
      have hhash := h hash List.mem_cons_self
      have hrest := ih fun later hlater => h later (List.mem_cons_of_mem hash hlater)
      cases rest with
      | nil =>
          rw [List.intercalate_singleton, List.splitOnP_eq_singleton (split_hash hhash.2)]
          exact normalizeSources_cons hhash rfl
      | cons second rest =>
          have hjoin : ", ".toList.intercalate (hash :: second :: rest) =
              hash ++ ',' :: ([] ++ ' ' :: ", ".toList.intercalate (second :: rest)) := by
            rw [List.intercalate_cons_cons]
            simp
          rw [hjoin, List.splitOnP_append_cons_of_forall_mem (split_hash hhash.2) ',' (by decide),
            List.splitOnP_append_cons_of_forall_mem (by simp) ' ' (by decide)]
          refine normalizeSources_cons hhash ?_
          rw [normalizeSources, if_pos rfl]
          exact hrest

theorem normalizeDiscoverySources_eq_ok {raw text : Text} : normalizeDiscoverySources raw = .ok text ↔
    ∃ hashes, normalizeSources (raw.splitOnP isSourceBreak) = .ok hashes ∧ text = ", ".toList.intercalate hashes := by
  rw [normalizeDiscoverySources, show (fun c => decide (c = ',') || isWhitespace c) = isSourceBreak from rfl]
  cases normalizeSources (raw.splitOnP isSourceBreak) with
  | error e => simp [Except.map]
  | ok hashes => simp [Except.map, eq_comm]

theorem normalSources_of_normalize {raw text : Text} (h : normalizeDiscoverySources raw = .ok text) :
    NormalSources text := by
  obtain ⟨hashes, hread, rfl⟩ := normalizeDiscoverySources_eq_ok.mp h
  exact ⟨hashes, normalizeSources_ok hread, rfl⟩

theorem normalSources_iff : NormalSources v ↔ normalizeDiscoverySources v = .ok v := by
  refine ⟨?_, normalSources_of_normalize⟩
  rintro ⟨hashes, hall, rfl⟩
  exact normalizeDiscoverySources_eq_ok.mpr ⟨hashes, normalizeSources_intercalate hall, rfl⟩

-- What a value is read as after it was written without quotes.
def reread (v : Text) : Text := trimQuotes (trim (stripComment v))

structure NormalIdentity (v : Text) : Prop where
  blanks : Neat isWhitespace v
  quotes : Neat isQuote v
  comment : stripComment v = v

theorem normalIdentity_iff : NormalIdentity v ↔ reread (trim v) = v := by
  constructor
  · rintro ⟨hblanks, hquotes, hcomment⟩
    have htrim : trim v = v := trim_of_neat hblanks
    rw [reread, htrim, hcomment, htrim]
    exact trim_of_neat hquotes
  · intro h
    have hlen : v.length ≤ (trim (stripComment (trim v))).length := by
      conv_lhs => rw [← h]
      exact length_trim_le _
    have hcut : v.length ≤ (stripComment (trim v)).length := hlen.trans (length_trim_le _)
    have htrim : trim v = v := trim_of_length (hcut.trans (length_stripCommentFrom_le _ _))
    rw [htrim] at h hcut
    have hcomment : stripComment v = v := eq_of_length_stripCommentFrom hcut
    rw [reread, hcomment, htrim] at h
    exact ⟨trim_eq_self_iff.mp htrim, trim_eq_self_iff.mp h, hcomment⟩

end MeshClient.Reticulum
