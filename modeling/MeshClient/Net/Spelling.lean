import MeshClient.Net.AddressText

namespace MeshClient.Net

open Js

-- What lower-casing does to the characters that addresses are made of: ASCII text is changed letter by
-- letter, and no other character becomes a part of an address.
structure LowersAddresses (js : Runtime) : Prop where
  ascii : ∀ s : String, (∀ c ∈ s.toList, c.toNat < 128) → js.toLowerCase s = String.ofList (s.toList.map Char.toLower)
  foreign : ∀ s : String, (∃ c ∈ s.toList, 128 ≤ c.toNat) →
    ∃ c ∈ (js.toLowerCase s).toList, isHexDigit c = false ∧ c ≠ ':' ∧ c ≠ '.'

theorem toNat_toLower (c : Char) :
    c.toLower.toNat = if 65 ≤ c.toNat ∧ c.toNat ≤ 90 then c.toNat + 32 else c.toNat := by
  have hA : 'A'.val.toNat = 65 := rfl
  have hZ : 'Z'.val.toNat = 90 := rfl
  have hc : c.val.toNat = c.toNat := rfl
  unfold Char.toLower
  by_cases h : c.val ≥ 'A'.val ∧ c.val ≤ 'Z'.val
  · have hrange := h
    rw [ge_iff_le, UInt32.le_iff_toNat_le, UInt32.le_iff_toNat_le, hA, hZ, hc] at hrange
    rw [dif_pos h, if_pos hrange]
    change (c.val + ('a'.val - 'A'.val)).toNat = _
    have hstep : ('a'.val - 'A'.val).toNat = 32 := rfl
    rw [UInt32.toNat_add, hstep, hc, Nat.mod_eq_of_lt (by omega)]
  · have hrange := h
    rw [ge_iff_le, UInt32.le_iff_toNat_le, UInt32.le_iff_toNat_le, hA, hZ, hc] at hrange
    rw [dif_neg h, if_neg hrange]

theorem toLower_eq_iff {c d : Char} (h : d.toNat < 65) : c.toLower = d ↔ c = d := by
  rw [← Char.toNat_inj, ← Char.toNat_inj, toNat_toLower]
  split <;> omega

theorem digitOf_toLower (radix : Nat) (c : Char) : digitOf radix c.toLower = digitOf radix c := by
  have hdigit : isDigit c.toLower = isDigit c := by
    rw [Bool.eq_iff_iff]
    simp only [isDigit, toNat_toLower, Bool.and_eq_true, decide_eq_true_eq,
      show '0'.toNat = 48 from rfl, show '9'.toNat = 57 from rfl]
    split <;> omega
  unfold digitOf
  simp only [hdigit, toNat_toLower, show '0'.toNat = 48 from rfl, show 'a'.toNat = 97 from rfl,
    show 'z'.toNat = 122 from rfl, show 'A'.toNat = 65 from rfl, show 'Z'.toNat = 90 from rfl]
  by_cases hcap : 65 ≤ c.toNat ∧ c.toNat ≤ 90
  · have hd : isDigit c = false := by
      simp only [isDigit, Bool.and_eq_false_iff, decide_eq_false_iff_not, show '9'.toNat = 57 from rfl]
      omega
    have hsmall : 97 ≤ c.toNat + 32 ∧ c.toNat + 32 ≤ 122 := by omega
    have hnot : ¬(97 ≤ c.toNat ∧ c.toNat ≤ 122) := by omega
    have hvalue : c.toNat + 32 - 97 = c.toNat - 65 := by omega
    simp only [hd, Bool.false_eq_true, if_false, if_pos hcap, if_pos hsmall, if_neg hnot, hvalue]
  · simp only [if_neg hcap]

theorem isHexDigit_toLower (c : Char) : isHexDigit c.toLower = isHexDigit c := by
  rw [isHexDigit, digitOf_toLower, isHexDigit]

theorem isGroup_map {text : List Char} {value : Nat} : IsGroup (text.map Char.toLower) value ↔ IsGroup text value := by
  have hvalue : hexValue (text.map Char.toLower) = hexValue text := by
    rw [hexValue, List.foldl_map]
    simp only [digitOf_toLower]
    rfl
  simp only [IsGroup, ne_eq, List.map_eq_nil_iff, List.length_map, List.forall_mem_map, isHexDigit_toLower, hvalue]

-- The characters of a quad are no letters.
theorem IsQuad.low {text : List Char} {high low : Nat} (h : IsQuad text high low) : ∀ c ∈ text, c.toNat < 65 := by
  obtain ⟨ta, tb, tc, td, a, b, c, d, ha, hb, hc, hd, rfl, -, -⟩ := h
  have hoctet : ∀ {t : List Char} {v : Nat}, IsOctet t v → ∀ c ∈ t, c.toNat < 65 := by
    intro t v ht c hc
    have hdigit := ht.2.2.1 c hc
    simp only [isDigit, Bool.and_eq_true, decide_eq_true_eq, show '9'.toNat = 57 from rfl] at hdigit
    omega
  simp only [List.forall_mem_append, List.forall_mem_cons]
  exact ⟨hoctet ha, by decide, hoctet hb, by decide, hoctet hc, by decide, hoctet hd⟩

theorem isQuad_map {text : List Char} {high low : Nat} :
    IsQuad (text.map Char.toLower) high low ↔ IsQuad text high low := by
  have hsame : (∀ c ∈ text, c.toLower.toNat < 65) → text.map Char.toLower = text := fun h =>
    (List.map_congr_left fun c hc => ((toLower_eq_iff (h c hc)).mp rfl).symm).trans (List.map_id text)
  constructor
  · intro h
    rwa [hsame (List.forall_mem_map.mp h.low)] at h
  · intro h
    rwa [hsame fun c hc => by
      have hlow := h.low c hc
      rw [toNat_toLower]
      split <;> omega]

theorem groups_map {texts : List (List Char)} {values : List Nat} :
    Groups (texts.map (List.map Char.toLower)) values ↔ Groups texts values := by
  constructor
  · intro h
    induction texts generalizing values with
    | nil =>
        cases h
        exact .nil
    | cons text texts ih =>
        rw [List.map_cons] at h
        generalize hrest : texts.map (List.map Char.toLower) = others at h
        cases h with
        | quad hquad =>
            rw [List.map_eq_nil_iff] at hrest
            subst hrest
            exact .quad (isQuad_map.mp hquad)
        | group hgroup hgroups =>
            subst hrest
            exact .group (isGroup_map.mp hgroup) (ih hgroups)
  · intro h
    induction h with
    | nil => exact .nil
    | quad hquad => exact .quad (isQuad_map.mpr hquad)
    | group hgroup rest ih => exact .group (isGroup_map.mpr hgroup) ih

theorem colon_toLower (c : Char) : c.toLower = ':' ↔ c = ':' := toLower_eq_iff (by decide)

theorem splitOn_map (text : List Char) :
    (text.map Char.toLower).splitOn ':' = (text.splitOn ':').map (List.map Char.toLower) := by
  induction text with
  | nil => rfl
  | cons c text ih =>
      rw [List.map_cons, List.splitOn_cons_eq_if_modifyHead, List.splitOn_cons_eq_if_modifyHead, ih]
      by_cases hc : c = ':'
      · rw [if_pos (by simpa using (colon_toLower c).mpr hc), if_pos (by simpa using hc)]
        rfl
      · rw [if_neg (by simpa using fun h => hc ((colon_toLower c).mp h)), if_neg (by simpa using hc)]
        cases text.splitOn ':' with
        | nil => rfl
        | cons part parts => rfl

theorem splitGroups_map (text : List Char) :
    splitGroups (text.map Char.toLower) = (splitGroups text).map (List.map Char.toLower) := by
  simp only [splitGroups, List.map_eq_nil_iff, splitOn_map]
  split <;> rfl

-- Capital letters and small ones spell the same address.
theorem textForm_map {text : List Char} {values : List Nat} :
    TextForm (text.map Char.toLower) values ↔ TextForm text values := by
  rw [textForm_iff_groupForm, textForm_iff_groupForm]
  have hsplit := PairSplit.split_map colon_toLower text
  have hgroup : (fun a b => IsGroup (List.map Char.toLower a) b) = IsGroup := by
    funext a b
    exact propext isGroup_map
  constructor
  · intro h
    cases h with
    | whole hwhole hgroups hlen =>
        rw [hsplit, List.map_eq_singleton_iff] at hwhole
        obtain ⟨whole, hwhole, -⟩ := hwhole
        have hself : whole = text := by
          have hjoin := @PairSplit.intercalate_split _ _ ':' text
          rwa [hwhole, List.intercalate_singleton] at hjoin
        rw [splitOn_map, groups_map] at hgroups
        exact .whole (hself ▸ hwhole) hgroups hlen
    | pair hpair hleft hright hlen =>
        rw [hsplit, List.map_eq_cons_iff] at hpair
        obtain ⟨left, others, hpair, rfl, hothers⟩ := hpair
        obtain ⟨right, rfl, rfl⟩ := List.map_eq_singleton_iff.mp hothers
        rw [splitGroups_map, List.forall₂_map_left_iff, hgroup] at hleft
        rw [splitGroups_map, groups_map] at hright
        exact .pair hpair hleft hright hlen
  · intro h
    cases h with
    | whole hwhole hgroups hlen =>
        refine .whole ?_ ?_ hlen
        · rw [hsplit, hwhole]
          rfl
        · rwa [splitOn_map, groups_map]
    | @pair left right us vs hpair hleft hright hlen =>
        refine @GroupForm.pair _ (left.map Char.toLower) (right.map Char.toLower) us vs ?_ ?_ ?_ hlen
        · rw [hsplit, hpair]
          rfl
        · rwa [splitGroups_map, List.forall₂_map_left_iff, hgroup]
        · rwa [splitGroups_map, groups_map]

def isAddressChar (c : Char) : Bool := isHexDigit c || c = ':' || c = '.'

theorem IsQuad.chars {text : List Char} {high low : Nat} (h : IsQuad text high low) :
    ∀ c ∈ text, isDigit c = true ∨ c = '.' := by
  obtain ⟨ta, tb, tc, td, a, b, c, d, ha, hb, hc, hd, rfl, -, -⟩ := h
  intro x hx
  simp only [List.mem_append, List.mem_cons] at hx
  rcases hx with hx | rfl | hx | rfl | hx | rfl | hx
  · exact .inl (ha.2.2.1 x hx)
  · exact .inr rfl
  · exact .inl (hb.2.2.1 x hx)
  · exact .inr rfl
  · exact .inl (hc.2.2.1 x hx)
  · exact .inr rfl
  · exact .inl (hd.2.2.1 x hx)

theorem isHexDigit_of_isDigit {c : Char} (h : isDigit c = true) : isHexDigit c = true := by
  have hle : c.toNat ≤ 57 := by
    simp only [isDigit, Bool.and_eq_true, decide_eq_true_eq] at h
    exact h.2
  have hlt : c.toNat - 48 < 16 := by omega
  simp [isHexDigit, digitOf, h, Option.filter, hlt]

theorem Groups.chars {texts : List (List Char)} {values : List Nat} (h : Groups texts values) :
    ∀ p ∈ texts, ∀ c ∈ p, isAddressChar c = true := by
  induction h with
  | nil => simp
  | quad hquad =>
      intro p hp c hc
      rw [List.mem_singleton] at hp
      subst hp
      rcases hquad.chars c hc with hdigit | rfl
      · simp [isAddressChar, isHexDigit_of_isDigit hdigit]
      · decide
  | group hgroup rest ih =>
      intro p hp c hc
      rcases List.mem_cons.mp hp with rfl | hp
      · simp [isAddressChar, hgroup.2.2.1 c hc]
      · exact ih p hp c hc

theorem TextForm.chars {text : List Char} {values : List Nat} (h : TextForm text values) :
    ∀ c ∈ text, isAddressChar c = true := by
  have hjoin : ∀ {parts : List (List Char)} {us : List Nat}, Groups parts us →
      ∀ c ∈ [':'].intercalate parts, isAddressChar c = true := by
    intro parts us hgroups c hc
    rcases mem_intercalate hc with rfl | ⟨p, hp, hcp⟩
    · decide
    · exact hgroups.chars p hp c hcp
  cases h with
  | full hgroups => exact hjoin hgroups
  | compressed hleft hright =>
      rw [List.forall_mem_append, List.forall_mem_cons, List.forall_mem_cons]
      exact ⟨hjoin (groups_of_forall₂ hleft), by decide, by decide, hjoin hright⟩

-- The characters of addresses are ASCII, no blanks and no brackets.
theorem isAddressChar_bounds {c : Char} (h : isAddressChar c = true) :
    c.toNat < 128 ∧ isSpace c = false ∧ c ≠ '[' := by
  have hrange : 46 ≤ c.toNat ∧ c.toNat ≤ 58 ∨ 65 ≤ c.toNat ∧ c.toNat ≤ 90 ∨ 97 ≤ c.toNat ∧ c.toNat ≤ 122 := by
    simp only [isAddressChar, Bool.or_eq_true, decide_eq_true_eq] at h
    rcases h with (h | rfl) | rfl
    · have h0 : '0'.toNat = 48 := rfl
      have h9 : '9'.toNat = 57 := rfl
      have ha : 'a'.toNat = 97 := rfl
      have hz : 'z'.toNat = 122 := rfl
      have hA : 'A'.toNat = 65 := rfl
      have hZ : 'Z'.toNat = 90 := rfl
      unfold isHexDigit digitOf at h
      simp only at h
      split at h
      · rename_i hdigit
        simp only [isDigit, Bool.and_eq_true, decide_eq_true_eq] at hdigit
        omega
      · split at h
        · omega
        · split at h
          · omega
          · simp at h
    · decide
    · decide
  refine ⟨by omega, ?_, ?_⟩
  · simp only [isSpace, List.mem_cons, List.not_mem_nil, or_false, Bool.or_eq_false_iff, decide_eq_false_iff_not,
      Bool.and_eq_false_iff]
    omega
  · rintro rfl
    revert hrange
    decide

theorem stripConnectHostBrackets_trim (host : List Char) :
    stripConnectHostBrackets (trimChars host) = stripConnectHostBrackets host := by
  have htrim : trimChars (trimChars host) = trimChars host := Trim.trim_trim _
  simp only [stripConnectHostBrackets, htrim]

theorem stripConnectHostBrackets_plain {text : List Char} (h : ∀ c ∈ text, isAddressChar c = true) :
    stripConnectHostBrackets text = text := by
  unfold stripConnectHostBrackets
  have htrim : trimChars text = text := trimChars_of_forall fun c hc => (isAddressChar_bounds (h c hc)).2.1
  have hhead : text.head? ≠ some '[' := fun heq =>
    (isAddressChar_bounds (h _ (List.mem_of_mem_head? heq))).2.2 rfl
  simp only [htrim, hhead, false_and, if_false]

theorem toLowerCase_of_chars {js : Runtime} (hjs : LowersAddresses js) {text : List Char}
    (h : ∀ c ∈ text, isAddressChar c = true) :
    toLowerCase js text = text.map Char.toLower := by
  have hascii : ∀ c ∈ (String.ofList text).toList, c.toNat < 128 := by
    rw [String.toList_ofList]
    exact fun c hc => (isAddressChar_bounds (h c hc)).1
  rw [toLowerCase, hjs.ascii _ hascii, String.toList_ofList, String.toList_ofList]

theorem textForm_toLowerCase {js : Runtime} (hjs : LowersAddresses js) (text : List Char) (values : List Nat) :
    TextForm (toLowerCase js text) values ↔ TextForm text values := by
  by_cases hascii : ∀ c ∈ text, c.toNat < 128
  · have hlower := hjs.ascii (String.ofList text) (by rwa [String.toList_ofList])
    rw [toLowerCase, hlower, String.toList_ofList, String.toList_ofList]
    exact textForm_map
  · simp only [not_forall, not_lt] at hascii
    obtain ⟨c, hc, hlarge⟩ := hascii
    obtain ⟨x, hx, hhex, hcolon, hdot⟩ := hjs.foreign (String.ofList text) ⟨c, by rwa [String.toList_ofList], hlarge⟩
    refine iff_of_false (fun h => ?_) fun h => ?_
    · have hchar := h.chars x hx
      simp [isAddressChar, hhex, hcolon, hdot] at hchar
    · have hbound := (isAddressChar_bounds (h.chars c hc)).1
      omega

theorem parseIpv6HextetsForLiteral_eq_some_iff {js : Runtime} (hjs : LowersAddresses js) {host : List Char}
    {values : List Nat} : parseIpv6HextetsForLiteral js host = some values ↔
      TextForm (stripConnectHostBrackets host) values := by
  rw [← textForm_toLowerCase hjs]
  unfold parseIpv6HextetsForLiteral
  simp only
  by_cases hcolon : ':' ∈ toLowerCase js (stripConnectHostBrackets host)
  · rw [if_pos hcolon]
    exact parseHextets_eq_some_iff hcolon
  · rw [if_neg hcolon]
    exact iff_of_false (by simp) fun h => hcolon (colon_mem_of_textForm h)

theorem lowersAddresses_asciiRuntime : LowersAddresses asciiRuntime where
  ascii _ _ := rfl
  foreign s := by
    rintro ⟨c, hc, hlarge⟩
    have hsame : c.toLower.toNat = c.toNat := by
      rw [toNat_toLower, if_neg (by omega)]
    refine ⟨c.toLower, ?_, ?_⟩
    · simp only [asciiRuntime, String.toList_ofList]
      exact List.mem_map_of_mem hc
    · have hnot : isAddressChar c.toLower = false := by
        rw [← Bool.not_eq_true]
        intro h
        have hbound := (isAddressChar_bounds h).1
        omega
      simpa [isAddressChar, and_assoc] using hnot

-- How the runtime writes other characters in small letters plays no part.
theorem parseIpv6HextetsForLiteral_congr {js : Runtime} (hjs : LowersAddresses js) (host : List Char) :
    parseIpv6HextetsForLiteral js host = parseIpv6HextetsForLiteral asciiRuntime host := by
  apply Option.ext
  intro values
  exact (parseIpv6HextetsForLiteral_eq_some_iff hjs).trans
    (parseIpv6HextetsForLiteral_eq_some_iff lowersAddresses_asciiRuntime).symm

end MeshClient.Net
