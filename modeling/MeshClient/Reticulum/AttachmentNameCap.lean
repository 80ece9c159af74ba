import MeshClient.Reticulum.AttachmentName

namespace MeshClient.Reticulum.Attachment

open Trim

variable {name raw : Text} {c : Char}

theorem lastExtension_suffix (name : Text) : lastExtension name <:+ name := by
  unfold lastExtension
  split_ifs with hdot
  · have hne : name.rdropWhile (fun c => !isDot c) ≠ [] := by
      intro hnil
      have hall := List.rdropWhile_eq_nil_iff.mp hnil '.' hdot
      cases hall
    have hlast : (name.rdropWhile fun c => !isDot c).getLast hne = '.' := by
      have hnot := List.rdropWhile_last_not (fun c => !isDot c) name hne
      rw [Bool.not_eq_true, Bool.not_eq_false'] at hnot
      exact of_decide_eq_true hnot
    refine ⟨(name.rdropWhile fun c => !isDot c).dropLast, ?_⟩
    calc
      (name.rdropWhile fun c => !isDot c).dropLast ++ '.' :: name.rtakeWhile (fun c => !isDot c)
        = ((name.rdropWhile fun c => !isDot c).dropLast ++ ['.']) ++ name.rtakeWhile (fun c => !isDot c) := by simp
      _ = (name.rdropWhile fun c => !isDot c) ++ name.rtakeWhile (fun c => !isDot c) := by
        rw [← hlast, List.dropLast_append_getLast]
      _ = name := List.rdropWhile_append_rtakeWhile
  · exact List.nil_suffix

theorem extension_suffix (name : Text) : extension name <:+ name := by
  unfold extension
  split_ifs
  · exact lastExtension_suffix name
  · exact List.nil_suffix

theorem length_extension_le (name : Text) : (extension name).length ≤ 12 := by
  unfold extension
  split_ifs with h
  · exact h
  · exact Nat.zero_le _

-- The places of the name that the cap keeps.
def Kept (name : Text) (i : Nat) : Prop :=
  name.length ≤ 96 ∨ i < 96 - (extension name).length ∨ name.length ≤ i + (extension name).length

theorem capLength_of_le (h : name.length ≤ 96) : capLength name = name := if_neg (by rw [MAX_ATTACHMENT_FILE_NAME_CHARS]; omega)

theorem capLength_of_lt (h : 96 < name.length) :
    capLength name = name.take (96 - (extension name).length) ++ extension name := if_pos h

theorem mem_capLength : c ∈ capLength name ↔ ∃ i, Kept name i ∧ name[i]? = some c := by
  by_cases hlen : name.length ≤ 96
  · rw [capLength_of_le hlen, List.mem_iff_getElem?]
    exact exists_congr fun i => (and_iff_right (Or.inl hlen)).symm
  obtain ⟨front, hfront⟩ := extension_suffix name
  have hsize : front.length + (extension name).length = name.length := by
    rw [← List.length_append, hfront]
  rw [capLength_of_lt (by omega), List.mem_append]
  constructor
  · intro h
    obtain h | h := h
    · obtain ⟨i, hi⟩ := List.mem_iff_getElem?.mp h
      rw [List.getElem?_take] at hi
      split_ifs at hi with hlt
      exact ⟨i, .inr (.inl hlt), hi⟩
    · obtain ⟨j, hj⟩ := List.mem_iff_getElem?.mp h
      refine ⟨front.length + j, .inr (.inr (by omega)), ?_⟩
      have hplace := @List.getElem?_append_right _ front (extension name) (front.length + j) (by omega)
      rw [hfront, Nat.add_sub_cancel_left] at hplace
      rw [hplace, hj]
  · intro ⟨i, hkept, hi⟩
    obtain h | h | h := hkept
    · omega
    · refine .inl (List.mem_iff_getElem?.mpr ⟨i, ?_⟩)
      rw [List.getElem?_take, if_pos h, hi]
    · refine .inr (List.mem_iff_getElem?.mpr ⟨i - front.length, ?_⟩)
      have hplace := @List.getElem?_append_right _ front (extension name) i (by omega)
      rw [hfront, hi] at hplace
      exact hplace.symm

theorem length_capLength_le (name : Text) : (capLength name).length ≤ 96 := by
  by_cases hlen : name.length ≤ 96
  · rwa [capLength_of_le hlen]
  · have hext := length_extension_le name
    rw [capLength_of_lt (by omega), List.length_append, List.length_take]
    omega

theorem head_capLength (name : Text) : (capLength name).head? = name.head? := by
  by_cases hlen : name.length ≤ 96
  · rw [capLength_of_le hlen]
  · have hext := length_extension_le name
    rw [capLength_of_lt (by omega), List.head?_append, List.head?_take, if_neg (by omega)]
    cases name with
    | nil => simp at hlen
    | cons d name => rfl

-- The name ends as it did, or with its 96th character where the rest is cut off.
theorem last_capLength (name : Text) : (capLength name).getLast? =
    if 96 < name.length ∧ extension name = [] then name[95]? else name.getLast? := by
  by_cases hlen : name.length ≤ 96
  · rw [capLength_of_le hlen, if_neg fun h => by omega]
  rw [capLength_of_lt (by omega), List.getLast?_append]
  by_cases hext : extension name = []
  · rw [if_pos ⟨by omega, hext⟩, hext, List.length_nil, Nat.sub_zero, List.getLast?_take, if_neg (by omega)]
    obtain ⟨c, hplace⟩ : ∃ c, name[95]? = some c := ⟨_, List.getElem?_eq_getElem (by omega)⟩
    rw [hplace]
    rfl
  · rw [if_neg fun h => hext h.2]
    obtain ⟨front, hfront⟩ := extension_suffix name
    have hlast : name.getLast? = (extension name).getLast? := by
      conv_lhs => rw [← hfront, List.getLast?_append]
      rw [List.getLast?_eq_some_getLast hext]
      rfl
    rw [hlast, List.getLast?_eq_some_getLast hext]
    rfl

theorem length_of_isReserved (h : isReserved name = true) : (stem name).length ≤ 4 := by
  have hall : ∀ device ∈ DEVICE_NAMES, device.length ≤ 4 := by decide
  have hlength := hall _ (List.contains_iff_mem.mp h)
  rwa [List.length_map] at hlength

-- The cap does not make a device name.
theorem isReserved_capLength (h : isReserved name = false) : isReserved (capLength name) = false := by
  by_cases hlen : name.length ≤ 96
  · rwa [capLength_of_le hlen]
  have hext := length_extension_le name
  rw [capLength_of_lt (by omega)]
  have hsplit : (name.take (96 - (extension name).length) ++ name.drop (96 - (extension name).length)).takeWhile
      (fun c => !isDot c) = stem name := by
    rw [List.take_append_drop]
    rfl
  rw [← Bool.not_eq_true]
  intro hreserved
  have hshort := length_of_isReserved hreserved
  rw [List.takeWhile_append] at hsplit
  rw [stem, List.takeWhile_append] at hshort
  split_ifs at hsplit hshort with hnoDot
  · rw [List.length_append, List.length_take] at hshort
    omega
  · rw [← Bool.not_eq_true] at h
    refine h ?_
    rw [isReserved, stem, List.takeWhile_append, if_neg hnoDot] at hreserved
    rw [isReserved, ← hsplit]
    exact hreserved

def isBidiControl (c : Char) : Bool := c = '\u061c' || isMarker c

structure SafeName (name : Text) : Prop where
  ne : name ≠ []
  length_le : name.length ≤ MAX_ATTACHMENT_FILE_NAME_CHARS
  chars : ∀ c ∈ name, isSeparator c = false ∧ isControl c = false ∧ isBidiControl c = false
  first : ∀ c ∈ name.head?, c ≠ '.' ∧ isWhitespace c = false
  last : ∀ c ∈ name.getLast?, c ≠ '.' ∧ isWhitespace c = false
  device : isReserved name = false

-- A name that is stored as a safe one.
structure KeepsSafe (name : Text) : Prop where
  first : ∀ c ∈ name.head?, staysBlank c = false
  last : name.length ≤ 96 ∨ extension name ≠ [] → ∀ c ∈ name.getLast?, staysBlank c = false
  cut : 96 < name.length → extension name = [] → ∀ c ∈ name[95]?, c ≠ '.' ∧ staysBlank c = false
  marks : ∀ i, Kept name i → name[i]? ≠ some '\u061c'

-- What every stored name has.
structure Plain (name : Text) : Prop where
  chars : ∀ c ∈ name, isSeparator c = false
  first : ∀ c ∈ name.head?, c ≠ '.'
  last : ∀ c ∈ name.getLast?, c ≠ '.' ∧ c ≠ ' '
  device : isReserved name = false

theorem trimDots_facts (name : Text) :
    (∀ c ∈ trimDots name, c ∈ name) ∧ (∀ c ∈ (trimDots name).head?, c ≠ '.') ∧
      ∀ c ∈ (trimDots name).getLast?, c ≠ '.' ∧ c ≠ ' ' := by
  have hstart := List.rdropWhile_prefix isDotOrSpace (name.dropWhile isDot)
  refine ⟨?_, ?_, ?_⟩
  · exact fun c hc => (List.dropWhile_suffix isDot).subset (hstart.subset hc)
  · intro c hc hdot
    obtain ⟨post, hpost⟩ := hstart
    have hhead : (name.dropWhile isDot).head? = some c := by
      rw [← hpost, List.head?_append]
      rw [trimDots, Option.mem_def] at hc
      rw [hc, Option.some_or]
    have hnot := List.head?_dropWhile_not isDot name
    rw [hhead, hdot] at hnot
    cases hnot
  · intro c hc
    have hne : trimDots name ≠ [] := by
      intro hnil
      simp [hnil] at hc
    have hnot := List.rdropWhile_last_not isDotOrSpace (name.dropWhile isDot) hne
    rw [List.getLast?_eq_some_getLast hne, Option.mem_some] at hc
    subst hc
    change ¬ isDotOrSpace ((trimDots name).getLast hne) = true at hnot
    simpa [isDotOrSpace] using hnot

theorem isReserved_underscore (name : Text) : isReserved ('_' :: name) = false := by
  have hall : ∀ device ∈ DEVICE_NAMES, device.head? ≠ some '_' := by decide
  rw [← Bool.not_eq_true]
  intro h
  rw [isReserved, List.contains_iff_mem] at h
  exact hall _ h rfl

theorem plain_storedName (raw : Text) : Plain (storedName raw) := by
  obtain ⟨hmem, hfirst, hlast⟩ := trimDots_facts (trim (lastComponent raw))
  have hchars : ∀ c ∈ trimDots (trim (lastComponent raw)), isSeparator c = false := by
    intro c hc
    have hcomponent : c ∈ lastComponent raw := mem_of_mem_trim (hmem c hc)
    simpa using List.mem_rtakeWhile_imp hcomponent
  unfold storedName escapeDevice
  split_ifs with hreserved
  · refine ⟨?_, ?_, ?_, isReserved_underscore _⟩
    · intro c hc
      obtain rfl | hc := List.mem_cons.mp hc
      · rfl
      · exact hchars c hc
    · intro c hc
      obtain rfl := Option.some.inj hc
      decide
    · intro c hc
      cases hname : (trimDots (trim (lastComponent raw))).getLast? with
      | none =>
          rw [List.getLast?_cons, hname] at hc
          obtain rfl := Option.some.inj hc
          decide
      | some d =>
          rw [List.getLast?_cons, hname] at hc
          obtain rfl := Option.some.inj hc
          exact hlast d hname
  · exact ⟨hchars, hfirst, hlast, by simpa using hreserved⟩

theorem kept_map {i : Nat} : Kept (name.map cleanChar) i ↔ Kept name i := by
  rw [Kept, Kept, extension_map, List.length_map, List.length_map]

theorem clean_facts (c : Char) : isControl (cleanChar c) = false ∧ isMarker (cleanChar c) = false ∧
    (isSeparator c = false → isSeparator (cleanChar c) = false) ∧ (c ≠ '.' → cleanChar c ≠ '.') ∧
    (cleanChar c = '\u061c' ↔ c = '\u061c') := by
  obtain ⟨hclean, _, _, _, _, hmark⟩ | ⟨hclean, hcontrol, hmarker⟩ := cleanChar_cases c
  · rw [hclean]
    exact ⟨rfl, rfl, fun _ => rfl, fun _ => by decide, by simp [hmark]⟩
  · rw [hclean]
    exact ⟨hcontrol, hmarker, id, id, Iff.rfl⟩

theorem safe_capLength_iff (hne : name ≠ []) (hplain : Plain name) :
    SafeName (capLength (name.map cleanChar)) ↔ KeepsSafe name := by
  have hhead : (capLength (name.map cleanChar)).head? = name.head?.map cleanChar := by
    rw [head_capLength, List.head?_map]
  have hlast : (capLength (name.map cleanChar)).getLast? =
      (if 96 < name.length ∧ extension name = [] then name[95]? else name.getLast?).map cleanChar := by
    simp only [last_capLength, List.length_map, extension_map, List.map_eq_nil_iff, List.getElem?_map, List.getLast?_map]
    split_ifs <;> rfl
  have hmem : ∀ c, c ∈ capLength (name.map cleanChar) ↔ ∃ i d, Kept name i ∧ name[i]? = some d ∧ cleanChar d = c := by
    intro c
    rw [mem_capLength]
    refine exists_congr fun i => ?_
    rw [kept_map, List.getElem?_map, Option.map_eq_some_iff]
    simp only [exists_and_left]
  constructor
  · intro hsafe
    refine ⟨?_, ?_, ?_, ?_⟩
    · intro c hc
      have hfirst := hsafe.first (cleanChar c) (by rw [hhead, hc]; rfl)
      rw [← isWhitespace_cleanChar]
      exact hfirst.2
    · intro hwhole c hc
      have hwhere : ¬ (96 < name.length ∧ extension name = []) := by
        intro ⟨hlong, hext⟩
        obtain h | h := hwhole
        · omega
        · exact h hext
      rw [if_neg hwhere] at hlast
      have hend := hsafe.last (cleanChar c) (by rw [hlast, hc]; rfl)
      rw [← isWhitespace_cleanChar]
      exact hend.2
    · intro hlong hext c hc
      rw [if_pos ⟨hlong, hext⟩] at hlast
      have hend := hsafe.last (cleanChar c) (by rw [hlast, hc]; rfl)
      rw [← isWhitespace_cleanChar]
      refine ⟨?_, hend.2⟩
      rintro rfl
      exact hend.1 rfl
    · intro i hkept hi
      have hmark := (hsafe.chars '\u061c' ((hmem _).mpr ⟨i, '\u061c', hkept, hi, rfl⟩)).2.2
      cases hmark
  · intro hkeeps
    refine ⟨?_, length_capLength_le _, ?_, ?_, ?_, ?_⟩
    · intro hnil
      rw [hnil] at hhead
      cases name with
      | nil => exact hne rfl
      | cons c name => cases hhead
    · intro c hc
      obtain ⟨i, d, hkept, hd, rfl⟩ := (hmem c).mp hc
      obtain ⟨hcontrol, hmarker, hseparator, _, hmark⟩ := clean_facts d
      refine ⟨hseparator (hplain.chars d (List.mem_of_getElem? hd)), hcontrol, ?_⟩
      rw [isBidiControl, hmarker, Bool.or_false, decide_eq_false_iff_not, hmark]
      rintro rfl
      exact hkeeps.marks i hkept hd
    · intro c hc
      rw [hhead, Option.mem_map] at hc
      obtain ⟨d, hd, rfl⟩ := hc
      exact ⟨(clean_facts d).2.2.2.1 (hplain.first d hd), by rw [isWhitespace_cleanChar]; exact hkeeps.first d hd⟩
    · intro c hc
      rw [hlast, Option.mem_map] at hc
      obtain ⟨d, hd, rfl⟩ := hc
      rw [isWhitespace_cleanChar]
      split_ifs at hd with hcut
      · obtain ⟨hdot, hblank⟩ := hkeeps.cut hcut.1 hcut.2 d hd
        exact ⟨(clean_facts d).2.2.2.1 hdot, hblank⟩
      · refine ⟨(clean_facts d).2.2.2.1 (hplain.last d hd).1, hkeeps.last ?_ d hd⟩
        by_cases hlong : 96 < name.length
        · exact .inr fun hext => hcut ⟨hlong, hext⟩
        · exact .inl (by omega)
    · exact isReserved_capLength (by rw [isReserved_map, hplain.device])

-- A safe name is stored as it is.
theorem sanitize_of_safe (hsafe : SafeName name) (hclean : ∀ c ∈ name, cleanChar c = c) :
    sanitizeAttachmentFileName name = name := by
  have hcomponent : lastComponent name = name := by
    rw [lastComponent, List.rtakeWhile_eq_self_iff]
    intro c hc
    rw [(hsafe.chars c hc).1]
    rfl
  have htrim : trim name = name := trim_of_neat ⟨fun c hc => (hsafe.first c hc).2, fun c hc => (hsafe.last c hc).2⟩
  have hmap : name.map cleanChar = name := (List.map_congr_left hclean).trans (List.map_id name)
  have hdots : trimDots name = name := by
    have hhead : name.dropWhile isDot = name :=
      dropWhile_of_head fun c hc => decide_eq_false (hsafe.first c hc).1
    rw [trimDots, hhead]
    refine rdropWhile_of_last fun c hc => ?_
    obtain ⟨hdot, hblank⟩ := hsafe.last c hc
    have hspace : c ≠ ' ' := by
      rintro rfl
      cases hblank
    rw [isDotOrSpace, decide_eq_false hdot, decide_eq_false hspace]
    rfl
  rw [sanitize_eq, storedName, hcomponent, htrim, hdots, escapeDevice, hsafe.device, if_neg Bool.false_ne_true,
    if_neg hsafe.ne, hmap, capLength_of_le hsafe.length_le]

theorem safe_attachment : SafeName "attachment".toList := by
  have hchars : ("attachment".toList.all fun c => isSeparator c = false ∧ isControl c = false ∧ isBidiControl c = false) =
      true := by rfl
  refine ⟨by decide, by decide, ?_, ?_, ?_, by rfl⟩
  · exact fun c hc => of_decide_eq_true (List.all_eq_true.mp hchars c hc)
  · intro c hc
    obtain rfl : 'a' = c := Option.some.inj hc
    decide
  · intro c hc
    obtain rfl : 't' = c := Option.some.inj hc
    decide

end MeshClient.Reticulum.Attachment
