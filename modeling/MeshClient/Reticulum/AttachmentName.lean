import MeshClient.Reticulum.ConfigFile

namespace MeshClient.Reticulum.Attachment

def MAX_ATTACHMENT_FILE_NAME_CHARS : Nat := 96

-- `char::is_control`
def isControl (c : Char) : Bool := c.toNat ≤ 0x1F || (0x7F ≤ c.toNat && c.toNat ≤ 0x9F)

def isMarker (c : Char) : Bool :=
  c.toNat = 0x200E || c.toNat = 0x200F || (0x202A ≤ c.toNat && c.toNat ≤ 0x202E) || (0x2066 ≤ c.toNat && c.toNat ≤ 0x2069)

def cleanChar (c : Char) : Char :=
  if isControl c || "[]:<>\"|?*".toList.contains c || isMarker c then '_' else c

def DEVICE_NAMES : List Text :=
  ["CON", "PRN", "AUX", "NUL", "COM1", "COM2", "COM3", "COM4", "COM5", "COM6", "COM7", "COM8", "COM9",
    "LPT1", "LPT2", "LPT3", "LPT4", "LPT5", "LPT6", "LPT7", "LPT8", "LPT9"].map String.toList

def isSeparator (c : Char) : Bool := c = '/' || c = '\\'

def isDot (c : Char) : Bool := c = '.'

def isDotOrSpace (c : Char) : Bool := c = '.' || c = ' '

-- `rsplit(..).next()`
def lastComponent (raw : Text) : Text := raw.rtakeWhile fun c => !isSeparator c

-- `split('.').next()`
def stem (name : Text) : Text := name.takeWhile fun c => !isDot c

def isReserved (name : Text) : Bool := DEVICE_NAMES.contains ((stem name).map Char.toUpper)

-- From the last dot on; nothing where there is no dot.
def lastExtension (name : Text) : Text := if '.' ∈ name then '.' :: name.rtakeWhile (fun c => !isDot c) else []

def extension (name : Text) : Text := if (lastExtension name).length ≤ 12 then lastExtension name else []

def capLength (name : Text) : Text :=
  if MAX_ATTACHMENT_FILE_NAME_CHARS < name.length then
    name.take (MAX_ATTACHMENT_FILE_NAME_CHARS - (extension name).length) ++ extension name
  else name

def trimDots (name : Text) : Text := (name.dropWhile isDot).rdropWhile isDotOrSpace

def escapeDevice (name : Text) : Text := if isReserved name then '_' :: name else name

def sanitizeAttachmentFileName (raw : Text) : Text :=
  let cleaned := trimDots (trim ((trim (lastComponent raw)).map cleanChar))
  if cleaned = [] then "attachment".toList else capLength (escapeDevice cleaned)

open Trim

variable {name raw : Text} {c : Char}

-- A blank that is not replaced for being a control character.
def staysBlank (c : Char) : Bool := isWhitespace c && !isControl c

theorem toUpper_of_toNat (h : c.toNat < 97 ∨ 122 < c.toNat) : c.toUpper = c := by
  have ha : 'a'.val.toNat = 97 := rfl
  have hz : 'z'.val.toNat = 122 := rfl
  have hc : c.val.toNat = c.toNat := rfl
  unfold Char.toUpper
  rw [dif_neg]
  rw [UInt32.le_iff_toNat_le, UInt32.le_iff_toNat_le, ha, hz, hc]
  omega

theorem marker_facts (h : isMarker c = true) : 0x200E ≤ c.toNat ∧ isWhitespace c = false := by
  simp only [isMarker, Bool.or_eq_true, Bool.and_eq_true, decide_eq_true_eq] at h
  refine ⟨by omega, ?_⟩
  rw [← Bool.not_eq_true]
  simp only [isWhitespace, List.mem_cons, List.not_mem_nil, or_false, Bool.or_eq_true, Bool.and_eq_true, decide_eq_true_eq]
  omega

theorem control_toNat (h : isControl c = true) : c.toNat ≤ 0x1F ∨ 0x7F ≤ c.toNat ∧ c.toNat ≤ 0x9F := by
  simpa [isControl] using h

-- What is replaced, and what is not.
theorem cleanChar_cases (c : Char) :
    cleanChar c = '_' ∧ staysBlank c = false ∧ c ≠ '.' ∧ c ≠ ' ' ∧ c.toUpper = c ∧ c ≠ '\u061c' ∨
      cleanChar c = c ∧ isControl c = false ∧ isMarker c = false := by
  have hdot : '.'.toNat = 0x2E := rfl
  have hspace : ' '.toNat = 0x20 := rfl
  have hmark : '\u061c'.toNat = 0x61C := rfl
  unfold cleanChar
  by_cases hcontrol : isControl c = true
  · have hnat := control_toNat hcontrol
    refine .inl ⟨by rw [hcontrol]; rfl, by simp [staysBlank, hcontrol], ?_, ?_, toUpper_of_toNat (by omega), ?_⟩
    all_goals
      intro h
      subst h
      omega
  by_cases hlisted : "[]:<>\"|?*".toList.contains c = true
  · have hall : ("[]:<>\"|?*".toList.all fun d =>
        isWhitespace d = false ∧ d ≠ '.' ∧ d ≠ ' ' ∧ d.toUpper = d ∧ d ≠ '\u061c') = true := by rfl
    obtain ⟨hblank, hfacts⟩ := of_decide_eq_true (List.all_eq_true.mp hall c (List.contains_iff_mem.mp hlisted))
    exact .inl ⟨by rw [hlisted]; simp, by rw [staysBlank, hblank]; rfl, hfacts⟩
  by_cases hmarker : isMarker c = true
  · obtain ⟨hnat, hblank⟩ := marker_facts hmarker
    refine .inl ⟨by rw [hmarker]; simp, by rw [staysBlank, hblank]; rfl, ?_, ?_, toUpper_of_toNat (by omega), ?_⟩
    all_goals
      intro h
      subst h
      omega
  · rw [Bool.not_eq_true] at hcontrol hlisted hmarker
    refine .inr ⟨?_, hcontrol, hmarker⟩
    rw [hcontrol, hlisted, hmarker]
    rfl

theorem isWhitespace_cleanChar (c : Char) : isWhitespace (cleanChar c) = staysBlank c := by
  obtain ⟨hclean, hblank, _⟩ | ⟨hclean, hcontrol, _⟩ := cleanChar_cases c
  · rw [hclean, hblank]
    rfl
  · rw [hclean, staysBlank, hcontrol, Bool.not_false, Bool.and_true]

theorem cleanChar_cleanChar (c : Char) : cleanChar (cleanChar c) = cleanChar c := by
  obtain ⟨hclean, _⟩ | ⟨hclean, _⟩ := cleanChar_cases c
  · rw [hclean]
    rfl
  · rw [hclean, hclean]

theorem isDot_cleanChar (c : Char) : isDot (cleanChar c) = isDot c := by
  obtain ⟨hclean, _, hdot, _⟩ | ⟨hclean, _⟩ := cleanChar_cases c
  · rw [hclean, isDot, isDot, decide_eq_false hdot]
    rfl
  · rw [hclean]

theorem isDotOrSpace_cleanChar (c : Char) : isDotOrSpace (cleanChar c) = isDotOrSpace c := by
  obtain ⟨hclean, _, hdot, hspace, _⟩ | ⟨hclean, _⟩ := cleanChar_cases c
  · rw [hclean, isDotOrSpace, isDotOrSpace, decide_eq_false hdot, decide_eq_false hspace]
    rfl
  · rw [hclean]

theorem rdropWhile_map {p : Char → Bool} (hp : ∀ c, p (cleanChar c) = p c) (name : Text) :
    (name.map cleanChar).rdropWhile p = (name.rdropWhile p).map cleanChar := by
  have hcomp : p ∘ cleanChar = p := funext hp
  rw [List.rdropWhile, ← List.map_reverse, List.dropWhile_map, hcomp, ← List.map_reverse]
  rfl

theorem rtakeWhile_map {p : Char → Bool} (hp : ∀ c, p (cleanChar c) = p c) (name : Text) :
    (name.map cleanChar).rtakeWhile p = (name.rtakeWhile p).map cleanChar := by
  have hcomp : p ∘ cleanChar = p := funext hp
  rw [List.rtakeWhile, ← List.map_reverse, List.takeWhile_map, hcomp, ← List.map_reverse]
  rfl

theorem trimDots_map (name : Text) : trimDots (name.map cleanChar) = (trimDots name).map cleanChar := by
  have hdot : isDot ∘ cleanChar = isDot := funext isDot_cleanChar
  rw [trimDots, List.dropWhile_map, hdot, rdropWhile_map isDotOrSpace_cleanChar]
  rfl

-- The characters at the ends stay no blanks.
theorem trim_map_of_neat (h : Neat isWhitespace name) : trim (name.map cleanChar) = name.map cleanChar := by
  have hends : ∀ c, isWhitespace c = false → isWhitespace (cleanChar c) = false := by
    intro c hc
    rw [isWhitespace_cleanChar, staysBlank, hc, Bool.false_and]
  refine trim_of_neat ⟨?_, ?_⟩
  · intro c hc
    rw [List.head?_map, Option.mem_map] at hc
    obtain ⟨d, hd, rfl⟩ := hc
    exact hends d (h.head d hd)
  · intro c hc
    rw [List.getLast?_map, Option.mem_map] at hc
    obtain ⟨d, hd, rfl⟩ := hc
    exact hends d (h.last d hd)

theorem stem_map (name : Text) : stem (name.map cleanChar) = (stem name).map cleanChar := by
  have hdot : (fun c => !isDot c) ∘ cleanChar = fun c => !isDot c := by
    funext c
    simp [isDot_cleanChar]
  rw [stem, List.takeWhile_map, hdot]
  rfl

-- No character of a device name stands for a replaced one.
theorem isReserved_map (name : Text) : isReserved (name.map cleanChar) = isReserved name := by
  have hall : (DEVICE_NAMES.all fun device => device.all fun c => cleanChar c = c ∧ c ≠ '_') = true := by rfl
  have hsame : ∀ device ∈ DEVICE_NAMES, ∀ c ∈ device, cleanChar c = c ∧ c ≠ '_' := by simpa using hall
  have hdevice : ∀ device ∈ DEVICE_NAMES, ∀ text : Text,
      (text.map cleanChar).map Char.toUpper = device ↔ text.map Char.toUpper = device := by
    intro device hdevice text
    have hchars := hsame device hdevice
    clear hall hsame hdevice
    induction text generalizing device with
    | nil => exact Iff.rfl
    | cons c text ih =>
        cases device with
        | nil => simp
        | cons d device =>
            simp only [List.map_cons, List.cons.injEq]
            obtain ⟨hd, hne⟩ := hchars d List.mem_cons_self
            have hrest : (text.map cleanChar).map Char.toUpper = device ↔ text.map Char.toUpper = device :=
              ih device fun x hx => hchars x (List.mem_cons_of_mem _ hx)
            obtain ⟨hclean, _, _, _, hupper, _⟩ | ⟨hclean, _⟩ := cleanChar_cases c
            · rw [hclean, hupper, hrest]
              refine and_congr_left fun _ => ⟨fun h => absurd h.symm hne, fun h => ?_⟩
              rw [h, hd] at hclean
              exact absurd hclean hne
            · rw [hclean, hrest]
  rw [isReserved, isReserved, stem_map, Bool.eq_iff_iff, List.contains_iff_mem, List.contains_iff_mem]
  constructor
  · intro h
    rwa [(hdevice _ h (stem name)).mp rfl]
  · intro h
    rwa [(hdevice _ h (stem name)).mpr rfl]

theorem escapeDevice_map (name : Text) : escapeDevice (name.map cleanChar) = (escapeDevice name).map cleanChar := by
  unfold escapeDevice
  rw [isReserved_map]
  split_ifs <;> rfl

theorem extension_map (name : Text) : extension (name.map cleanChar) = (extension name).map cleanChar := by
  have hdot : ∀ c, (!isDot (cleanChar c)) = !isDot c := fun c => by rw [isDot_cleanChar]
  have hmem : '.' ∈ name.map cleanChar ↔ '.' ∈ name := by
    rw [List.mem_map]
    constructor
    · intro ⟨c, hc, heq⟩
      have hisDot : isDot c = true := by rw [← isDot_cleanChar, heq]; rfl
      rwa [← of_decide_eq_true hisDot]
    · exact fun h => ⟨'.', h, rfl⟩
  have hlast : lastExtension (name.map cleanChar) = (lastExtension name).map cleanChar := by
    unfold lastExtension
    rw [rtakeWhile_map hdot]
    by_cases h : '.' ∈ name
    · rw [if_pos (hmem.mpr h), if_pos h]
      rfl
    · rw [if_neg fun hm => h (hmem.mp hm), if_neg h]
      rfl
  unfold extension
  rw [hlast, List.length_map]
  split_ifs <;> rfl

-- The name as it is stored, but for the replaced characters and the cap.
def storedName (raw : Text) : Text := escapeDevice (trimDots (trim (lastComponent raw)))

theorem sanitize_eq (raw : Text) : sanitizeAttachmentFileName raw =
    if storedName raw = [] then "attachment".toList else capLength ((storedName raw).map cleanChar) := by
  have hnil : storedName raw = [] ↔ trimDots (trim (lastComponent raw)) = [] := by
    unfold storedName escapeDevice
    split_ifs with hdevice
    · refine ⟨fun h => h.elim, fun h => ?_⟩
      rw [h] at hdevice
      cases hdevice
    · rfl
  have hneat : Neat isWhitespace (trim (lastComponent raw)) := neat_trim (lastComponent raw)
  simp only [sanitizeAttachmentFileName, trim_map_of_neat hneat, trimDots_map, escapeDevice_map, List.map_eq_nil_iff]
  rw [storedName] at hnil ⊢
  by_cases h : trimDots (trim (lastComponent raw)) = []
  · rw [if_pos h, if_pos (hnil.mpr h)]
  · rw [if_neg h, if_neg fun hm => h (hnil.mp hm)]

end MeshClient.Reticulum.Attachment
