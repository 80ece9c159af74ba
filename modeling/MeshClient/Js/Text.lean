import MeshClient.Lib.Lists

namespace MeshClient.Js

open Lists

-- The parts of the JavaScript runtime that the text helpers call and that are not spelled
-- out here: Unicode case mapping, and the number a decimal literal denotes (`none` when it
-- is not finite). Every result about the helpers holds for all of them.
structure Runtime where
  toLowerCase : String → String
  toUpperCase : String → String
  parseFloat : String → Option ℚ

-- Characters matched by `\s`, which are also the ones `trim` removes.
def isSpace (c : Char) : Bool :=
  c.toNat ∈ [0x9, 0xA, 0xB, 0xC, 0xD, 0x20, 0xA0, 0x1680, 0x2028, 0x2029, 0x202F, 0x205F,
    0x3000, 0xFEFF] || (0x2000 ≤ c.toNat && c.toNat ≤ 0x200A)

def trimChars (cs : List Char) : List Char :=
  ((cs.dropWhile isSpace).reverse.dropWhile isSpace).reverse

def trim (s : String) : String := String.ofList (trimChars s.toList)

theorem dropWhile_isSpace_of_head {c : Char} {cs : List Char} (h : isSpace c = false) :
    (c :: cs).dropWhile isSpace = c :: cs := by simp [h]

theorem trimChars_of_forall {cs : List Char} (h : ∀ c ∈ cs, isSpace c = false) : trimChars cs = cs := by
  have hdrop : ∀ ds : List Char, (∀ c ∈ ds, isSpace c = false) → ds.dropWhile isSpace = ds := by
    intro ds hds
    cases ds with
    | nil => rfl
    | cons c ds => exact dropWhile_isSpace_of_head (hds c List.mem_cons_self)
  rw [trimChars, hdrop cs h, hdrop cs.reverse fun c hc => h c (List.mem_reverse.mp hc),
    List.reverse_reverse]

-- `afterSpace` tells whether the run being read has already given its blank.
def collapseFrom (afterSpace : Bool) : List Char → List Char
  | [] => []
  | c :: cs =>
      if isSpace c then
        if afterSpace then collapseFrom true cs else ' ' :: collapseFrom true cs
      else c :: collapseFrom false cs

-- `s.replace(/\s+/g, ' ')`
def collapseSpaces (s : String) : String := String.ofList (collapseFrom false s.toList)

-- The UTF-16 code units of one character.
def charCodes (c : Char) : List Nat :=
  if c.toNat < 0x10000 then [c.toNat]
  else [0xD800 + (c.toNat - 0x10000) / 0x400, 0xDC00 + (c.toNat - 0x10000) % 0x400]

def codeUnits (s : String) : List Nat := s.toList.flatMap charCodes

-- The order `Array.prototype.sort` uses without a comparator.
def codeUnitLe (a b : String) : Prop := codeUnits a ≤ codeUnits b

instance : DecidableRel codeUnitLe := fun a b =>
  inferInstanceAs (Decidable (codeUnits a ≤ codeUnits b))

def sortStrings (xs : List String) : List String := xs.insertionSort codeUnitLe

def isDigit (c : Char) : Bool := '0'.toNat ≤ c.toNat && c.toNat ≤ '9'.toNat

-- Reads `-?\d+\.\d+` at the front: the text read and what follows. No shorter reading of
-- the digits can succeed where the longest one fails, so there is nothing to backtrack to.
def readDecimal (cs : List Char) : Option (List Char × List Char) :=
  let (sign, body) := match cs with
    | '-' :: rest => (['-'], rest)
    | _ => ([], cs)
  let whole := body.takeWhile isDigit
  match body.dropWhile isDigit with
  | '.' :: rest =>
      let fraction := rest.takeWhile isDigit
      if whole = [] ∨ fraction = [] then none
      else some (sign ++ whole ++ '.' :: fraction, rest.dropWhile isDigit)
  | _ => none

def digitsValue (cs : List Char) : Nat := cs.foldl (fun n c => 10 * n + (c.toNat - '0'.toNat)) 0

def asciiParseFloat (s : String) : Option ℚ :=
  let (sign, body) : ℚ × List Char := match s.toList with
    | '-' :: rest => (-1, rest)
    | cs => (1, cs)
  let whole := body.takeWhile isDigit
  let fraction := (body.drop (whole.length + 1)).takeWhile isDigit
  some (sign * (digitsValue (whole ++ fraction) / 10 ^ fraction.length))

-- What the runtime does on ASCII text and on decimals that a double holds exactly.
def asciiRuntime : Runtime where
  toLowerCase s := String.ofList (s.toList.map Char.toLower)
  toUpperCase s := String.ofList (s.toList.map Char.toUpper)
  parseFloat := asciiParseFloat

-- One surrogate pair never starts like a single unit, so the units determine the string.
theorem charCodes_append_inj (c d : Char) (xs ys : List Nat)
    (h : charCodes c ++ xs = charCodes d ++ ys) : c = d ∧ xs = ys := by
  have hc := c.valid
  have hd := d.valid
  have hcn : c.toNat = c.val.toNat := rfl
  have hdn : d.toNat = d.val.toNat := rfl
  suffices hn : c.toNat = d.toNat ∧ xs = ys from ⟨Char.toNat_inj.mp hn.1, hn.2⟩
  simp only [UInt32.isValidChar, Nat.isValidChar, ← hcn, ← hdn] at hc hd
  unfold charCodes at h
  split_ifs at h <;> simp only [List.cons_append, List.nil_append, List.cons.injEq] at h
  · exact h
  · omega
  · omega
  · exact ⟨by omega, h.2.2⟩

theorem codeUnits_injective : Function.Injective codeUnits := by
  intro a b h
  suffices hl : a.toList = b.toList from String.toList_injective hl
  unfold codeUnits at h
  generalize a.toList = xs at h
  generalize b.toList = ys at h
  induction xs generalizing ys with
  | nil =>
      cases ys with
      | nil => rfl
      | cons d ds => simp only [List.flatMap_nil, List.flatMap_cons, charCodes] at h; split at h <;> simp at h
  | cons c cs ih =>
      cases ys with
      | nil => simp only [List.flatMap_nil, List.flatMap_cons, charCodes] at h; split at h <;> simp at h
      | cons d ds =>
          obtain ⟨rfl, hrest⟩ := charCodes_append_inj c d _ _ h
          rw [ih ds hrest]

instance : Std.Total codeUnitLe := ⟨fun a b => le_total (codeUnits a) (codeUnits b)⟩

instance : IsTrans String codeUnitLe := ⟨fun _ _ _ hab hbc => le_trans hab hbc⟩

instance : Std.Antisymm codeUnitLe :=
  ⟨fun _ _ hab hba => codeUnits_injective (le_antisymm hab hba)⟩

-- Sorting forgets everything but which strings occur.
theorem sortStrings_unique_congr {xs ys : List String} (h : ∀ s, s ∈ xs ↔ s ∈ ys) :
    sortStrings (unique xs) = sortStrings (unique ys) := by
  have hp : (unique xs).Perm (unique ys) :=
    (List.perm_ext_iff_of_nodup (unique_nodup xs) (unique_nodup ys)).mpr (by simp [h])
  exact ((List.perm_insertionSort _ _).trans (hp.trans (List.perm_insertionSort _ _).symm)).eq_of_pairwise'
    (List.pairwise_insertionSort _ _) (List.pairwise_insertionSort _ _)

end MeshClient.Js
