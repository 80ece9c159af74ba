import MeshClient.Js.Text
import MeshClient.Lib.Utf8

namespace MeshClient.Js

-- A string of the language as it may really be: any sequence of UTF-16 code units.
abbrev Units := List UInt16

def units (s : String) : Units := (codeUnits s).map UInt16.ofNat

def isHigh (u : UInt16) : Bool := 0xD800 ≤ u.toNat && u.toNat ≤ 0xDBFF

def isLow (u : UInt16) : Bool := 0xDC00 ≤ u.toNat && u.toNat ≤ 0xDFFF

-- `Array.from(s)`; a surrogate without its partner stands alone.
def codePoints : Units → List Units
  | [] => []
  | [u] => [[u]]
  | u :: v :: rest => if isHigh u && isLow v then [u, v] :: codePoints rest else [u] :: codePoints (v :: rest)

-- The character of one code point; a lone surrogate becomes U+FFFD.
def pointChar : Units → Char
  | [u] => if isHigh u || isLow u then Utf8.REPLACEMENT else Char.ofNat u.toNat
  | [u, v] => Char.ofNat (0x10000 + (u.toNat - 0xD800) * 0x400 + (v.toNat - 0xDC00))
  | _ => Utf8.REPLACEMENT

-- `new TextEncoder().encode(s)`
def textEncode (s : Units) : List UInt8 := Utf8.encode ((codePoints s).map pointChar)

-- How many bytes the encoder writes for one code point.
def pointBytes : Units → ℕ
  | [u] => if u.toNat < 0x80 then 1 else if u.toNat < 0x800 then 2 else 3
  | _ => 4

-- `new TextEncoder().encode(s).byteLength`
def utf8Length (s : Units) : ℕ := ((codePoints s).map pointBytes).sum

def isSpaceUnit (u : UInt16) : Bool := isSpace (Char.ofNat u.toNat)

def trimUnits (s : Units) : Units := ((s.dropWhile isSpaceUnit).reverse.dropWhile isSpaceUnit).reverse

def hexDigit (n : ℕ) : UInt16 := UInt16.ofNat (if n < 10 then 0x30 + n else 0x57 + n)

def unicodeEscape (u : UInt16) : Units :=
  units "\\u" ++ [hexDigit (u.toNat / 4096), hexDigit (u.toNat / 256 % 16), hexDigit (u.toNat / 16 % 16),
    hexDigit (u.toNat % 16)]

def quotePoint : Units → Units
  | [u] =>
      if u = 0x08 then units "\\b"
      else if u = 0x09 then units "\\t"
      else if u = 0x0A then units "\\n"
      else if u = 0x0C then units "\\f"
      else if u = 0x0D then units "\\r"
      else if u = 0x22 then units "\\\""
      else if u = 0x5C then units "\\\\"
      else if u.toNat < 0x20 || isHigh u || isLow u then unicodeEscape u
      else [u]
  | point => point

-- `JSON.stringify(s)`
def jsonQuote (s : Units) : Units := units "\"" ++ (codePoints s).flatMap quotePoint ++ units "\""

-- `s.replace(pattern, replacement)` for a pattern that is a string: the first place only.
def replaceFirst (pattern replacement : Units) : Units → Units
  | [] => []
  | u :: rest =>
      if pattern.isPrefixOf (u :: rest) then replacement ++ (u :: rest).drop pattern.length
      else u :: replaceFirst pattern replacement rest

theorem codePoints_flatten (s : Units) : (codePoints s).flatten = s := by
  induction s using codePoints.induct with
  | case1 => rfl
  | case2 u => rfl
  | case3 u v rest hpair ih => rw [codePoints, if_pos hpair, List.flatten_cons, ih]; rfl
  | case4 u v rest hpair ih => rw [codePoints, if_neg hpair, List.flatten_cons, ih]; rfl

theorem not_nil_of_mem_codePoints {s point : Units} (h : point ∈ codePoints s) : point ≠ [] := by
  induction s using codePoints.induct with
  | case1 => cases h
  | case2 u =>
      rw [codePoints, List.mem_singleton] at h
      exact h ▸ List.cons_ne_nil _ _
  | case3 u v rest hpair ih =>
      rw [codePoints, if_pos hpair, List.mem_cons] at h
      cases h with
      | inl h => exact h ▸ List.cons_ne_nil _ _
      | inr h => exact ih h
  | case4 u v rest hpair ih =>
      rw [codePoints, if_neg hpair, List.mem_cons] at h
      cases h with
      | inl h => exact h ▸ List.cons_ne_nil _ _
      | inr h => exact ih h

-- Behind a unit that opens no pair a string can be cut.
theorem codePoints_append {s : Units} {u : UInt16} (hu : isHigh u = false) (t : Units) :
    codePoints (s ++ [u] ++ t) = codePoints (s ++ [u]) ++ codePoints t := by
  induction s using codePoints.induct with
  | case1 =>
      cases t with
      | nil => rfl
      | cons v t => simp [codePoints, hu]
  | case2 w =>
      by_cases hpair : (isHigh w && isLow u) = true
      · cases t with
        | nil => simp [codePoints]
        | cons v t => simp [codePoints, hpair]
      · cases t with
        | nil => simp [codePoints]
        | cons v t => simp [codePoints, hpair, hu]
  | case3 w v rest hpair ih =>
      simp only [List.cons_append] at ih ⊢
      rw [codePoints, codePoints, if_pos hpair, if_pos hpair, ih, List.cons_append]
  | case4 w v rest hpair ih =>
      simp only [List.cons_append] at ih ⊢
      rw [codePoints, codePoints, if_neg hpair, if_neg hpair, ih, List.cons_append]

theorem utf8Length_append {s : Units} {u : UInt16} (hu : isHigh u = false) (t : Units) :
    utf8Length (s ++ [u] ++ t) = utf8Length (s ++ [u]) + utf8Length t := by
  rw [utf8Length, codePoints_append hu, List.map_append, List.sum_append, utf8Length, utf8Length]

-- The code points of a string are told apart again when a run of them is put together.
theorem codePoints_of_append {s : Units} {front back : List Units} (h : codePoints s = front ++ back) :
    codePoints front.flatten = front ∧ codePoints back.flatten = back := by
  induction s using codePoints.induct generalizing front with
  | case1 =>
      obtain ⟨rfl, rfl⟩ := List.append_eq_nil_iff.mp h.symm
      exact ⟨rfl, rfl⟩
  | case2 u =>
      cases front with
      | nil =>
          rw [List.nil_append] at h
          rw [← h]
          exact ⟨rfl, rfl⟩
      | cons point front =>
          obtain ⟨rfl, hrest⟩ := List.cons.inj h
          obtain ⟨rfl, rfl⟩ := List.append_eq_nil_iff.mp hrest.symm
          exact ⟨rfl, rfl⟩
  | case3 u v rest hpair ih =>
      rw [codePoints, if_pos hpair] at h
      cases front with
      | nil =>
          rw [List.nil_append] at h
          rw [← h, List.flatten_cons, codePoints_flatten]
          exact ⟨rfl, by rw [List.cons_append, List.cons_append, List.nil_append, codePoints, if_pos hpair]⟩
      | cons point front =>
          obtain ⟨rfl, hrest⟩ := List.cons.inj h
          obtain ⟨hfront, hback⟩ := ih hrest
          refine ⟨?_, hback⟩
          rw [List.flatten_cons, List.cons_append, List.cons_append, List.nil_append, codePoints, if_pos hpair, hfront]
  | case4 u v rest hpair ih =>
      rw [codePoints, if_neg hpair] at h
      cases front with
      | nil =>
          rw [List.nil_append] at h
          rw [← h, List.flatten_cons, codePoints_flatten]
          exact ⟨rfl, by rw [List.cons_append, List.nil_append, codePoints, if_neg hpair]⟩
      | cons point front =>
          obtain ⟨rfl, hrest⟩ := List.cons.inj h
          obtain ⟨hfront, hback⟩ := ih hrest
          refine ⟨?_, hback⟩
          cases front with
          | nil => rfl
          | cons first front =>
              replace hrest : codePoints (v :: rest) = (first :: front) ++ back := hrest
              have hhead : ∃ more, (first :: front).flatten = v :: more := by
                have hflatten := congrArg List.flatten hrest
                rw [codePoints_flatten, List.flatten_append] at hflatten
                cases hshape : (first :: front).flatten with
                | nil =>
                    have hfirst : first ≠ [] := not_nil_of_mem_codePoints (hrest ▸ List.mem_append_left _ List.mem_cons_self)
                    rw [List.flatten_cons, List.append_eq_nil_iff] at hshape
                    exact absurd hshape.1 hfirst
                | cons w more =>
                    rw [hshape, List.cons_append] at hflatten
                    exact ⟨more, by rw [(List.cons.inj hflatten).1]⟩
              obtain ⟨more, hmore⟩ := hhead
              rw [hmore] at hfront
              rw [List.flatten_cons, hmore, List.cons_append, List.nil_append, codePoints, if_neg hpair, hfront]

theorem toNat_ofNat_of_lt {n : ℕ} (h : n < 65536) : (UInt16.ofNat n).toNat = n := by
  rw [UInt16.toNat_ofNat']
  omega

-- The text of the platform's own strings: no surrogate stands alone.
theorem codePoints_units (s : String) : (codePoints (units s)).map pointChar = s.toList := by
  have hall : ∀ cs : List Char, (codePoints ((cs.flatMap charCodes).map UInt16.ofNat)).map pointChar = cs ∧
      ∀ u ∈ ((cs.flatMap charCodes).map UInt16.ofNat).head?, isLow u = false := by
    intro cs
    induction cs with
    | nil => exact ⟨rfl, by simp⟩
    | cons c cs ih =>
        obtain ⟨hrest, hhead⟩ := ih
        have hvalid : c.toNat < 0xD800 ∨ (0xDFFF < c.toNat ∧ c.toNat < 0x110000) := c.valid
        rw [List.flatMap_cons, List.map_append, charCodes]
        generalize (cs.flatMap charCodes).map UInt16.ofNat = rest at hrest hhead ⊢
        split_ifs with hplane
        · have hunit := toNat_ofNat_of_lt hplane
          have hhigh : isHigh (UInt16.ofNat c.toNat) = false := by
            simp only [isHigh, hunit, Bool.and_eq_false_iff, decide_eq_false_iff_not]
            omega
          have hlow : isLow (UInt16.ofNat c.toNat) = false := by
            simp only [isLow, hunit, Bool.and_eq_false_iff, decide_eq_false_iff_not]
            omega
          have hpoints := @codePoints_append [] _ hhigh rest
          rw [List.nil_append] at hpoints
          refine ⟨?_, by simpa using hlow⟩
          rw [List.map_singleton, hpoints, List.map_append, hrest, codePoints, List.map_singleton, pointChar, hhigh, hlow,
            hunit, Char.ofNat_toNat]
          rfl
        · have hfirst := @toNat_ofNat_of_lt (0xD800 + (c.toNat - 0x10000) / 0x400) (by omega)
          have hsecond := @toNat_ofNat_of_lt (0xDC00 + (c.toNat - 0x10000) % 0x400) (by omega)
          have hhigh : isHigh (UInt16.ofNat (0xD800 + (c.toNat - 0x10000) / 0x400)) = true := by
            simp only [isHigh, hfirst, Bool.and_eq_true, decide_eq_true_eq]
            omega
          have hlow : isLow (UInt16.ofNat (0xDC00 + (c.toNat - 0x10000) % 0x400)) = true := by
            simp only [isLow, hsecond, Bool.and_eq_true, decide_eq_true_eq]
            omega
          have hvalue : 0x10000 + (0xD800 + (c.toNat - 0x10000) / 0x400 - 0xD800) * 0x400 +
              (0xDC00 + (c.toNat - 0x10000) % 0x400 - 0xDC00) = c.toNat := by omega
          refine ⟨?_, ?_⟩
          · simp only [List.map_cons, List.map_nil, List.cons_append, List.nil_append, codePoints, hhigh, hlow, Bool.and_self,
              if_true, hrest, pointChar, hfirst, hsecond]
            exact congrArg (· :: cs) ((congrArg Char.ofNat hvalue).trans (Char.ofNat_toNat c))
          · simp only [List.map_cons, List.map_nil, List.cons_append, List.head?_cons, Option.mem_some_iff, forall_eq',
              isLow, hfirst, Bool.and_eq_false_iff, decide_eq_false_iff_not]
            omega
  exact (hall s.toList).1

end MeshClient.Js
