import MeshClient.Js.Json
import MeshClient.Lib.PairSplit
import MeshClient.Lib.Trim

namespace MeshClient.Net

open Js

-- `[0-9a-f]` in either case
def isHexDigit (c : Char) : Bool := (digitOf 16 c).isSome

def hexValue (cs : List Char) : Nat := cs.foldl (fun n c => 16 * n + (digitOf 16 c).getD 0) 0

-- Hosts are lists of characters here.
def stripConnectHostBrackets (host : List Char) : List Char :=
  let trimmed := trimChars host
  if trimmed.head? = some '[' ∧ trimmed.getLast? = some ']' ∧ 2 < trimmed.length then
    (trimmed.drop 1).dropLast
  else trimmed

def parseOctet (part : List Char) : Option Nat :=
  if part = [] ∨ 3 < part.length ∨ (!part.all isDigit) ∨ 255 < digitsValue part then none
  else some (digitsValue part)

def parseIpv4Octets (host : List Char) : Option (List Nat) :=
  let parts := host.splitOn '.'
  if parts.length ≠ 4 then none else parts.mapM parseOctet

def parseHextet (part : List Char) : Option Nat :=
  if part = [] ∨ 4 < part.length ∨ !part.all isHexDigit then none else some (hexValue part)

def v4 : List Char := ['v', '4']
def v4a : List Char := ['v', '4', 'a']
def v4b : List Char := ['v', '4', 'b']

def quadHextets (text : List Char) : Option (Nat × Nat) :=
  match parseIpv4Octets text with
  | some [a, b, c, d] => some ((a <<< 8) ||| b, (c <<< 8) ||| d)
  | _ => none

-- A trailing dotted quad is replaced by a mark, and its two hextets are kept aside.
def takeEmbedded (normalized : List Char) : Option (List Char × Option (Nat × Nat)) :=
  let after := normalized.rtakeWhile (· ≠ ':')
  if '.' ∈ after then
    let front := (normalized.rdropWhile (· ≠ ':')).dropLast
    if front.all fun c => isHexDigit c || c = ':' then
      (quadHextets after).map fun pair => (front ++ ':' :: v4, some pair)
    else none
  else some (normalized, none)

def expandParts (raw : List (List Char)) : List (List Char) :=
  raw.flatMap fun part => if part = v4 then [v4a, v4b] else [part]

def splitGroups (text : List Char) : List (List Char) := if text = [] then [] else text.splitOn ':'

def literalParts (normalized : List Char) : Option (List (List Char)) :=
  match PairSplit.split ':' normalized with
  | [whole] =>
      let expanded := expandParts (whole.splitOn ':')
      if expanded.length ≠ 8 then none else some expanded
  | [left, right] =>
      let head := expandParts (splitGroups left)
      let tail := expandParts (splitGroups right)
      -- the doubled colon must stand for at least one group
      if 8 < head.length + tail.length + 1 then none
      else some (head ++ List.replicate (8 - head.length - tail.length) ['0'] ++ tail)
  | _ => none

def hextetOf (embedded : Option (Nat × Nat)) (part : List Char) : Option Nat :=
  if part = v4a then embedded.map (·.1)
  else if part = v4b then embedded.map (·.2)
  else parseHextet part

def parseHextets (normalized : List Char) : Option (List Nat) :=
  match takeEmbedded normalized with
  | none => none
  | some (marked, embedded) =>
      match literalParts marked with
      | none => none
      | some parts => parts.mapM (hextetOf embedded)

def toLowerCase (js : Runtime) (text : List Char) : List Char := (js.toLowerCase (String.ofList text)).toList

def parseIpv6HextetsForLiteral (js : Runtime) (host : List Char) : Option (List Nat) :=
  let normalized := toLowerCase js (stripConnectHostBrackets host)
  if ':' ∈ normalized then parseHextets normalized else none

-- One group of an address as it is written.
def IsGroup (text : List Char) (value : Nat) : Prop :=
  text ≠ [] ∧ text.length ≤ 4 ∧ (∀ c ∈ text, isHexDigit c = true) ∧ hexValue text = value

def IsOctet (text : List Char) (value : Nat) : Prop :=
  text ≠ [] ∧ text.length ≤ 3 ∧ (∀ c ∈ text, isDigit c = true) ∧ digitsValue text = value ∧ value ≤ 255

-- A dotted quad and the two groups it stands for.
def IsQuad (text : List Char) (high low : Nat) : Prop :=
  ∃ (ta tb tc td : List Char) (a b c d : Nat), IsOctet ta a ∧ IsOctet tb b ∧ IsOctet tc c ∧ IsOctet td d ∧
    text = ta ++ '.' :: (tb ++ '.' :: (tc ++ '.' :: td)) ∧ high = 256 * a + b ∧ low = 256 * c + d

-- Groups, of which the last two may be written as a dotted quad.
inductive Groups : List (List Char) → List Nat → Prop where
  | nil : Groups [] []
  | quad {text : List Char} {high low : Nat} (h : IsQuad text high low) : Groups [text] [high, low]
  | group {text : List Char} {value : Nat} {texts : List (List Char)} {values : List Nat}
      (h : IsGroup text value) (rest : Groups texts values) : Groups (text :: texts) (value :: values)

-- The text forms of an address: eight groups, or fewer with one `::` in place of the missing ones.
inductive TextForm : List Char → List Nat → Prop where
  | full {texts : List (List Char)} {values : List Nat} (h : Groups texts values) (hlen : values.length = 8) :
      TextForm ([':'].intercalate texts) values
  | compressed {left right : List (List Char)} {us vs : List Nat} (hleft : List.Forall₂ IsGroup left us)
      (hright : Groups right vs) (hlen : us.length + vs.length < 8) :
      TextForm ([':'].intercalate left ++ ':' :: ':' :: [':'].intercalate right)
        (us ++ List.replicate (8 - us.length - vs.length) 0 ++ vs)

theorem parseHextet_eq_some_iff {text : List Char} {value : Nat} :
    parseHextet text = some value ↔ IsGroup text value := by
  unfold parseHextet IsGroup
  by_cases hbad : text = [] ∨ 4 < text.length ∨ (!text.all isHexDigit) = true
  · rw [if_pos hbad]
    refine iff_of_false (by simp) ?_
    rintro ⟨hne, hlen, hhex, -⟩
    rcases hbad with h | h | h
    · exact hne h
    · omega
    · simp only [Bool.not_eq_true', List.all_eq_false] at h
      obtain ⟨c, hc, hnot⟩ := h
      exact hnot (hhex c hc)
  · rw [if_neg hbad, Option.some_inj]
    simp only [not_or, Bool.not_eq_true', Bool.not_eq_false, List.all_eq_true] at hbad
    exact ⟨fun h => ⟨hbad.1, by omega, hbad.2.2, h⟩, fun h => h.2.2.2⟩

theorem parseOctet_eq_some_iff {text : List Char} {value : Nat} :
    parseOctet text = some value ↔ IsOctet text value := by
  unfold parseOctet IsOctet
  by_cases hbad : text = [] ∨ 3 < text.length ∨ (!text.all isDigit) = true ∨ 255 < digitsValue text
  · rw [if_pos hbad]
    refine iff_of_false (by simp) ?_
    rintro ⟨hne, hlen, hdigit, heq, hle⟩
    rcases hbad with h | h | h | h
    · exact hne h
    · omega
    · simp only [Bool.not_eq_true', List.all_eq_false] at h
      obtain ⟨c, hc, hnot⟩ := h
      exact hnot (hdigit c hc)
    · omega
  · rw [if_neg hbad, Option.some_inj]
    simp only [not_or, Bool.not_eq_true', Bool.not_eq_false, List.all_eq_true] at hbad
    refine ⟨fun h => ⟨hbad.1, by omega, hbad.2.2.1, h, by omega⟩, fun h => h.2.2.2.1⟩

theorem notMem_of_isOctet {text : List Char} {value : Nat} (h : IsOctet text value) : '.' ∉ text := fun hmem =>
  absurd (h.2.2.1 '.' hmem) (by decide)

theorem parseIpv4Octets_eq_some_iff {host : List Char} {octets : List Nat} :
    parseIpv4Octets host = some octets ↔ ∃ (ta tb tc td : List Char) (a b c d : Nat), IsOctet ta a ∧
      IsOctet tb b ∧ IsOctet tc c ∧ IsOctet td d ∧ host = ta ++ '.' :: (tb ++ '.' :: (tc ++ '.' :: td)) ∧
      octets = [a, b, c, d] := by
  unfold parseIpv4Octets
  constructor
  · intro h
    have hjoin := @List.intercalate_splitOn _ host _ _ '.'
    generalize host.splitOn '.' = parts at h hjoin
    simp only at h
    by_cases hlen : parts.length = 4
    · rw [if_neg (not_not.mpr hlen)] at h
      match parts, hlen with
      | [ta, tb, tc, td], _ =>
          simp only [List.mapM_cons, List.mapM_nil, Option.bind_eq_bind, Option.pure_def,
            Option.bind_eq_some_iff, Option.some_inj, parseOctet_eq_some_iff] at h
          obtain ⟨a, ha, bs, ⟨b, hb, cs, ⟨c, hc, ds, ⟨d, hd, es, rfl, rfl⟩, rfl⟩, rfl⟩, rfl⟩ := h
          refine ⟨ta, tb, tc, td, a, b, c, d, ha, hb, hc, hd, ?_, rfl⟩
          rw [← hjoin]
          simp
    · rw [if_pos hlen] at h
      cases h
  · rintro ⟨ta, tb, tc, td, a, b, c, d, ha, hb, hc, hd, rfl, rfl⟩
    have hsplit : (ta ++ '.' :: (tb ++ '.' :: (tc ++ '.' :: td))).splitOn '.' = [ta, tb, tc, td] := by
      rw [List.splitOn_append_cons_self_of_not_mem (notMem_of_isOctet ha),
        List.splitOn_append_cons_self_of_not_mem (notMem_of_isOctet hb),
        List.splitOn_append_cons_self_of_not_mem (notMem_of_isOctet hc),
        List.splitOn_eq_singleton (notMem_of_isOctet hd)]
    rw [hsplit]
    simp only [List.length_cons, List.length_nil, List.mapM_cons, List.mapM_nil,
      parseOctet_eq_some_iff.mpr ha, parseOctet_eq_some_iff.mpr hb, parseOctet_eq_some_iff.mpr hc,
      parseOctet_eq_some_iff.mpr hd]
    rfl

theorem shiftLeft_or {a b : Nat} (h : b ≤ 255) : (a <<< 8) ||| b = 256 * a + b := by
  rw [← Nat.shiftLeft_add_eq_or_of_lt (show b < 2 ^ 8 by omega), Nat.shiftLeft_eq]
  omega

-- What a dotted quad is read as.
theorem parseIpv4Octets_quad {text : List Char} {high low : Nat} : IsQuad text high low ↔
    ∃ a b c d, parseIpv4Octets text = some [a, b, c, d] ∧ high = (a <<< 8) ||| b ∧ low = (c <<< 8) ||| d := by
  constructor
  · rintro ⟨ta, tb, tc, td, a, b, c, d, ha, hb, hc, hd, rfl, rfl, rfl⟩
    refine ⟨a, b, c, d, parseIpv4Octets_eq_some_iff.mpr ⟨ta, tb, tc, td, a, b, c, d, ha, hb, hc, hd, rfl, rfl⟩,
      ?_, ?_⟩
    · rw [shiftLeft_or hb.2.2.2.2]
    · rw [shiftLeft_or hd.2.2.2.2]
  · rintro ⟨a, b, c, d, h, rfl, rfl⟩
    obtain ⟨ta, tb, tc, td, a', b', c', d', ha, hb, hc, hd, rfl, heq⟩ := parseIpv4Octets_eq_some_iff.mp h
    simp only [List.cons.injEq, and_true] at heq
    obtain ⟨rfl, rfl, rfl, rfl⟩ := heq
    refine ⟨ta, tb, tc, td, a, b, c, d, ha, hb, hc, hd, rfl, ?_, ?_⟩
    · rw [shiftLeft_or hb.2.2.2.2]
    · rw [shiftLeft_or hd.2.2.2.2]

theorem quadHextets_eq_some_iff {text : List Char} {high low : Nat} :
    quadHextets text = some (high, low) ↔ IsQuad text high low := by
  rw [parseIpv4Octets_quad, quadHextets]
  constructor
  · intro h
    split at h
    · rename_i a b c d hocts
      cases h
      exact ⟨a, b, c, d, hocts, rfl, rfl⟩
    · cases h
  · rintro ⟨a, b, c, d, hocts, rfl, rfl⟩
    rw [hocts]

theorem IsGroup.plain {text : List Char} {value : Nat} (h : IsGroup text value) :
    ':' ∉ text ∧ '.' ∉ text ∧ 'v' ∉ text :=
  ⟨fun hmem => absurd (h.2.2.1 ':' hmem) (by decide), fun hmem => absurd (h.2.2.1 '.' hmem) (by decide),
    fun hmem => absurd (h.2.2.1 'v' hmem) (by decide)⟩

theorem IsQuad.plain {text : List Char} {high low : Nat} (h : IsQuad text high low) :
    ':' ∉ text ∧ '.' ∈ text := by
  obtain ⟨ta, tb, tc, td, a, b, c, d, ha, hb, hc, hd, rfl, -, -⟩ := h
  have hcolon : ∀ {t : List Char} {v : Nat}, IsOctet t v → ':' ∉ t := fun h hmem =>
    absurd (h.2.2.1 ':' hmem) (by decide)
  refine ⟨?_, by simp⟩
  simp [hcolon ha, hcolon hb, hcolon hc, hcolon hd]

-- The hextets that the parts of a text are read as.
def Reads (embedded : Option (Nat × Nat)) (parts : List (List Char)) (values : List Nat) : Prop :=
  (expandParts parts).mapM (hextetOf embedded) = some values

theorem mapM_append_eq_some {α β : Type} {f : α → Option β} {xs ys : List α} {zs : List β} :
    (xs ++ ys).mapM f = some zs ↔ ∃ us vs, xs.mapM f = some us ∧ ys.mapM f = some vs ∧ zs = us ++ vs := by
  rw [List.mapM_append]
  simp only [Option.bind_eq_bind, Option.pure_def, Option.bind_eq_some_iff, Option.some_inj]
  constructor
  · rintro ⟨us, hus, vs, hvs, rfl⟩
    exact ⟨us, vs, hus, hvs, rfl⟩
  · rintro ⟨us, vs, hus, hvs, rfl⟩
    exact ⟨us, hus, vs, hvs, rfl⟩

theorem reads_append {embedded : Option (Nat × Nat)} {ps qs : List (List Char)} {values : List Nat} :
    Reads embedded (ps ++ qs) values ↔
      ∃ us vs, Reads embedded ps us ∧ Reads embedded qs vs ∧ values = us ++ vs := by
  rw [Reads, expandParts, List.flatMap_append]
  exact mapM_append_eq_some

theorem reads_mark {embedded : Option (Nat × Nat)} {values : List Nat} :
    Reads embedded [v4] values ↔ ∃ high low, embedded = some (high, low) ∧ values = [high, low] := by
  have hexpand : expandParts [v4] = [v4a, v4b] := by decide
  have hne : v4b ≠ v4a := by decide
  rw [Reads, hexpand]
  cases embedded with
  | none => simp [hextetOf]
  | some pair =>
      obtain ⟨high, low⟩ := pair
      simp [hextetOf, hne, eq_comm]

-- Without a quad kept aside, or without the mark, the parts are read as groups.
theorem reads_groups {embedded : Option (Nat × Nat)} {parts : List (List Char)} {values : List Nat}
    (h : embedded = none ∨ ∀ p ∈ parts, 'v' ∉ p) : Reads embedded parts values ↔ List.Forall₂ IsGroup parts values := by
  induction parts generalizing values with
  | nil =>
      simp [Reads, expandParts, eq_comm]
  | cons p parts ih =>
      have hplain : 'v' ∉ p → (∀ us, Reads embedded [p] us ↔ ∃ v, IsGroup p v ∧ us = [v]) := by
        intro hp us
        have hmark : p ≠ v4 ∧ p ≠ v4a ∧ p ≠ v4b :=
          ⟨fun heq => hp (heq ▸ by decide), fun heq => hp (heq ▸ by decide), fun heq => hp (heq ▸ by decide)⟩
        simp only [Reads, expandParts, List.flatMap_cons, List.flatMap_nil, if_neg hmark.1, List.append_nil,
          List.mapM_cons, List.mapM_nil, hextetOf, if_neg hmark.2.1, if_neg hmark.2.2, Option.bind_eq_bind,
          Option.pure_def, Option.bind_eq_some_iff, parseHextet_eq_some_iff, Option.some_inj]
        simp [eq_comm]
      have hone : ∀ us, Reads embedded [p] us ↔ ∃ v, IsGroup p v ∧ us = [v] := by
        by_cases hp : 'v' ∈ p
        · have hnone : embedded = none := h.resolve_right fun hall => hall p List.mem_cons_self hp
          subst hnone
          intro us
          refine iff_of_false ?_ fun ⟨v, hv, _⟩ => hv.plain.2.2 hp
          by_cases hmark : p = v4
          · subst hmark
            simp [reads_mark]
          · have hbad : parseHextet p = none := by
              cases hparse : parseHextet p with
              | none => rfl
              | some v => exact absurd hp (parseHextet_eq_some_iff.mp hparse).plain.2.2
            simp only [Reads, expandParts, List.flatMap_cons, List.flatMap_nil, if_neg hmark, List.append_nil,
              List.mapM_cons, hextetOf, Option.map_none, hbad, ite_self]
            exact (Option.some_ne_none _).symm
        · exact hplain hp
      have hrest : embedded = none ∨ ∀ q ∈ parts, 'v' ∉ q := h.imp id fun hall q hq => hall q (List.mem_cons_of_mem p hq)
      rw [← List.singleton_append, reads_append, List.singleton_append, List.forall₂_cons_left_iff]
      simp only [hone, ih hrest]
      constructor
      · rintro ⟨us, vs, ⟨v, hv, rfl⟩, hvs, rfl⟩
        exact ⟨v, vs, hv, hvs, rfl⟩
      · rintro ⟨v, vs, hv, hvs, rfl⟩
        exact ⟨[v], vs, ⟨v, hv, rfl⟩, hvs, rfl⟩

theorem length_of_mapM {α β : Type} {f : α → Option β} {xs : List α} {ys : List β} (h : xs.mapM f = some ys) :
    xs.length = ys.length := by
  induction xs generalizing ys with
  | nil =>
      cases h
      rfl
  | cons x xs ih =>
      rw [List.mapM_cons] at h
      simp only [Option.bind_eq_bind, Option.pure_def, Option.bind_eq_some_iff, Option.some_inj] at h
      obtain ⟨y, -, zs, hzs, rfl⟩ := h
      rw [List.length_cons, List.length_cons, ih hzs]

theorem mapM_replicate {α β : Type} {f : α → Option β} {x : α} {y : β} (h : f x = some y) (n : Nat) :
    (List.replicate n x).mapM f = some (List.replicate n y) := by
  induction n with
  | zero => rfl
  | succ n ih =>
      rw [List.replicate_succ, List.mapM_cons, h, ih]
      rfl

-- The two shapes in which a text is read.
inductive LiteralForm (embedded : Option (Nat × Nat)) (text : List Char) : List Nat → Prop where
  | whole {values : List Nat} (hsplit : PairSplit.split ':' text = [text])
      (hreads : Reads embedded (text.splitOn ':') values) (hlen : values.length = 8) :
      LiteralForm embedded text values
  | pair {left right : List Char} {us vs : List Nat} (hsplit : PairSplit.split ':' text = [left, right])
      (hleft : Reads embedded (splitGroups left) us) (hright : Reads embedded (splitGroups right) vs)
      (hlen : us.length + vs.length < 8) :
      LiteralForm embedded text (us ++ List.replicate (8 - us.length - vs.length) 0 ++ vs)

theorem literalForm_iff {embedded : Option (Nat × Nat)} {text : List Char} {values : List Nat} :
    (∃ parts, literalParts text = some parts ∧ parts.mapM (hextetOf embedded) = some values) ↔
      LiteralForm embedded text values := by
  have hzero : hextetOf embedded ['0'] = some 0 := by
    have hgroup : parseHextet ['0'] = some 0 := by decide
    simp only [hextetOf, hgroup]
    rw [if_neg (by decide), if_neg (by decide)]
  constructor
  · rintro ⟨parts, hparts, hvalues⟩
    unfold literalParts at hparts
    split at hparts
    · rename_i whole hsplit
      have hwhole : whole = text := by
        have hjoin := @PairSplit.intercalate_split _ _ ':' text
        rwa [hsplit, List.intercalate_singleton] at hjoin
      subst hwhole
      simp only at hparts
      by_cases hlen : (expandParts (whole.splitOn ':')).length = 8
      · rw [if_neg (not_not.mpr hlen), Option.some_inj] at hparts
        subst hparts
        exact .whole hsplit hvalues ((length_of_mapM hvalues).symm.trans hlen)
      · rw [if_pos hlen] at hparts
        cases hparts
    · rename_i left right hsplit
      simp only at hparts
      by_cases hlen : 8 < (expandParts (splitGroups left)).length + (expandParts (splitGroups right)).length + 1
      · rw [if_pos hlen] at hparts
        cases hparts
      · rw [if_neg hlen, Option.some_inj] at hparts
        subst hparts
        obtain ⟨ws, vs, hws, hvs, rfl⟩ := mapM_append_eq_some.mp hvalues
        obtain ⟨us, zs, hus, hzs, rfl⟩ := mapM_append_eq_some.mp hws
        rw [mapM_replicate hzero, Option.some_inj] at hzs
        rw [length_of_mapM hus, length_of_mapM hvs] at hzs hlen
        rw [← hzs]
        exact .pair hsplit hus hvs (by omega)
    · cases hparts
  · intro h
    cases h with
    | whole hsplit hreads hlen =>
        refine ⟨expandParts (text.splitOn ':'), ?_, hreads⟩
        simp only [literalParts, hsplit]
        rw [if_neg (not_not.mpr ((length_of_mapM hreads).trans hlen))]
    | @pair left right us vs hsplit hleft hright hlen =>
        refine ⟨expandParts (splitGroups left) ++ List.replicate (8 - us.length - vs.length) ['0'] ++
          expandParts (splitGroups right), ?_, ?_⟩
        · simp only [literalParts, hsplit]
          rw [length_of_mapM hleft, length_of_mapM hright, if_neg (by omega)]
        · exact mapM_append_eq_some.mpr ⟨_, vs, mapM_append_eq_some.mpr ⟨us, _, hleft, mapM_replicate hzero _, rfl⟩,
            hright, rfl⟩

end MeshClient.Net
