import Mathlib

-- Looking for a pattern one symbol at a time. A pattern is a list of classes of symbols, and a
-- symbol that fits a later class never fits the first one; so when a match breaks, nothing of
-- it can be the start of another.
namespace Matcher

variable {β : Type*}

def fitsAt (p : List (β → Bool)) (i : Nat) (x : β) : Bool := (p[i]?).any (· x)

-- `p` stands at the front of the symbols.
def fits : List (β → Bool) → List β → Bool
  | [], _ => true
  | _ :: _, [] => false
  | c :: cs, x :: xs => c x && fits cs xs

-- How many symbols stand before the leftmost place where `p` fits.
def leftmost (p : List (β → Bool)) : List β → Option Nat
  | [] => if p = [] then some 0 else none
  | x :: xs => if fits p (x :: xs) then some 0 else (leftmost p xs).map (· + 1)

-- The number of classes matched after one more symbol.
def advance (p : List (β → Bool)) (matched : Nat) (x : β) : Nat :=
  if fitsAt p matched x then matched + 1 else if fitsAt p 0 x then 1 else 0

def HeadApart (p : List (β → Bool)) : Prop :=
  ∀ i, 0 < i → ∀ x, fitsAt p i x = true → fitsAt p 0 x = false

@[simp] theorem fitsAt_cons_zero (c : β → Bool) (cs : List (β → Bool)) (x : β) :
    fitsAt (c :: cs) 0 x = c x := rfl

@[simp] theorem fitsAt_cons_succ (c : β → Bool) (cs : List (β → Bool)) (i : Nat) (x : β) :
    fitsAt (c :: cs) (i + 1) x = fitsAt cs i x := rfl

theorem fits_length {p : List (β → Bool)} {xs : List β} (h : fits p xs = true) :
    p.length ≤ xs.length := by
  induction p generalizing xs with
  | nil => simp
  | cons c cs ih =>
      cases xs with
      | nil => simp [fits] at h
      | cons x xs =>
          simp only [fits, Bool.and_eq_true] at h
          simpa using ih h.2

theorem fits_append {p : List (β → Bool)} {xs : List β} (h : p.length ≤ xs.length) (ys : List β) :
    fits p (xs ++ ys) = fits p xs := by
  induction p generalizing xs with
  | nil => rfl
  | cons c cs ih =>
      cases xs with
      | nil => simp at h
      | cons x xs =>
          simp only [List.length_cons, Nat.add_le_add_iff_right] at h
          simp only [List.cons_append, fits, ih h]

theorem fits_iff (p : List (β → Bool)) (xs : List β) :
    fits p xs = true ↔ p.length ≤ xs.length ∧ ∀ i (h : i < xs.length), i < p.length → fitsAt p i xs[i] = true := by
  induction p generalizing xs with
  | nil => simp [fits]
  | cons c cs ih =>
      cases xs with
      | nil => simp [fits]
      | cons x xs =>
          simp only [fits, Bool.and_eq_true, ih, List.length_cons, Nat.add_le_add_iff_right]
          constructor
          · rintro ⟨hx, hlen, hxs⟩
            refine ⟨hlen, ?_⟩
            intro i hi hip
            cases i with
            | zero => exact hx
            | succ i => exact hxs i (by omega) (by omega)
          · rintro ⟨hlen, hxs⟩
            refine ⟨hxs 0 (by omega) (by omega), hlen, ?_⟩
            intro i hi hip
            exact hxs (i + 1) (by omega) (by omega)

theorem leftmost_of_fits {p : List (β → Bool)} {xs : List β} (h : fits p xs = true) :
    leftmost p xs = some 0 := by
  cases xs with
  | nil =>
      have hp : p = [] := List.length_eq_zero_iff.mp (by simpa using fits_length h)
      simp [leftmost, hp]
  | cons x xs => simp [leftmost, h]

theorem leftmost_cons {p : List (β → Bool)} {x : β} {xs : List β} (h : fits p (x :: xs) = false) :
    leftmost p (x :: xs) = (leftmost p xs).map (· + 1) := by simp [leftmost, h]

theorem leftmost_of_short {p : List (β → Bool)} {xs : List β} (h : xs.length < p.length) :
    leftmost p xs = none := by
  induction xs with
  | nil =>
      have hp : p ≠ [] := by
        rintro rfl
        simp at h
      simp [leftmost, hp]
  | cons x xs ih =>
      rw [leftmost_cons, ih (by simp at h; omega), Option.map_none]
      by_contra hfits
      have := fits_length (by simpa using hfits)
      omega

-- Symbols at which no match can start are skipped.
theorem leftmost_skip {p : List (β → Bool)} {front : List β} (xs : List β)
    (h : ∀ x ∈ front, fitsAt p 0 x = false) (hp : p ≠ []) :
    leftmost p (front ++ xs) = (leftmost p xs).map (· + front.length) := by
  induction front with
  | nil => simp
  | cons x front ih =>
      obtain ⟨c, cs, rfl⟩ := List.exists_cons_of_ne_nil hp
      have hx : c x = false := by simpa [fitsAt] using h x List.mem_cons_self
      rw [List.cons_append, leftmost_cons (by simp [fits, hx]),
        ih fun y hy => h y (List.mem_cons_of_mem x hy), Option.map_map]
      congr 1

-- A partial match: these symbols fit the first classes of `p`.
def Partial (p : List (β → Bool)) (held : List β) : Prop :=
  held.length < p.length ∧ ∀ i (h : i < held.length), fitsAt p i held[i] = true

theorem partial_nil {p : List (β → Bool)} (h : p ≠ []) : Partial p [] :=
  ⟨List.length_pos_of_ne_nil h, by simp⟩

theorem Partial.tail_apart {p : List (β → Bool)} (hp : HeadApart p) {x : β} {held : List β}
    (h : Partial p (x :: held)) : ∀ y ∈ held, fitsAt p 0 y = false := by
  intro y hy
  obtain ⟨i, hi, rfl⟩ := List.getElem_of_mem hy
  have hi' : i + 1 < (x :: held).length := by
    rw [List.length_cons]
    omega
  exact hp (i + 1) (by omega) _ (h.2 (i + 1) hi')

-- The next symbol completes the match.
theorem Partial.complete {p : List (β → Bool)} {held : List β} (h : Partial p held) {x : β}
    (hx : advance p held.length x = p.length) : fits p (held ++ [x]) = true := by
  have hfit : fitsAt p held.length x = true ∧ held.length + 1 = p.length := by
    unfold advance at hx
    by_cases hfit : fitsAt p held.length x = true
    · rw [if_pos hfit] at hx
      exact ⟨hfit, hx⟩
    · rw [if_neg hfit] at hx
      by_cases hzero : fitsAt p 0 x = true
      · rw [if_pos hzero] at hx
        have hnil : held.length = 0 := by
          have := h.1
          omega
        rw [hnil] at hfit
        exact absurd hzero hfit
      · rw [if_neg hzero] at hx
        have := h.1
        omega
  rw [fits_iff]
  refine ⟨by simp [hfit.2], ?_⟩
  intro i hi hip
  by_cases hlast : i < held.length
  · rw [List.getElem_append_left hlast]
    exact h.2 i hlast
  · simp only [List.length_append, List.length_singleton] at hi
    obtain rfl : i = held.length := by omega
    simpa using hfit.1

-- The next symbol leaves a partial match again; what it gives up holds no start.
theorem Partial.advance {p : List (β → Bool)} (hp : HeadApart p) {held : List β} (h : Partial p held)
    {x : β} (hx : Matcher.advance p held.length x ≠ p.length) (hlen : 1 < p.length) :
    ∃ dropped held', held ++ [x] = dropped ++ held' ∧
      held'.length = Matcher.advance p held.length x ∧ Partial p held' ∧
      ∀ xs, leftmost p (held ++ x :: xs) = (leftmost p (held' ++ xs)).map (· + dropped.length) := by
  have hne : p ≠ [] := by
    rintro rfl
    simp at hlen
  unfold Matcher.advance at hx ⊢
  by_cases hfit : fitsAt p held.length x = true
  · rw [if_pos hfit] at hx ⊢
    refine ⟨[], held ++ [x], rfl, by simp, ⟨?_, ?_⟩, by simp⟩
    · have := h.1
      rw [List.length_append, List.length_singleton]
      omega
    · intro i hi
      by_cases hlast : i < held.length
      · rw [List.getElem_append_left hlast]
        exact h.2 i hlast
      · simp only [List.length_append, List.length_singleton] at hi
        obtain rfl : i = held.length := by omega
        simpa using hfit
  · -- the match breaks at `x`, and none of the held symbols starts another
    have hskip : ∀ xs, leftmost p (held ++ x :: xs) = (leftmost p (x :: xs)).map (· + held.length) := by
      intro xs
      cases held with
      | nil => simp
      | cons y held =>
          have hbroken : fits p (y :: held ++ x :: xs) = false := by
            by_contra hcon
            have hall := ((fits_iff p _).mp (by simpa using hcon)).2 (y :: held).length
              (by simp) h.1
            exact hfit (by simpa using hall)
          rw [List.cons_append] at hbroken ⊢
          rw [leftmost_cons hbroken, leftmost_skip _ (h.tail_apart hp) hne, Option.map_map]
          congr 1
    rw [if_neg hfit]
    by_cases hzero : fitsAt p 0 x = true
    · rw [if_pos hzero]
      refine ⟨held, [x], rfl, rfl, ⟨hlen, ?_⟩, hskip⟩
      intro i hi
      simp only [List.length_singleton] at hi
      obtain rfl : i = 0 := by omega
      exact hzero
    · rw [if_neg hzero]
      refine ⟨held ++ [x], [], by simp, rfl, partial_nil hne, ?_⟩
      intro xs
      have hx' := @leftmost_skip _ p [x] xs (by simpa using hzero) hne
      rw [hskip xs, List.nil_append, show x :: xs = [x] ++ xs from rfl, hx', Option.map_map]
      congr 1
      funext n
      simp only [Function.comp_apply, List.length_singleton, List.length_append]
      omega

end Matcher
