import Mathlib

namespace Freshest

variable {α β : Type*} [LinearOrder β]

-- One turn of a loop that keeps the best element so far; a later one has to be better.
def keep (f : α → β) (best : Option α) (x : α) : Option α :=
  match best with
  | none => some x
  | some b => if f b < f x then some x else some b

def freshest (f : α → β) (xs : List α) : Option α := xs.foldl (keep f) none

-- `xs.sort((a, b) => f(b) - f(a))`, which keeps the order of equal elements.
def newestFirst (f : α → β) (xs : List α) : List α := xs.insertionSort fun a b => f b ≤ f a

@[simp] theorem freshest_nil (f : α → β) : freshest f [] = none := rfl

theorem foldl_keep_some (f : α → β) (a : α) (xs : List α) :
    xs.foldl (keep f) (some a) = keep f (some a) ((freshest f xs).getD a) := by
  induction xs generalizing a with
  | nil => simp [keep]
  | cons x xs ih =>
      have hcons : freshest f (x :: xs) = xs.foldl (keep f) (some x) := rfl
      rw [hcons, List.foldl_cons]
      by_cases hx : f a < f x
      · have hkeep : keep f (some a) x = some x := by simp [keep, hx]
        rw [hkeep, ih x]
        by_cases hb : f x < f ((freshest f xs).getD x)
        · simp [keep, hb, lt_trans hx hb]
        · simp [keep, hb, hx]
      · have hkeep : keep f (some a) x = some a := by simp [keep, hx]
        rw [hkeep, ih a, ih x]
        cases hbest : freshest f xs with
        | none => simp [keep, hx]
        | some b =>
            by_cases hb : f x < f b
            · simp [keep, hb]
            · have hab : ¬ f a < f b := fun hab => hb (lt_of_le_of_lt (not_lt.mp hx) hab)
              simp [keep, hb, hx, hab]

theorem freshest_cons (f : α → β) (a : α) (xs : List α) :
    freshest f (a :: xs) = keep f (some a) ((freshest f xs).getD a) := foldl_keep_some f a xs

-- The loop finds what the stable sort puts first.
theorem freshest_eq_head_newestFirst (f : α → β) (xs : List α) :
    freshest f xs = (newestFirst f xs).head? := by
  induction xs with
  | nil => rfl
  | cons a xs ih =>
      have hsort : newestFirst f (a :: xs)
          = (newestFirst f xs).orderedInsert (fun a b => f b ≤ f a) a := rfl
      rw [freshest_cons, ih, hsort]
      cases newestFirst f xs with
      | nil => simp [keep]
      | cons b rest =>
          by_cases hb : f b ≤ f a
          · simp [keep, List.orderedInsert, hb, not_lt.mpr hb]
          · simp [keep, List.orderedInsert, hb, not_le.mp hb]

theorem freshest_eq_none_iff (f : α → β) (xs : List α) : freshest f xs = none ↔ xs = [] := by
  cases xs with
  | nil => simp
  | cons a xs =>
      rw [freshest_cons]
      by_cases h : f a < f ((freshest f xs).getD a)
      · simp [keep, h]
      · simp [keep, h]

theorem freshest_spec {f : α → β} {xs : List α} {best : α} (h : freshest f xs = some best) :
    best ∈ xs ∧ ∀ x ∈ xs, f x ≤ f best := by
  induction xs generalizing best with
  | nil => simp at h
  | cons a xs ih =>
      rw [freshest_cons] at h
      cases hrest : freshest f xs with
      | none =>
          have hnil := (freshest_eq_none_iff f xs).mp hrest
          obtain rfl : a = best := by simpa [hrest, keep] using h
          simp [hnil]
      | some b =>
          obtain ⟨hb, hmax⟩ := ih hrest
          simp only [hrest, Option.getD_some, keep] at h
          by_cases hab : f a < f b
          · obtain rfl : b = best := by simpa [hab] using h
            refine ⟨List.mem_cons_of_mem a hb, ?_⟩
            intro x hx
            rcases List.mem_cons.mp hx with rfl | hx
            · exact hab.le
            · exact hmax x hx
          · obtain rfl : a = best := by simpa [hab] using h
            refine ⟨List.mem_cons_self, ?_⟩
            intro x hx
            rcases List.mem_cons.mp hx with rfl | hx
            · exact le_refl _
            · exact (hmax x hx).trans (not_lt.mp hab)

-- Where no two elements tie, the best one is the only one above all others.
theorem freshest_eq_some_iff {f : α → β} {xs : List α} {best : α}
    (hdistinct : ∀ x ∈ xs, ∀ y ∈ xs, f x = f y → x = y) :
    freshest f xs = some best ↔ best ∈ xs ∧ ∀ x ∈ xs, f x ≤ f best := by
  refine ⟨freshest_spec, ?_⟩
  rintro ⟨hbest, hmax⟩
  cases h : freshest f xs with
  | none => simp [(freshest_eq_none_iff f xs).mp h] at hbest
  | some b =>
      obtain ⟨hb, hb'⟩ := freshest_spec h
      exact congrArg some (hdistinct b hb best hbest (le_antisymm (hmax b hb) (hb' best hbest)))

end Freshest
