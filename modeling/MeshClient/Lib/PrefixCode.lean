import Mathlib

-- Sequences of items whose encodings tell by themselves where they end.
namespace PrefixCode

variable {α β : Type*} {encode : α → List β}

def PrefixFree (encode : α → List β) : Prop := ∀ a b rest rest', encode a ++ rest = encode b ++ rest' → encode a = encode b

-- No item can be taken from the front.
def Stuck (encode : α → List β) (rest : List β) : Prop := ∀ a rest', rest ≠ encode a ++ rest'

-- What was taken off before nothing more could be taken is the longest sequence of items at the front.
theorem prefix_of_stuck (hfree : PrefixFree encode) {items items' : List α} {rest rest' : List β} (hstuck : Stuck encode rest)
    (heq : items.flatMap encode ++ rest = items'.flatMap encode ++ rest') :
    items'.flatMap encode <+: items.flatMap encode := by
  induction items' generalizing items with
  | nil => exact List.nil_prefix
  | cons b items' ih =>
      cases items with
      | nil =>
          rw [List.flatMap_nil, List.nil_append, List.flatMap_cons, List.append_assoc] at heq
          exact absurd heq (hstuck b _)
      | cons a items =>
          rw [List.flatMap_cons, List.flatMap_cons, List.append_assoc, List.append_assoc] at heq
          have hsame := hfree a b _ _ heq
          rw [hsame] at heq
          rw [List.flatMap_cons, List.flatMap_cons, hsame, List.prefix_append_right_inj]
          exact ih (List.append_cancel_left heq)

end PrefixCode
