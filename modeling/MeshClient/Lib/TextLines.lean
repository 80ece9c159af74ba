import Mathlib

-- Texts as lines, each ended by a line feed that a carriage return may precede. The last line
-- need not be ended.
namespace TextLines

def lines : List Char → List (List Char)
  | [] => []
  | '\n' :: cs => [] :: lines cs
  | '\r' :: '\n' :: cs => [] :: lines cs
  | c :: cs =>
      match lines cs with
      | [] => [[c]]
      | l :: ls => (c :: l) :: ls

def unlines (ls : List (List Char)) : List Char := ls.flatMap (· ++ ['\n'])

def dropReturn (l : List Char) : List Char := if l.getLast? = some '\r' then l.dropLast else l

theorem lines_cons {c : Char} {cs : List Char} (hc : c ≠ '\n') (hr : ¬ (c = '\r' ∧ cs.head? = some '\n')) :
    lines (c :: cs) = match lines cs with
      | [] => [[c]]
      | l :: ls => (c :: l) :: ls := by
  rw [lines.eq_def]
  split
  · simp_all
  · simp_all
  · simp_all
  · rename_i heq
    obtain ⟨rfl, rfl⟩ := List.cons.inj heq
    rfl

theorem lines_feed (cs : List Char) : lines ('\n' :: cs) = [] :: lines cs := by rw [lines]

theorem lines_line {l : List Char} (h : '\n' ∉ l) (rest : List Char) :
    lines (l ++ '\n' :: rest) = dropReturn l :: lines rest := by
  induction l with
  | nil => rw [List.nil_append, lines_feed]; rfl
  | cons c l ih =>
      rw [List.mem_cons, not_or] at h
      by_cases hr : c = '\r' ∧ (l ++ '\n' :: rest).head? = some '\n'
      · obtain ⟨rfl, hhead⟩ := hr
        obtain rfl : l = [] := by
          cases l with
          | nil => rfl
          | cons d l =>
              have hd : d = '\n' := by simpa using hhead
              exact absurd (hd ▸ List.mem_cons_self) h.2
        rw [List.singleton_append, lines]
        rfl
      · rw [List.cons_append, lines_cons (Ne.symm h.1) hr, ih h.2]
        have hdrop : dropReturn (c :: l) = c :: dropReturn l := by
          unfold dropReturn
          cases l with
          | nil =>
              have hc : c ≠ '\r' := fun hc => hr ⟨hc, rfl⟩
              simp [hc]
          | cons d l =>
              rw [List.getLast?_cons_cons]
              split_ifs
              · rfl
              · rfl
        rw [hdrop]

theorem lines_unlines {ls : List (List Char)} (h : ∀ l ∈ ls, '\n' ∉ l) :
    lines (unlines ls) = ls.map dropReturn := by
  induction ls with
  | nil => rfl
  | cons l ls ih =>
      rw [unlines, List.flatMap_cons, List.append_assoc, List.singleton_append,
        lines_line (h l List.mem_cons_self), List.map_cons, ← ih fun m hm => h m (List.mem_cons_of_mem _ hm)]
      rfl

theorem feed_notMem_lines {cs l : List Char} (h : l ∈ lines cs) : '\n' ∉ l := by
  fun_induction lines cs generalizing l with
  | case1 => exact absurd h List.not_mem_nil
  | case2 cs ih =>
      rcases List.mem_cons.mp h with rfl | h
      · exact List.not_mem_nil
      · exact ih h
  | case3 cs ih =>
      rcases List.mem_cons.mp h with rfl | h
      · exact List.not_mem_nil
      · exact ih h
  | case4 c cs hfeed _ hnil ih =>
      obtain rfl := List.mem_singleton.mp h
      exact fun hc => hfeed (List.mem_singleton.mp hc).symm
  | case5 c cs hfeed _ first rest hcons ih =>
      rcases List.mem_cons.mp h with rfl | h
      · rw [List.mem_cons, not_or]
        exact ⟨fun hc => hfeed hc.symm, ih (by rw [hcons]; exact List.mem_cons_self)⟩
      · exact ih (by rw [hcons]; exact List.mem_cons_of_mem _ h)

end TextLines
