import MeshClient.Tak.CotParser

namespace MeshClient.Tak

open Scan Js

-- Text in which no attribute whose name starts with `a` begins: no blank stands before an `a`
-- or at the end.
def quiet (a : Char) : List Char → Bool
  | [] => true
  | c :: cs => (!isSpace c || cs.head?.any (· ≠ a)) && quiet a cs

-- The text reads `\sname\s*=\s*` to its end.
def opens (name : List Char) : List Char → Bool
  | [] => false
  | c :: cs =>
      isSpace c && ((cs.dropPrefix? name).bind fun rest => afterEquals (rest.dropWhile isSpace)).any
        fun rest => rest.all isSpace

-- The text ends like the beginning of an attribute: a quote after it opens the value.
def opensAttr (name : List Char) : List Char → Bool
  | [] => false
  | c :: cs => opens name (c :: cs) || opensAttr name cs

section

variable {a : Char} {name rest : List Char}

theorem attrAt_of_ne (c : Char) (cs : List Char) (h : ¬ isSpace c = true) : attrAt name (c :: cs) = none := by
  rw [attrAt, if_neg h]

theorem scan_attr_quiet {front : List Char} (h : quiet a front = true) :
    scan (attrAt (a :: name)) (front ++ rest) = scan (attrAt (a :: name)) rest := by
  induction front with
  | nil => rfl
  | cons c cs ih =>
      simp only [quiet, Bool.and_eq_true, Bool.or_eq_true, Bool.not_eq_true'] at h
      have hnone : attrAt (a :: name) (c :: (cs ++ rest)) = none := by
        rcases h.1 with hspace | hnext
        · exact attrAt_of_ne c _ (by simp [hspace])
        · cases cs with
          | nil => simp at hnext
          | cons d ds =>
              have hd : d ≠ a := by simpa using hnext
              simp [attrAt, List.dropPrefix?, hd]
      rw [List.cons_append, scan_cons_of_none hnone, ih h.2]

theorem dropPrefix_append_stop {q : Char} (hq : q ∉ name) (text : List Char) :
    (text ++ q :: rest).dropPrefix? name = (text.dropPrefix? name).map (· ++ q :: rest) := by
  induction name generalizing text with
  | nil => simp
  | cons b name ih =>
      rw [List.mem_cons, not_or] at hq
      cases text with
      | nil => simp [List.dropPrefix?, hq.1]
      | cons c cs =>
          simp only [List.cons_append, List.dropPrefix?, ih hq.2]
          by_cases hcb : c = b
          · simp [hcb]
          · simp [hcb]

theorem dropWhile_append_stop {q : Char} (hq : isSpace q = false) (text : List Char) :
    (text ++ q :: rest).dropWhile isSpace = text.dropWhile isSpace ++ q :: rest := by
  induction text with
  | nil => simp [hq]
  | cons c cs ih =>
      by_cases hc : isSpace c = true
      · simp [hc, ih]
      · simp [hc]

theorem afterEquals_append_stop {q : Char} (hq : q ≠ '=') (text : List Char) :
    afterEquals (text ++ q :: rest) = (afterEquals text).map (· ++ q :: rest) := by
  cases text with
  | nil => simp [afterEquals, hq]
  | cons c cs =>
      by_cases hc : c = '='
      · simp [hc, afterEquals]
      · simp [hc, afterEquals]

theorem quoted_append_stop {text : List Char} (hquot : '"' ∉ text) (hapos : '\'' ∉ text) :
    quoted (text.dropWhile isSpace ++ '"' :: rest) = if text.all isSpace then quoted ('"' :: rest) else none := by
  by_cases hall : text.all isSpace = true
  · have hnil : text.dropWhile isSpace = [] := by
      rw [List.dropWhile_eq_nil_iff]
      simpa using hall
    rw [hnil, if_pos hall, List.nil_append]
  · rw [if_neg hall]
    cases hdrop : text.dropWhile isSpace with
    | nil =>
        rw [List.dropWhile_eq_nil_iff] at hdrop
        exact absurd (by simpa using hdrop) hall
    | cons c cs =>
        have hmem : c ∈ text := (List.dropWhile_suffix isSpace).subset (by rw [hdrop]; exact List.mem_cons_self)
        have hc : c ≠ '"' ∧ c ≠ '\'' := by
          constructor
          · rintro rfl
            exact hquot hmem
          · rintro rfl
            exact hapos hmem
        simp [quoted, hc.1, hc.2]

theorem mem_of_dropPrefix {text p back : List Char} (h : text.dropPrefix? p = some back) : text = p ++ back := by
  obtain ⟨front, hsplit, hfront⟩ := List.dropPrefix?_eq_some_iff.mp h
  rw [hsplit, eq_of_beq hfront]

theorem afterEquals_eq_some {text back : List Char} (h : afterEquals text = some back) :
    text = '=' :: back := by
  cases text with
  | nil => simp [afterEquals] at h
  | cons c cs =>
      by_cases hc : c = '='
      · subst hc
        simpa [afterEquals] using h
      · simp [afterEquals, hc] at h

-- Inside a value in double quotes an attribute can only begin where the value ends like one.
theorem attrAt_in_value {text : List Char} (hne : text ≠ []) (hquot : '"' ∉ text) (hapos : '\'' ∉ text)
    (hname : '"' ∉ name) :
    attrAt name (text ++ '"' :: rest) = if opens name text then quoted ('"' :: rest) else none := by
  obtain ⟨c, cs, rfl⟩ := List.exists_cons_of_ne_nil hne
  rw [List.mem_cons, not_or] at hquot hapos
  rw [List.cons_append, attrAt, opens]
  by_cases hc : isSpace c = true
  · rw [if_pos hc, dropPrefix_append_stop hname, hc, Bool.true_and]
    cases hprefix : cs.dropPrefix? name with
    | none => simp
    | some back =>
        have hback : ∀ x ∈ back, x ∈ cs := by
          intro x hx
          rw [mem_of_dropPrefix hprefix]
          exact List.mem_append_right name hx
        simp only [Option.map_some, Option.bind_some]
        rw [dropWhile_append_stop (by decide), afterEquals_append_stop (by decide)]
        rcases Option.eq_none_or_eq_some (afterEquals (back.dropWhile isSpace)) with hequals | ⟨value, hequals⟩
        · simp [hequals]
        · have hvalue : ∀ x ∈ value, x ∈ cs := by
            intro x hx
            apply hback
            apply (List.dropWhile_suffix isSpace).subset
            rw [afterEquals_eq_some hequals]
            exact List.mem_cons_of_mem _ hx
          simp only [hequals, Option.map_some, Option.bind_some, Option.any_some]
          rw [dropWhile_append_stop (by decide)]
          exact quoted_append_stop (fun h => hquot.2 (hvalue _ h)) (fun h => hapos.2 (hvalue _ h))
  · simp [hc]

theorem quoted_value {value : List Char} (h : '"' ∉ value) : quoted ('"' :: (value ++ '"' :: rest)) = some value := by
  have hstop := @takeWhile_stop value rest (fun c => decide (c ≠ '"')) '"'
    (by
      intro c hc
      simp only [ne_eq, decide_eq_true_eq]
      rintro rfl
      exact h hc)
    (by simp)
  rw [quoted, if_pos (by simp), hstop.1]

-- The value that follows such an end is read in place of the attribute's own.
theorem scan_attr_value {text value : List Char} (hquot : '"' ∉ text) (hapos : '\'' ∉ text) (hname : '"' ∉ name)
    (hvalue : '"' ∉ value) :
    scan (attrAt name) (text ++ '"' :: (value ++ '"' :: rest)) =
      if opensAttr name text then some value else scan (attrAt name) (value ++ '"' :: rest) := by
  induction text with
  | nil =>
      rw [List.nil_append, scan_cons_of_none (attrAt_of_ne '"' _ (by decide))]
      rfl
  | cons c cs ih =>
      have hfirst := @attrAt_in_value name (value ++ '"' :: rest) (c :: cs) (by simp) hquot hapos hname
      rw [quoted_value hvalue] at hfirst
      rw [List.mem_cons, not_or] at hquot hapos
      rw [opensAttr]
      by_cases hopens : opens name (c :: cs) = true
      · rw [if_pos hopens] at hfirst
        rw [scan_of_some hfirst, hopens, Bool.true_or, if_pos rfl]
      · rw [if_neg hopens] at hfirst
        rw [Bool.not_eq_true] at hopens
        rw [List.cons_append] at hfirst ⊢
        rw [scan_cons_of_none hfirst, ih hquot.2 hapos.2, hopens, Bool.false_or]

-- The attribute itself, in front of its value.
theorem scan_attr_here {value : List Char} (hvalue : '"' ∉ value) :
    scan (attrAt name) (' ' :: (name ++ '=' :: '"' :: (value ++ '"' :: rest))) = some value := by
  apply scan_of_some
  rw [attrAt, if_pos (by decide), dropPrefix_append]
  have hquote : ('"' :: (value ++ '"' :: rest)).dropWhile isSpace = '"' :: (value ++ '"' :: rest) :=
    List.dropWhile_cons_of_neg (by decide)
  have hequals : ('=' :: '"' :: (value ++ '"' :: rest)).dropWhile isSpace = '=' :: '"' :: (value ++ '"' :: rest) :=
    List.dropWhile_cons_of_neg (by decide)
  simp only [Option.bind_some, hequals, afterEquals, hquote]
  exact quoted_value hvalue

theorem opens_split {text : List Char} (h : opens name text = true) :
    ∃ c spaces value, text = c :: (name ++ (spaces ++ '=' :: value)) ∧ isSpace c = true ∧
      (∀ x ∈ spaces, isSpace x = true) ∧ ∀ x ∈ value, isSpace x = true := by
  cases text with
  | nil => simp [opens] at h
  | cons c cs =>
      rw [opens, Bool.and_eq_true] at h
      obtain ⟨hspace, hrest⟩ := h
      obtain ⟨value, hvalue, hall⟩ := (Option.any_eq_true _ _).mp hrest
      obtain ⟨back, hprefix, hequals⟩ := Option.bind_eq_some_iff.mp hvalue
      have hback : back = back.takeWhile isSpace ++ '=' :: value := by
        rw [← afterEquals_eq_some hequals, List.takeWhile_append_dropWhile]
      refine ⟨c, back.takeWhile isSpace, value, ?_, hspace, ?_, by simpa using hall⟩
      · rw [mem_of_dropPrefix hprefix, ← hback]
      · intro x hx
        exact List.mem_takeWhile_imp hx

theorem mem_opens {text : List Char} (h : opens name text = true) :
    ∀ c ∈ text, isSpace c = true ∨ c ∈ name ∨ c = '=' := by
  obtain ⟨c, spaces, value, rfl, hspace, hspaces, hvalue⟩ := opens_split h
  intro x hx
  simp only [List.mem_cons, List.mem_append] at hx
  rcases hx with rfl | hx | hx | rfl | hx
  · exact .inl hspace
  · exact .inr (.inl hx)
  · exact .inl (hspaces x hx)
  · exact .inr (.inr rfl)
  · exact .inl (hvalue x hx)

-- A text that ends like the beginning of an attribute ends in `=` or a blank.
theorem not_opensAttr_of_last {c : Char} (hspace : isSpace c = false) (hequals : c ≠ '=') (text : List Char) :
    opensAttr name (text ++ [c]) = false := by
  have hlast : ∀ front, opens name (front ++ [c]) = false := by
    intro front
    by_contra hopens
    rw [Bool.not_eq_false] at hopens
    obtain ⟨d, spaces, value, hsplit, -, -, hvalue⟩ := opens_split hopens
    have hc : c ∈ '=' :: value := by
      have hget := congrArg List.getLast? hsplit
      rw [List.getLast?_concat, ← List.cons_append, ← List.append_assoc,
        List.getLast?_append_of_ne_nil _ (List.cons_ne_nil _ _)] at hget
      exact List.mem_of_getLast? hget.symm
    rcases List.mem_cons.mp hc with rfl | hc
    · exact hequals rfl
    · rw [hvalue c hc] at hspace
      cases hspace
  induction text with
  | nil =>
      have hone := hlast []
      rw [List.nil_append] at hone ⊢
      rw [opensAttr, hone, opensAttr, Bool.or_false]
  | cons d text ih => rw [List.cons_append, opensAttr, ih, ← List.cons_append, hlast, Bool.or_false]

-- A name whose letters escaping leaves alone.
def PlainName (name : List Char) : Prop := ∀ c ∈ name, ¬ isSpecial c ∧ c ≠ ';'

theorem not_opens_of_mem (hname : PlainName name) {text : List Char} {c : Char} (hc : isSpecial c ∨ c = ';')
    (hmem : c ∈ text) : opens name text = false := by
  by_contra hopens
  rw [Bool.not_eq_false] at hopens
  rcases mem_opens hopens c hmem with hspace | hletter | rfl
  · rcases hc with (rfl | rfl | rfl | rfl | rfl) | rfl <;> revert hspace <;> decide
  · exact hc.elim (hname c hletter).1 (hname c hletter).2
  · revert hc
    decide

theorem entity_special {c : Char} (h : isSpecial c) : ∃ front, entity c = front ++ [';'] := by
  rcases h with rfl | rfl | rfl | rfl | rfl
  · exact ⟨"&amp".toList, by decide⟩
  · exact ⟨"&lt".toList, by decide⟩
  · exact ⟨"&gt".toList, by decide⟩
  · exact ⟨"&quot".toList, by decide⟩
  · exact ⟨"&apos".toList, by decide⟩

theorem opens_escapeXml (hname : PlainName name) (text : List Char) :
    opens name (escapeXml text) = opens name text := by
  by_cases hplain : ∀ c ∈ text, ¬ isSpecial c
  · rw [escapeXml_of_plain hplain]
  · push Not at hplain
    obtain ⟨c, hmem, hspecial⟩ := hplain
    obtain ⟨front, hentity⟩ := entity_special hspecial
    have hsemi : ';' ∈ escapeXml text := by
      rw [escapeXml_eq, List.mem_flatMap]
      exact ⟨c, hmem, by simp [hentity]⟩
    rw [not_opens_of_mem hname (.inr rfl) hsemi, not_opens_of_mem hname (.inl hspecial) hmem]

theorem opensAttr_semicolon (hname : PlainName name) (front text : List Char) :
    opensAttr name (front ++ ';' :: text) = opensAttr name text := by
  induction front with
  | nil => rw [List.nil_append, opensAttr, not_opens_of_mem hname (.inr rfl) List.mem_cons_self, Bool.false_or]
  | cons c front ih =>
      rw [List.cons_append, opensAttr, not_opens_of_mem hname (.inr rfl) (by simp), Bool.false_or, ih]

-- Escaping neither makes nor hides the beginning of an attribute.
theorem opensAttr_escapeXml (hname : PlainName name) (text : List Char) :
    opensAttr name (escapeXml text) = opensAttr name text := by
  induction text with
  | nil => rfl
  | cons c cs ih =>
      have hcons : escapeXml (c :: cs) = entity c ++ escapeXml cs := by
        simp only [escapeXml_eq, List.flatMap_cons]
      by_cases hspecial : isSpecial c
      · obtain ⟨front, hentity⟩ := entity_special hspecial
        rw [hcons, hentity, List.append_assoc, List.singleton_append, opensAttr_semicolon hname, ih, opensAttr,
          not_opens_of_mem hname (.inl hspecial) List.mem_cons_self, Bool.false_or]
      · have hopens := opens_escapeXml hname (c :: cs)
        rw [hcons, entity_of_plain hspecial, List.singleton_append] at hopens ⊢
        rw [opensAttr, hopens, ih, opensAttr]

end

end MeshClient.Tak
