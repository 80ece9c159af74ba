import MeshClient.Reticulum.ConfigFile

namespace MeshClient.Reticulum

open TextLines Trim

variable {k v name raw line : Text}

theorem stripCommentFrom_append_of_plain (q : Bool) (xs : Text) {c : Char} (hq : c ≠ '"') (hc : c ≠ '#') :
    stripCommentFrom q (xs ++ [c]) = stripCommentFrom q xs ∨
      stripCommentFrom q (xs ++ [c]) = stripCommentFrom q xs ++ [c] := by
  induction xs generalizing q with
  | nil => exact .inr (by simp [stripCommentFrom, hq, hc])
  | cons x xs ih =>
      simp only [List.cons_append, stripCommentFrom]
      split_ifs
      · exact (ih (!q)).imp (congrArg _) (congrArg _)
      · exact .inl rfl
      · exact (ih q).imp (congrArg _) (congrArg _)

-- A comment is cut off at a number sign, or there is none.
theorem stripCommentFrom_cases (q : Bool) (xs : Text) : stripCommentFrom q xs = xs ∨
    ∃ pre post, xs = pre ++ '#' :: post ∧ stripCommentFrom q xs = pre := by
  induction xs generalizing q with
  | nil => exact .inl rfl
  | cons x xs ih =>
      simp only [stripCommentFrom]
      split_ifs with hquote hsign
      · obtain h | ⟨pre, post, rfl, h⟩ := ih (!q)
        · exact .inl (congrArg _ h)
        · exact .inr ⟨x :: pre, post, rfl, congrArg _ h⟩
      · exact .inr ⟨[], xs, by rw [hsign.1]; rfl, rfl⟩
      · obtain h | ⟨pre, post, rfl, h⟩ := ih q
        · exact .inl (congrArg _ h)
        · exact .inr ⟨x :: pre, post, rfl, congrArg _ h⟩

theorem mem_of_mem_stripComment {c : Char} (h : c ∈ stripComment raw) : c ∈ raw := by
  obtain heq | ⟨pre, post, hraw, heq⟩ := stripCommentFrom_cases false raw
  · rwa [stripComment, heq] at h
  · rw [stripComment, heq] at h
    rw [hraw]
    exact List.mem_append_left _ h

theorem trim_stripComment_dropReturn (raw : Text) :
    trim (stripComment (dropReturn raw)) = trim (stripComment raw) := by
  unfold dropReturn
  split_ifs with hlast
  · obtain ⟨front, rfl⟩ := List.getLast?_eq_some_iff.mp hlast
    rw [List.dropLast_concat]
    obtain h | h := stripCommentFrom_append_of_plain false front (c := '\r') (by decide) (by decide)
    · rw [stripComment, stripComment, h]
    · rw [stripComment, stripComment, h, trim, trim, trim_append_right]
      intro c hc
      obtain rfl := List.mem_singleton.mp hc
      decide
  · rfl

theorem readLine_dropReturn (raw : Text) : readLine (dropReturn raw) = readLine raw := by
  unfold readLine
  rw [trim_stripComment_dropReturn]

-- Whether a quote is open after the text.
def openAfter (q : Bool) : Text → Bool
  | [] => q
  | c :: cs => openAfter (if c = '"' then !q else q) cs

theorem openAfter_append (q : Bool) (xs ys : Text) : openAfter q (xs ++ ys) = openAfter (openAfter q xs) ys := by
  induction xs generalizing q with
  | nil => rfl
  | cons x xs ih => exact ih _

theorem openAfter_of_notMem {q : Bool} {xs : Text} (h : '"' ∉ xs) : openAfter q xs = q := by
  induction xs with
  | nil => rfl
  | cons x xs ih =>
      rw [List.mem_cons, not_or] at h
      rw [openAfter, if_neg (Ne.symm h.1), ih h.2]

theorem stripCommentFrom_append {q : Bool} {xs : Text} (h : stripCommentFrom q xs = xs) (ys : Text) :
    stripCommentFrom q (xs ++ ys) = xs ++ stripCommentFrom (openAfter q xs) ys := by
  induction xs generalizing q with
  | nil => rfl
  | cons x xs ih =>
      simp only [List.cons_append, stripCommentFrom, openAfter] at h ⊢
      split_ifs at h ⊢ with hquote hsign
      · rw [ih (List.cons.inj h).2]
      · rw [ih (List.cons.inj h).2]

-- What stands before is kept as it is where the whole is.
theorem stripCommentFrom_of_append {q : Bool} {xs ys : Text}
    (h : stripCommentFrom q (xs ++ ys) = xs ++ ys) : stripCommentFrom q xs = xs ∧
      stripCommentFrom (openAfter q xs) ys = ys := by
  induction xs generalizing q with
  | nil => exact ⟨rfl, h⟩
  | cons x xs ih =>
      simp only [List.cons_append, stripCommentFrom, openAfter] at h ⊢
      split_ifs at h ⊢ with hquote hsign
      · obtain ⟨hxs, hys⟩ := ih (List.cons.inj h).2
        exact ⟨congrArg _ hxs, hys⟩
      · obtain ⟨hxs, hys⟩ := ih (List.cons.inj h).2
        exact ⟨congrArg _ hxs, hys⟩

theorem stripCommentFrom_take {q : Bool} {xs : Text} (h : stripCommentFrom q xs = xs) (n : Nat) :
    stripCommentFrom q (xs.take n) = xs.take n :=
  (stripCommentFrom_of_append ((List.take_append_drop n xs).symm ▸ h)).1

theorem stripCommentFrom_of_notMem {q : Bool} {xs : Text} (h : '#' ∉ xs) : stripCommentFrom q xs = xs := by
  obtain heq | ⟨pre, post, rfl, _⟩ := stripCommentFrom_cases q xs
  · exact heq
  · exact absurd (List.mem_append_right pre List.mem_cons_self) h

theorem stripComment_stripComment (raw : Text) : stripComment (stripComment raw) = stripComment raw := by
  have hall : ∀ (q : Bool) (xs : Text), stripCommentFrom q (stripCommentFrom q xs) = stripCommentFrom q xs := by
    intro q xs
    induction xs generalizing q with
    | nil => rfl
    | cons x xs ih =>
        simp only [stripCommentFrom]
        split_ifs with hquote hsign
        · rw [stripCommentFrom, if_pos hquote, ih]
        · rfl
        · rw [stripCommentFrom, if_neg hquote, if_neg hsign, ih]
  exact hall false raw

-- What a section name, a key and a value look like once they are read.
structure NameText (name : Text) : Prop where
  ne : name ≠ []
  neat : Neat isWhitespace name
  plain : stripComment name = name
  line : '\n' ∉ name

structure KeyText (k : Text) : Prop where
  ne : k ≠ []
  neat : Neat isWhitespace k
  noEq : '=' ∉ k
  plain : stripComment k = k
  line : '\n' ∉ k

structure ValueText (v : Text) : Prop where
  neat : Neat isQuote v
  line : '\n' ∉ v

theorem quote_notMem_of_whitespace {xs : Text} (h : ∀ x ∈ xs, isWhitespace x = true) : '"' ∉ xs :=
  fun hmem => absurd (h _ hmem) (by decide)

-- A trimmed part of a text without comments has none either.
theorem stripComment_trim {q : Bool} {xs : Text} (h : stripCommentFrom q xs = xs) :
    stripCommentFrom q (trim xs) = trim xs := by
  obtain ⟨pre, post, heq, hpre, _⟩ := @exists_trim _ isWhitespace xs
  have hq : openAfter q pre = q := openAfter_of_notMem (quote_notMem_of_whitespace hpre)
  have hrest := (stripCommentFrom_of_append (heq ▸ h)).2
  rw [hq] at hrest
  exact (stripCommentFrom_of_append hrest).1

theorem stripComment_line (raw : Text) : stripComment (trim (stripComment raw)) = trim (stripComment raw) :=
  stripComment_trim (stripComment_stripComment raw)

theorem mem_line {c : Char} (h : c ∈ trim (stripComment raw)) : c ∈ raw :=
  mem_of_mem_stripComment (mem_of_mem_trim h)

theorem drop_takeWhile_length {α : Type*} (p : α → Bool) (xs : List α) :
    xs.drop (xs.takeWhile p).length = xs.dropWhile p := by
  induction xs with
  | nil => rfl
  | cons x xs ih =>
      by_cases hx : p x = true
      · simp [hx, ih]
      · simp [hx]

theorem readSection_facts {d : Nat} (hline : stripComment line = line) (hfeed : '\n' ∉ line)
    (h : readSection line = .ok (.section' d name)) : NameText name ∧ d = (line.takeWhile (· = '[')).length := by
  unfold readSection at h
  simp only at h
  split_ifs at h with hopen hname
  obtain ⟨rfl, rfl⟩ := Line.section'.inj (Except.ok.inj h)
  refine ⟨⟨hname, neat_trim _, ?_, ?_⟩, rfl⟩
  · rw [drop_takeWhile_length]
    have hsplit := List.takeWhile_append_dropWhile (p := fun c : Char => decide (c = '[')) (l := line)
    have hquote : '"' ∉ line.takeWhile (· = '[') := fun hmem => by
      have hc := List.mem_takeWhile_imp hmem
      simp at hc
    have hrest := (stripCommentFrom_of_append (hsplit.symm ▸ hline)).2
    rw [openAfter_of_notMem hquote] at hrest
    exact stripComment_trim (stripCommentFrom_take hrest _)
  · intro hmem
    exact hfeed (List.mem_of_mem_drop (List.mem_of_mem_take (mem_of_mem_trim hmem)))

theorem readEntry_facts (hline : stripComment line = line) (hfeed : '\n' ∉ line)
    (h : readEntry line = .ok (.entry k v)) : KeyText k ∧ ValueText v := by
  unfold readEntry at h
  simp only at h
  split_ifs at h with heq hkey
  obtain ⟨rfl, rfl⟩ := Line.entry.inj (Except.ok.inj h)
  refine ⟨⟨hkey, neat_trim _, ?_, ?_, ?_⟩, neat_trim _, ?_⟩
  · intro hmem
    have hc := List.mem_takeWhile_imp (mem_of_mem_trim hmem)
    simp at hc
  · have hsplit := List.takeWhile_append_dropWhile (p := fun c : Char => decide (c ≠ '=')) (l := line)
    exact stripComment_trim (stripCommentFrom_of_append (hsplit.symm ▸ hline)).1
  · intro hmem
    exact hfeed ((List.takeWhile_prefix _).subset (mem_of_mem_trim hmem))
  · intro hmem
    exact hfeed ((List.dropWhile_suffix _).subset (List.mem_of_mem_drop (mem_of_mem_trim (mem_of_mem_trim hmem))))

theorem readLine_cases {l : Line} (h : readLine raw = .ok l) :
    l = .blank ∨ readSection (trim (stripComment raw)) = .ok l ∨ readEntry (trim (stripComment raw)) = .ok l := by
  unfold readLine at h
  simp only at h
  split_ifs at h
  · exact .inl (Except.ok.inj h).symm
  · exact .inr (.inl h)
  · exact .inr (.inr h)

theorem readSection_ne_entry : readSection line ≠ .ok (.entry k v) := by
  unfold readSection
  simp only
  split_ifs <;> simp

theorem readEntry_ne_section {d : Nat} : readEntry line ≠ .ok (.section' d name) := by
  unfold readEntry
  simp only
  split_ifs <;> simp

theorem nameText_of_readLine {d : Nat} (h : readLine raw = .ok (.section' d name)) (hfeed : '\n' ∉ raw) :
    NameText name := by
  obtain h | h | h := readLine_cases h
  · exact absurd h (by simp)
  · exact (readSection_facts (stripComment_line raw) (fun hmem => hfeed (mem_line hmem)) h).1
  · exact absurd h readEntry_ne_section

theorem entryText_of_readLine (h : readLine raw = .ok (.entry k v)) (hfeed : '\n' ∉ raw) :
    KeyText k ∧ ValueText v := by
  obtain h | h | h := readLine_cases h
  · exact absurd h (by simp)
  · exact absurd h readSection_ne_entry
  · exact readEntry_facts (stripComment_line raw) (fun hmem => hfeed (mem_line hmem)) h

-- A name inside `d` pairs of brackets.
def wrap (d : Nat) (name : Text) : Text := List.replicate d '[' ++ (name ++ List.replicate d ']')

theorem header_eq_wrap (name : Text) : header name = wrap 1 name := rfl

theorem header_header_eq_wrap (name : Text) : header (header name) = wrap 2 name := by
  simp [header, wrap, List.replicate]

theorem takeWhile_replicate_append {α : Type*} [DecidableEq α] (d : Nat) (a : α) (xs : List α) :
    (List.replicate d a ++ xs).takeWhile (· = a) = List.replicate d a ++ xs.takeWhile (· = a) := by
  rw [List.takeWhile_append_of_pos]
  intro x hx
  simpa using List.eq_of_mem_replicate hx

def PlainName (name : Text) : Prop := name.head? ≠ some '[' ∧ name.getLast? ≠ some ']'

theorem takeWhile_eq_nil_of_head {α : Type*} {p : α → Bool} {xs : List α} (h : ∀ x ∈ xs.head?, p x = false) :
    xs.takeWhile p = [] := by
  cases xs with
  | nil => rfl
  | cons x xs => exact List.takeWhile_cons_of_neg (by simp [h x rfl])

theorem head?_of_takeWhile_ne {α : Type*} {p : α → Bool} {xs : List α} (h : xs.takeWhile p ≠ []) :
    ∃ x, xs.head? = some x ∧ p x = true := by
  cases xs with
  | nil => exact absurd rfl h
  | cons x xs =>
      refine ⟨x, rfl, ?_⟩
      by_contra hx
      exact h (List.takeWhile_cons_of_neg hx)

theorem stripComment_wrap (d : Nat) (h : stripComment name = name) : stripComment (wrap d name) = wrap d name := by
  have hopen : '"' ∉ List.replicate d '[' := fun hmem => absurd (List.eq_of_mem_replicate hmem) (by decide)
  have hsign : ∀ c ∈ ['[', ']'], '#' ∉ List.replicate d c := by
    intro c hc hmem
    have heq := List.eq_of_mem_replicate hmem
    subst heq
    exact absurd hc (by decide)
  rw [stripComment, wrap, stripCommentFrom_append (stripCommentFrom_of_notMem (hsign '[' (by simp))),
    openAfter_of_notMem hopen, stripCommentFrom_append h, stripCommentFrom_of_notMem (hsign ']' (by simp))]

theorem trim_wrap {d : Nat} (hd : 0 < d) : trim (wrap d name) = wrap d name := by
  refine trim_of_neat (@Neat.append _ isWhitespace (List.replicate d '[') (List.replicate d ']') name ⟨?_, ?_⟩ ⟨?_, ?_⟩ ?_ ?_)
  · intro x hx
    rw [List.eq_of_mem_replicate (List.mem_of_mem_head? hx)]
    decide
  · intro x hx
    rw [List.eq_of_mem_replicate (List.mem_of_mem_getLast? hx)]
    decide
  · intro x hx
    rw [List.eq_of_mem_replicate (List.mem_of_mem_head? hx)]
    decide
  · intro x hx
    rw [List.eq_of_mem_replicate (List.mem_of_mem_getLast? hx)]
    decide
  · exact List.ne_nil_of_length_pos (by simpa using hd)
  · exact List.ne_nil_of_length_pos (by simpa using hd)

theorem takeWhile_append_of_nil {α : Type*} {p : α → Bool} {xs ys : List α} (h : ys.takeWhile p = []) :
    (xs ++ ys).takeWhile p = xs.takeWhile p := by
  rw [List.takeWhile_append, h, List.append_nil]
  split_ifs with hall
  · exact ((List.takeWhile_prefix p).eq_of_length hall).symm
  · rfl

theorem takeWhile_replicate_ne {α : Type*} [DecidableEq α] {d : Nat} {a b : α} (h : b ≠ a) :
    (List.replicate d b).takeWhile (· = a) = [] := by
  refine takeWhile_eq_nil_of_head fun x hx => ?_
  rw [List.eq_of_mem_replicate (List.mem_of_mem_head? hx)]
  simpa using h

theorem opened_wrap (d : Nat) (name : Text) :
    ((wrap d name).takeWhile (· = '[')).length = d + (name.takeWhile (· = '[')).length := by
  rw [wrap, takeWhile_replicate_append, takeWhile_append_of_nil (takeWhile_replicate_ne (by decide)),
    List.length_append, List.length_replicate]

theorem closed_wrap (d : Nat) (name : Text) :
    ((wrap d name).reverse.takeWhile (· = ']')).length = d + (name.reverse.takeWhile (· = ']')).length := by
  have hrev : (wrap d name).reverse = List.replicate d ']' ++ (name.reverse ++ List.replicate d '[') := by
    simp [wrap, List.reverse_append]
  rw [hrev, takeWhile_replicate_append, takeWhile_append_of_nil (takeWhile_replicate_ne (by decide)),
    List.length_append, List.length_replicate]

theorem inner_wrap (d : Nat) (name : Text) :
    ((wrap d name).drop d).take ((wrap d name).length - d - d) = name := by
  have hdrop : (wrap d name).drop d = name ++ List.replicate d ']' := by
    rw [wrap, List.drop_left' List.length_replicate]
  have hlen : (wrap d name).length - d - d = name.length := by
    simp only [wrap, List.length_append, List.length_replicate]
    omega
  rw [hdrop, hlen, List.take_left' rfl]

theorem takeWhile_bracket_eq_nil_iff {α : Type*} [DecidableEq α] {a : α} {xs : List α} :
    (xs.takeWhile (· = a)).length = 0 ↔ xs.head? ≠ some a := by
  cases xs with
  | nil => simp
  | cons x xs =>
      by_cases hx : x = a
      · simp [hx]
      · simp [hx]

theorem plainName_iff : PlainName name ↔
    (name.takeWhile (· = '[')).length = 0 ∧ (name.reverse.takeWhile (· = ']')).length = 0 := by
  rw [takeWhile_bracket_eq_nil_iff, takeWhile_bracket_eq_nil_iff, List.head?_reverse]
  exact Iff.rfl

theorem readLine_wrap_eq {d : Nat} (hd : 0 < d) (hname : NameText name) :
    readLine (wrap d name) = readSection (wrap d name) := by
  have hne : wrap d name ≠ [] := by
    intro hnil
    have hlen := congrArg List.length hnil
    simp only [wrap, List.length_append, List.length_replicate, List.length_nil] at hlen
    omega
  have hhead : (wrap d name).head? = some '[' := by
    obtain ⟨e, rfl⟩ := Nat.exists_eq_succ_of_ne_zero (Nat.pos_iff_ne_zero.mp hd)
    rfl
  have hlast : (wrap d name).getLast? = some ']' := by
    obtain ⟨e, rfl⟩ := Nat.exists_eq_succ_of_ne_zero (Nat.pos_iff_ne_zero.mp hd)
    rw [wrap, List.getLast?_append, List.getLast?_append, List.replicate_succ']
    simp
  unfold readLine
  simp only [stripComment_wrap d hname.plain, trim_wrap hd, if_neg hne, if_pos (And.intro hhead hlast)]

-- Brackets of the name are taken for brackets of the line.
theorem readLine_wrap_iff {d : Nat} {l : Line} (hd : 0 < d) (hname : NameText name) :
    readLine (wrap d name) = .ok l ∧ (∀ e n, l = .section' e n → e ≤ d) ↔ PlainName name ∧ l = .section' d name := by
  rw [readLine_wrap_eq hd hname, plainName_iff]
  unfold readSection
  simp only [opened_wrap, closed_wrap]
  constructor
  · rintro ⟨h, hle⟩
    split_ifs at h with hopen hnil
    have hl := (Except.ok.inj h).symm
    have hd' := hle _ _ hl
    have hopened : (name.takeWhile (· = '[')).length = 0 := by omega
    have hclosed : (name.reverse.takeWhile (· = ']')).length = 0 := by omega
    rw [hopened, hclosed, Nat.add_zero, inner_wrap, trim, trim_of_neat hname.neat] at hl
    exact ⟨⟨hopened, hclosed⟩, hl⟩
  · rintro ⟨⟨hopened, hclosed⟩, rfl⟩
    rw [hopened, hclosed, Nat.add_zero, inner_wrap, trim, trim_of_neat hname.neat, if_neg (by simp), if_neg hname.ne]
    refine ⟨rfl, ?_⟩
    rintro e n heq
    exact (Line.section'.inj heq).1 ▸ le_refl _

theorem trim_entry (hk : KeyText k) (w : Text) :
    trim (k ++ ' ' :: '=' :: w) = k ++ ' ' :: '=' :: w.rdropWhile isWhitespace := by
  have hhead : (k ++ ' ' :: '=' :: w).dropWhile isWhitespace = k ++ ' ' :: '=' :: w := by
    refine dropWhile_of_head fun x hx => hk.neat.head x ?_
    rw [List.head?_append] at hx
    cases k with
    | nil => exact absurd rfl hk.ne
    | cons a k => simpa using hx
  have hlast := @rdropWhile_append_cons _ isWhitespace '=' (by decide) (k ++ [' ']) w
  rw [List.append_assoc, List.append_assoc, List.singleton_append, List.singleton_append] at hlast
  rw [trim, Trim.trim, hhead, hlast]

theorem takeWhile_key (hk : '=' ∉ k) (w : Text) :
    (k ++ ' ' :: '=' :: w).takeWhile (· ≠ '=') = k ++ [' '] ∧
      (k ++ ' ' :: '=' :: w).dropWhile (· ≠ '=') = '=' :: w := by
  have hall : ∀ c ∈ k, decide (c ≠ '=') = true := fun c hc => by
    simpa using fun heq : c = '=' => hk (heq ▸ hc)
  constructor
  · rw [List.takeWhile_append_of_pos hall]
    rfl
  · rw [List.dropWhile_append_of_pos hall]
    rfl

theorem trim_space (w : Text) : trim (' ' :: w) = trim w :=
  @trim_append_left _ isWhitespace [' '] w fun x hx => List.mem_singleton.mp hx ▸ by decide

theorem trim_rdropWhile (w : Text) : trim (w.rdropWhile isWhitespace) = trim w := by
  have hsplit : w = w.rdropWhile isWhitespace ++ w.rtakeWhile isWhitespace := by
    rw [List.rdropWhile_append_rtakeWhile]
  conv_rhs => rw [hsplit]
  exact (trim_append_right fun y hy => List.mem_rtakeWhile_imp hy).symm

-- How a line reads that has a key, a blank and an equals sign once its comment is gone.
theorem readLine_of_strip (hk : KeyText k) {w : Text} (hraw : stripComment raw = k ++ ' ' :: '=' :: w) :
    readLine raw =
      if k.head? = some '[' ∧ (('=' :: w.rdropWhile isWhitespace).getLast?) = some ']' then
        readSection (k ++ ' ' :: '=' :: w.rdropWhile isWhitespace)
      else .ok (.entry k (trimQuotes (trim w))) := by
  have hhead : (k ++ ' ' :: '=' :: w.rdropWhile isWhitespace).head? = k.head? := by
    cases k with
    | nil => exact absurd rfl hk.ne
    | cons a k => rfl
  have hlast : (k ++ ' ' :: '=' :: w.rdropWhile isWhitespace).getLast?
      = ('=' :: w.rdropWhile isWhitespace).getLast? := by
    rw [List.getLast?_append, List.getLast?_cons_cons, List.getLast?_cons, Option.some_or]
  have hkey : trim (k ++ [' ']) = k := by
    rw [trim, trim_append_right fun x hx => List.mem_singleton.mp hx ▸ by decide, trim_of_neat hk.neat]
  obtain ⟨htake, hdrop⟩ := takeWhile_key hk.noEq (w.rdropWhile isWhitespace)
  unfold readLine
  simp only [hraw, trim_entry hk, hhead, hlast]
  rw [if_neg (by simp)]
  split_ifs
  · rfl
  · unfold readEntry
    simp only [htake, hdrop, hkey, List.drop_one, List.tail_cons, trim_rdropWhile, if_neg hk.ne]
    rw [if_pos (by simp)]

def PlainEntry (k v : Text) : Prop :=
  Neat isWhitespace v ∧ stripComment (entryLine k v) = entryLine k v ∧
    ¬ (k.head? = some '[' ∧ v.getLast? = some ']')

theorem entryLine_eq (k v : Text) : entryLine k v = k ++ ' ' :: '=' :: ' ' :: v := by
  simp [entryLine]

theorem last_value {v : Text} (hv : Neat isWhitespace v) :
    ('=' :: (' ' :: v).rdropWhile isWhitespace).getLast? = some ']' ↔ v.getLast? = some ']' := by
  cases hcase : v.getLast? with
  | none =>
      obtain rfl := List.getLast?_eq_none_iff.mp hcase
      simp [List.rdropWhile, isWhitespace]
  | some c =>
      have hneat : (' ' :: v).rdropWhile isWhitespace = ' ' :: v := by
        refine rdropWhile_of_last fun x hx => hv.last x ?_
        rw [List.getLast?_cons, hcase] at hx
        rwa [hcase]
      rw [hneat, List.getLast?_cons_cons, List.getLast?_cons, hcase]
      simp

theorem readLine_entryLine (hk : KeyText k) (hv : ValueText v) (h : PlainEntry k v) :
    readLine (entryLine k v) = .ok (.entry k v) := by
  obtain ⟨hneat, hstrip, hheader⟩ := h
  rw [readLine_of_strip hk (hstrip.trans (entryLine_eq k v)), if_neg, trim_space, trim, trim_of_neat hneat, trimQuotes,
    trim_of_neat hv.neat]
  rw [last_value hneat]
  exact hheader

theorem stripCommentFrom_append_of_cut {q : Bool} {xs : Text} (h : stripCommentFrom q xs ≠ xs) (ys : Text) :
    stripCommentFrom q (xs ++ ys) = stripCommentFrom q xs := by
  induction xs generalizing q with
  | nil => exact absurd rfl h
  | cons x xs ih =>
      simp only [List.cons_append, stripCommentFrom] at h ⊢
      split_ifs at h ⊢ with hquote hsign
      · rw [ih fun heq => h (congrArg _ heq)]
      · rfl
      · rw [ih fun heq => h (congrArg _ heq)]

theorem stripComment_key (hk : KeyText k) (w : Text) :
    stripComment (k ++ ' ' :: '=' :: ' ' :: w)
      = k ++ ' ' :: '=' :: ' ' :: stripCommentFrom (openAfter false k) w := by
  rw [stripComment, stripCommentFrom_append hk.plain]
  rfl

theorem length_stripCommentFrom_le (q : Bool) (xs : Text) : (stripCommentFrom q xs).length ≤ xs.length := by
  obtain h | ⟨pre, post, rfl, h⟩ := stripCommentFrom_cases q xs
  · rw [h]
  · rw [h, List.length_append]
    omega

theorem eq_of_length_stripCommentFrom {q : Bool} {xs : Text} (h : xs.length ≤ (stripCommentFrom q xs).length) :
    stripCommentFrom q xs = xs := by
  obtain heq | ⟨pre, post, rfl, heq⟩ := stripCommentFrom_cases q xs
  · exact heq
  · rw [heq, List.length_append, List.length_cons] at h
    omega

theorem count_trim {α : Type*} [DecidableEq α] {p : α → Bool} {a : α} (ha : p a = false) (xs : List α) :
    (Trim.trim p xs).count a = xs.count a := by
  obtain ⟨pre, post, heq, hpre, hpost⟩ := @exists_trim _ p xs
  have hzero : ∀ ys : List α, (∀ y ∈ ys, p y = true) → ys.count a = 0 := by
    intro ys hys
    refine List.count_eq_zero.mpr fun hmem => ?_
    have htrue := hys a hmem
    rw [ha] at htrue
    exact absurd htrue (by simp)
  conv_rhs => rw [heq]
  rw [List.count_append, List.count_append, hzero pre hpre, hzero post hpost]
  omega

theorem value_of_readLine {w v' : Text} (hk : KeyText k) (hraw : stripComment raw = k ++ ' ' :: '=' :: ' ' :: w)
    (h : readLine raw = .ok (.entry k v')) :
    v' = trimQuotes (trim w) ∧
      ¬ (k.head? = some '[' ∧ ('=' :: (' ' :: w).rdropWhile isWhitespace).getLast? = some ']') := by
  rw [readLine_of_strip hk hraw] at h
  split_ifs at h with hheader
  · exact absurd h readSection_ne_entry
  · rw [trim_space] at h
    exact ⟨(Line.entry.inj (Except.ok.inj h)).2.symm, hheader⟩

-- A value that is read back has lost nothing: no comment, no blank at its ends.
theorem plainEntry_of_value (hk : KeyText k) (hcut : stripCommentFrom (openAfter false k) v = v)
    (htrim : v = trimQuotes (trim v))
    (hheader : ¬ (k.head? = some '[' ∧ ('=' :: (' ' :: v).rdropWhile isWhitespace).getLast? = some ']')) :
    PlainEntry k v := by
  have hlen : v.length ≤ (trim v).length := by
    conv_lhs => rw [htrim]
    exact length_trim_le _
  have hneat : Neat isWhitespace v := trim_eq_self_iff.mp (trim_of_length hlen)
  refine ⟨hneat, ?_, ?_⟩
  · rw [entryLine_eq, stripComment_key hk, hcut]
  · rwa [last_value hneat] at hheader

theorem readLine_entryLine_iff (hk : KeyText k) (hv : ValueText v) :
    readLine (entryLine k v) = .ok (.entry k v) ↔ PlainEntry k v := by
  refine ⟨fun h => ?_, readLine_entryLine hk hv⟩
  obtain ⟨hvalue, hheader⟩ := value_of_readLine hk ((congrArg _ (entryLine_eq k v)).trans (stripComment_key hk v)) h
  have hlen : v.length ≤ (stripCommentFrom (openAfter false k) v).length := by
    conv_lhs => rw [hvalue]
    exact (length_trim_le _).trans (length_trim_le _)
  have hcut := eq_of_length_stripCommentFrom hlen
  rw [hcut] at hvalue hheader
  exact plainEntry_of_value hk hcut hvalue hheader

-- The tag of the section must stand outside all quotes.
def PlainExtra (k v : Text) : Prop := PlainEntry k v ∧ openAfter false (entryLine k v) = false

theorem extraLine_eq (k v other : Text) :
    extraLine k v other = k ++ ' ' :: '=' :: ' ' :: (v ++ "  # section=".toList ++ other) := by
  simp [extraLine, entryLine]

theorem openAfter_entryLine (k v : Text) :
    openAfter false (entryLine k v) = openAfter (openAfter false k) v := by
  rw [entryLine_eq, openAfter_append]
  rfl

theorem stripComment_tag (other : Text) (hk : KeyText k) (hcut : stripCommentFrom (openAfter false k) v = v)
    (hopen : openAfter false (entryLine k v) = false) :
    stripComment (extraLine k v other) = k ++ ' ' :: '=' :: ' ' :: (v ++ [' ', ' ']) := by
  rw [openAfter_entryLine] at hopen
  rw [extraLine_eq, stripComment_key hk, List.append_assoc, stripCommentFrom_append hcut, hopen]
  rfl

theorem trim_blanks (v : Text) : trim (v ++ [' ', ' ']) = trim v := by
  refine trim_append_right fun c hc => ?_
  obtain rfl : c = ' ' := by simpa using hc
  decide

theorem rdropWhile_blanks (v : Text) :
    (' ' :: (v ++ [' ', ' '])).rdropWhile isWhitespace = (' ' :: v).rdropWhile isWhitespace := by
  refine @rdropWhile_append _ isWhitespace (' ' :: v) [' ', ' '] fun c hc => ?_
  obtain rfl : c = ' ' := by simpa using hc
  decide

theorem cut_of_plainEntry (hk : KeyText k) (h : PlainEntry k v) : stripCommentFrom (openAfter false k) v = v := by
  have hstrip := h.2.1
  rw [entryLine_eq, stripComment_key hk] at hstrip
  simpa using hstrip

theorem readLine_extraLine_iff {other : Text} (hk : KeyText k) (hv : ValueText v) :
    readLine (extraLine k v other) = .ok (.entry k v) ↔ PlainExtra k v := by
  constructor
  · intro h
    have hstrip := (congrArg stripComment (extraLine_eq k v other)).trans (stripComment_key hk _)
    obtain ⟨hvalue, hheader⟩ := value_of_readLine hk hstrip h
    by_cases hcut : stripCommentFrom (openAfter false k) v = v
    · cases hopen : openAfter false (entryLine k v) with
      | false =>
          obtain ⟨hvalue, hheader⟩ := value_of_readLine hk (stripComment_tag other hk hcut hopen) h
          rw [trim_blanks] at hvalue
          rw [rdropWhile_blanks] at hheader
          exact ⟨plainEntry_of_value hk hcut hvalue hheader, hopen⟩
      | true =>
          -- The number sign of the tag is read as part of the value.
          rw [openAfter_entryLine] at hopen
          rw [List.append_assoc, stripCommentFrom_append hcut, hopen] at hvalue
          have hcount := congrArg (List.count '#') hvalue
          rw [trimQuotes, count_trim (by decide), trim, count_trim (by decide), List.count_append] at hcount
          have htag : stripCommentFrom true ("  # section=".toList ++ other) =
              "  # section=".toList ++ stripCommentFrom true other := by rfl
          rw [htag, List.count_append] at hcount
          have hone : "  # section=".toList.count '#' = 1 := by decide
          omega
    · rw [List.append_assoc, stripCommentFrom_append_of_cut hcut] at hvalue
      have hlen : v.length ≤ (stripCommentFrom (openAfter false k) v).length := by
        conv_lhs => rw [hvalue]
        exact (length_trim_le _).trans (length_trim_le _)
      exact absurd (eq_of_length_stripCommentFrom hlen) hcut
  · rintro ⟨hplain, hopen⟩
    have hstrip := stripComment_tag other hk (cut_of_plainEntry hk hplain) hopen
    rw [readLine_of_strip hk hstrip, rdropWhile_blanks, if_neg, trim_space, trim_blanks, trim,
      trim_of_neat hplain.1, trimQuotes, trim_of_neat hv.neat]
    rw [last_value hplain.1]
    exact hplain.2.2

end MeshClient.Reticulum
