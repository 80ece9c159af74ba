import MeshClient.Net.IpLiteral

namespace MeshClient.Net

theorem mem_intercalate {parts : List (List Char)} {c mark : Char} (h : c ∈ [mark].intercalate parts) :
    c = mark ∨ ∃ p ∈ parts, c ∈ p := by
  induction parts with
  | nil => simp at h
  | cons p parts ih =>
      cases parts with
      | nil =>
          rw [List.intercalate_singleton] at h
          exact .inr ⟨p, List.mem_cons_self, h⟩
      | cons q parts =>
          rw [List.intercalate_cons_cons] at h
          rcases List.mem_append.mp h with hp | hrest
          · rcases List.mem_append.mp hp with hp | hc
            · exact .inr ⟨p, List.mem_cons_self, hp⟩
            · exact .inl (List.mem_singleton.mp hc)
          · refine (ih hrest).imp id ?_
            rintro ⟨r, hr, hc⟩
            exact ⟨r, List.mem_cons_of_mem p hr, hc⟩

theorem mem_of_mem_splitOn {text p : List Char} {c : Char} (hp : p ∈ text.splitOn ':') (hc : c ∈ p) : c ∈ text := by
  rw [← @List.intercalate_splitOn _ text _ _ ':']
  generalize text.splitOn ':' = parts at hp
  induction parts with
  | nil => cases hp
  | cons q parts ih =>
      cases parts with
      | nil =>
          rw [List.mem_singleton] at hp
          subst hp
          simpa using hc
      | cons r parts =>
          rw [List.intercalate_cons_cons]
          rcases List.mem_cons.mp hp with rfl | hp
          · simp [hc]
          · exact List.mem_append_right _ (ih hp)

theorem colon_notMem_of_mem_splitOn {text p : List Char} (hp : p ∈ text.splitOn ':') : ':' ∉ p := by
  induction text generalizing p with
  | nil =>
      rw [List.splitOn_nil, List.mem_singleton] at hp
      simp [hp]
  | cons c text ih =>
      rw [List.splitOn_cons_eq_if_modifyHead] at hp
      by_cases hc : c = ':'
      · rw [if_pos (by simpa using hc)] at hp
        rcases List.mem_cons.mp hp with rfl | hp
        · simp
        · exact ih hp
      · rw [if_neg (by simpa using hc)] at hp
        cases hsplit : text.splitOn ':' with
        | nil => exact absurd hsplit (List.splitOn_ne_nil _ _)
        | cons first others =>
            rw [hsplit, List.modifyHead_cons] at hp
            rcases List.mem_cons.mp hp with rfl | hp
            · exact List.not_mem_cons_of_ne_of_not_mem (Ne.symm hc) (ih (hsplit ▸ List.mem_cons_self))
            · exact ih (hsplit ▸ List.mem_cons_of_mem first hp)

theorem intercalate_splitGroups (text : List Char) : [':'].intercalate (splitGroups text) = text := by
  unfold splitGroups
  by_cases h : text = []
  · rw [if_pos h, h, List.intercalate_nil]
  · rw [if_neg h, List.intercalate_splitOn]

theorem splitGroups_intercalate {parts : List (List Char)} (h : ∀ p ∈ parts, p ≠ [] ∧ ':' ∉ p) :
    splitGroups ([':'].intercalate parts) = parts := by
  cases parts with
  | nil => rfl
  | cons p parts =>
      have hne : [':'].intercalate (p :: parts) ≠ [] := by
        obtain ⟨hp, -⟩ := h p List.mem_cons_self
        cases parts with
        | nil => simpa using hp
        | cons q parts =>
            rw [List.intercalate_cons_cons]
            simp
      rw [splitGroups, if_neg hne, List.splitOn_intercalate ':' (fun q hq => (h q hq).2) (by simp)]

theorem mem_of_mem_splitGroups {text p : List Char} {c : Char} (hp : p ∈ splitGroups text) (hc : c ∈ p) :
    c ∈ text := by
  unfold splitGroups at hp
  split at hp
  · cases hp
  · exact mem_of_mem_splitOn hp hc

theorem colon_notMem_of_mem_splitGroups {text p : List Char} (hp : p ∈ splitGroups text) : ':' ∉ p := by
  unfold splitGroups at hp
  split at hp
  · cases hp
  · exact colon_notMem_of_mem_splitOn hp

theorem Groups.parts {texts : List (List Char)} {values : List Nat} (h : Groups texts values) :
    ∀ p ∈ texts, p ≠ [] ∧ ':' ∉ p := by
  induction h with
  | nil => simp
  | @quad text high low hquad =>
      intro p hp
      rw [List.mem_singleton] at hp
      subst hp
      obtain ⟨hcolon, hdot⟩ := hquad.plain
      exact ⟨List.ne_nil_of_mem hdot, hcolon⟩
  | @group text value texts values hgroup rest ih =>
      intro p hp
      rcases List.mem_cons.mp hp with rfl | hp
      · exact ⟨hgroup.1, hgroup.plain.1⟩
      · exact ih p hp

theorem parts_of_forall₂ {texts : List (List Char)} {values : List Nat} (h : List.Forall₂ IsGroup texts values) :
    ∀ p ∈ texts, p ≠ [] ∧ ':' ∉ p ∧ '.' ∉ p ∧ 'v' ∉ p ∧ ∀ c ∈ p, isHexDigit c = true := by
  induction h with
  | nil => simp
  | @cons text value texts values hgroup rest ih =>
      intro p hp
      rcases List.mem_cons.mp hp with rfl | hp
      · exact ⟨hgroup.1, hgroup.plain.1, hgroup.plain.2.1, hgroup.plain.2.2, hgroup.2.2.1⟩
      · exact ih p hp

theorem groups_of_forall₂ {texts : List (List Char)} {values : List Nat} (h : List.Forall₂ IsGroup texts values) :
    Groups texts values := by
  induction h with
  | nil => exact .nil
  | cons hgroup rest ih => exact .group hgroup ih

-- Only the last of the groups can be a dotted quad.
theorem groups_concat {texts : List (List Char)} {text : List Char} {values : List Nat} :
    Groups (texts ++ [text]) values ↔
      (∃ us v, List.Forall₂ IsGroup texts us ∧ IsGroup text v ∧ values = us ++ [v]) ∨
      ∃ us high low, List.Forall₂ IsGroup texts us ∧ IsQuad text high low ∧ values = us ++ [high, low] := by
  constructor
  · intro h
    induction texts generalizing values with
    | nil =>
        cases h with
        | @quad _ high low hquad => exact .inr ⟨[], high, low, .nil, hquad, rfl⟩
        | @group _ value _ rest hgroup hrest =>
            cases hrest
            exact .inl ⟨[], value, .nil, hgroup, rfl⟩
    | cons first texts ih =>
        rw [List.cons_append] at h
        generalize hall : texts ++ [text] = others at h
        cases h with
        | quad hquad => simp at hall
        | @group _ value _ rest hgroup hrest =>
            subst hall
            rcases ih hrest with ⟨us, v, hus, hv, rfl⟩ | ⟨us, high, low, hus, hquad, rfl⟩
            · exact .inl ⟨value :: us, v, .cons hgroup hus, hv, rfl⟩
            · exact .inr ⟨value :: us, high, low, .cons hgroup hus, hquad, rfl⟩
  · rintro (⟨us, v, hus, hv, rfl⟩ | ⟨us, high, low, hus, hquad, rfl⟩)
    · induction hus with
      | nil => exact .group hv .nil
      | cons hgroup rest ih => exact .group hgroup ih
    · induction hus with
      | nil => exact .quad hquad
      | cons hgroup rest ih => exact .group hgroup ih

-- The same two shapes, with a quad where it is written.
inductive GroupForm (text : List Char) : List Nat → Prop where
  | whole {values : List Nat} (hsplit : PairSplit.split ':' text = [text])
      (hgroups : Groups (text.splitOn ':') values) (hlen : values.length = 8) : GroupForm text values
  | pair {left right : List Char} {us vs : List Nat} (hsplit : PairSplit.split ':' text = [left, right])
      (hleft : List.Forall₂ IsGroup (splitGroups left) us) (hright : Groups (splitGroups right) vs)
      (hlen : us.length + vs.length < 8) :
      GroupForm text (us ++ List.replicate (8 - us.length - vs.length) 0 ++ vs)

theorem textForm_iff_groupForm {text : List Char} {values : List Nat} :
    TextForm text values ↔ GroupForm text values := by
  constructor
  · intro h
    cases h with
    | @full texts _ hgroups hlen =>
        have hne : texts ≠ [] := by
          rintro rfl
          cases hgroups
          cases hlen
        have hparts := hgroups.parts
        refine .whole (PairSplit.split_of_single (PairSplit.single_intercalate hparts).1) ?_ hlen
        rwa [List.splitOn_intercalate ':' (fun p hp => (hparts p hp).2) hne]
    | @compressed left right us vs hleft hright hlen =>
        have hleftParts : ∀ p ∈ left, p ≠ [] ∧ ':' ∉ p := fun p hp =>
          ⟨(parts_of_forall₂ hleft p hp).1, (parts_of_forall₂ hleft p hp).2.1⟩
        obtain ⟨hsingle, hlast, -⟩ := PairSplit.single_intercalate hleftParts
        obtain ⟨hrightSingle, -, -⟩ := PairSplit.single_intercalate hright.parts
        have hsplit := @PairSplit.split_append _ _ ':' ([':'].intercalate left) ([':'].intercalate right) hsingle hlast
        rw [PairSplit.split_of_single hrightSingle] at hsplit
        refine .pair hsplit ?_ ?_ hlen
        · rwa [splitGroups_intercalate hleftParts]
        · rwa [splitGroups_intercalate hright.parts]
  · intro h
    cases h with
    | whole hsplit hgroups hlen =>
        have hform := TextForm.full hgroups hlen
        rwa [List.intercalate_splitOn] at hform
    | @pair left right us vs hsplit hleft hright hlen =>
        have hform := TextForm.compressed hleft hright hlen
        rwa [intercalate_splitGroups, intercalate_splitGroups, ← PairSplit.eq_of_split_pair hsplit] at hform

-- What stands after the last colon.
def afterColon (text : List Char) : List Char := text.rtakeWhile (· ≠ ':')

theorem colon_notMem_afterColon (text : List Char) : ':' ∉ afterColon text := fun h => by
  simpa using List.mem_rtakeWhile_imp h

def beforeColon (text : List Char) : List Char := (text.rdropWhile (· ≠ ':')).dropLast

theorem eq_afterColon_or (text : List Char) :
    text = afterColon text ∨ text = beforeColon text ++ ':' :: afterColon text := by
  have hjoin := @List.rdropWhile_append_rtakeWhile _ (· ≠ ':') text
  by_cases hnil : text.rdropWhile (· ≠ ':') = []
  · rw [hnil, List.nil_append] at hjoin
    exact .inl hjoin.symm
  · have hlast := List.rdropWhile_last_not (· ≠ ':') text hnil
    have hcolon : (text.rdropWhile (· ≠ ':')).getLast hnil = ':' := by simpa using hlast
    right
    have hfront := List.dropLast_append_getLast hnil
    rw [hcolon] at hfront
    rw [← List.singleton_append, ← List.append_assoc, beforeColon, hfront]
    exact hjoin.symm

theorem afterColon_append (front after : List Char) : afterColon (front ++ ':' :: after) = afterColon after := by
  unfold afterColon
  induction after using List.reverseRecOn with
  | nil => exact List.rtakeWhile_concat_neg _ _ _ (by simp)
  | append_singleton after c ih =>
      rw [← List.cons_append, ← List.append_assoc, List.rtakeWhile_concat, List.rtakeWhile_concat, ih]

theorem afterColon_of_notMem {text : List Char} (h : ':' ∉ text) : afterColon text = text :=
  List.rtakeWhile_eq_self_iff.mpr fun c hc => by simpa using fun heq : c = ':' => h (heq ▸ hc)

theorem splitOn_eq_concat (text : List Char) : ∃ front, text.splitOn ':' = front ++ [afterColon text] := by
  rcases eq_afterColon_or text with h | h
  · have hcolon := colon_notMem_afterColon text
    refine ⟨[], ?_⟩
    rw [← h] at hcolon ⊢
    exact List.splitOn_eq_singleton hcolon
  · refine ⟨(beforeColon text).splitOn ':', ?_⟩
    rw [← List.splitOn_eq_singleton (colon_notMem_afterColon text), ← List.splitOn_append_cons_self, ← h]

-- Without a dot after the last colon there is no quad.
theorem groups_splitOn_iff {text : List Char} {values : List Nat} (h : '.' ∉ afterColon text) :
    Groups (text.splitOn ':') values ↔ List.Forall₂ IsGroup (text.splitOn ':') values := by
  refine ⟨fun hgroups => ?_, groups_of_forall₂⟩
  obtain ⟨front, hfront⟩ := splitOn_eq_concat text
  rw [hfront] at hgroups ⊢
  rcases groups_concat.mp hgroups with ⟨us, v, hus, hv, rfl⟩ | ⟨us, high, low, -, hquad, -⟩
  · exact List.rel_append hus (.cons hv .nil)
  · exact absurd hquad.plain.2 h

theorem groups_splitGroups_iff {text : List Char} {values : List Nat} (h : '.' ∉ afterColon text) :
    Groups (splitGroups text) values ↔ List.Forall₂ IsGroup (splitGroups text) values := by
  unfold splitGroups
  by_cases hnil : text = []
  · rw [if_pos hnil]
    exact ⟨fun hgroups => by cases hgroups; exact .nil, groups_of_forall₂⟩
  · rw [if_neg hnil]
    exact groups_splitOn_iff h

theorem literalForm_iff_groupForm {text : List Char} {values : List Nat} (h : '.' ∉ afterColon text) :
    LiteralForm none text values ↔ GroupForm text values := by
  have hright : ∀ {left right : List Char}, PairSplit.split ':' text = [left, right] → '.' ∉ afterColon right := by
    intro left right hsplit
    rw [PairSplit.eq_of_split_pair hsplit, ← List.singleton_append, ← List.append_assoc, afterColon_append] at h
    exact h
  constructor
  · intro hform
    cases hform with
    | whole hsplit hreads hlen =>
        exact .whole hsplit ((groups_splitOn_iff h).mpr ((reads_groups (.inl rfl)).mp hreads)) hlen
    | pair hsplit hleft hreads hlen =>
        exact .pair hsplit ((reads_groups (.inl rfl)).mp hleft)
          ((groups_splitGroups_iff (hright hsplit)).mpr ((reads_groups (.inl rfl)).mp hreads)) hlen
  · intro hform
    cases hform with
    | whole hsplit hgroups hlen =>
        exact .whole hsplit ((reads_groups (.inl rfl)).mpr ((groups_splitOn_iff h).mp hgroups)) hlen
    | pair hsplit hleft hgroups hlen =>
        exact .pair hsplit ((reads_groups (.inl rfl)).mpr hleft)
          ((reads_groups (.inl rfl)).mpr ((groups_splitGroups_iff (hright hsplit)).mp hgroups)) hlen

-- How a text is cut does not depend on what stands after its last colon.
inductive Shape (front : List Char) : Prop where
  | whole (parts : List (List Char)) (hplain : ∀ p ∈ parts, ':' ∉ p)
      (hmem : ∀ c, c ≠ ':' → (c ∈ front ↔ ∃ p ∈ parts, c ∈ p))
      (hcut : ∀ after, after ≠ [] → ':' ∉ after →
        PairSplit.split ':' (front ++ ':' :: after) = [front ++ ':' :: after] ∧ (front ++ ':' :: after).splitOn ':' = parts ++ [after])
  | pair (left last : List Char) (parts : List (List Char)) (hplain : ∀ p ∈ parts, ':' ∉ p)
      (hmem : ∀ c, c ≠ ':' → (c ∈ front ↔ ∃ p ∈ splitGroups left ++ parts, c ∈ p))
      (hcut : ∀ after, after ≠ [] → ':' ∉ after →
        PairSplit.split ':' (front ++ ':' :: after) = [left, last ++ after] ∧ splitGroups (last ++ after) = parts ++ [after])
  | more (hcut : ∀ after, ':' ∉ after → 2 < (PairSplit.split ':' (front ++ ':' :: after)).length)

theorem shape (front : List Char) : Shape front := by
  obtain ⟨pre, last, hxs, happend⟩ := @PairSplit.exists_split_append _ _ ':' (front ++ [':'])
  have hfront : ∀ after, front ++ ':' :: after = front ++ [':'] ++ after := by simp
  -- the last part is empty or ends with the colon that the text ends with
  have hlast : last = [] ∨ ∃ body, last = body ++ [':'] := by
    rcases List.eq_nil_or_concat' last with hnil | ⟨body, c, rfl⟩
    · exact .inl hnil
    · obtain ⟨start, hstart⟩ := PairSplit.suffix_of_split hxs
      rw [← List.append_assoc] at hstart
      rw [← (List.append_inj' hstart rfl).2]
      exact .inr ⟨body, rfl⟩
  -- the groups of the last part, whatever is put behind it
  have hparts : ∃ parts, (∀ p ∈ parts, ':' ∉ p) ∧ (∀ c, c ≠ ':' → (c ∈ last ↔ ∃ p ∈ parts, c ∈ p)) ∧
      ∀ after, after ≠ [] → ':' ∉ after → splitGroups (last ++ after) = parts ++ [after] := by
    rcases hlast with rfl | ⟨body, rfl⟩
    · refine ⟨[], by simp, by simp, fun after hne hafter => ?_⟩
      rw [List.nil_append, splitGroups, if_neg hne, List.splitOn_eq_singleton hafter, List.nil_append]
    · refine ⟨body.splitOn ':', fun p hp => colon_notMem_of_mem_splitOn hp, fun c hc => ?_,
        fun after hne hafter => ?_⟩
      · constructor
        · intro hmem
          have hbody : c ∈ body := by simpa [hc] using hmem
          rw [← @List.intercalate_splitOn _ body _ _ ':'] at hbody
          exact (mem_intercalate hbody).resolve_left hc
        · rintro ⟨p, hp, hcp⟩
          exact List.mem_append_left _ (mem_of_mem_splitOn hp hcp)
      · rw [List.append_assoc, List.singleton_append, splitGroups, if_neg (by simp), List.splitOn_append_cons_self,
          List.splitOn_eq_singleton hafter]
  obtain ⟨parts, hplain, hmem, hgroups⟩ := hparts
  match pre, hxs, happend with
  | [], hxs, happend =>
      have hjoin := @PairSplit.intercalate_split _ _ ':' (front ++ [':'])
      rw [hxs, List.nil_append, List.intercalate_singleton] at hjoin
      refine .whole parts hplain (fun c hc => ?_) fun after hne hafter => ?_
      · rw [← hmem c hc, hjoin]
        simp [hc]
      · have hsplit := happend after hafter
        rw [hjoin, List.nil_append, ← hfront] at hsplit
        have hcut := hgroups after hne hafter
        rw [hjoin, ← hfront, splitGroups, if_neg (by simp)] at hcut
        exact ⟨hsplit, hcut⟩
  | [left], hxs, happend =>
      have hwhole := PairSplit.eq_of_split_pair hxs
      refine .pair left last parts hplain (fun c hc => ?_) fun after hne hafter => ?_
      · have hleft : c ∈ left ↔ ∃ p ∈ splitGroups left, c ∈ p := by
          constructor
          · intro hmem
            rw [← intercalate_splitGroups left] at hmem
            exact (mem_intercalate hmem).resolve_left hc
          · rintro ⟨p, hp, hcp⟩
            exact mem_of_mem_splitGroups hp hcp
        have hall : c ∈ front ↔ c ∈ left ∨ c ∈ last := by
          have := congrArg (c ∈ ·) hwhole
          simpa [hc] using this
        rw [hall, hleft, hmem c hc]
        simp only [List.mem_append, or_and_right, exists_or]
      · rw [hfront]
        exact ⟨happend after hafter, hgroups after hne hafter⟩
  | a :: b :: pre, hxs, happend =>
      refine .more fun after hafter => ?_
      rw [hfront, happend after hafter]
      simp

theorem notMem_v_of_hex {parts : List (List Char)} (h : ∀ p ∈ parts, ∀ c ∈ p, isHexDigit c = true) :
    ∀ p ∈ parts, 'v' ∉ p := fun p hp hv => absurd (h p hp 'v' hv) (by decide)

-- Groups with a quad at the end are what the groups with the mark are read as.
theorem groups_iff_reads {parts : List (List Char)} {after : List Char} {values : List Nat} (hdot : '.' ∈ after) :
    Groups (parts ++ [after]) values ↔ (∀ p ∈ parts, ∀ c ∈ p, isHexDigit c = true) ∧
      ∃ high low, IsQuad after high low ∧ Reads (some (high, low)) (parts ++ [v4]) values := by
  rw [groups_concat]
  constructor
  · rintro (⟨us, v, -, hv, -⟩ | ⟨us, high, low, hus, hquad, rfl⟩)
    · exact absurd hdot hv.plain.2.1
    · have hparts := parts_of_forall₂ hus
      refine ⟨fun p hp => (hparts p hp).2.2.2.2, high, low, hquad, reads_append.mpr ⟨us, [high, low], ?_, ?_, rfl⟩⟩
      · exact (reads_groups (.inr fun p hp => (hparts p hp).2.2.2.1)).mpr hus
      · exact reads_mark.mpr ⟨high, low, rfl, rfl⟩
  · rintro ⟨hhex, high, low, hquad, hreads⟩
    obtain ⟨us, vs, hus, hvs, rfl⟩ := reads_append.mp hreads
    obtain ⟨a, b, hpair, rfl⟩ := reads_mark.mp hvs
    cases hpair
    exact .inr ⟨us, high, low, (reads_groups (.inr (notMem_v_of_hex hhex))).mp hus, hquad, rfl⟩

theorem groupForm_iff_marked {front after : List Char} {values : List Nat} (hcolon : ':' ∉ after)
    (hdot : '.' ∈ after) :
    GroupForm (front ++ ':' :: after) values ↔
      (∀ c ∈ front, isHexDigit c = true ∨ c = ':') ∧
        ∃ high low, IsQuad after high low ∧ LiteralForm (some (high, low)) (front ++ ':' :: v4) values := by
  have hne : after ≠ [] := List.ne_nil_of_mem hdot
  have hmark : v4 ≠ [] ∧ ':' ∉ v4 := by decide
  have hhex : ∀ {parts : List (List Char)}, (∀ c, c ≠ ':' → (c ∈ front ↔ ∃ p ∈ parts, c ∈ p)) →
      (∀ p ∈ parts, ':' ∉ p) →
      ((∀ c ∈ front, isHexDigit c = true ∨ c = ':') ↔ ∀ p ∈ parts, ∀ c ∈ p, isHexDigit c = true) := by
    intro parts hmem hplain
    constructor
    · intro h p hp c hc
      have hnot : c ≠ ':' := fun heq => hplain p hp (heq ▸ hc)
      exact (h c ((hmem c hnot).mpr ⟨p, hp, hc⟩)).resolve_right hnot
    · intro h c hc
      by_cases heq : c = ':'
      · exact .inr heq
      · obtain ⟨p, hp, hcp⟩ := (hmem c heq).mp hc
        exact .inl (h p hp c hcp)
  cases shape front with
  | whole parts hplain hmem hcut =>
      obtain ⟨hsplit, hparts⟩ := hcut after hne hcolon
      obtain ⟨hsplitMark, hpartsMark⟩ := hcut v4 hmark.1 hmark.2
      rw [hhex hmem hplain]
      constructor
      · intro hform
        cases hform with
        | whole _ hgroups hlen =>
            rw [hparts, groups_iff_reads hdot] at hgroups
            obtain ⟨hall, high, low, hquad, hreads⟩ := hgroups
            exact ⟨hall, high, low, hquad, .whole hsplitMark (hpartsMark ▸ hreads) hlen⟩
        | pair hpair => simp [hsplit] at hpair
      · rintro ⟨hall, high, low, hquad, hform⟩
        cases hform with
        | whole _ hreads hlen =>
            rw [hpartsMark] at hreads
            refine .whole hsplit ?_ hlen
            rw [hparts]
            exact (groups_iff_reads hdot).mpr ⟨hall, high, low, hquad, hreads⟩
        | pair hpair => simp [hsplitMark] at hpair
  | pair left last parts hplain hmem hcut =>
      obtain ⟨hsplit, hparts⟩ := hcut after hne hcolon
      obtain ⟨hsplitMark, hpartsMark⟩ := hcut v4 hmark.1 hmark.2
      have hplainAll : ∀ p ∈ splitGroups left ++ parts, ':' ∉ p := fun p hp =>
        (List.mem_append.mp hp).elim colon_notMem_of_mem_splitGroups (hplain p)
      rw [hhex hmem hplainAll, List.forall_mem_append]
      constructor
      · intro hform
        cases hform with
        | whole hwhole => simp [hsplit] at hwhole
        | pair hpair hleft hright hlen =>
            rw [hsplit] at hpair
            cases hpair
            rw [hparts, groups_iff_reads hdot] at hright
            obtain ⟨hall, high, low, hquad, hreads⟩ := hright
            have hleftParts := parts_of_forall₂ hleft
            refine ⟨⟨fun p hp => (hleftParts p hp).2.2.2.2, hall⟩, high, low, hquad, .pair hsplitMark ?_ ?_ hlen⟩
            · exact (reads_groups (.inr fun p hp => (hleftParts p hp).2.2.2.1)).mpr hleft
            · rwa [hpartsMark]
      · rintro ⟨⟨hallLeft, hall⟩, high, low, hquad, hform⟩
        cases hform with
        | whole hwhole => simp [hsplitMark] at hwhole
        | pair hpair hleft hright hlen =>
            rw [hsplitMark] at hpair
            cases hpair
            rw [hpartsMark] at hright
            refine .pair hsplit ((reads_groups (.inr (notMem_v_of_hex hallLeft))).mp hleft) ?_ hlen
            rw [hparts]
            exact (groups_iff_reads hdot).mpr ⟨hall, high, low, hquad, hright⟩
  | more hcut =>
      have hsplit := hcut after hcolon
      have hsplitMark := hcut v4 hmark.2
      constructor
      · intro hform
        cases hform with
        | whole hwhole => simp [hwhole] at hsplit
        | pair hpair => simp [hpair] at hsplit
      · rintro ⟨-, high, low, -, hform⟩
        cases hform with
        | whole hwhole => simp [hwhole] at hsplitMark
        | pair hpair => simp [hpair] at hsplitMark

theorem colon_mem_of_textForm {text : List Char} {values : List Nat} (h : TextForm text values) : ':' ∈ text := by
  cases h with
  | @full texts _ hgroups hlen =>
      match texts, hgroups with
      | [], hgroups =>
          cases hgroups
          cases hlen
      | [t], hgroups =>
          rw [← List.nil_append [t], groups_concat] at hgroups
          rcases hgroups with ⟨us, v, hus, -, rfl⟩ | ⟨us, high, low, hus, -, rfl⟩
          · cases hus
            cases hlen
          · cases hus
            cases hlen
      | t :: u :: texts, _ =>
          rw [List.intercalate_cons_cons]
          simp
  | compressed => simp

-- The parser accepts the text forms of addresses and nothing else.
theorem parseHextets_eq_some_iff {text : List Char} {values : List Nat} (hcolon : ':' ∈ text) :
    parseHextets text = some values ↔ TextForm text values := by
  rw [textForm_iff_groupForm]
  have htext : text = beforeColon text ++ ':' :: afterColon text := by
    rcases eq_afterColon_or text with h | h
    · exact absurd (h ▸ hcolon) (colon_notMem_afterColon text)
    · exact h
  have htake : takeEmbedded text = if '.' ∈ afterColon text then
      if (beforeColon text).all fun c => isHexDigit c || c = ':' then
        (quadHextets (afterColon text)).map fun pair => (beforeColon text ++ ':' :: v4, some pair)
      else none
    else some (text, none) := rfl
  have hread : ∀ {marked : List Char} {embedded : Option (Nat × Nat)}, takeEmbedded text = some (marked, embedded) →
      (parseHextets text = some values ↔ LiteralForm embedded marked values) := by
    intro marked embedded h
    rw [← literalForm_iff, parseHextets, h]
    dsimp only
    cases literalParts marked with
    | none => simp
    | some parts => simp
  by_cases hdot : '.' ∈ afterColon text
  · rw [if_pos hdot] at htake
    have hall : ((beforeColon text).all fun c => isHexDigit c || c = ':') = true ↔
        ∀ c ∈ beforeColon text, isHexDigit c = true ∨ c = ':' := by simp
    rw [htext, groupForm_iff_marked (colon_notMem_afterColon text) hdot, ← htext, ← hall]
    constructor
    · intro h
      have hsome : takeEmbedded text ≠ none := fun hnone => by simp [parseHextets, hnone] at h
      by_cases hhex : ((beforeColon text).all fun c => isHexDigit c || c = ':') = true
      · rw [if_pos hhex] at htake
        cases hquad : quadHextets (afterColon text) with
        | none =>
            rw [hquad] at htake
            exact absurd htake hsome
        | some pair =>
            rw [hquad, Option.map_some] at htake
            exact ⟨hhex, pair.1, pair.2, quadHextets_eq_some_iff.mp hquad, (hread htake).mp h⟩
      · rw [if_neg hhex] at htake
        exact absurd htake hsome
    · rintro ⟨hhex, high, low, hquad, hform⟩
      rw [if_pos hhex, quadHextets_eq_some_iff.mpr hquad, Option.map_some] at htake
      exact (hread htake).mpr hform
  · rw [if_neg hdot] at htake
    exact (hread htake).trans (literalForm_iff_groupForm hdot)

end MeshClient.Net
