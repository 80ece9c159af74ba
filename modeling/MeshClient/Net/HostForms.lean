import MeshClient.Net.ConnectPort

namespace MeshClient.Net

open Js

def IsGroups (texts : List (List Char)) : Prop := ∃ values, List.Forall₂ IsGroup texts values

theorem isGroups_concat {texts : List (List Char)} {text : List Char} :
    IsGroups (texts ++ [text]) ↔ IsGroups texts ∧ ∃ value, IsGroup text value := by
  constructor
  · rintro ⟨values, h⟩
    rw [← mapM_parseHextet_eq_some_iff, mapM_append_eq_some] at h
    obtain ⟨us, vs, hus, hvs, -⟩ := h
    rw [mapM_parseHextet_eq_some_iff] at hus hvs
    cases hvs with
    | cons hgroup rest => exact ⟨⟨us, hus⟩, _, hgroup⟩
  · rintro ⟨⟨us, hus⟩, v, hv⟩
    exact ⟨us ++ [v], List.rel_append hus (.cons hv .nil)⟩

theorem exists_hostForm_iff {text : List Char} : (∃ hextets, HostForm text hextets) ↔
    (∃ texts, IsGroups texts ∧ texts.length = 8 ∧ text = [':'].intercalate texts) ∨
    ∃ left right, IsGroups left ∧ IsGroups right ∧ left.length + right.length ≤ 8 ∧
      text = [':'].intercalate left ++ ':' :: ':' :: [':'].intercalate right := by
  constructor
  · rintro ⟨hextets, h⟩
    cases h with
    | full hgroups hlen => exact .inl ⟨_, ⟨_, hgroups⟩, hgroups.length_eq.trans hlen, rfl⟩
    | compressed hleft hright hlen =>
        refine .inr ⟨_, _, ⟨_, hleft⟩, ⟨_, hright⟩, ?_, rfl⟩
        rwa [hleft.length_eq, hright.length_eq]
  · rintro (⟨texts, ⟨values, h⟩, hlen, rfl⟩ | ⟨left, right, ⟨us, hus⟩, ⟨vs, hvs⟩, hlen, rfl⟩)
    · exact ⟨values, .full h (h.length_eq.symm.trans hlen)⟩
    · rw [hus.length_eq, hvs.length_eq] at hlen
      exact ⟨_, .compressed hus hvs hlen⟩

theorem intercalate_concat {texts : List (List Char)} (hne : texts ≠ []) (text : List Char) :
    [':'].intercalate (texts ++ [text]) = [':'].intercalate texts ++ ':' :: text := by
  induction texts with
  | nil => exact absurd rfl hne
  | cons first texts ih =>
      cases texts with
      | nil => simp
      | cons second texts =>
          rw [List.cons_append, List.cons_append, List.intercalate_cons_cons, ← List.cons_append, ih (by simp),
            List.intercalate_cons_cons]
          simp

theorem append_colon_inj {front front' after after' : List Char} (h : ':' ∉ after) (h' : ':' ∉ after')
    (heq : front ++ ':' :: after = front' ++ ':' :: after') : front = front' ∧ after = after' := by
  obtain ⟨hafter, hbefore⟩ := @beforeColon_append front _ h
  obtain ⟨hafter', hbefore'⟩ := @beforeColon_append front' _ h'
  exact ⟨by rw [← hbefore, ← hbefore', heq], by rw [← hafter, ← hafter', heq]⟩

-- The fronts on which one more group makes an address: seven groups, or a gap with at most seven groups.
def SevenGroups (front : List Char) : Prop :=
  ∃ texts, IsGroups texts ∧ texts.length = 7 ∧ front = [':'].intercalate texts

def GapAtEnd (front : List Char) : Prop :=
  ∃ texts, IsGroups texts ∧ texts.length < 8 ∧ front = [':'].intercalate texts ++ [':']

def RoomForGroup (front : List Char) : Prop :=
  ∃ left right, IsGroups left ∧ IsGroups right ∧ right ≠ [] ∧ left.length + right.length < 8 ∧
    front = [':'].intercalate left ++ ':' :: ':' :: [':'].intercalate right

-- The last group of an address and what stands before its colon.
theorem HostForm.last {text : List Char} {hextets : List Nat} (h : HostForm text hextets) :
    ∃ front after, text = front ++ ':' :: after ∧ ((after = [] ∧ ':' ∈ front) ∨
      (∃ value, IsGroup after value) ∧ (SevenGroups front ∨ GapAtEnd front ∨ RoomForGroup front)) := by
  rcases exists_hostForm_iff.mp ⟨hextets, h⟩ with ⟨texts, hgroups, hlen, rfl⟩ | ⟨left, right, hleft, hright, hlen, rfl⟩
  · rcases List.eq_nil_or_concat' texts with rfl | ⟨texts, last, rfl⟩
    · cases hlen
    · obtain ⟨hgroups, hlast⟩ := isGroups_concat.mp hgroups
      rw [List.length_append, List.length_singleton] at hlen
      refine ⟨[':'].intercalate texts, last, intercalate_concat (List.ne_nil_of_length_pos (by omega)) last,
        .inr ⟨hlast, .inl ⟨texts, hgroups, by omega, rfl⟩⟩⟩
  · rcases List.eq_nil_or_concat' right with rfl | ⟨right, last, rfl⟩
    · exact ⟨[':'].intercalate left ++ [':'], [], by simp, .inl ⟨rfl, by simp⟩⟩
    · obtain ⟨hright, hlast⟩ := isGroups_concat.mp hright
      rw [List.length_append, List.length_singleton] at hlen
      by_cases hnil : right = []
      · subst hnil
        refine ⟨[':'].intercalate left ++ [':'], last, by simp, .inr ⟨hlast, .inr (.inl ⟨left, hleft, ?_, rfl⟩)⟩⟩
        simp only [List.length_nil] at hlen
        omega
      · refine ⟨[':'].intercalate left ++ ':' :: ':' :: [':'].intercalate right, last, ?_,
          .inr ⟨hlast, .inr (.inr ⟨left, right, hleft, hright, hnil, by omega, rfl⟩)⟩⟩
        rw [intercalate_concat hnil, ← List.cons_append, ← List.cons_append, ← List.append_assoc]

theorem hostForm_concat {front after : List Char} {value : Nat} (hgroup : IsGroup after value) :
    (∃ hextets, HostForm (front ++ ':' :: after) hextets) ↔
      SevenGroups front ∨ GapAtEnd front ∨ RoomForGroup front := by
  constructor
  · rintro ⟨hextets, h⟩
    obtain ⟨front', after', heq, hcases⟩ := h.last
    rcases hcases with ⟨rfl, -⟩ | ⟨⟨v, hv⟩, hfront⟩
    · exact absurd (append_colon_inj hgroup.plain.1 (by simp) heq).2 hgroup.1
    · rwa [(append_colon_inj hgroup.plain.1 hv.plain.1 heq).1]
  · rw [exists_hostForm_iff]
    rintro (⟨texts, hgroups, hlen, rfl⟩ | ⟨left, hleft, hlen, rfl⟩ | ⟨left, right, hleft, hright, hne, hlen, rfl⟩)
    · refine .inl ⟨texts ++ [after], isGroups_concat.mpr ⟨hgroups, value, hgroup⟩, by simp [hlen], ?_⟩
      rw [intercalate_concat (List.ne_nil_of_length_pos (by omega))]
    · refine .inr ⟨left, [after], hleft, ⟨[value], .cons hgroup .nil⟩, by simp; omega, ?_⟩
      rw [List.intercalate_singleton, List.append_assoc, List.singleton_append]
    · refine .inr ⟨left, right ++ [after], hleft, isGroups_concat.mpr ⟨hright, value, hgroup⟩, by simp; omega, ?_⟩
      rw [intercalate_concat hne, ← List.cons_append, ← List.cons_append, ← List.append_assoc]

-- Only the third of them is an address itself.
theorem SevenGroups.not_hostForm {front : List Char} (h : SevenGroups front) (hextets : List Nat) :
    ¬HostForm front hextets := by
  obtain ⟨texts, ⟨values, hgroups⟩, hlen, rfl⟩ := h
  intro hform
  have hne : texts ≠ [] := List.ne_nil_of_length_pos (by omega)
  rw [← connectHextets_eq_some_iff, connectParts, split_intercalate hgroups] at hform
  simp only [splitOn_groups hgroups hne, hlen] at hform
  simp at hform

theorem GapAtEnd.not_hostForm {front : List Char} (h : GapAtEnd front) (hextets : List Nat) :
    ¬HostForm front hextets := by
  obtain ⟨texts, ⟨values, hgroups⟩, -, rfl⟩ := h
  intro hform
  have hsplit : PairSplit.split ':' ([':'].intercalate texts ++ [':']) = [[':'].intercalate texts ++ [':']] := by
    obtain ⟨hsingle, hlast, -⟩ := PairSplit.single_intercalate (groupParts hgroups)
    refine PairSplit.split_of_single (List.isChain_append.mpr ⟨hsingle, List.isChain_singleton _, ?_⟩)
    intro x hx y _ hmarks
    exact hlast x hx hmarks.1
  rw [← connectHextets_eq_some_iff, connectParts, hsplit] at hform
  simp only [List.splitOn_append_cons_self, List.splitOn_nil] at hform
  split at hform
  · simp at hform
  · rw [Option.bind_some, hextetsFromParts, Option.filter_eq_some_iff, mapM_parseHextet_eq_some_iff] at hform
    have hparts := (parts_of_forall₂ hform.1 [] (by simp)).1
    exact hparts rfl

theorem RoomForGroup.hostForm {front : List Char} (h : RoomForGroup front) : ∃ hextets, HostForm front hextets := by
  obtain ⟨left, right, hleft, hright, -, hlen, rfl⟩ := h
  exact exists_hostForm_iff.mpr (.inr ⟨left, right, hleft, hright, hlen.le, rfl⟩)

theorem SevenGroups.colon_mem {front : List Char} (h : SevenGroups front) : ':' ∈ front := by
  obtain ⟨texts, -, hlen, rfl⟩ := h
  match texts, hlen with
  | a :: b :: texts, _ =>
      rw [List.intercalate_cons_cons]
      simp

theorem GapAtEnd.colon_mem {front : List Char} (h : GapAtEnd front) : ':' ∈ front := by
  obtain ⟨texts, -, -, rfl⟩ := h
  simp

-- A last group that is read as a port, and an address that falls apart without it.
def TakenForPort (text : List Char) : Prop :=
  ∃ front last value, text = front ++ ':' :: last ∧ IsGroup last value ∧ (∀ c ∈ last, isDigit c = true) ∧
    255 < digitsValue last ∧ (SevenGroups front ∨ GapAtEnd front)

theorem TakenForPort.hostForm {text : List Char} (h : TakenForPort text) : ∃ hextets, HostForm text hextets := by
  obtain ⟨front, last, value, rfl, hgroup, -, -, hfront⟩ := h
  exact (hostForm_concat hgroup).mpr (hfront.elim .inl fun h => .inr (.inl h))

theorem digitsValue_lt {cs : List Char} (h : ∀ c ∈ cs, isDigit c = true) : digitsValue cs < 10 ^ cs.length := by
  induction cs using List.reverseRecOn with
  | nil => decide
  | append_singleton cs c ih =>
      have hc := h c (by simp)
      have hcs := ih fun x hx => h x (List.mem_append_left _ hx)
      have hconcat : digitsValue (cs ++ [c]) = 10 * digitsValue cs + (c.toNat - '0'.toNat) := by
        simp [digitsValue]
      have h0 : '0'.toNat = 48 := rfl
      have h9 : '9'.toNat = 57 := rfl
      simp only [isDigit, Bool.and_eq_true, decide_eq_true_eq] at hc
      rw [hconcat, List.length_append, List.length_singleton, Nat.pow_succ]
      omega

section

variable {js : Runtime} (hjs : LowersAddresses js)
include hjs

theorem isValidConnectHost_iff {host : List Char} (hcolon : ':' ∈ host) : isValidConnectHost js host = true ↔
    ∃ hextets, HostForm (stripConnectHostBrackets (stripConnectHostBrackets host)) hextets := by
  rw [isValidConnectHost_of_colon hcolon, Option.isSome_iff_exists]
  simp only [parseIpv6Hextets_eq_some_iff hjs]

-- An address without brackets, read as a whole.
theorem valid_of_addressChars {text : List Char} (hcolon : ':' ∈ text) (h : ∀ c ∈ text, isAddressChar c = true) :
    isValidConnectHost js text = true ↔ ∃ hextets, HostForm text hextets := by
  rw [isValidConnectHost_iff hjs hcolon, stripConnectHostBrackets_plain h, stripConnectHostBrackets_plain h]

-- An unbracketed address is returned as it is unless its last group is taken for a port.
theorem valid_parseAuthority {text : List Char} {hextets : List Nat} (h : HostForm text hextets) (defaultPort : Nat) :
    isValidConnectHost js (parseAuthority text defaultPort).host = true ↔ ¬TakenForPort text := by
  have hchars := h.addressChars
  have hwhole : isValidConnectHost js text = true :=
    (valid_of_addressChars hjs h.colon_mem hchars).mpr ⟨hextets, h⟩
  obtain ⟨front, after, rfl, hcases⟩ := h.last
  have hfrontChars : ∀ c ∈ front, isAddressChar c = true := fun c hc => hchars c (List.mem_append_left _ hc)
  have hopen : front.head? ≠ some '[' := fun heq =>
    (isAddressChar_bounds (hfrontChars _ (List.mem_of_mem_head? heq))).2.2 rfl
  have hinj : TakenForPort (front ++ ':' :: after) → ':' ∉ after → (∃ value, IsGroup after value) ∧
      (∀ c ∈ after, isDigit c = true) ∧ 255 < digitsValue after ∧ (SevenGroups front ∨ GapAtEnd front) := by
    rintro ⟨front', last, value, heq, hgroup, hdigits, hlarge, hfront⟩ hafter
    obtain ⟨rfl, rfl⟩ := append_colon_inj hafter hgroup.plain.1 heq
    exact ⟨⟨value, hgroup⟩, hdigits, hlarge, hfront⟩
  rcases hcases with ⟨rfl, hcolon⟩ | ⟨⟨value, hgroup⟩, hfront⟩
  · refine iff_of_true ?_ fun htaken => ?_
    · rw [parseAuthority_colons hopen hcolon (by simp)]
      split
      · rw [if_neg (by simp)]
        exact hwhole
      · exact hwhole
    · obtain ⟨⟨value, hgroup⟩, -⟩ := hinj htaken (by simp)
      exact hgroup.1 rfl
  · have hcolon : ':' ∈ front := by
      rcases hfront with hseven | hgap | hroom
      · exact hseven.colon_mem
      · exact hgap.colon_mem
      · exact hroom.hostForm.choose_spec.colon_mem
    rw [parseAuthority_colons hopen hcolon hgroup.plain.1]
    by_cases hport : (∀ c ∈ after, isDigit c = true) ∧ 255 < digitsValue after
    · obtain ⟨hdigits, hlarge⟩ := hport
      have hlt := digitsValue_lt hdigits
      have hle : (10 : Nat) ^ after.length ≤ 10 ^ 4 := Nat.pow_le_pow_right (by omega) hgroup.2.1
      rw [parseTrailingPort_digits hgroup.1 hdigits (by omega), if_pos ⟨by omega, by omega⟩]
      dsimp only
      rw [if_pos ⟨hgroup.1, by simpa using hdigits, hlarge⟩, valid_of_addressChars hjs hcolon hfrontChars]
      constructor
      · rintro ⟨vs, hform⟩ htaken
        obtain ⟨-, -, -, hseven | hgap⟩ := hinj htaken hgroup.plain.1
        · exact hseven.not_hostForm vs hform
        · exact hgap.not_hostForm vs hform
      · intro htaken
        rcases hfront with hseven | hgap | hroom
        · exact absurd ⟨front, after, value, rfl, hgroup, hdigits, hlarge, .inl hseven⟩ htaken
        · exact absurd ⟨front, after, value, rfl, hgroup, hdigits, hlarge, .inr hgap⟩ htaken
        · exact hroom.hostForm
    · refine iff_of_true ?_ fun htaken => ?_
      · split
        · rename_i port hparse
          rw [if_neg ?_]
          · exact hwhole
          · rintro ⟨hne, hall, hlarge⟩
            have hdigits : ∀ c ∈ after, isDigit c = true := by simpa using hall
            have hlt := digitsValue_lt hdigits
            have hle : (10 : Nat) ^ after.length ≤ 10 ^ 4 := Nat.pow_le_pow_right (by omega) hgroup.2.1
            rw [parseTrailingPort_digits hne hdigits (by omega)] at hparse
            split at hparse
            · cases hparse
              exact hport ⟨hdigits, hlarge⟩
            · cases hparse
        · exact hwhole
      · obtain ⟨-, hdigits, hlarge, -⟩ := hinj htaken hgroup.plain.1
        exact hport ⟨hdigits, hlarge⟩

end

end MeshClient.Net
