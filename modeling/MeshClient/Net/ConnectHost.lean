import MeshClient.Net.Spelling

namespace MeshClient.Net

open Js

def isDnsChar (c : Char) : Bool := c.isAlphanum || c = '-'

def isValidDnsLabel (label : List Char) : Bool :=
  if label = [] ∨ 63 < label.length then false
  else if label.head? = some '-' ∨ label.getLast? = some '-' then false
  else label.all isDnsChar

def isValidDnsHostname (host : List Char) : Bool :=
  if host = [] ∨ 253 < host.length then false
  else
    let labels := host.splitOn '.'
    if labels.contains [] then false else labels.all isValidDnsLabel

def hextetsFromParts (parts : List (List Char)) : Option (List Nat) :=
  (parts.mapM parseHextet).filter fun hextets => hextets.length = 8

-- The groups of an address; here the doubled colon may stand for no group at all.
def connectParts (normalized : List Char) : Option (List (List Char)) :=
  match PairSplit.split ':' normalized with
  | [whole] => if (whole.splitOn ':').length ≠ 8 then none else some (whole.splitOn ':')
  | [left, right] =>
      let head := splitGroups left
      let tail := splitGroups right
      if 8 < head.length + tail.length then none
      else some (head ++ List.replicate (8 - head.length - tail.length) ['0'] ++ tail)
  | _ => none

def parseIpv6Hextets (js : Runtime) (host : List Char) : Option (List Nat) :=
  let normalized := toLowerCase js (stripConnectHostBrackets host)
  if ':' ∈ normalized then (connectParts normalized).bind hextetsFromParts else none

-- `/^\d+\.\d+\.\d+\.\d+$/`
def isDottedDigits (host : List Char) : Bool :=
  let parts := host.splitOn '.'
  parts.length = 4 && parts.all fun part => part ≠ [] && part.all isDigit

def isValidConnectHost (js : Runtime) (host : List Char) : Bool :=
  let trimmed := trimChars host
  if trimmed = [] then false
  else
    let bare := stripConnectHostBrackets trimmed
    if ':' ∈ bare then (parseIpv6Hextets js bare).isSome
    else if isDottedDigits bare then (parseIpv4Octets bare).isSome
    else isValidDnsHostname bare

-- The texts read as an address: like the text forms, but without quads, and `::` may stand beside eight groups.
inductive HostForm : List Char → List Nat → Prop where
  | full {texts : List (List Char)} {values : List Nat} (h : List.Forall₂ IsGroup texts values)
      (hlen : values.length = 8) : HostForm ([':'].intercalate texts) values
  | compressed {left right : List (List Char)} {us vs : List Nat} (hleft : List.Forall₂ IsGroup left us)
      (hright : List.Forall₂ IsGroup right vs) (hlen : us.length + vs.length ≤ 8) :
      HostForm ([':'].intercalate left ++ ':' :: ':' :: [':'].intercalate right)
        (us ++ List.replicate (8 - us.length - vs.length) 0 ++ vs)

theorem mapM_parseHextet_eq_some_iff {parts : List (List Char)} {values : List Nat} :
    parts.mapM parseHextet = some values ↔ List.Forall₂ IsGroup parts values := by
  induction parts generalizing values with
  | nil => simp [eq_comm]
  | cons part parts ih =>
      simp only [List.mapM_cons, Option.bind_eq_bind, Option.pure_def, Option.bind_eq_some_iff, Option.some_inj,
        parseHextet_eq_some_iff, ih, List.forall₂_cons_left_iff]
      constructor
      · rintro ⟨v, hv, vs, hvs, rfl⟩
        exact ⟨v, vs, hv, hvs, rfl⟩
      · rintro ⟨v, vs, hv, hvs, rfl⟩
        exact ⟨v, hv, vs, hvs, rfl⟩

theorem groupParts {texts : List (List Char)} {values : List Nat} (h : List.Forall₂ IsGroup texts values) :
    ∀ p ∈ texts, p ≠ [] ∧ ':' ∉ p := fun p hp => ⟨(parts_of_forall₂ h p hp).1, (parts_of_forall₂ h p hp).2.1⟩

-- Where the doubled colons of a text made of groups are.
theorem split_intercalate {texts : List (List Char)} {values : List Nat} (h : List.Forall₂ IsGroup texts values) :
    PairSplit.split ':' ([':'].intercalate texts) = [[':'].intercalate texts] :=
  PairSplit.split_of_single (PairSplit.single_intercalate (groupParts h)).1

theorem split_compressed {left right : List (List Char)} {us vs : List Nat} (hleft : List.Forall₂ IsGroup left us)
    (hright : List.Forall₂ IsGroup right vs) :
    PairSplit.split ':' ([':'].intercalate left ++ ':' :: ':' :: [':'].intercalate right) =
      [[':'].intercalate left, [':'].intercalate right] := by
  obtain ⟨hsingle, hlast, -⟩ := PairSplit.single_intercalate (groupParts hleft)
  rw [PairSplit.split_append hsingle hlast, split_intercalate hright]

theorem splitOn_groups {texts : List (List Char)} {values : List Nat} (h : List.Forall₂ IsGroup texts values)
    (hne : texts ≠ []) : ([':'].intercalate texts).splitOn ':' = texts :=
  List.splitOn_intercalate ':' (fun p hp => (groupParts h p hp).2) hne

theorem splitGroups_groups {texts : List (List Char)} {values : List Nat} (h : List.Forall₂ IsGroup texts values) :
    splitGroups ([':'].intercalate texts) = texts := splitGroups_intercalate (groupParts h)

theorem connectHextets_eq_some_iff {text : List Char} {values : List Nat} :
    (connectParts text).bind hextetsFromParts = some values ↔ HostForm text values := by
  have hparts : ∀ {parts : List (List Char)} {us : List Nat}, hextetsFromParts parts = some us ↔
      List.Forall₂ IsGroup parts us ∧ us.length = 8 := by
    intro parts us
    rw [hextetsFromParts, Option.filter_eq_some_iff, mapM_parseHextet_eq_some_iff, decide_eq_true_eq]
  have hzero : IsGroup ['0'] 0 := parseHextet_eq_some_iff.mp (by decide)
  rw [Option.bind_eq_some_iff]
  constructor
  · rintro ⟨parts, hconnect, hvalues⟩
    obtain ⟨hgroups, hlen⟩ := hparts.mp hvalues
    unfold connectParts at hconnect
    split at hconnect
    · rename_i whole hsplit
      have hwhole : whole = text := by
        have hjoin := @PairSplit.intercalate_split _ _ ':' text
        rwa [hsplit, List.intercalate_singleton] at hjoin
      subst hwhole
      split at hconnect
      · cases hconnect
      · cases hconnect
        have hform := HostForm.full hgroups hlen
        rwa [List.intercalate_splitOn] at hform
    · rename_i left right hsplit
      simp only at hconnect
      split at hconnect
      · cases hconnect
      · rename_i hle
        cases hconnect
        rw [← mapM_parseHextet_eq_some_iff, mapM_append_eq_some] at hgroups
        obtain ⟨ws, vs, hws, hvs, rfl⟩ := hgroups
        obtain ⟨us, zs, hus, hzs, rfl⟩ := mapM_append_eq_some.mp hws
        rw [mapM_replicate (parseHextet_eq_some_iff.mpr hzero), Option.some_inj] at hzs
        rw [length_of_mapM hus, length_of_mapM hvs] at hle hzs
        have hform := HostForm.compressed (mapM_parseHextet_eq_some_iff.mp hus) (mapM_parseHextet_eq_some_iff.mp hvs)
          (by omega)
        rw [intercalate_splitGroups, intercalate_splitGroups, ← PairSplit.eq_of_split_pair hsplit, hzs] at hform
        exact hform
    · cases hconnect
  · intro h
    cases h with
    | @full texts _ hgroups hlen =>
        have hcount : texts.length = 8 := hgroups.length_eq.trans hlen
        have hne : texts ≠ [] := List.ne_nil_of_length_pos (by omega)
        refine ⟨texts, ?_, hparts.mpr ⟨hgroups, hlen⟩⟩
        simp only [connectParts, split_intercalate hgroups, splitOn_groups hgroups hne]
        rw [if_neg (by omega)]
    | @compressed left right us vs hleft hright hlen =>
        refine ⟨left ++ List.replicate (8 - us.length - vs.length) ['0'] ++ right, ?_, hparts.mpr ⟨?_, ?_⟩⟩
        · simp only [connectParts, split_compressed hleft hright, splitGroups_groups hleft, splitGroups_groups hright,
            hleft.length_eq, hright.length_eq]
          rw [if_neg (by omega)]
        · refine List.rel_append (List.rel_append hleft ?_) hright
          rw [← mapM_parseHextet_eq_some_iff]
          exact mapM_replicate (parseHextet_eq_some_iff.mpr hzero) _
        · simp only [List.length_append, List.length_replicate]
          omega

theorem connectHextets_map (text : List Char) :
    (connectParts (text.map Char.toLower)).bind hextetsFromParts = (connectParts text).bind hextetsFromParts := by
  have hgroup : ∀ part : List Char, parseHextet (part.map Char.toLower) = parseHextet part := by
    intro part
    apply Option.ext
    intro value
    rw [parseHextet_eq_some_iff, parseHextet_eq_some_iff, isGroup_map]
  have hlower : List.map Char.toLower ['0'] = ['0'] := by decide
  have hparts : connectParts (text.map Char.toLower) = (connectParts text).map (List.map (List.map Char.toLower)) := by
    unfold connectParts
    rw [PairSplit.split_map colon_toLower]
    rcases PairSplit.split ':' text with _ | ⟨a, _ | ⟨b, _ | ⟨c, rest⟩⟩⟩
    · rfl
    · simp only [List.map_cons, List.map_nil, splitOn_map, List.length_map]
      split <;> rfl
    · simp only [List.map_cons, List.map_nil, splitGroups_map, List.length_map]
      split
      · rfl
      · simp only [Option.map_some, List.map_append, List.map_replicate, hlower]
    · rfl
  have hread : ∀ parts : List (List Char), hextetsFromParts (parts.map (List.map Char.toLower)) = hextetsFromParts parts := by
    intro parts
    rw [hextetsFromParts, List.mapM_map, hextetsFromParts]
    simp only [Function.comp_def, hgroup]
  rw [hparts]
  cases connectParts text with
  | none => rfl
  | some parts => exact hread parts

theorem HostForm.chars {text : List Char} {values : List Nat} (h : HostForm text values) :
    ∀ c ∈ text, isHexDigit c = true ∨ c = ':' := by
  have hjoin : ∀ {parts : List (List Char)} {us : List Nat}, List.Forall₂ IsGroup parts us →
      ∀ c ∈ [':'].intercalate parts, isHexDigit c = true ∨ c = ':' := by
    intro parts us hgroups c hc
    rcases mem_intercalate hc with rfl | ⟨p, hp, hcp⟩
    · exact .inr rfl
    · exact .inl ((parts_of_forall₂ hgroups p hp).2.2.2.2 c hcp)
  cases h with
  | full hgroups => exact hjoin hgroups
  | compressed hleft hright =>
      rw [List.forall_mem_append, List.forall_mem_cons, List.forall_mem_cons]
      exact ⟨hjoin hleft, .inr rfl, .inr rfl, hjoin hright⟩

theorem HostForm.addressChars {text : List Char} {values : List Nat} (h : HostForm text values) :
    ∀ c ∈ text, isAddressChar c = true := by
  intro c hc
  rcases h.chars c hc with hhex | rfl
  · simp [isAddressChar, hhex]
  · decide

theorem HostForm.colon_mem {text : List Char} {values : List Nat} (h : HostForm text values) : ':' ∈ text := by
  cases h with
  | full hgroups hlen => exact colon_mem_of_textForm (.full (groups_of_forall₂ hgroups) hlen)
  | compressed => simp

theorem parseIpv6Hextets_eq_some_iff {js : Runtime} (hjs : LowersAddresses js) {host : List Char}
    {values : List Nat} : parseIpv6Hextets js host = some values ↔ HostForm (stripConnectHostBrackets host) values := by
  generalize htext : stripConnectHostBrackets host = text
  have hunfold : parseIpv6Hextets js host = if ':' ∈ toLowerCase js text then
      (connectParts (toLowerCase js text)).bind hextetsFromParts else none := by
    rw [parseIpv6Hextets, htext]
  have hread : parseIpv6Hextets js host = some values ↔ HostForm (toLowerCase js text) values := by
    rw [hunfold]
    by_cases hcolon : ':' ∈ toLowerCase js text
    · rw [if_pos hcolon, connectHextets_eq_some_iff]
    · rw [if_neg hcolon]
      exact iff_of_false (by simp) fun h => hcolon h.colon_mem
  rw [hread]
  by_cases hascii : ∀ c ∈ text, c.toNat < 128
  · rw [toLowerCase, hjs.ascii _ (by rwa [String.toList_ofList]), String.toList_ofList, String.toList_ofList,
      ← connectHextets_eq_some_iff, connectHextets_map, connectHextets_eq_some_iff]
  · simp only [not_forall, not_lt] at hascii
    obtain ⟨c, hc, hlarge⟩ := hascii
    obtain ⟨x, hx, hhex, hcolon, -⟩ := hjs.foreign (String.ofList text) ⟨c, by rwa [String.toList_ofList], hlarge⟩
    refine iff_of_false (fun h => ?_) fun h => ?_
    · exact (h.chars x hx).elim (by simp [hhex]) hcolon
    · have hbound := (isAddressChar_bounds (h.addressChars c hc)).1
      omega

-- One pair of brackets is taken away, or nothing is.
theorem strip_cases (host : List Char) :
    trimChars host = stripConnectHostBrackets host ∨
      trimChars host = '[' :: stripConnectHostBrackets host ++ [']'] ∧ stripConnectHostBrackets host ≠ [] := by
  unfold stripConnectHostBrackets
  by_cases h : (trimChars host).head? = some '[' ∧ (trimChars host).getLast? = some ']' ∧ 2 < (trimChars host).length
  · right
    simp only [if_pos h]
    obtain ⟨hhead, hlast, hlen⟩ := h
    generalize trimChars host = text at hhead hlast hlen
    obtain ⟨rest, rfl⟩ := List.head?_eq_some_iff.mp hhead
    have hne : rest ≠ [] := by
      rintro rfl
      simp at hlen
    rw [List.getLast?_cons_of_ne_nil hne] at hlast
    obtain ⟨body, rfl⟩ := List.getLast?_eq_some_iff.mp hlast
    simp only [List.length_cons, List.length_append, List.length_nil] at hlen
    refine ⟨by simp, ?_⟩
    simp only [List.drop_succ_cons, List.drop_zero, List.dropLast_concat]
    exact List.ne_nil_of_length_pos (by omega)
  · left
    simp only [if_neg h]

theorem strip_brackets {text : List Char} (hne : text ≠ []) : stripConnectHostBrackets ('[' :: text ++ [']']) = text := by
  have htrim : trimChars ('[' :: text ++ [']']) = '[' :: text ++ [']'] :=
    Trim.trim_of_neat ⟨by simp [show isSpace '[' = false by decide], by
      rw [List.getLast?_concat]
      simp [show isSpace ']' = false by decide]⟩
  have hlen : 2 < ('[' :: text ++ [']']).length := by
    have := List.length_pos_iff.mpr hne
    simp only [List.length_append, List.length_cons, List.length_nil]
    omega
  unfold stripConnectHostBrackets
  rw [htrim]
  simp only [hlen, List.cons_append, List.head?_cons, ← List.cons_append, List.getLast?_concat, and_self, if_true]
  simp

theorem mem_trimChars_iff {cs : List Char} {c : Char} (h : isSpace c = false) : c ∈ trimChars cs ↔ c ∈ cs := by
  constructor
  · exact Trim.mem_of_mem_trim
  · intro hc
    obtain ⟨pre, post, heq, hpre, hpost⟩ := Trim.exists_trim (p := isSpace) cs
    rw [heq, List.mem_append, List.mem_append] at hc
    rcases hc with hc | hc | hc
    · exact absurd (hpre c hc) (by simp [h])
    · exact hc
    · exact absurd (hpost c hc) (by simp [h])

theorem mem_strip_iff {host : List Char} {c : Char} (hspace : isSpace c = false) (hopen : c ≠ '[') (hclose : c ≠ ']') :
    c ∈ stripConnectHostBrackets host ↔ c ∈ host := by
  have htrim : c ∈ trimChars host ↔ c ∈ host := mem_trimChars_iff hspace
  rw [← htrim]
  rcases strip_cases host with h | ⟨h, -⟩
  · rw [h]
  · rw [h]
    simp [hopen, hclose]

theorem isValidConnectHost_of_colon {js : Runtime} {host : List Char} (h : ':' ∈ host) :
    isValidConnectHost js host = (parseIpv6Hextets js (stripConnectHostBrackets host)).isSome := by
  have hne : trimChars host ≠ [] := List.ne_nil_of_mem ((mem_trimChars_iff (by decide)).mpr h)
  have hcolon : ':' ∈ stripConnectHostBrackets host :=
    (mem_strip_iff (by decide) (by decide) (by decide)).mpr h
  simp only [isValidConnectHost, stripConnectHostBrackets_trim]
  rw [if_neg hne, if_pos hcolon]

-- `::` beside eight groups
def Overfull (text : List Char) : Prop :=
  ∃ (left right : List (List Char)) (us vs : List Nat), List.Forall₂ IsGroup left us ∧ List.Forall₂ IsGroup right vs ∧
    us.length + vs.length = 8 ∧ text = [':'].intercalate left ++ ':' :: ':' :: [':'].intercalate right

-- Inside its brackets the host has further blanks or brackets around an address.
def Rewrapped (host : List Char) : Prop :=
  stripConnectHostBrackets (stripConnectHostBrackets host) ≠ stripConnectHostBrackets host ∧
    ∃ hextets, HostForm (stripConnectHostBrackets (stripConnectHostBrackets host)) hextets

theorem groups_iff_forall₂ {texts : List (List Char)} {values : List Nat} (h : ∀ p ∈ texts, '.' ∉ p) :
    Groups texts values ↔ List.Forall₂ IsGroup texts values := by
  refine ⟨fun hgroups => ?_, groups_of_forall₂⟩
  induction hgroups with
  | nil => exact .nil
  | quad hquad => exact absurd hquad.plain.2 (h _ List.mem_cons_self)
  | group hgroup rest ih => exact .cons hgroup (ih fun p hp => h p (List.mem_cons_of_mem _ hp))

theorem mem_intercalate_of_mem {parts : List (List Char)} {p : List Char} {c : Char} (hp : p ∈ parts) (hc : c ∈ p) :
    c ∈ [':'].intercalate parts := by
  induction parts with
  | nil => cases hp
  | cons q parts ih =>
      cases parts with
      | nil =>
          rw [List.mem_singleton] at hp
          rwa [List.intercalate_singleton, ← hp]
      | cons r parts =>
          rw [List.intercalate_cons_cons]
          rcases List.mem_cons.mp hp with rfl | hp
          · simp [hc]
          · exact List.mem_append_right _ (ih hp)

-- The two parsers accept the same texts but for quads and for `::` beside eight groups.
theorem hostForm_iff {text : List Char} {hextets : List Nat} (hfull : ¬Overfull text) :
    HostForm text hextets ↔ '.' ∉ text ∧ TextForm text hextets := by
  constructor
  · intro h
    refine ⟨fun hdot => (h.chars '.' hdot).elim (by decide) (by decide), ?_⟩
    cases h with
    | full hgroups hlen => exact .full (groups_of_forall₂ hgroups) hlen
    | compressed hleft hright hlen =>
        refine .compressed hleft (groups_of_forall₂ hright) (lt_of_le_of_ne hlen fun heq => hfull ?_)
        exact ⟨_, _, _, _, hleft, hright, heq, rfl⟩
  · rintro ⟨hdot, h⟩
    cases h with
    | full hgroups hlen =>
        exact .full ((groups_iff_forall₂ fun p hp hmem => hdot (mem_intercalate_of_mem hp hmem)).mp hgroups) hlen
    | compressed hleft hright hlen =>
        refine .compressed hleft ((groups_iff_forall₂ fun p hp hmem => hdot ?_).mp hright) hlen.le
        exact List.mem_append_right _ (by simp [mem_intercalate_of_mem hp hmem])

theorem Overfull.hostForm {text : List Char} (h : Overfull text) : ∃ hextets, HostForm text hextets := by
  obtain ⟨left, right, us, vs, hleft, hright, hlen, rfl⟩ := h
  exact ⟨_, .compressed hleft hright hlen.le⟩

theorem Overfull.not_textForm {text : List Char} (h : Overfull text) (hextets : List Nat) : ¬TextForm text hextets := by
  obtain ⟨left, right, us, vs, hleft, hright, hlen, rfl⟩ := h
  intro hform
  rw [textForm_iff_groupForm] at hform
  have hsplit := split_compressed hleft hright
  cases hform with
  | whole hwhole => simp [hsplit] at hwhole
  | pair hpair hleft' hright' hlt =>
      rw [hsplit] at hpair
      cases hpair
      rw [splitGroups_groups hleft] at hleft'
      have hright'' := (groups_iff_forall₂ fun p hp => (parts_of_forall₂ hright p (splitGroups_groups hright ▸ hp)).2.2.1).mp hright'
      rw [splitGroups_groups hright] at hright''
      have := hleft.length_eq.symm.trans hleft'.length_eq
      have := hright.length_eq.symm.trans hright''.length_eq
      omega

-- Both parsers accept the same hosts with colons and read the same hextets exactly for these hosts.
theorem accepts_same_iff {js : Runtime} (hjs : LowersAddresses js) {host : List Char} (hcolon : ':' ∈ host) :
    (∀ hextets, isValidConnectHost js host = true ∧
        parseIpv6Hextets js (stripConnectHostBrackets host) = some hextets ↔
      '.' ∉ host ∧ parseIpv6HextetsForLiteral js host = some hextets) ↔
    ¬Overfull (stripConnectHostBrackets (stripConnectHostBrackets host)) ∧ ¬Rewrapped host := by
  have hvalid : ∀ hextets, (isValidConnectHost js host = true ∧
      parseIpv6Hextets js (stripConnectHostBrackets host) = some hextets) ↔
      HostForm (stripConnectHostBrackets (stripConnectHostBrackets host)) hextets := by
    intro hextets
    rw [isValidConnectHost_of_colon hcolon, ← parseIpv6Hextets_eq_some_iff hjs]
    exact ⟨fun h => h.2, fun h => ⟨by simp [h], h⟩⟩
  have hdot : '.' ∉ host ↔ '.' ∉ stripConnectHostBrackets host :=
    not_congr (mem_strip_iff (by decide) (by decide) (by decide)).symm
  simp only [hvalid, parseIpv6HextetsForLiteral_eq_some_iff hjs, hdot]
  unfold Rewrapped
  generalize stripConnectHostBrackets host = bare
  have hplain : ∀ {hextets}, TextForm bare hextets → stripConnectHostBrackets bare = bare := fun h =>
    stripConnectHostBrackets_plain h.chars
  constructor
  · intro h
    refine ⟨fun hfull => ?_, ?_⟩
    · obtain ⟨hextets, hform⟩ := hfull.hostForm
      obtain ⟨-, htext⟩ := (h hextets).mp hform
      rw [hplain htext] at hfull
      exact hfull.not_textForm _ htext
    · rintro ⟨hne, hextets, hform⟩
      exact hne (hplain ((h hextets).mp hform).2)
  · rintro ⟨hfull, hwrapped⟩ hextets
    by_cases hsame : stripConnectHostBrackets bare = bare
    · rw [hsame] at hfull ⊢
      exact hostForm_iff hfull
    · exact iff_of_false (fun hform => hwrapped ⟨hsame, hextets, hform⟩) fun h => hsame (hplain h.2)

end MeshClient.Net
