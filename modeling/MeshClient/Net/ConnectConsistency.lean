import MeshClient.Net.HostForms

namespace MeshClient.Net

open Js

-- The characters of host names.
def isNameChar (c : Char) : Bool := isDnsChar c || c = '.'

theorem isNameChar_bounds {c : Char} (h : isNameChar c = true) :
    isSpace c = false ∧ c ≠ ':' ∧ c ≠ '[' ∧ c ≠ ']' ∧ c ≠ '/' := by
  have hrange : 45 ≤ c.toNat ∧ c.toNat ≤ 46 ∨ 48 ≤ c.toNat ∧ c.toNat ≤ 57 ∨ 65 ≤ c.toNat ∧ c.toNat ≤ 90 ∨
      97 ≤ c.toNat ∧ c.toNat ≤ 122 := by
    simp only [isNameChar, isDnsChar, Char.isAlphanum, Char.isAlpha, Char.isUpper, Char.isLower, Char.isDigit,
      Bool.or_eq_true, Bool.and_eq_true, decide_eq_true_eq, ge_iff_le, UInt32.le_iff_toNat_le] at h
    have hc : c.val.toNat = c.toNat := rfl
    simp only [hc] at h
    rcases h with ((((⟨h1, h2⟩ | ⟨h1, h2⟩) | ⟨h1, h2⟩) | rfl) | rfl)
    · exact .inr (.inr (.inl ⟨h1, h2⟩))
    · exact .inr (.inr (.inr ⟨h1, h2⟩))
    · exact .inr (.inl ⟨h1, h2⟩)
    · decide
    · decide
  refine ⟨?_, ?_, ?_, ?_, ?_⟩
  · simp only [isSpace, List.mem_cons, List.not_mem_nil, or_false, Bool.or_eq_false_iff, decide_eq_false_iff_not,
      Bool.and_eq_false_iff]
    omega
  all_goals
    rintro rfl
    revert hrange
    decide

theorem nameChars_of_splitOn {host : List Char} (h : ∀ part ∈ host.splitOn '.', ∀ c ∈ part, isDnsChar c = true) :
    ∀ c ∈ host, isNameChar c = true := by
  intro c hc
  rw [← @List.intercalate_splitOn _ host _ _ '.'] at hc
  rcases mem_intercalate hc with rfl | ⟨part, hpart, hc⟩
  · decide
  · simp [isNameChar, h part hpart c hc]

theorem isDnsChar_of_isDigit {c : Char} (h : isDigit c = true) : isDnsChar c = true := by
  have hdigit : c.isDigit = true := by
    simp only [isDigit, Bool.and_eq_true, decide_eq_true_eq] at h
    simp only [Char.isDigit, Bool.and_eq_true, decide_eq_true_eq, ge_iff_le, UInt32.le_iff_toNat_le]
    exact h
  simp [isDnsChar, Char.isAlphanum, hdigit]

theorem isValidConnectHost_congr {js : Runtime} {host other : List Char}
    (h : stripConnectHostBrackets host = stripConnectHostBrackets other) :
    isValidConnectHost js host = isValidConnectHost js other := by
  have hnil : ∀ {x y : List Char}, stripConnectHostBrackets x = stripConnectHostBrackets y →
      trimChars x = [] → trimChars y = [] := by
    intro x y hxy hx
    have hxnil : stripConnectHostBrackets x = [] := by
      rcases strip_cases x with hstrip | ⟨hstrip, -⟩
      · rw [← hstrip, hx]
      · simp [hx] at hstrip
    rcases strip_cases y with hstrip | ⟨-, hne⟩
    · rw [hstrip, ← hxy, hxnil]
    · exact absurd (hxy ▸ hxnil) hne
  unfold isValidConnectHost
  simp only [stripConnectHostBrackets_trim, h]
  by_cases hx : trimChars host = []
  · rw [if_pos hx, if_pos (hnil h hx)]
  · rw [if_neg hx, if_neg fun hy => hx (hnil h.symm hy)]

-- A valid host is a name or an IPv4 address, or it wraps an IPv6 address.
theorem valid_cases {js : Runtime} (hjs : LowersAddresses js) {host : List Char}
    (h : isValidConnectHost js host = true) :
    (':' ∉ host ∧ stripConnectHostBrackets host ≠ [] ∧ ∀ c ∈ stripConnectHostBrackets host, isNameChar c = true) ∨
      ':' ∈ host ∧ ∃ hextets, HostForm (stripConnectHostBrackets (stripConnectHostBrackets host)) hextets := by
  by_cases hcolon : ':' ∈ host
  · exact .inr ⟨hcolon, (isValidConnectHost_iff hjs hcolon).mp h⟩
  · refine .inl ⟨hcolon, ?_⟩
    have hbare : ':' ∉ stripConnectHostBrackets host :=
      fun hmem => hcolon ((mem_strip_iff (by decide) (by decide) (by decide)).mp hmem)
    unfold isValidConnectHost at h
    simp only [stripConnectHostBrackets_trim, if_neg hbare] at h
    split at h
    · cases h
    generalize stripConnectHostBrackets host = bare at h
    split at h
    · rename_i hdotted
      simp only [isDottedDigits, Bool.and_eq_true, decide_eq_true_eq, List.all_eq_true] at hdotted
      refine ⟨?_, nameChars_of_splitOn fun part hpart c hc => ?_⟩
      · rintro rfl
        simp at hdotted
      · exact isDnsChar_of_isDigit ((hdotted.2 part hpart).2 c hc)
    · unfold isValidDnsHostname at h
      split at h
      · cases h
      · rename_i hbounds
        refine ⟨fun hnil => hbounds (.inl hnil), nameChars_of_splitOn fun part hpart c hc => ?_⟩
        simp only at h
        split at h
        · cases h
        · have hlabel := List.all_eq_true.mp h part hpart
          unfold isValidDnsLabel at hlabel
          split at hlabel
          · cases hlabel
          · split at hlabel
            · cases hlabel
            · exact List.all_eq_true.mp hlabel c hc

section

variable {js : Runtime} (hjs : LowersAddresses js)
include hjs

theorem slash_notMem {host : List Char} (h : isValidConnectHost js host = true) : '/' ∉ host := by
  have hstrip : ∀ x : List Char, '/' ∈ x → '/' ∈ stripConnectHostBrackets x := fun x hx =>
    (mem_strip_iff (by decide) (by decide) (by decide)).mpr hx
  intro hmem
  rcases valid_cases hjs h with ⟨-, -, hchars⟩ | ⟨-, hextets, hform⟩
  · exact (isNameChar_bounds (hchars _ (hstrip _ hmem))).2.2.2.2 rfl
  · exact absurd (hform.addressChars _ (hstrip _ (hstrip _ hmem))) (by decide)

omit hjs in
theorem strip_openBracket {text : List Char} (hne : text ≠ []) (h : ∀ c ∈ text, isAddressChar c = true) :
    stripConnectHostBrackets ('[' :: text) = '[' :: text := by
  have hlast : ∀ c ∈ ('[' :: text).getLast?, isAddressChar c = true := by
    intro c hc
    rw [List.getLast?_cons_of_ne_nil hne] at hc
    exact h c (List.mem_of_mem_getLast? hc)
  have htrim : trimChars ('[' :: text) = '[' :: text := by
    refine Trim.trim_of_neat ⟨by simp [show isSpace '[' = false by decide], fun c hc => ?_⟩
    exact (isAddressChar_bounds (hlast c hc)).2.1
  rcases strip_cases ('[' :: text) with heq | ⟨heq, -⟩
  · rw [← heq, htrim]
  · have hclose : ']' ∈ ('[' :: text).getLast? := by
      rw [← htrim, heq, List.getLast?_concat]
      rfl
    exact absurd (hlast ']' hclose) (by decide)

-- A bracketed address comes back whole unless there are brackets within the brackets.
theorem bracketed_cases {bare : List Char} {hextets : List Nat} (hform : HostForm (stripConnectHostBrackets bare) hextets)
    (tail : List Char) (defaultPort : Nat) :
    ('[' ∉ bare ∧ isValidConnectHost js bare = true ∧
      (parseAuthority ('[' :: bare ++ ']' :: tail) defaultPort).host = bare ∧
      ∀ port, 1 ≤ port → port ≤ 65535 → tail = ':' :: Nat.toDigits 10 port →
        (parseAuthority ('[' :: bare ++ ']' :: tail) defaultPort).port = port) ∨
    ('[' ∈ bare ∧ (parseAuthority ('[' :: bare ++ ']' :: tail) defaultPort).host ≠ bare ∧
      isValidConnectHost js (parseAuthority ('[' :: bare ++ ']' :: tail) defaultPort).host = false) := by
  have hchars := hform.addressChars
  have hcolon : ':' ∈ bare := (mem_strip_iff (by decide) (by decide) (by decide)).mp hform.colon_mem
  have hself := stripConnectHostBrackets_plain hchars
  rcases strip_cases bare with htrim | ⟨htrim, hne⟩
  · left
    have hmem : ∀ c, isSpace c = false → isAddressChar c = false → c ∉ bare := by
      intro c hspace hc hmem
      rw [← mem_trimChars_iff hspace, htrim] at hmem
      simp [hchars c hmem] at hc
    have hclose := hmem ']' (by decide) (by decide)
    obtain ⟨hhost, hport⟩ := parseAuthority_brackets (List.ne_nil_of_mem hcolon) hclose tail defaultPort
    refine ⟨hmem '[' (by decide) (by decide), ?_, hhost, hport⟩
    exact (isValidConnectHost_iff hjs hcolon).mpr ⟨hextets, by rwa [hself]⟩
  · right
    generalize stripConnectHostBrackets bare = address at *
    obtain ⟨pre, post, hbare, hpre, hpost⟩ := @Trim.exists_trim _ isSpace bare
    have htrim' : Trim.trim isSpace bare = '[' :: address ++ [']'] := htrim
    rw [htrim'] at hbare
    have hclose : ']' ∉ pre ++ '[' :: address := by
      intro hmem
      rcases List.mem_append.mp hmem with hmem | hmem
      · exact absurd (hpre _ hmem) (by decide)
      · rcases List.mem_cons.mp hmem with heq | hmem
        · exact absurd heq (by decide)
        · exact absurd (hchars _ hmem) (by decide)
    have hcut : '[' :: bare ++ ']' :: tail = '[' :: (pre ++ '[' :: address) ++ ']' :: (post ++ ']' :: tail) := by
      rw [hbare]
      simp
    obtain ⟨hhost, -⟩ := parseAuthority_brackets (by simp) hclose (post ++ ']' :: tail) defaultPort
    rw [hcut, hhost]
    refine ⟨by simp [hbare], fun heq => hclose (heq ▸ by simp [hbare]), ?_⟩
    have hinside : ':' ∈ pre ++ '[' :: address := by simp [hform.colon_mem]
    have hstrip : stripConnectHostBrackets (pre ++ '[' :: address) = '[' :: address := by
      rw [← stripConnectHostBrackets_trim]
      have hleft : trimChars (pre ++ '[' :: address) = trimChars ('[' :: address) := Trim.trim_append_left hpre
      rw [hleft, stripConnectHostBrackets_trim, strip_openBracket hne hchars]
    rw [← Bool.not_eq_true, isValidConnectHost_iff hjs hinside, hstrip, strip_openBracket hne hchars]
    rintro ⟨vs, hopen⟩
    exact absurd (hopen.addressChars '[' List.mem_cons_self) (by decide)

-- A host without brackets that holds an address is that address but for the blanks around it.
omit hjs in
theorem unbracketed_form {host : List Char} (htrim : trimChars host = stripConnectHostBrackets host) :
    stripConnectHostBrackets (stripConnectHostBrackets host) = stripConnectHostBrackets host := by
  rw [← htrim, stripConnectHostBrackets_trim, htrim]

omit hjs in
-- What trimming leaves of a host with a port behind it.
theorem trimChars_append_port {host : List Char} (hne : trimChars host ≠ []) (port : Nat) :
    ∃ post, (∀ c ∈ post, isSpace c = true) ∧ (post = [] ↔ ∀ c ∈ host.getLast?, isSpace c = false) ∧
      trimChars (host ++ ':' :: Nat.toDigits 10 port) = trimChars host ++ post ++ ':' :: Nat.toDigits 10 port := by
  obtain ⟨pre, post, heq, hpre, hpost⟩ := @Trim.exists_trim _ isSpace host
  have hneat : Trim.Neat isSpace (trimChars host) := Trim.neat_trim host
  have hcore : Trim.trim isSpace host = trimChars host := rfl
  rw [hcore] at heq
  have hport : Trim.Neat isSpace (':' :: Nat.toDigits 10 port) := by
    constructor
    · simp [show isSpace ':' = false by decide]
    · intro c hc
      rw [List.getLast?_cons_of_ne_nil Nat.toDigits_ne_nil] at hc
      have hdigit := isDigit_of_mem_toDigits (List.mem_of_mem_getLast? hc)
      exact (isNameChar_bounds (by simp [isNameChar, isDnsChar_of_isDigit hdigit])).1
  refine ⟨post, hpost, ?_, ?_⟩
  · constructor
    · rintro rfl c hc
      rw [heq, List.append_nil, List.getLast?_append_of_ne_nil _ hne] at hc
      exact hneat.last c hc
    · intro hlast
      rcases List.eq_nil_or_concat' post with hnil | ⟨front, c, rfl⟩
      · exact hnil
      · have hspace := hlast c (by rw [heq, ← List.append_assoc, ← List.append_assoc, List.getLast?_concat]; rfl)
        exact absurd (hpost c (by simp)) (by simp [hspace])
  · have hwhole : host ++ ':' :: Nat.toDigits 10 port =
        pre ++ (trimChars host ++ (post ++ ':' :: Nat.toDigits 10 port)) := by
      nth_rewrite 1 [heq]
      simp
    have hdrop : trimChars (host ++ ':' :: Nat.toDigits 10 port) =
        trimChars (trimChars host ++ (post ++ ':' :: Nat.toDigits 10 port)) := by
      rw [hwhole]
      exact Trim.trim_append_left hpre
    rw [hdrop, List.append_assoc]
    exact Trim.trim_of_neat (hneat.append hport hne (by simp))

-- A name is its own bare form.
omit hjs in
theorem strip_nameChars {text : List Char} (h : ∀ c ∈ text, isNameChar c = true) :
    trimChars text = text ∧ stripConnectHostBrackets text = text := by
  have htrim : trimChars text = text := trimChars_of_forall fun c hc => (isNameChar_bounds (h c hc)).1
  refine ⟨htrim, ?_⟩
  rcases strip_cases text with heq | ⟨heq, -⟩
  · rw [← heq, htrim]
  · have hopen : '[' ∈ text := by
      rw [← htrim, heq]
      simp
    exact absurd rfl (isNameChar_bounds (h _ hopen)).2.2.1

omit hjs in
theorem head_ne_of_nameChars {text : List Char} (h : ∀ c ∈ text, isNameChar c = true) (tail : List Char)
    (hne : text ≠ []) : (text ++ tail).head? ≠ some '[' := fun heq => by
  rw [List.head?_append_of_ne_nil _ hne] at heq
  exact (isNameChar_bounds (h _ (List.mem_of_mem_head? heq))).2.2.1 rfl

theorem parse_format_iff {host : List Char} (hvalid : isValidConnectHost js host = true) {port : Nat}
    (hmin : 1 ≤ port) (hmax : port ≤ 65535) (defaultPort : Nat) :
    parseConnectHostPort (formatHostForUrl js host (some port)) defaultPort =
      { host := stripConnectHostBrackets host, port } ↔ '[' ∉ stripConnectHostBrackets host := by
  have hdigits : ∀ c ∈ Nat.toDigits 10 port, isNameChar c = true := fun c hc => by
    simp [isNameChar, isDnsChar_of_isDigit (isDigit_of_mem_toDigits hc)]
  have hslash : '/' ∉ Nat.toDigits 10 port := fun hmem => (isNameChar_bounds (hdigits _ hmem)).2.2.2.2 rfl
  unfold formatHostForUrl
  simp only [stripConnectHostBrackets_trim]
  rcases valid_cases hjs hvalid with ⟨hcolon, hne, hchars⟩ | ⟨hcolon, hextets, hform⟩
  · have hbare : ':' ∉ stripConnectHostBrackets host :=
      fun hmem => hcolon ((mem_strip_iff (by decide) (by decide) (by decide)).mp hmem)
    generalize stripConnectHostBrackets host = bare at *
    have hipv6 : hostContainsIpv6 js bare = false := by
      simp [hostContainsIpv6, (strip_nameChars hchars).2, hbare]
    refine iff_of_true ?_ fun hmem => (isNameChar_bounds (hchars _ hmem)).2.2.1 rfl
    have hslash' : '/' ∉ bare ++ ':' :: Nat.toDigits 10 port := by
      simp only [List.mem_append, List.mem_cons, not_or]
      exact ⟨fun hmem => (isNameChar_bounds (hchars _ hmem)).2.2.2.2 rfl, by decide, hslash⟩
    have htrim : trimChars (bare ++ ':' :: Nat.toDigits 10 port) = bare ++ ':' :: Nat.toDigits 10 port := by
      refine trimChars_of_forall ?_
      rw [List.forall_mem_append, List.forall_mem_cons]
      exact ⟨fun c hc => (isNameChar_bounds (hchars c hc)).1, by decide,
        fun c hc => (isNameChar_bounds (hdigits c hc)).1⟩
    have hopen := head_ne_of_nameChars hchars [] hne
    rw [List.append_nil] at hopen
    simp only [hipv6, Bool.false_eq_true, if_false]
    rw [parseConnectHostPort_eq hslash', htrim, parseAuthority_port hne hopen hbare hmin hmax]
  · have hslash' : '/' ∉ stripConnectHostBrackets host :=
      fun hmem => slash_notMem hjs hvalid ((mem_strip_iff (by decide) (by decide) (by decide)).mp hmem)
    generalize stripConnectHostBrackets host = bare at *
    have hquad : parseIpv4Octets (stripConnectHostBrackets bare) = none := by
      cases hocts : parseIpv4Octets (stripConnectHostBrackets bare) with
      | none => rfl
      | some octets =>
          obtain ⟨-, -, -, -, a, b, c, d, -, -, -, -, -, rfl⟩ := parseIpv4Octets_eq_some_iff.mp hocts
          exact absurd hform.colon_mem (parseIpv4Octets_quad.mpr ⟨a, b, c, d, hocts, rfl, rfl⟩).plain.1
    have hipv6 : hostContainsIpv6 js bare = true := by
      have hparse : parseIpv6Hextets js (stripConnectHostBrackets bare) = some hextets := by
        rw [parseIpv6Hextets_eq_some_iff hjs, stripConnectHostBrackets_plain hform.addressChars]
        exact hform
      simp [hostContainsIpv6, hquad, hform.colon_mem, hparse]
    have hurl : '[' :: bare ++ [']'] ++ ':' :: Nat.toDigits 10 port =
        '[' :: bare ++ ']' :: ':' :: Nat.toDigits 10 port := by simp
    have hslash'' : '/' ∉ '[' :: bare ++ ']' :: ':' :: Nat.toDigits 10 port := by
      simp only [List.mem_append, List.mem_cons, not_or]
      exact ⟨⟨by decide, hslash'⟩, by decide, by decide, hslash⟩
    have htrim : trimChars ('[' :: bare ++ ']' :: ':' :: Nat.toDigits 10 port) =
        '[' :: bare ++ ']' :: ':' :: Nat.toDigits 10 port := by
      refine Trim.trim_of_neat ⟨by simp [show isSpace '[' = false by decide], fun c hc => ?_⟩
      have hlast : c ∈ Nat.toDigits 10 port := by
        rw [List.getLast?_append_of_ne_nil _ (by simp), List.getLast?_cons_of_ne_nil (by simp),
          List.getLast?_cons_of_ne_nil Nat.toDigits_ne_nil] at hc
        exact List.mem_of_mem_getLast? hc
      exact (isNameChar_bounds (hdigits c hlast)).1
    simp only [hipv6, if_true, hurl]
    rw [parseConnectHostPort_eq hslash'', htrim]
    rcases bracketed_cases hjs hform (':' :: Nat.toDigits 10 port) defaultPort with
      ⟨hopen, -, hhost, hport⟩ | ⟨hopen, hhost, -⟩
    · refine iff_of_true ?_ hopen
      have hsame := hport port hmin hmax rfl
      generalize parseAuthority _ defaultPort = result at hhost hsame
      cases result
      cases hhost
      cases hsame
      rfl
    · exact iff_of_false (fun heq => hhost (congrArg HostPort.host heq)) fun hnot => hnot hopen

theorem valid_parse_iff {host : List Char} (hvalid : isValidConnectHost js host = true) (defaultPort : Nat) :
    isValidConnectHost js (parseConnectHostPort host defaultPort).host = true ↔
      '[' ∉ stripConnectHostBrackets host ∧ ¬TakenForPort (trimChars host) := by
  rw [parseConnectHostPort_eq (slash_notMem hjs hvalid)]
  rcases valid_cases hjs hvalid with ⟨hcolon, hne, hchars⟩ | ⟨hcolon, hextets, hform⟩
  · have hbare : ':' ∉ stripConnectHostBrackets host :=
      fun hmem => hcolon ((mem_strip_iff (by decide) (by decide) (by decide)).mp hmem)
    have hclose : ']' ∉ stripConnectHostBrackets host := fun hmem => (isNameChar_bounds (hchars _ hmem)).2.2.2.1 rfl
    have hself : isValidConnectHost js (stripConnectHostBrackets host) = true :=
      (isValidConnectHost_congr (strip_nameChars hchars).2).trans hvalid
    refine iff_of_true ?_ ⟨fun hmem => (isNameChar_bounds (hchars _ hmem)).2.2.1 rfl, fun htaken => ?_⟩
    · rcases strip_cases host with htrim | ⟨htrim, -⟩
      · have hopen := head_ne_of_nameChars hchars [] hne
        rw [List.append_nil] at hopen
        rw [htrim, parseAuthority_plain hne hopen hbare]
        exact hself
      · obtain ⟨hhost, -⟩ := parseAuthority_brackets hne hclose [] defaultPort
        rw [htrim, hhost]
        exact hself
    · obtain ⟨vs, htext⟩ := htaken.hostForm
      exact hcolon (Trim.mem_of_mem_trim htext.colon_mem)
  · rcases strip_cases host with htrim | ⟨htrim, hne⟩
    · have hbare := unbracketed_form htrim
      rw [hbare] at hform
      have hopen : '[' ∉ stripConnectHostBrackets host := fun hmem =>
        absurd (hform.addressChars _ hmem) (by decide)
      rw [htrim, valid_parseAuthority hjs hform]
      exact ⟨fun h => ⟨hopen, h⟩, fun h => h.2⟩
    · have htaken : ¬TakenForPort (trimChars host) := by
        intro htaken
        obtain ⟨vs, htext⟩ := htaken.hostForm
        exact absurd (htext.addressChars '[' (htrim ▸ List.mem_cons_self)) (by decide)
      rw [htrim] at htaken ⊢
      rcases bracketed_cases hjs hform [] defaultPort with ⟨hopen, hself, hhost, -⟩ | ⟨hopen, -, hhost⟩
      · refine iff_of_true ?_ ⟨hopen, htaken⟩
        rw [hhost, hself]
      · exact iff_of_false (fun heq => Bool.false_ne_true (hhost.symm.trans heq)) fun h => h.1 hopen

-- A port behind a valid host is told apart from the host.
def PortSeen (host : List Char) (port : Nat) : Prop :=
  255 < port ∨ ':' ∉ host ∨ (trimChars host).head? = some '[' ∨
    (∀ c ∈ host.getLast?, isSpace c = false) ∧ RoomForGroup (trimChars host)

theorem valid_parse_port_iff {host : List Char} (hvalid : isValidConnectHost js host = true) {port : Nat}
    (hmin : 1 ≤ port) (hmax : port ≤ 65535) (defaultPort : Nat) :
    isValidConnectHost js (parseConnectHostPort (host ++ ':' :: Nat.toDigits 10 port) defaultPort).host = true ↔
      '[' ∉ stripConnectHostBrackets host ∧ PortSeen host port := by
  have hne : trimChars host ≠ [] := by
    intro hnil
    simp [isValidConnectHost, hnil] at hvalid
  have hslash : '/' ∉ host ++ ':' :: Nat.toDigits 10 port := by
    simp only [List.mem_append, List.mem_cons, not_or]
    exact ⟨slash_notMem hjs hvalid, by decide, fun hmem => absurd (isDigit_of_mem_toDigits hmem) (by decide)⟩
  obtain ⟨post, hpost, hnil, htrimPort⟩ := trimChars_append_port hne port
  rw [parseConnectHostPort_eq hslash, htrimPort]
  have hpostColon : ':' ∉ post := fun hmem => absurd (hpost _ hmem) (by decide)
  have hpostSame : ∀ text : List Char, stripConnectHostBrackets (text ++ post) = stripConnectHostBrackets text := by
    intro text
    have hright : trimChars (text ++ post) = trimChars text := Trim.trim_append_right hpost
    rw [← stripConnectHostBrackets_trim, hright, stripConnectHostBrackets_trim]
  rcases valid_cases hjs hvalid with ⟨hcolon, hbareNe, hchars⟩ | ⟨hcolon, hextets, hform⟩
  · have hbare : ':' ∉ stripConnectHostBrackets host :=
      fun hmem => hcolon ((mem_strip_iff (by decide) (by decide) (by decide)).mp hmem)
    have hclose : ']' ∉ stripConnectHostBrackets host := fun hmem => (isNameChar_bounds (hchars _ hmem)).2.2.2.1 rfl
    have hself := (strip_nameChars hchars).2
    refine iff_of_true ?_ ⟨fun hmem => (isNameChar_bounds (hchars _ hmem)).2.2.1 rfl, .inr (.inl hcolon)⟩
    rcases strip_cases host with htrim | ⟨htrim, -⟩
    · rw [htrim, parseAuthority_port (by simp [hbareNe]) (head_ne_of_nameChars hchars post hbareNe)
        (by simp [hbare, hpostColon]) hmin hmax]
      exact (isValidConnectHost_congr ((hpostSame _).trans hself)).trans hvalid
    · obtain ⟨hhost, -⟩ := parseAuthority_brackets hbareNe hclose (post ++ ':' :: Nat.toDigits 10 port) defaultPort
      have haddr : '[' :: stripConnectHostBrackets host ++ [']'] ++ post ++ ':' :: Nat.toDigits 10 port =
          '[' :: stripConnectHostBrackets host ++ ']' :: (post ++ ':' :: Nat.toDigits 10 port) := by simp
      rw [htrim, haddr, hhost]
      exact (isValidConnectHost_congr hself).trans hvalid
  · rcases strip_cases host with htrim | ⟨htrim, hbareNe⟩
    · have hbare := unbracketed_form htrim
      rw [hbare] at hform
      have hchars := hform.addressChars
      have hopen : '[' ∉ stripConnectHostBrackets host := fun hmem => absurd (hchars _ hmem) (by decide)
      have hseen : PortSeen host port ↔ 255 < port ∨ post = [] ∧ RoomForGroup (stripConnectHostBrackets host) := by
        have hhead : (stripConnectHostBrackets host).head? ≠ some '[' := fun heq => hopen (List.mem_of_mem_head? heq)
        rw [PortSeen, htrim, hnil]
        simp [hcolon, hhead]
      rw [hseen]
      generalize stripConnectHostBrackets host = address at *
      have hfront : (address ++ post).head? ≠ some '[' := fun heq => by
        rw [List.head?_append_of_ne_nil _ (List.ne_nil_of_mem hform.colon_mem)] at heq
        exact hopen (List.mem_of_mem_head? heq)
      have hdigits : (Nat.toDigits 10 port).all isDigit = true :=
        List.all_eq_true.mpr fun c hc => isDigit_of_mem_toDigits hc
      have hself : stripConnectHostBrackets address = address := stripConnectHostBrackets_plain hchars
      rw [htrim, parseAuthority_colons hfront (by simp [hform.colon_mem]) (colon_notMem_toDigits port),
        parseTrailingPort_toDigits hmin hmax]
      dsimp only
      by_cases hlarge : 255 < port
      · rw [if_pos ⟨Nat.toDigits_ne_nil, hdigits, hlarge⟩]
        refine iff_of_true ?_ ⟨hopen, .inl hlarge⟩
        rw [isValidConnectHost_iff hjs (by simp [hform.colon_mem]), hpostSame, hself, hself]
        exact ⟨hextets, hform⟩
      · rw [if_neg fun h => hlarge h.2.2]
        dsimp only
        have hsmall : ∃ value, IsGroup (Nat.toDigits 10 port) value := by
          refine ⟨_, Nat.toDigits_ne_nil, ?_, fun c hc => isHexDigit_of_isDigit (isDigit_of_mem_toDigits hc), rfl⟩
          by_contra hlen
          have hpow : 10 ^ 3 ≤ port := pow_le_of_lt_length (by omega) (by omega)
          omega
        obtain ⟨value, hgroup⟩ := hsmall
        have haddr : stripConnectHostBrackets (address ++ post ++ ':' :: Nat.toDigits 10 port) =
            address ++ post ++ ':' :: Nat.toDigits 10 port := by
          have hneat : trimChars (address ++ post ++ ':' :: Nat.toDigits 10 port) =
              address ++ post ++ ':' :: Nat.toDigits 10 port := by
            rw [← htrim, ← htrimPort]
            exact Trim.trim_trim _
          rcases strip_cases (address ++ post ++ ':' :: Nat.toDigits 10 port) with heq | ⟨heq, -⟩
          · rw [← heq, hneat]
          · rw [hneat] at heq
            have hhead := congrArg List.head? heq
            rw [List.head?_append_of_ne_nil _ (by simp [List.ne_nil_of_mem hform.colon_mem])] at hhead
            exact absurd hhead hfront
        rw [isValidConnectHost_iff hjs (by simp), haddr, haddr]
        constructor
        · rintro ⟨vs, hwhole⟩
          have hpostNil : post = [] := by
            refine List.eq_nil_iff_forall_not_mem.mpr fun c hc => ?_
            have hspace := (isAddressChar_bounds (hwhole.addressChars c (by simp [hc]))).2.1
            exact absurd (hpost c hc) (by simp [hspace])
          subst hpostNil
          rw [List.append_nil] at hwhole
          refine ⟨hopen, .inr ⟨rfl, ?_⟩⟩
          rcases (hostForm_concat hgroup).mp ⟨vs, hwhole⟩ with hseven | hgap | hroom
          · exact absurd hform (hseven.not_hostForm _)
          · exact absurd hform (hgap.not_hostForm _)
          · exact hroom
        · rintro ⟨-, hlarge' | ⟨hpostNil, hroom⟩⟩
          · exact absurd hlarge' hlarge
          · rw [hpostNil, List.append_nil]
            exact (hostForm_concat hgroup).mpr (.inr (.inr hroom))
    · have haddr : '[' :: stripConnectHostBrackets host ++ [']'] ++ post ++ ':' :: Nat.toDigits 10 port =
          '[' :: stripConnectHostBrackets host ++ ']' :: (post ++ ':' :: Nat.toDigits 10 port) := by simp
      have hseen : PortSeen host port := .inr (.inr (.inl (by rw [htrim]; rfl)))
      rw [htrim, haddr]
      rcases bracketed_cases hjs hform (post ++ ':' :: Nat.toDigits 10 port) defaultPort with
        ⟨hopen, hself, hhost, -⟩ | ⟨hopen, -, hhost⟩
      · refine iff_of_true ?_ ⟨hopen, hseen⟩
        rw [hhost, hself]
      · exact iff_of_false (fun heq => Bool.false_ne_true (hhost.symm.trans heq)) fun h => h.1 hopen

end

-- When hosts survive being written and read: no brackets within the brackets, no last group that is taken
-- for a port, a port that is told apart, and for the two parsers to agree, `::` not beside eight groups
-- and nothing further around the address.
theorem connect_hosts_consistent_iff {js : Runtime} (hjs : LowersAddresses js) :
    (∀ (host : List Char) (port defaultPort : Nat), isValidConnectHost js host = true → 1 ≤ port → port ≤ 65535 →
      (parseConnectHostPort (formatHostForUrl js host (some port)) defaultPort =
        { host := stripConnectHostBrackets host, port } ↔ '[' ∉ stripConnectHostBrackets host)) ∧
    (∀ (host : List Char) (defaultPort : Nat), isValidConnectHost js host = true →
      (isValidConnectHost js (parseConnectHostPort host defaultPort).host = true ↔
        '[' ∉ stripConnectHostBrackets host ∧ ¬TakenForPort (trimChars host))) ∧
    (∀ (host : List Char) (port defaultPort : Nat), isValidConnectHost js host = true → 1 ≤ port → port ≤ 65535 →
      (isValidConnectHost js (parseConnectHostPort (host ++ ':' :: Nat.toDigits 10 port) defaultPort).host = true ↔
        '[' ∉ stripConnectHostBrackets host ∧ PortSeen host port)) ∧
    ∀ host : List Char, ':' ∈ host →
      ((∀ hextets, isValidConnectHost js host = true ∧
          parseIpv6Hextets js (stripConnectHostBrackets host) = some hextets ↔
        '.' ∉ host ∧ parseIpv6HextetsForLiteral js host = some hextets) ↔
      ¬Overfull (stripConnectHostBrackets (stripConnectHostBrackets host)) ∧ ¬Rewrapped host) :=
  ⟨fun _ _ defaultPort hvalid hmin hmax => parse_format_iff hjs hvalid hmin hmax defaultPort,
    fun _ defaultPort hvalid => valid_parse_iff hjs hvalid defaultPort,
    fun _ _ defaultPort hvalid hmin hmax => valid_parse_port_iff hjs hvalid hmin hmax defaultPort,
    fun _ hcolon => accepts_same_iff hjs hcolon⟩

theorem connect_hosts_consistent_iff_local :
    parseConnectHostPort (formatHostForUrl asciiRuntime "[FD00::1]".toList (some 443)) 80 =
      { host := "FD00::1".toList, port := 443 } ∧
    ¬TakenForPort "FD00::1".toList ∧ PortSeen "fe80::1".toList 80 ∧
    ¬Overfull "fe80::1".toList := by
  obtain ⟨hformat, hparse, hport, hsame⟩ := connect_hosts_consistent_iff lowersAddresses_asciiRuntime
  refine ⟨(hformat "[FD00::1]".toList 443 80 (by decide) (by decide) (by decide)).mpr (by decide), ?_, ?_, ?_⟩
  · exact ((hparse "FD00::1".toList 80 (by decide)).mp (by decide)).2
  · exact ((hport "fe80::1".toList 80 5000 (by decide) (by decide) (by decide)).mp (by decide)).2
  · refine ((hsame "fe80::1".toList (by decide)).mp fun hextets => ?_).1
    have hvalid : isValidConnectHost asciiRuntime "fe80::1".toList = true := by decide
    have hdot : '.' ∉ "fe80::1".toList := by decide
    have hread : parseIpv6Hextets asciiRuntime (stripConnectHostBrackets "fe80::1".toList) =
        parseIpv6HextetsForLiteral asciiRuntime "fe80::1".toList := by decide
    simp only [hvalid, hdot, hread, not_false_eq_true, true_and]

-- Brackets twice around an address, a last group above 255, a port of at most 255 behind eight groups, and `::`
-- beside eight groups.
theorem connect_hosts_not_consistent :
    (isValidConnectHost asciiRuntime "[[::1]]".toList = true ∧
      parseConnectHostPort (formatHostForUrl asciiRuntime "[[::1]]".toList (some 443)) 80 ≠
        { host := stripConnectHostBrackets "[[::1]]".toList, port := 443 }) ∧
    (isValidConnectHost asciiRuntime "fe80::1234".toList = true ∧
      isValidConnectHost asciiRuntime (parseConnectHostPort "fe80::1234".toList 5000).host = false) ∧
    (isValidConnectHost asciiRuntime "1:2:3:4:5:6:7:8".toList = true ∧
      isValidConnectHost asciiRuntime (parseConnectHostPort "1:2:3:4:5:6:7:8:80".toList 5000).host = false) ∧
    isValidConnectHost asciiRuntime "1:2:3:4:5:6:7::8".toList = true ∧
      parseIpv6HextetsForLiteral asciiRuntime "1:2:3:4:5:6:7::8".toList = none := by
  decide

end MeshClient.Net
