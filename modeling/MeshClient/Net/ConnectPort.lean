import MeshClient.Js.Number
import MeshClient.Net.ConnectHost

namespace MeshClient.Net

open Js

def TCP_PORT_MIN : Nat := 1
def TCP_PORT_MAX : Nat := 65535

def hostContainsIpv6 (js : Runtime) (host : List Char) : Bool :=
  let bare := stripConnectHostBrackets host
  if (parseIpv4Octets bare).isSome then false
  else ':' ∈ bare && (parseIpv6Hextets js bare).isSome

def formatHostForUrl (js : Runtime) (host : List Char) (port : Option Nat) : List Char :=
  let bare := stripConnectHostBrackets (trimChars host)
  let hostPart := if hostContainsIpv6 js bare then '[' :: bare ++ [']'] else bare
  match port with
  | none => hostPart
  | some port => hostPart ++ ':' :: Nat.toDigits 10 port

def parseTrailingPort (value : List Char) : Option Nat :=
  match parseInt (String.ofList value) 10 with
  | some port => if port < TCP_PORT_MIN ∨ TCP_PORT_MAX < port then none else some port.toNat
  | none => none

-- `addr.replace(/^https?:\/\//i, '')`
def dropScheme (addr : List Char) : List Char :=
  let startsWith (scheme : String) := (addr.take scheme.length).map Char.toLower = scheme.toList
  if startsWith "https://" then addr.drop 8
  else if startsWith "http://" then addr.drop 7
  else addr

structure HostPort where
  host : List Char
  port : Nat
deriving DecidableEq

-- What follows once blanks, scheme and trailing slashes are gone.
def parseAuthority (addr : List Char) (defaultPort : Nat) : HostPort :=
  if addr = [] then { host := [], port := defaultPort }
  else if addr.head? = some '[' ∧ ']' ∈ addr then
    let inside := addr.takeWhile (· ≠ ']')
    let host := stripConnectHostBrackets (inside ++ [']'])
    match addr.drop (inside.length + 1) with
    | ':' :: value => { host, port := (parseTrailingPort value).getD defaultPort }
    | _ => { host, port := defaultPort }
  else if 2 ≤ addr.count ':' then
    let maybePort := afterColon addr
    let host := beforeColon addr
    match parseTrailingPort maybePort with
    | some port =>
        if maybePort ≠ [] ∧ maybePort.all isDigit ∧ 255 < port ∧ host ≠ [] then { host, port }
        else { host := addr, port := defaultPort }
    | none => { host := addr, port := defaultPort }
  else if ':' ∈ addr ∧ addr.head? ≠ some ':' then
    match parseTrailingPort (afterColon addr) with
    | some port => { host := beforeColon addr, port }
    | none => { host := addr, port := defaultPort }
  else { host := addr, port := defaultPort }

def parseConnectHostPort (input : List Char) (defaultPort : Nat) : HostPort :=
  parseAuthority ((dropScheme (trimChars input)).rdropWhile (· = '/')) defaultPort

example : parseConnectHostPort "https://[fd00::1]:443".toList 80 = { host := "fd00::1".toList, port := 443 } := by
  decide

example : parseConnectHostPort "fe80::1234".toList 5000 = { host := "fe80:".toList, port := 1234 } := by
  decide

theorem digitOf_ten {c : Char} (h : isDigit c = true) : digitOf 10 c = some (c.toNat - '0'.toNat) := by
  have hlt : c.toNat - '0'.toNat < 10 := by
    have h0 : '0'.toNat = 48 := rfl
    have h9 : '9'.toNat = 57 := rfl
    simp only [isDigit, Bool.and_eq_true, decide_eq_true_eq] at h
    omega
  simp only [digitOf, h, if_true, Option.filter_some, decide_eq_true_eq]
  rw [if_pos (by simpa using hlt)]

theorem parseDigits_digits {cs : List Char} (hne : cs ≠ []) (hdigits : ∀ c ∈ cs, isDigit c = true)
    (hsmall : digitsValue cs < 2 ^ 53) : parseDigits 10 cs = some (digitsValue cs) := by
  have hmap : cs.map (digitOf 10) = cs.map fun c => some (c.toNat - '0'.toNat) :=
    List.map_congr_left fun c hc => digitOf_ten (hdigits c hc)
  have htake : ∀ xs : List Char, (xs.map fun c => some (c.toNat - '0'.toNat)).takeWhile Option.isSome =
      xs.map fun c => some (c.toNat - '0'.toNat) := fun xs => by
    rw [List.takeWhile_eq_self_iff]
    simp
  have hfold : ∀ (xs : List Char) (n : Nat), (xs.map fun c => some (c.toNat - '0'.toNat)).foldl
      (fun n digit => 10 * n + digit.getD 0) n = xs.foldl (fun n c => 10 * n + (c.toNat - '0'.toNat)) n := by
    intro xs n
    rw [List.foldl_map]
    rfl
  have hradix : ¬(10 : Nat) = 16 := by decide
  simp only [parseDigits, if_neg hradix, hmap, htake, List.map_eq_nil_iff, if_neg hne, hfold]
  rw [← digitsValue, roundToDouble, if_pos hsmall]

theorem parseTrailingPort_digits {cs : List Char} (hne : cs ≠ []) (hdigits : ∀ c ∈ cs, isDigit c = true)
    (hsmall : digitsValue cs < 2 ^ 53) : parseTrailingPort cs =
      if 1 ≤ digitsValue cs ∧ digitsValue cs ≤ 65535 then some (digitsValue cs) else none := by
  have hint : parseInt (String.ofList cs) 10 = some (digitsValue cs : Int) := by
    obtain ⟨c, rest, rfl⟩ := List.exists_cons_of_ne_nil hne
    have hc := hdigits c List.mem_cons_self
    have hspace : isSpace c = false := by
      simp only [isDigit, Bool.and_eq_true, decide_eq_true_eq, show '9'.toNat = 57 from rfl,
        show '0'.toNat = 48 from rfl] at hc
      simp only [isSpace, List.mem_cons, List.not_mem_nil, or_false, Bool.or_eq_false_iff, decide_eq_false_iff_not,
        Bool.and_eq_false_iff]
      omega
    have hminus : c ≠ '-' := fun heq => absurd (heq ▸ hc) (by decide)
    have hplus : c ≠ '+' := fun heq => absurd (heq ▸ hc) (by decide)
    unfold parseInt
    rw [String.toList_ofList, dropWhile_isSpace_of_head hspace]
    split
    · rename_i heq
      exact absurd (List.cons.inj heq).1 hminus
    · rename_i heq
      exact absurd (List.cons.inj heq).1 hplus
    · rw [parseDigits_digits hne hdigits hsmall]
      rfl
  have hmin : TCP_PORT_MIN = 1 := rfl
  have hmax : TCP_PORT_MAX = 65535 := rfl
  rw [parseTrailingPort, hint]
  dsimp only
  by_cases hrange : 1 ≤ digitsValue cs ∧ digitsValue cs ≤ 65535
  · rw [if_pos hrange, if_neg (by omega), Int.toNat_natCast]
  · rw [if_neg hrange, if_pos (by omega)]

theorem parseTrailingPort_toDigits {port : Nat} (hmin : 1 ≤ port) (hmax : port ≤ 65535) :
    parseTrailingPort (Nat.toDigits 10 port) = some port := by
  have hvalue := digitsValue_toDigits port
  rw [parseTrailingPort_digits Nat.toDigits_ne_nil (fun c hc => isDigit_of_mem_toDigits hc) (by omega), hvalue,
    if_pos ⟨hmin, hmax⟩]

theorem toLower_slash {c : Char} (h : c.toLower = '/') : c = '/' := (toLower_eq_iff (by decide)).mp h

-- Without a slash nothing is cut from the ends but blanks.
theorem parseConnectHostPort_eq {input : List Char} (h : '/' ∉ input) (defaultPort : Nat) :
    parseConnectHostPort input defaultPort = parseAuthority (trimChars input) defaultPort := by
  have htrim : '/' ∉ trimChars input := fun hmem => h (Trim.mem_of_mem_trim hmem)
  have hscheme : ∀ scheme : String, '/' ∈ scheme.toList →
      ¬((trimChars input).take scheme.length).map Char.toLower = scheme.toList := by
    intro scheme hslash heq
    rw [← heq, List.mem_map] at hslash
    obtain ⟨c, hc, hlower⟩ := hslash
    exact htrim (toLower_slash hlower ▸ List.mem_of_mem_take hc)
  have hdrop : dropScheme (trimChars input) = trimChars input := by
    rw [dropScheme]
    simp only [if_neg (hscheme "https://" (by decide)), if_neg (hscheme "http://" (by decide))]
  have hlast : (trimChars input).rdropWhile (· = '/') = trimChars input :=
    Trim.rdropWhile_of_last fun c hc => by
      simpa using fun heq : c = '/' => htrim (heq ▸ List.mem_of_mem_getLast? hc)
  rw [parseConnectHostPort, hdrop, hlast]

-- What stands in brackets is the host.
theorem parseAuthority_brackets {inside : List Char} (hne : inside ≠ []) (hclose : ']' ∉ inside) (tail : List Char)
    (defaultPort : Nat) : (parseAuthority ('[' :: inside ++ ']' :: tail) defaultPort).host = inside ∧
      ∀ port, 1 ≤ port → port ≤ 65535 → tail = ':' :: Nat.toDigits 10 port →
        (parseAuthority ('[' :: inside ++ ']' :: tail) defaultPort).port = port := by
  have hunfold : parseAuthority ('[' :: inside ++ ']' :: tail) defaultPort =
      match tail with
      | ':' :: value => { host := inside, port := (parseTrailingPort value).getD defaultPort }
      | _ => { host := inside, port := defaultPort } := by
    have htake : ('[' :: inside ++ ']' :: tail).takeWhile (· ≠ ']') = '[' :: inside := by
      rw [List.takeWhile_append_of_pos, List.takeWhile_cons_of_neg (by simp), List.append_nil]
      intro c hc
      rcases List.mem_cons.mp hc with rfl | hc
      · decide
      · simpa using fun heq : c = ']' => hclose (heq ▸ hc)
    have hdrop : ('[' :: inside ++ ']' :: tail).drop (('[' :: inside).length + 1) = tail := by
      rw [List.drop_append]
      simp
    rw [parseAuthority, if_neg (by simp), if_pos ⟨by simp, by simp⟩]
    simp only [htake, hdrop, strip_brackets hne]
  constructor
  · rw [hunfold]
    split <;> rfl
  · rintro port hmin hmax rfl
    rw [hunfold]
    simp only [parseTrailingPort_toDigits hmin hmax, Option.getD_some]

theorem parseAuthority_plain {addr : List Char} (hne : addr ≠ []) (hopen : addr.head? ≠ some '[') (hcolon : ':' ∉ addr)
    (defaultPort : Nat) : parseAuthority addr defaultPort = { host := addr, port := defaultPort } := by
  rw [parseAuthority, if_neg hne, if_neg fun h => hopen h.1, if_neg (by simp [List.count_eq_zero_of_not_mem hcolon]),
    if_neg fun h => hcolon h.1]

theorem beforeColon_append {front after : List Char} (h : ':' ∉ after) :
    afterColon (front ++ ':' :: after) = after ∧ beforeColon (front ++ ':' :: after) = front := by
  have hafter : afterColon (front ++ ':' :: after) = after :=
    (afterColon_append front after).trans (afterColon_of_notMem h)
  refine ⟨hafter, ?_⟩
  rcases eq_afterColon_or (front ++ ':' :: after) with heq | heq
  · rw [hafter] at heq
    exact absurd (heq ▸ List.mem_append_right front List.mem_cons_self) h
  · rw [hafter] at heq
    exact (List.append_cancel_right heq).symm

theorem colon_notMem_toDigits (port : Nat) : ':' ∉ Nat.toDigits 10 port := fun hmem =>
  absurd (isDigit_of_mem_toDigits hmem) (by decide)

theorem parseAuthority_port {front : List Char} (hne : front ≠ []) (hopen : front.head? ≠ some '[')
    (hcolon : ':' ∉ front) {port : Nat} (hmin : 1 ≤ port) (hmax : port ≤ 65535) (defaultPort : Nat) :
    parseAuthority (front ++ ':' :: Nat.toDigits 10 port) defaultPort = { host := front, port } := by
  obtain ⟨hafter, hbefore⟩ := @beforeColon_append front _ (colon_notMem_toDigits port)
  obtain ⟨c, rest, rfl⟩ := List.exists_cons_of_ne_nil hne
  have hc : c ≠ ':' := fun heq => hcolon (heq ▸ List.mem_cons_self)
  rw [parseAuthority, if_neg (by simp), if_neg (by simpa using fun h => absurd h (by simpa using hopen)), if_neg, if_pos,
    hafter, hbefore, parseTrailingPort_toDigits hmin hmax]
  · simp [hc]
  · rw [List.count_append, List.count_eq_zero_of_not_mem hcolon, List.count_cons_self,
      List.count_eq_zero_of_not_mem (colon_notMem_toDigits port)]
    omega

-- With more colons only a number above 255 is taken for a port.
theorem parseAuthority_colons {front after : List Char} (hopen : front.head? ≠ some '[') (hcolon : ':' ∈ front)
    (hafter : ':' ∉ after) (defaultPort : Nat) : parseAuthority (front ++ ':' :: after) defaultPort =
      match parseTrailingPort after with
      | some port =>
          if after ≠ [] ∧ after.all isDigit ∧ 255 < port then { host := front, port }
          else { host := front ++ ':' :: after, port := defaultPort }
      | none => { host := front ++ ':' :: after, port := defaultPort } := by
  obtain ⟨hlast, hbefore⟩ := @beforeColon_append front _ hafter
  have hne : front ≠ [] := List.ne_nil_of_mem hcolon
  have hhead : (front ++ ':' :: after).head? ≠ some '[' := by
    rwa [List.head?_append_of_ne_nil _ hne]
  have hcount : 2 ≤ (front ++ ':' :: after).count ':' := by
    rw [List.count_append, List.count_cons_self]
    have := List.count_pos_iff.mpr hcolon
    omega
  rw [parseAuthority, if_neg (by simp), if_neg fun h => hhead h.1, if_pos hcount]
  simp only [hlast, hbefore, hne, ne_eq, not_false_eq_true, and_true]

end MeshClient.Net
