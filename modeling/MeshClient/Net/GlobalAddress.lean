import MeshClient.Js.Number
import MeshClient.Net.Spelling

namespace MeshClient.Net

open Js

def ipv4ToInt (octets : List Nat) : BitVec 32 :=
  let octet i := BitVec.ofNat 32 (octets.getD i 0)
  ((octet 0 <<< 24) ||| (octet 1 <<< 16)) ||| (octet 2 <<< 8) ||| octet 3

-- The prefixes are written in decimal digits.
def splitCidr (cidr : List Char) : Option (List Char × Nat) :=
  let addr := cidr.takeWhile (· ≠ '/')
  let digits := cidr.drop (addr.length + 1)
  if addr = [] ∨ addr = cidr ∨ digits = [] ∨ !digits.all isDigit then none
  else (finiteNumber digits).map (addr, ·)

structure Cidr4 where
  network : BitVec 32
  bits : Nat
  reachable : Option Bool

structure Cidr6 where
  networkHi : Nat
  networkLo : Nat
  bits : Nat
  reachable : Option Bool

-- `none` where the source throws.
def ipv4FromCidr (row : String × Option Bool) : Option Cidr4 := do
  let (addr, bits) ← splitCidr row.1.toList
  let octets ← parseIpv4Octets addr
  return { network := ipv4ToInt octets, bits, reachable := row.2 }

def ipv4InCidr (addr network : BitVec 32) (bits : Nat) : Bool :=
  if bits = 0 then true
  else if 32 ≤ bits then addr == network
  else
    let mask := 0xffffffff#32 <<< (32 - bits)
    addr &&& mask == network &&& mask

def ROWS_V4 : List (String × Option Bool) :=
  [("0.0.0.0/8", some false), ("0.0.0.0/32", some false), ("10.0.0.0/8", some false), ("100.64.0.0/10", some false),
    ("127.0.0.0/8", some false), ("169.254.0.0/16", some false), ("172.16.0.0/12", some false),
    ("192.0.0.0/24", some false), ("192.0.0.0/29", some false), ("192.0.0.8/32", some false),
    ("192.0.0.9/32", some true), ("192.0.0.10/32", some true), ("192.0.0.170/32", some false),
    ("192.0.0.171/32", some false), ("192.0.2.0/24", some false), ("192.31.196.0/24", some true),
    ("192.52.193.0/24", some true), ("192.88.99.0/24", none), ("192.88.99.2/32", some false),
    ("192.168.0.0/16", some false), ("192.175.48.0/24", some true), ("198.18.0.0/15", some false),
    ("198.51.100.0/24", some false), ("203.0.113.0/24", some false), ("240.0.0.0/4", some false),
    ("255.255.255.255/32", some false)]

def SPECIAL_PURPOSE_V4 : List Cidr4 := (ROWS_V4.mapM ipv4FromCidr).getD []

def MULTICAST_V4_PREFIX : Nat := 4
def MULTICAST_V4_NETWORK : BitVec 32 := ipv4ToInt [224, 0, 0, 0]

-- What the longest of the prefixes around an address says: both tables are searched in this way.
def mostSpecific {Entry : Type} (bits : Entry → Nat) (reachable : Entry → Option Bool) (inside : Entry → Bool)
    (entries : List Entry) : Bool :=
  let best := entries.foldl
    (fun (best : Option Entry) entry =>
      if reachable entry = none ∨ !inside entry then best
      else match best with
        | none => some entry
        | some found => if bits found < bits entry then some entry else best) none
  match best with
  | none => true
  | some found => reachable found == some true

def isGlobalIpv4Int (addr : BitVec 32) : Bool :=
  if ipv4InCidr addr MULTICAST_V4_NETWORK MULTICAST_V4_PREFIX then false
  else mostSpecific Cidr4.bits Cidr4.reachable (fun entry => ipv4InCidr addr entry.network entry.bits) SPECIAL_PURPOSE_V4

def hextetsToBigInts (hextets : List Nat) : Nat × Nat :=
  let h i := hextets.getD i 0
  ((((h 0 <<< 48) ||| (h 1 <<< 32)) ||| (h 2 <<< 16)) ||| h 3,
    (((h 4 <<< 48) ||| (h 5 <<< 32)) ||| (h 6 <<< 16)) ||| h 7)

-- `none` where the source throws.
def parseIpv6Cidr (js : Runtime) (cidr : String) (reachable : Option Bool) : Option Cidr6 := do
  let (addr, bits) ← splitCidr cidr.toList
  let hextets ← parseIpv6HextetsForLiteral js addr
  let (hi, lo) := hextetsToBigInts hextets
  return { networkHi := hi, networkLo := lo, bits, reachable }

def ipv6InCidr (hi lo networkHi networkLo bits : Nat) : Bool :=
  if bits = 0 then true
  else if 128 ≤ bits then hi == networkHi && lo == networkLo
  else if bits ≤ 64 then
    let mask := ((1 <<< bits) - 1) <<< (64 - bits)
    hi &&& mask == networkHi &&& mask
  else
    let loPrefix := bits - 64
    let loMask := ((1 <<< loPrefix) - 1) <<< (64 - loPrefix)
    hi == networkHi && lo &&& loMask == networkLo &&& loMask

def ROWS_V6 : List (String × Option Bool) :=
  [("::1/128", some false), ("::/128", some false), ("::ffff:0:0/96", some false), ("64:ff9b::/96", some true),
    ("64:ff9b:1::/48", some false), ("100::/64", some false), ("100:0:0:1::/64", some false),
    ("2001::/23", some false), ("2001::/32", some false), ("2001:1::1/128", some true), ("2001:1::2/128", some true),
    ("2001:1::3/128", some true), ("2001:2::/48", some false), ("2001:3::/32", some true),
    ("2001:4:112::/48", some true), ("2001:10::/28", none), ("2001:20::/28", some true), ("2001:30::/28", some true),
    ("2001:db8::/32", some false), ("2002::/16", some false), ("2620:4f:8000::/48", some true),
    ("3fff::/20", some false), ("5f00::/16", some false), ("fc00::/7", some false), ("fe80::/10", some false)]

def SPECIAL_PURPOSE_V6 (js : Runtime) : List Cidr6 :=
  (ROWS_V6.mapM fun row => parseIpv6Cidr js row.1 row.2).getD []

def noCidr6 : Cidr6 := { networkHi := 0, networkLo := 0, bits := 0, reachable := none }

def GLOBAL_UNICAST_V6 (js : Runtime) : Cidr6 := (parseIpv6Cidr js "2000::/3" none).getD noCidr6
def MAPPED_V4_V6 (js : Runtime) : Cidr6 := (parseIpv6Cidr js "::ffff:0:0/96" none).getD noCidr6
def NAT64_WELL_KNOWN_V6 (js : Runtime) : Cidr6 := (parseIpv6Cidr js "64:ff9b::/96" none).getD noCidr6

def embeddedIpv4FromHextets (js : Runtime) (hextets : List Nat) : Option (BitVec 32) :=
  let (hi, lo) := hextetsToBigInts hextets
  let inMapped := ipv6InCidr hi lo (MAPPED_V4_V6 js).networkHi (MAPPED_V4_V6 js).networkLo (MAPPED_V4_V6 js).bits
  let inNat64 := ipv6InCidr hi lo (NAT64_WELL_KNOWN_V6 js).networkHi (NAT64_WELL_KNOWN_V6 js).networkLo
    (NAT64_WELL_KNOWN_V6 js).bits
  if !inMapped && !inNat64 then none
  else some ((BitVec.ofNat 32 (hextets.getD 6 0) <<< 16) ||| BitVec.ofNat 32 (hextets.getD 7 0))

def isGlobalIpv6Hextets (js : Runtime) (hextets : List Nat) : Bool :=
  match embeddedIpv4FromHextets js hextets with
  | some embedded => isGlobalIpv4Int embedded
  | none =>
      let (hi, lo) := hextetsToBigInts hextets
      if !ipv6InCidr hi lo (GLOBAL_UNICAST_V6 js).networkHi (GLOBAL_UNICAST_V6 js).networkLo
          (GLOBAL_UNICAST_V6 js).bits then false
      else
        mostSpecific Cidr6.bits Cidr6.reachable
          (fun entry => ipv6InCidr hi lo entry.networkHi entry.networkLo entry.bits) (SPECIAL_PURPOSE_V6 js)

-- `none` when the host is no address literal.
def isGlobalIpLiteral (js : Runtime) (host : List Char) : Option Bool :=
  let bare := toLowerCase js (stripConnectHostBrackets (trimChars host))
  if bare = [] then none
  else if ':' ∈ bare then (parseIpv6HextetsForLiteral js bare).map (isGlobalIpv6Hextets js)
  else (parseIpv4Octets bare).map fun octets => isGlobalIpv4Int (ipv4ToInt octets)

-- The answer for an address depends on its hextets only.
theorem isGlobalIpLiteral_of_textForm {js : Runtime} (hjs : LowersAddresses js) {host : List Char} {values : List Nat}
    (h : TextForm (stripConnectHostBrackets host) values) :
    isGlobalIpLiteral js host = some (isGlobalIpv6Hextets js values) := by
  generalize htext : stripConnectHostBrackets host = text at h
  have hlower := textForm_map.mpr h
  have hcolon := colon_mem_of_textForm hlower
  have hparse : parseIpv6HextetsForLiteral js (text.map Char.toLower) = some values := by
    rw [parseIpv6HextetsForLiteral_eq_some_iff hjs, stripConnectHostBrackets_plain hlower.chars]
    exact hlower
  unfold isGlobalIpLiteral
  simp only [stripConnectHostBrackets_trim, htext, toLowerCase_of_chars hjs h.chars]
  rw [if_neg (List.ne_nil_of_mem hcolon), if_pos hcolon, hparse]
  rfl

theorem isGlobalIpLiteral_of_octets {js : Runtime} (hjs : LowersAddresses js) {host : List Char} {octets : List Nat}
    (hoctets : parseIpv4Octets (stripConnectHostBrackets host) = some octets) :
    isGlobalIpLiteral js host = some (isGlobalIpv4Int (ipv4ToInt octets)) := by
  generalize htext : stripConnectHostBrackets host = text at hoctets
  obtain ⟨-, -, -, -, a, b, c, d, -, -, -, -, -, rfl⟩ := parseIpv4Octets_eq_some_iff.mp hoctets
  have hquad : IsQuad text ((a <<< 8) ||| b) ((c <<< 8) ||| d) :=
    parseIpv4Octets_quad.mpr ⟨a, b, c, d, hoctets, rfl, rfl⟩
  have hchars := (Groups.quad hquad).chars text List.mem_cons_self
  have hsame : text.map Char.toLower = text :=
    (List.map_congr_left fun c hc => (toLower_eq_iff (hquad.low c hc)).mpr rfl).trans (List.map_id text)
  obtain ⟨hcolon, hdot⟩ := hquad.plain
  unfold isGlobalIpLiteral
  simp only [stripConnectHostBrackets_trim, htext, toLowerCase_of_chars hjs hchars, hsame]
  rw [if_neg (List.ne_nil_of_mem hdot), if_neg hcolon, hoctets]
  rfl

-- The two hextets of a quad make the number of its four octets.
theorem ipv4ToInt_eq {a b c d : Nat} (hb : b ≤ 255) (hd : d ≤ 255) : ipv4ToInt [a, b, c, d] =
    (BitVec.ofNat 32 (256 * a + b) <<< 16) ||| BitVec.ofNat 32 (256 * c + d) := by
  have hshift : ∀ x : Nat, BitVec.ofNat 32 (x <<< 8) = BitVec.ofNat 32 x <<< 8 := fun x => by
    apply BitVec.eq_of_toNat_eq
    simp [Nat.shiftLeft_eq, Nat.mod_mul_mod]
  have hpair : ∀ {x y : Nat}, y ≤ 255 →
      BitVec.ofNat 32 (256 * x + y) = (BitVec.ofNat 32 x <<< 8) ||| BitVec.ofNat 32 y := by
    intro x y hy
    rw [← shiftLeft_or hy, BitVec.ofNat_or, hshift]
  rw [hpair hb, hpair hd, BitVec.shiftLeft_or_distrib, ← BitVec.shiftLeft_add]
  simp only [ipv4ToInt, List.getD_cons_zero, List.getD_cons_succ, BitVec.or_assoc]

-- A mask of the upper half sees the upper half only.
theorem and_upper {k x m : Nat} (hx : x < 2 ^ 32) : ((k <<< 32) ||| x) &&& (m <<< 32) = (k &&& m) <<< 32 := by
  apply Nat.eq_of_testBit_eq
  intro i
  simp only [Nat.testBit_and, Nat.testBit_or, Nat.testBit_shiftLeft]
  by_cases hi : 32 ≤ i
  · rw [Nat.testBit_lt_two_pow (hx.trans_le (Nat.pow_le_pow_right (by omega) hi))]
    simp [hi]
  · simp [hi]

theorem ipv6InCidr_upper {hi k x net : Nat} (hx : x < 2 ^ 32) :
    ipv6InCidr hi ((k <<< 32) ||| x) hi net 96 = ((k &&& (1 <<< 32 - 1)) <<< 32 == net &&& (1 <<< 32 - 1) <<< 32) := by
  simp only [ipv6InCidr]
  rw [if_neg (by omega), if_neg (by omega), if_neg (by omega), and_upper hx, beq_self_eq_true, Bool.true_and]

theorem parseIpv6Cidr_congr {js : Runtime} (hjs : LowersAddresses js) (cidr : String) (reachable : Option Bool) :
    parseIpv6Cidr js cidr reachable = parseIpv6Cidr asciiRuntime cidr reachable := by
  simp only [parseIpv6Cidr, parseIpv6HextetsForLiteral_congr hjs]

-- Every row of the two tables is read, so nothing is thrown where they are made.
theorem tables_load {js : Runtime} (hjs : LowersAddresses js) : (ROWS_V4.mapM ipv4FromCidr).isSome = true ∧
    (ROWS_V6.mapM fun row => parseIpv6Cidr js row.1 row.2).isSome = true := by
  simp only [parseIpv6Cidr_congr hjs]
  decide

-- `::ffff:0:0/96` and `64:ff9b::/96` stand for the quad in the last two hextets.
theorem embeddedIpv4FromHextets_eq {js : Runtime} (hjs : LowersAddresses js) {high low : Nat}
    (hhigh : high < 2 ^ 16) (hlow : low < 2 ^ 16) {front : List Nat}
    (hfront : front = [0, 0, 0, 0, 0, 0xffff] ∨ front = [0x64, 0xff9b, 0, 0, 0, 0]) :
    embeddedIpv4FromHextets js (front ++ [high, low]) =
      some ((BitVec.ofNat 32 high <<< 16) ||| BitVec.ofNat 32 low) := by
  have hmapped : MAPPED_V4_V6 js =
      { networkHi := 0, networkLo := 0xffff00000000, bits := 96, reachable := none } := by
    rw [MAPPED_V4_V6, parseIpv6Cidr_congr hjs]
    rfl
  have hnat64 : NAT64_WELL_KNOWN_V6 js =
      { networkHi := 0x64ff9b00000000, networkLo := 0, bits := 96, reachable := none } := by
    rw [NAT64_WELL_KNOWN_V6, parseIpv6Cidr_congr hjs]
    rfl
  have hpair : (high <<< 16) ||| low < 2 ^ 32 := by
    refine Nat.or_lt_two_pow ?_ (by omega)
    rw [Nat.shiftLeft_eq]
    omega
  rcases hfront with rfl | rfl
  · have hints : hextetsToBigInts ([0, 0, 0, 0, 0, 0xffff] ++ [high, low]) =
        (0, (0xffff <<< 32) ||| ((high <<< 16) ||| low)) := by
      simp only [hextetsToBigInts, List.cons_append, List.nil_append, List.getD_cons_zero, List.getD_cons_succ,
        Nat.zero_shiftLeft, Nat.zero_or, Nat.or_assoc]
    simp only [embeddedIpv4FromHextets, hints, hmapped, ipv6InCidr_upper hpair]
    rfl
  · have hints : hextetsToBigInts ([0x64, 0xff9b, 0, 0, 0, 0] ++ [high, low]) =
        (0x64ff9b00000000, (0 <<< 32) ||| ((high <<< 16) ||| low)) := by
      simp only [hextetsToBigInts, List.cons_append, List.nil_append, List.getD_cons_zero, List.getD_cons_succ,
        Nat.zero_shiftLeft, Nat.zero_or, Nat.or_zero]
      rfl
    simp only [embeddedIpv4FromHextets, hints, hnat64, ipv6InCidr_upper hpair]
    rw [if_neg (by simp)]
    rfl

theorem isQuad_bounds {text : List Char} {high low : Nat} (h : IsQuad text high low) :
    high < 2 ^ 16 ∧ low < 2 ^ 16 := by
  obtain ⟨_, _, _, _, a, b, c, d, ha, hb, hc, hd, -, rfl, rfl⟩ := h
  have := ha.2.2.2.2
  have := hb.2.2.2.2
  have := hc.2.2.2.2
  have := hd.2.2.2.2
  omega

theorem isGlobalIpLiteral_of_isQuad {js : Runtime} (hjs : LowersAddresses js) {host : List Char} {high low : Nat}
    (h : IsQuad (stripConnectHostBrackets host) high low) : isGlobalIpLiteral js host =
      some (isGlobalIpv4Int ((BitVec.ofNat 32 high <<< 16) ||| BitVec.ofNat 32 low)) := by
  obtain ⟨ta, tb, tc, td, a, b, c, d, ha, hb, hc, hd, htext, rfl, rfl⟩ := h
  have hoctets : parseIpv4Octets (stripConnectHostBrackets host) = some [a, b, c, d] :=
    parseIpv4Octets_eq_some_iff.mpr ⟨ta, tb, tc, td, a, b, c, d, ha, hb, hc, hd, htext, rfl⟩
  rw [isGlobalIpLiteral_of_octets hjs hoctets, ipv4ToInt_eq hb.2.2.2.2 hd.2.2.2.2]

-- The parser accepts the text forms of addresses and returns what they denote; so whether an address is
-- global depends on the address and not on its spelling, and an address that stands for a quad is judged as the quad.
theorem ipv6_literals_denote_addresses {js : Runtime} (hjs : LowersAddresses js) :
    (∀ (host : List Char) (hextets : List Nat), parseIpv6HextetsForLiteral js host = some hextets ↔
      TextForm (stripConnectHostBrackets host) hextets) ∧
    (∀ (host other : List Char) (hextets : List Nat), TextForm (stripConnectHostBrackets host) hextets →
      TextForm (stripConnectHostBrackets other) hextets →
        isGlobalIpLiteral js host = isGlobalIpLiteral js other ∧ isGlobalIpLiteral js host ≠ none) ∧
    ∀ (host quad : List Char) (front : List Nat) (high low : Nat),
      front = [0, 0, 0, 0, 0, 0xffff] ∨ front = [0x64, 0xff9b, 0, 0, 0, 0] →
        TextForm (stripConnectHostBrackets host) (front ++ [high, low]) →
          IsQuad (stripConnectHostBrackets quad) high low →
            isGlobalIpLiteral js host = isGlobalIpLiteral js quad := by
  refine ⟨fun host hextets => parseIpv6HextetsForLiteral_eq_some_iff hjs, fun host other hextets hhost hother => ?_,
    fun host quad front high low hfront hhost hquad => ?_⟩
  · rw [isGlobalIpLiteral_of_textForm hjs hhost, isGlobalIpLiteral_of_textForm hjs hother]
    exact ⟨rfl, Option.some_ne_none _⟩
  · obtain ⟨hhigh, hlow⟩ := isQuad_bounds hquad
    rw [isGlobalIpLiteral_of_textForm hjs hhost, isGlobalIpLiteral_of_isQuad hjs hquad, isGlobalIpv6Hextets,
      embeddedIpv4FromHextets_eq hjs hhigh hlow hfront]

-- `[::FFFF:10.1.2.3]` spelled in two ways, and the private address it stands for.
theorem ipv6_literals_denote_addresses_private :
    parseIpv6HextetsForLiteral asciiRuntime "[::FFFF:10.1.2.3]".toList = some [0, 0, 0, 0, 0, 0xffff, 0xa01, 0x203] ∧
    isGlobalIpLiteral asciiRuntime "[::FFFF:10.1.2.3]".toList = isGlobalIpLiteral asciiRuntime " 0:0:0:0:0:ffff:a01:203 ".toList ∧
    isGlobalIpLiteral asciiRuntime "[::FFFF:10.1.2.3]".toList = isGlobalIpLiteral asciiRuntime "10.1.2.3".toList := by
  have hform : TextForm (stripConnectHostBrackets "[::FFFF:10.1.2.3]".toList) [0, 0, 0, 0, 0, 0xffff, 0xa01, 0x203] :=
    (parseHextets_eq_some_iff (by decide)).mp (by decide)
  have hother : TextForm (stripConnectHostBrackets " 0:0:0:0:0:ffff:a01:203 ".toList) [0, 0, 0, 0, 0, 0xffff, 0xa01, 0x203] :=
    (parseHextets_eq_some_iff (by decide)).mp (by decide)
  have hquad : IsQuad (stripConnectHostBrackets "10.1.2.3".toList) 0xa01 0x203 :=
    parseIpv4Octets_quad.mpr ⟨10, 1, 2, 3, by decide, by decide, by decide⟩
  obtain ⟨hparse, hsame, hembedded⟩ := ipv6_literals_denote_addresses lowersAddresses_asciiRuntime
  exact ⟨(hparse _ _).mpr hform, (hsame _ _ _ hform hother).1, hembedded _ _ _ _ _ (.inl rfl) hform hquad⟩

example : isGlobalIpLiteral asciiRuntime "64:FF9B::808:808".toList = some true := by decide

end MeshClient.Net
