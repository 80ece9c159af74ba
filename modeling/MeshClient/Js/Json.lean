import MeshClient.Js.Text

namespace MeshClient.Js

open Lists

-- The numbers that `JSON.parse` gives; an exponent that is too large reads as an infinity.
inductive JsonNumber where
  | finite (q : ℚ)
  | infinite (negative : Bool)
deriving DecidableEq

inductive Json where
  | null
  | bool (b : Bool)
  | number (n : JsonNumber)
  | string (s : String)
  | array (items : List Json)
  | object (fields : List (String × Json))

namespace Json

def isObject : Json → Bool
  | .array _ => true
  | .object _ => true
  | _ => false

-- `undefined` is `none`.
def get (name : String) : Json → Option Json
  | .object fields => (fields.find? fun field => field.1 = name).map Prod.snd
  | _ => none

def isNull : Json → Bool
  | .null => true
  | _ => false

-- The left side of `??` where it is neither `null` nor `undefined`.
def known (value : Option Json) : Option Json := value.filter fun v => !v.isNull

def string? : Json → Option String
  | .string s => some s
  | _ => none

def number? : Json → Option JsonNumber
  | .number n => some n
  | _ => none

end Json

namespace JsonNumber

def ofNat (n : Nat) : JsonNumber := .finite n

-- `n >>> 0`
def toUint32 : JsonNumber → Nat
  | .finite q => (q.num.tdiv q.den % 2 ^ 32).toNat
  | .infinite _ => 0

def times (factor : Nat) : JsonNumber → JsonNumber
  | .finite q => .finite (factor * q)
  | .infinite negative => .infinite negative

def isZero : JsonNumber → Bool
  | .finite q => q = 0
  | .infinite _ => false

end JsonNumber

-- The double nearest to a natural number, the even one of two.
def roundToDouble (n : Nat) : Nat :=
  if n < 2 ^ 53 then n
  else
    let unit := 2 ^ (n.log2 - 52)
    let q := n / unit
    let r := n % unit
    if unit < 2 * r ∨ unit = 2 * r ∧ q % 2 = 1 then (q + 1) * unit else q * unit

def digitOf (radix : Nat) (c : Char) : Option Nat :=
  let value :=
    if isDigit c then some (c.toNat - '0'.toNat)
    else if 'a'.toNat ≤ c.toNat ∧ c.toNat ≤ 'z'.toNat then some (c.toNat - 'a'.toNat + 10)
    else if 'A'.toNat ≤ c.toNat ∧ c.toNat ≤ 'Z'.toNat then some (c.toNat - 'A'.toNat + 10)
    else none
  value.filter (· < radix)

def dropHexMark : List Char → List Char
  | '0' :: 'x' :: rest => rest
  | '0' :: 'X' :: rest => rest
  | cs => cs

def parseDigits (radix : Nat) (cs : List Char) : Option Nat :=
  let digits := ((if radix = 16 then dropHexMark cs else cs).map (digitOf radix)).takeWhile Option.isSome
  if digits = [] then none
  else some (roundToDouble (digits.foldl (fun n digit => radix * n + digit.getD 0) 0))

-- `parseInt(s, radix)`; `none` is NaN.
def parseInt (s : String) (radix : Nat) : Option Int :=
  match s.toList.dropWhile isSpace with
  | '-' :: cs => (parseDigits radix cs).map fun n => -(n : Int)
  | '+' :: cs => (parseDigits radix cs).map Int.ofNat
  | cs => (parseDigits radix cs).map Int.ofNat

end MeshClient.Js
