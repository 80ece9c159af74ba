import MeshClient.Lib.Delimited
import MeshClient.Lib.OrderedMap
import MeshClient.Lib.TextLines
import MeshClient.Lib.Trim

namespace MeshClient.Reticulum

open TextLines

abbrev Text := List Char

-- `char::is_whitespace`
def isWhitespace (c : Char) : Bool :=
  c.toNat ∈ [0x20, 0x85, 0xA0, 0x1680, 0x2028, 0x2029, 0x202F, 0x205F, 0x3000] ||
    (0x9 ≤ c.toNat && c.toNat ≤ 0xD) || (0x2000 ≤ c.toNat && c.toNat ≤ 0x200A)

def isQuote (c : Char) : Bool := c = '"'

def trim (s : Text) : Text := Trim.trim isWhitespace s

-- `trim_matches('"')`
def trimQuotes (s : Text) : Text := Trim.trim isQuote s

-- `order` is the order of the keys of the map.
structure IniBlock where
  name : Text
  values : OrderedMap Text Text := ∅
deriving DecidableEq

def IniBlock.get (b : IniBlock) (key : Text) : Option Text := b.values.get? key

def IniBlock.set (b : IniBlock) (key value : Text) : IniBlock := { b with values := b.values.set key value }

def RETICULUM : Text := "reticulum".toList
def LOGGING : Text := "logging".toList
def INTERFACES : Text := "interfaces".toList

structure ParsedConfig where
  reticulum : IniBlock := { name := RETICULUM }
  logging : IniBlock := { name := LOGGING }
  interfaces : List IniBlock := []
  extraSections : List Text := []
deriving DecidableEq

structure Parsing extends ParsedConfig where
  currentTop : Option Text := none
  currentIface : Option Nat := none
deriving DecidableEq

def stripCommentFrom (inQuote : Bool) : Text → Text
  | [] => []
  | c :: cs =>
      if c = '"' then c :: stripCommentFrom (!inQuote) cs
      else if c = '#' ∧ inQuote = false then []
      else c :: stripCommentFrom inQuote cs

def stripComment (line : Text) : Text := stripCommentFrom false line

inductive Line where
  | blank
  | section' (depth : Nat) (name : Text)
  | entry (key value : Text)
deriving DecidableEq

def readSection (line : Text) : Except String Line :=
  let opened := (line.takeWhile (· = '[')).length
  let closed := (line.reverse.takeWhile (· = ']')).length
  if opened ≠ closed then .error "mismatched brackets"
  else
    let name := trim ((line.drop opened).take (line.length - closed - opened))
    if name = [] then .error "empty section name" else .ok (.section' opened name)

def readEntry (line : Text) : Except String Line :=
  if '=' ∈ line then
    let key := trim (line.takeWhile (· ≠ '='))
    let value := trimQuotes (trim ((line.dropWhile (· ≠ '=')).drop 1))
    if key = [] then .error "empty key" else .ok (.entry key value)
  else .error "unrecognized line"

-- What a line says, wherever it stands.
def readLine (raw : Text) : Except String Line :=
  let line := trim (stripComment raw)
  if line = [] then .ok .blank
  else if line.head? = some '[' ∧ line.getLast? = some ']' then readSection line
  else readEntry line

def reserved (name : Text) : Bool := decide (name ∈ [RETICULUM, LOGGING, INTERFACES])

def header (name : Text) : Text := '[' :: (name ++ [']'])

def entryLine (key value : Text) : Text := key ++ " = ".toList ++ value

def extraLine (key value other : Text) : Text := entryLine key value ++ "  # section=".toList ++ other

def placeSection (st : Parsing) (depth : Nat) (name : Text) : Except String Parsing :=
  if depth = 1 then
    .ok { st with
      currentIface := none
      currentTop := some name
      extraSections := if reserved name then st.extraSections else st.extraSections ++ [header name] }
  else if depth = 2 then
    if st.currentTop ≠ some INTERFACES then .error "interface subsection outside [interfaces]"
    else
      .ok { st with
        interfaces := st.interfaces ++ [{ name }]
        currentIface := some st.interfaces.length }
  else .error "nesting depth > 2 not supported"

def placeEntry (st : Parsing) (key value : Text) : Parsing :=
  match st.currentTop with
  | none => { st with extraSections := st.extraSections ++ [entryLine key value] }
  | some top =>
      if top = RETICULUM then { st with reticulum := st.reticulum.set key value }
      else if top = LOGGING then { st with logging := st.logging.set key value }
      else if top = INTERFACES then
        match st.currentIface with
        | some idx => { st with interfaces := st.interfaces.modify idx fun b => b.set key value }
        | none => st
      else { st with extraSections := st.extraSections ++ [extraLine key value top] }

def place (st : Parsing) : Line → Except String Parsing
  | .blank => .ok st
  | .section' depth name => placeSection st depth name
  | .entry key value => .ok (placeEntry st key value)

def parseLine (st : Parsing) (raw : Text) : Except String Parsing :=
  match readLine raw with
  | .ok line => place st line
  | .error e => .error e

def parseLines (st : Parsing) (lineNum : Nat) : List Text → Except String Parsing
  | [] => .ok st
  | raw :: rest =>
      match parseLine st raw with
      | .ok st => parseLines st (lineNum + 1) rest
      | .error e => .error ("line " ++ toString (lineNum + 1) ++ ": " ++ e)

def parseConfig (input : Text) : Except String ParsedConfig :=
  (parseLines {} 0 (lines input)).map Parsing.toParsedConfig

def entryLines (b : IniBlock) : List Text := b.values.entries.map fun e => entryLine e.1 e.2

def ifaceLines (b : IniBlock) : List Text := header (header b.name) :: (entryLines b ++ [[]])

def configLines (parsed : ParsedConfig) : List Text :=
  ["# mesh-client-reticulum sidecar config".toList, [], header RETICULUM] ++ entryLines parsed.reticulum ++
    [[], header LOGGING] ++ entryLines parsed.logging ++ [[], header INTERFACES, []] ++
    parsed.interfaces.flatMap ifaceLines ++ parsed.extraSections

def serializeConfig (parsed : ParsedConfig) : Text := unlines (configLines parsed)

end MeshClient.Reticulum
