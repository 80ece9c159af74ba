import MeshClient.Js.Text

namespace MeshClient.Meshcore.Cli

open Js

abbrev Text := List Char

def text (s : String) : Text := s.toList

def MESHCORE_CLI_REDACTED : Text := text "[redacted]"

def isWordChar (c : Char) : Bool := c.isAlphanum || c = '_'

-- `w` stands at the front, whatever the case of its letters: what follows it.
def stripWord : Text → Text → Option Text
  | [], cs => some cs
  | _ :: _, [] => none
  | w :: ws, c :: cs => if c.toLower = w then stripWord ws cs else none

-- `\s+`
def stripSpaces : Text → Option Text
  | [] => none
  | c :: cs => if isSpace c then some (cs.dropWhile isSpace) else none

-- `\b` behind a letter.
def atBoundary (rest : Text) : Bool := rest.head?.all fun c => !isWordChar c

def secretName (cs : Text) : Option Text :=
  (stripWord (text "guest.password") cs).or ((stripWord (text "prv.key") cs).or (stripWord (text "wifi.pwd") cs))

-- What follows the head of `SECRET_COMMAND_RE`.
def afterSecretHead (cs : Text) : Option Text :=
  let named := ((((stripWord (text "get") cs).or (stripWord (text "set") cs)).bind stripSpaces).bind secretName).filter atBoundary
  let pin := (((stripWord (text "set") cs).bind stripSpaces).bind (stripWord (text "pin"))).filter atBoundary
  ((stripWord (text "password") cs).filter atBoundary).or (named.or pin)

-- `TOKEN_PREFIX_RE` matches at the front.
def stripTokenPrefix (command : Text) : Text :=
  match trimChars command with
  | a :: b :: '|' :: rest => if a.isAlphanum && b.isAlphanum then rest else a :: b :: '|' :: rest
  | cs => cs

def meshcoreCliSecretCommandHead (command : Text) : Option Text :=
  let cs := stripTokenPrefix command
  (afterSecretHead cs).map fun rest => cs.take (cs.length - rest.length)

def redactMeshcoreCliSecretCommand (command : Text) : Text :=
  match meshcoreCliSecretCommandHead command with
  | some head => head ++ ' ' :: MESHCORE_CLI_REDACTED
  | none => command

-- Without a response.
def redactMeshcoreCliSecrets (command : Text) : Text :=
  if (meshcoreCliSecretCommandHead (trimChars command)).isSome then redactMeshcoreCliSecretCommand (trimChars command)
  else command

end MeshClient.Meshcore.Cli
