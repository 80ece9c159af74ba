import MeshClient.Js.Text
import MeshClient.Lib.OrderedMap
import MeshClient.Lib.Run

namespace MeshClient.Mqtt

open Js

abbrev Psk := List UInt8

-- The firmware's default channel key.
def MESHTASTIC_DEFAULT_PUBLIC_PSK_BYTES : Psk :=
  [0xd4, 0xf1, 0xbb, 0x3a, 0x20, 0x29, 0x07, 0x59, 0xf0, 0xbc, 0xff, 0xab, 0xcf, 0x4e, 0x69, 0x01]

def DEFAULT_PSK : Psk := MESHTASTIC_DEFAULT_PUBLIC_PSK_BYTES

-- A one-byte key stands for the default key with its last byte moved on.
def expandMeshtasticPskAlias (index : UInt8) : Option Psk :=
  if index < 1 ∨ 10 < index then none
  else
    let lastIndex := MESHTASTIC_DEFAULT_PUBLIC_PSK_BYTES.length - 1
    some (MESHTASTIC_DEFAULT_PUBLIC_PSK_BYTES.mapIdx fun i byte =>
      if i = lastIndex then byte + (index - 1) else byte)

def aliasOf : Psk → Option Psk
  | [byte] => expandMeshtasticPskAlias byte
  | _ => none

def zeroPadded (psk : Psk) : Psk := (psk ++ List.replicate 16 0).take 16

def normalizeMeshtasticPskTo16Bytes (psk : Psk) : Psk := (aliasOf psk).getD (zeroPadded psk)

def isMeshtasticDefaultPublicPsk (psk : Psk) : Bool :=
  psk ≠ [] && normalizeMeshtasticPskTo16Bytes psk = MESHTASTIC_DEFAULT_PUBLIC_PSK_BYTES

-- `decode` reads base64 text as bytes.
def parsePsk (decode : String → List UInt8) (b64 : String) : Option Psk :=
  if trim b64 = "" then none
  else
    let raw := decode b64
    if raw.length = 0 then none
    else if raw.length = 16 ∨ raw.length = 32 then some raw
    else match aliasOf raw with
      | some expanded => some expanded
      | none => if raw.length < 16 then some (zeroPadded raw) else none

inductive SplitChannelPskLine where
  | named (name : String) (index : Option Nat) (b64 : String)
  | bare (b64 : String)
deriving DecidableEq, Repr

def NAMED_CHANNEL_LABEL_MAX_LEN : Nat := 20

def isLabelChar (c : Char) : Bool := c.isAlphanum || c = '_' || c = '-'

-- ^([A-Za-z0-9_-]+)(@[0-7])?$
def namedChannelPskLeft (left : List Char) : Option (String × Option Nat) :=
  match left.takeWhile isLabelChar, left.dropWhile isLabelChar with
  | [], _ => none
  | name, [] => some (String.ofList name, none)
  | name, ['@', digit] =>
      if '0' ≤ digit ∧ digit ≤ '7' then some (String.ofList name, some (digit.toNat - '0'.toNat)) else none
  | _, _ => none

-- The first equals sign splits the line when what is left of it names a channel.
def splitChannelPskLine (line : String) : Option SplitChannelPskLine :=
  let trimmed := trimChars line.toList
  let bare := SplitChannelPskLine.bare (String.ofList trimmed)
  if trimmed = [] then none
  else match trimmed.takeWhile (· ≠ '='), trimmed.dropWhile (· ≠ '=') with
    | [], _ | _, [] => some bare
    | before, _ :: b64 =>
        let left := trimChars before
        match namedChannelPskLeft left with
        | none => some bare
        | some (name, index) =>
            if index.isSome ∨ 0 < b64.length ∨ left.length ≤ NAMED_CHANNEL_LABEL_MAX_LEN then
              some (.named name index (String.ofList b64))
            else some bare

structure ChannelPskLine where
  name : Option String
  index : Option Nat
  psk : Psk
deriving DecidableEq, Repr

def parseChannelPskLine (decode : String → List UInt8) (line : String) : Option ChannelPskLine :=
  (splitChannelPskLine line).bind fun split =>
    match split with
    | .named name index b64 => (parsePsk decode b64).map fun psk => ⟨some name, index, psk⟩
    | .bare b64 => (parsePsk decode b64).map fun psk => ⟨none, none, psk⟩

open Js Lists Run

structure MqttChannelKeyEntry where
  name : String
  pskBase64 : String
  index : Option Int := none
deriving DecidableEq, Repr

-- What the client knows of channels: the keys and slots by name, and which of them come from
-- the radio and which from the connection panel.
structure ChannelKeys where
  channelKeysByName : OrderedMap String Psk := ∅
  channelNameToIndex : OrderedMap String Nat := ∅
  radioTopicIndexByName : OrderedMap String Nat := ∅
  radioChannelSessionId : Option String := none
  radioChannelKeyNames : List String := []
  manualChannelPskLines : List String := []
  manualChannelKeyNames : List String := []
  decryptOnlyPsks : List Psk := []
  extraDecryptPsks : List Psk := []
  allDecryptKeys : List Psk := [DEFAULT_PSK]

section Source

variable (decode : String → List UInt8)

def MqttChannelKeyEntry.valid (entry : MqttChannelKeyEntry) : Option (String × Psk) :=
  let name := trim entry.name
  match parsePsk decode entry.pskBase64 with
  | some psk => if name = "" then none else some (name, psk)
  | none => none

-- `index >>> 0`, when it is one of the eight slots.
def MqttChannelKeyEntry.slot (entry : MqttChannelKeyEntry) : Option Nat :=
  entry.index.bind fun index =>
    let idx := (index % 2 ^ 32).toNat
    if idx ≤ 7 then some idx else none

def ChannelKeys.clearRadioChannelAttribution (s : ChannelKeys) : ChannelKeys :=
  { s with
    channelKeysByName := s.channelKeysByName.filter fun name _ => name ∉ s.radioChannelKeyNames
    channelNameToIndex := s.channelNameToIndex.filter fun name _ => name ∉ s.radioTopicIndexByName.keys
    radioChannelKeyNames := []
    radioTopicIndexByName := ∅ }

def ChannelKeys.evictRadioChannelName (s : ChannelKeys) (name : String) : ChannelKeys :=
  let s := { s with
    radioTopicIndexByName := s.radioTopicIndexByName.erase name
    channelNameToIndex := s.channelNameToIndex.erase name }
  if name ∈ s.radioChannelKeyNames then
    { s with
      channelKeysByName := s.channelKeysByName.erase name
      radioChannelKeyNames := s.radioChannelKeyNames.filter (· ≠ name) }
  else s

def ChannelKeys.evictAll (s : ChannelKeys) (names : List String) : ChannelKeys :=
  names.foldl ChannelKeys.evictRadioChannelName s

-- The names of a map, other than `name`, that have the slot.
def namesAt (slots : OrderedMap String Nat) (idx : Nat) (name : String) : List String :=
  (slots.entries.filter fun e => e.2 = idx && e.1 ≠ name).map Prod.fst

-- Another name must not keep the slot.
def ChannelKeys.takeSlot (s : ChannelKeys) (name : String) (idx : Nat) : ChannelKeys :=
  let s := s.evictAll (namesAt s.channelNameToIndex idx name)
  let s := s.evictAll (namesAt s.radioTopicIndexByName idx name)
  { s with
    radioTopicIndexByName := s.radioTopicIndexByName.set name idx
    channelNameToIndex := s.channelNameToIndex.set name idx }

def ChannelKeys.addRadioKey (s : ChannelKeys) (name : String) (psk : Psk) : ChannelKeys :=
  { s with
    channelKeysByName := s.channelKeysByName.set name psk
    radioChannelKeyNames := s.radioChannelKeyNames.insert name }

-- One manual line.
def ChannelKeys.applyLine (s : ChannelKeys) (line : String) : ChannelKeys :=
  match parseChannelPskLine decode line with
  | none => s
  | some ⟨some name, index, psk⟩ =>
      let s := { s with
        channelKeysByName := s.channelKeysByName.set name psk
        manualChannelKeyNames := s.manualChannelKeyNames.insert name }
      match index with
      | some idx => if idx ≤ 7 then { s with channelNameToIndex := s.channelNameToIndex.set name idx } else s
      | none =>
          if name = "LongFast" then { s with channelNameToIndex := s.channelNameToIndex.set name 0 } else s
  | some ⟨none, _, psk⟩ => { s with decryptOnlyPsks := s.decryptOnlyPsks ++ [psk] }

def ChannelKeys.applyManualChannelPskLines (s : ChannelKeys) (lines : List String) : ChannelKeys :=
  lines.foldl (ChannelKeys.applyLine decode)
    { s with
      channelKeysByName := s.channelKeysByName.filter fun name _ => name ∉ s.manualChannelKeyNames
      channelNameToIndex := s.channelNameToIndex.filter fun name _ => name ∉ s.manualChannelKeyNames
      manualChannelKeyNames := []
      decryptOnlyPsks := [] }

def ChannelKeys.rebuildAllDecryptKeys (s : ChannelKeys) : ChannelKeys :=
  { s with allDecryptKeys :=
      unique ([DEFAULT_PSK] ++ s.extraDecryptPsks ++ s.channelKeysByName.values ++ s.decryptOnlyPsks) }

-- Registers the key of a publish.
def ChannelKeys.ensureDecryptKey (s : ChannelKeys) (psk : Psk) : ChannelKeys :=
  if psk ∈ s.allDecryptKeys then s
  else { s with extraDecryptPsks := s.extraDecryptPsks ++ [psk] }.rebuildAllDecryptKeys

-- The slots and the keys that one push gives, by name.
def radioTopicIndices (entries : List MqttChannelKeyEntry) : OrderedMap String Nat :=
  entries.foldl (fun slots entry =>
    match entry.valid decode, entry.slot with
    | some (name, _), some idx => slots.set name idx
    | _, _ => slots) ∅

def ChannelKeys.radioPskByName (s : ChannelKeys) (entries : List MqttChannelKeyEntry) : OrderedMap String Psk :=
  entries.foldl (fun psks entry =>
    match entry.valid decode with
    | none => psks
    | some (name, psk) =>
        if name ∈ s.manualChannelKeyNames then psks
        else if isMeshtasticDefaultPublicPsk psk &&
            (s.channelKeysByName.get? name).any (fun existing => !isMeshtasticDefaultPublicPsk existing) then psks
        else psks.set name psk) ∅

-- A radio with another session takes nothing over from the one before.
def ChannelKeys.openSession (s : ChannelKeys) (radioSessionId : Option String) : ChannelKeys :=
  if radioSessionId.isSome ∧ radioSessionId ≠ s.radioChannelSessionId then
    { s.clearRadioChannelAttribution with radioChannelSessionId := radioSessionId }
  else s

def ChannelKeys.mergePush (s : ChannelKeys) (entries : List MqttChannelKeyEntry) : ChannelKeys :=
  let radioTopicIndices := radioTopicIndices decode entries
  let radioPskByName := s.radioPskByName decode entries
  let priorRadio := s.radioTopicIndexByName
  let s := radioTopicIndices.entries.foldl (fun s e => s.takeSlot e.1 e.2) s
  let s := radioPskByName.entries.foldl (fun s e => s.addRadioKey e.1 e.2) s
  -- names the push leaves out go when it covers every slot the radio had
  let coversPrior := 0 < priorRadio.size ∧ ∀ i ∈ priorRadio.values, i ∈ radioTopicIndices.values
  if coversPrior then s.evictAll (priorRadio.keys.filter (· ∉ radioTopicIndices.keys)) else s

def ChannelKeys.updateChannelKeys (s : ChannelKeys) (entries : List MqttChannelKeyEntry)
    (radioSessionId : Option String) : ChannelKeys :=
  let s := (s.openSession radioSessionId).mergePush decode entries
  let s := s.applyManualChannelPskLines decode s.manualChannelPskLines
  -- the radio's slots win over the manual lines
  { s with channelNameToIndex := s.channelNameToIndex.setAll s.radioTopicIndexByName.entries
    }.rebuildAllDecryptKeys

-- The part of `connect` that sets the channels.
def ChannelKeys.connect (s : ChannelKeys) (channelPsks : List String) : ChannelKeys :=
  let s := { s with channelKeysByName := ∅, channelNameToIndex := ∅ }.clearRadioChannelAttribution
  let s := { s with
    radioChannelSessionId := none
    manualChannelPskLines := channelPsks
    manualChannelKeyNames := []
    decryptOnlyPsks := []
    extraDecryptPsks := [] }
  (s.applyManualChannelPskLines decode channelPsks).rebuildAllDecryptKeys

end Source

-- What an entry of a push gives.
def MqttChannelKeyEntry.gives (decode : String → List UInt8) (entry : MqttChannelKeyEntry) (name : String)
    (idx : Nat) : Prop :=
  (∃ psk, entry.valid decode = some (name, psk)) ∧ entry.slot = some idx

section Manual

variable (decode : String → List UInt8) (name : String)

def lineKey (line : String) : Option Psk :=
  (parseChannelPskLine decode line).bind fun parsed => if parsed.name = some name then some parsed.psk else none

def lineSlot (line : String) : Option Nat :=
  (parseChannelPskLine decode line).bind fun parsed =>
    if parsed.name = some name then
      match parsed.index with
      | some idx => if idx ≤ 7 then some idx else none
      | none => if name = "LongFast" then some 0 else none
    else none

def bareKey (line : String) : Option Psk :=
  (parseChannelPskLine decode line).bind fun parsed => if parsed.name = none then some parsed.psk else none

-- The last line of a name wins.
def manualKey (lines : List String) : Option Psk := lines.reverse.findSome? (lineKey decode name)

def manualSlot (lines : List String) : Option Nat := lines.reverse.findSome? (lineSlot decode name)

end Manual

end MeshClient.Mqtt
