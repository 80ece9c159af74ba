import MeshClient.Js.Number
import MeshClient.Reticulum.ConfigRoundTrip

namespace MeshClient.Reticulum

-- `i32`
abbrev I32 : Type := { n : Int // -2 ^ 31 ≤ n ∧ n < 2 ^ 31 }

-- `str::parse` for the unsigned integers below a bound
def parseUnsigned (bound : Nat) (s : Text) : Option (Fin bound) :=
  let digits := if s.head? = some '+' then s.drop 1 else s
  if digits = [] ∨ !digits.all Js.isDigit then none
  else if h : Js.digitsValue digits < bound then some ⟨Js.digitsValue digits, h⟩ else none

-- `str::parse::<i32>`
def parseI32 (s : Text) : Option I32 :=
  let digits := if s.head? = some '+' ∨ s.head? = some '-' then s.drop 1 else s
  if digits = [] ∨ !digits.all Js.isDigit then none
  else
    let n : Int := if s.head? = some '-' then -(Js.digitsValue digits : Int) else Js.digitsValue digits
    if h : -2 ^ 31 ≤ n ∧ n < 2 ^ 31 then some ⟨n, h⟩ else none

def natText (n : Nat) : Text := Nat.toDigits 10 n

def intText (n : Int) : Text := if n < 0 then '-' :: natText n.natAbs else natText n.natAbs

def parseBool (raw : Text) : Option Bool :=
  let word := (trim raw).map Char.toLower
  if ["yes".toList, "true".toList, "on".toList, "1".toList].contains word then some true
  else if ["no".toList, "false".toList, "off".toList, "0".toList].contains word then some false
  else none

def boolToIni (v : Bool) : Text := if v then "Yes".toList else "No".toList

def IniBlock.getBool (b : IniBlock) (key : Text) : Option Bool := (b.get key).bind parseBool

def IniBlock.remove (b : IniBlock) (key : Text) : IniBlock := { b with values := b.values.erase key }

def DEFAULT_ANNOUNCE_INTERVAL_SEC : Nat := 3600

def ENABLE_TRANSPORT : Text := "enable_transport".toList
def SHARE_INSTANCE : Text := "share_instance".toList
def LOGLEVEL : Text := "loglevel".toList
def ANNOUNCE_INTERVAL_SEC : Text := "announce_interval_sec".toList
def AUTOCONNECT : Text := "autoconnect_discovered_interfaces".toList
def AUTOCONNECT_ALIAS : Text := "discover_interfaces_autoconnect".toList
def REQUIRED_VALUE : Text := "required_discovery_value".toList
def REQUIRED_VALUE_ALIAS : Text := "discover_interfaces_required_value".toList
def DISCOVERY_SOURCES : Text := "interface_discovery_sources".toList
def NETWORK_IDENTITY : Text := "network_identity".toList
def SLOW_RF_FILTER : Text := "slow_rf_announce_filter".toList

structure StackSettings where
  enableTransport : Bool
  shareInstance : Bool
  loglevel : I32
  announceIntervalSec : Fin (2 ^ 32)
  autoconnectDiscoveredInterfaces : Fin (2 ^ 32)
  requiredDiscoveryValue : Fin 256
  interfaceDiscoverySources : Text
  networkIdentity : Text
  slowRfAnnounceFilter : Bool
deriving DecidableEq

structure StackSettingsPatch where
  enableTransport : Option Bool := none
  shareInstance : Option Bool := none
  loglevel : Option I32 := none
  announceIntervalSec : Option (Fin (2 ^ 32)) := none
  autoconnectDiscoveredInterfaces : Option (Fin (2 ^ 32)) := none
  requiredDiscoveryValue : Option (Fin 256) := none
  interfaceDiscoverySources : Option Text := none
  networkIdentity : Option Text := none
  slowRfAnnounceFilter : Option Bool := none

-- What is given is taken, what is omitted stays.
def StackSettingsPatch.merge (patch : StackSettingsPatch) (current : StackSettings) : StackSettings where
  enableTransport := patch.enableTransport.getD current.enableTransport
  shareInstance := patch.shareInstance.getD current.shareInstance
  loglevel := patch.loglevel.getD current.loglevel
  announceIntervalSec := patch.announceIntervalSec.getD current.announceIntervalSec
  autoconnectDiscoveredInterfaces :=
    patch.autoconnectDiscoveredInterfaces.getD current.autoconnectDiscoveredInterfaces
  requiredDiscoveryValue := patch.requiredDiscoveryValue.getD current.requiredDiscoveryValue
  interfaceDiscoverySources := patch.interfaceDiscoverySources.getD current.interfaceDiscoverySources
  networkIdentity := patch.networkIdentity.getD current.networkIdentity
  slowRfAnnounceFilter := patch.slowRfAnnounceFilter.getD current.slowRfAnnounceFilter

def stackSettingsFromParsed (parsed : ParsedConfig) : StackSettings where
  enableTransport := (parsed.reticulum.getBool ENABLE_TRANSPORT).getD false
  shareInstance := (parsed.reticulum.getBool SHARE_INSTANCE).getD false
  loglevel := ((parsed.logging.get LOGLEVEL).bind parseI32).getD ⟨4, by decide⟩
  announceIntervalSec := ((parsed.reticulum.get ANNOUNCE_INTERVAL_SEC).bind (parseUnsigned (2 ^ 32))).getD
    (Fin.ofNat (2 ^ 32) DEFAULT_ANNOUNCE_INTERVAL_SEC)
  autoconnectDiscoveredInterfaces :=
    (((parsed.reticulum.get AUTOCONNECT).or (parsed.reticulum.get AUTOCONNECT_ALIAS)).bind
      (parseUnsigned (2 ^ 32))).getD 0
  requiredDiscoveryValue :=
    (((parsed.reticulum.get REQUIRED_VALUE).or (parsed.reticulum.get REQUIRED_VALUE_ALIAS)).bind
      (parseUnsigned 256)).getD 16
  interfaceDiscoverySources := (parsed.reticulum.get DISCOVERY_SOURCES).getD []
  networkIdentity := (parsed.reticulum.get NETWORK_IDENTITY).getD []
  -- Absent key = filter on
  slowRfAnnounceFilter := (parsed.reticulum.getBool SLOW_RF_FILTER).getD true

def isHexDigit (c : Char) : Bool := (Js.digitOf 16 c).isSome

def normalizeSources : List Text → Except String (List Text)
  | [] => .ok []
  | part :: rest =>
      if part = [] then normalizeSources rest
      else if part.length ≠ 32 ∨ !part.all isHexDigit then
        .error ("invalid interface_discovery_sources entry (need 32 hex chars): " ++ String.ofList part)
      else (normalizeSources rest).map (part.map Char.toLower :: ·)

def normalizeDiscoverySources (raw : Text) : Except String Text :=
  (normalizeSources (raw.splitOnP fun c => c = ',' || isWhitespace c)).map (", ".toList.intercalate ·)

def validateIniScalar (field : String) (value : Text) : Except String Unit :=
  if '\n' ∈ value ∨ '\r' ∈ value ∨ '\x00' ∈ value then .error ("invalid " ++ field) else .ok ()

-- The settings that are always written; the old name of one of them goes.
def stampFixed (block : IniBlock) (settings : StackSettings) : IniBlock :=
  ((((((block.set ENABLE_TRANSPORT (boolToIni settings.enableTransport)).set
    SHARE_INSTANCE (boolToIni settings.shareInstance)).set
    ANNOUNCE_INTERVAL_SEC (natText settings.announceIntervalSec.val)).set
    AUTOCONNECT (natText settings.autoconnectDiscoveredInterfaces.val)).set
    REQUIRED_VALUE (natText (max settings.requiredDiscoveryValue.val 1))).set
    SLOW_RF_FILTER (boolToIni settings.slowRfAnnounceFilter)).remove REQUIRED_VALUE_ALIAS

def setOrRemove (block : IniBlock) (key value : Text) : IniBlock :=
  if value = [] then block.remove key else block.set key value

def stampSettings (parsed : ParsedConfig) (settings : StackSettings) : Except String ParsedConfig := do
  let sources ← normalizeDiscoverySources settings.interfaceDiscoverySources
  let networkIdentity := trim settings.networkIdentity
  if networkIdentity ≠ [] then validateIniScalar "network_identity" networkIdentity
  return { parsed with
    reticulum := setOrRemove (setOrRemove (stampFixed parsed.reticulum settings) DISCOVERY_SOURCES sources)
      NETWORK_IDENTITY networkIdentity
    logging := parsed.logging.set LOGLEVEL (intText settings.loglevel.val) }

def defaultConfigContent : Text :=
  serializeConfig
    { reticulum := blockOf "reticulum" [("enable_transport", "No"), ("share_instance", "No"),
        ("instance_name", "mesh-client"), ("discover_interfaces", "Yes"), ("announce_interval_sec", "3600")]
      logging := blockOf "logging" [("loglevel", "4")] }

-- `none` when there is no file.
def readConfig (file : Option Text) : Text := file.getD defaultConfigContent

def getStackSettings (file : Option Text) : Except String StackSettings :=
  (parseConfig (readConfig file)).map stackSettingsFromParsed

-- What the file holds after the write; `io` is how the file system takes it. The file is replaced in one step.
def writeConfig (io : Except String Unit) (content : Text) : Except String Text := do
  let _ ← parseConfig content
  io
  return content

def setStackSettings (io : Except String Unit) (file : Option Text) (settings : StackSettings) : Except String Text := do
  let parsed ← parseConfig (readConfig file)
  let stamped ← stampSettings parsed settings
  writeConfig io (serializeConfig stamped)

-- The answer and the file afterwards.
def applyStackSettingsPatch (io : Except String Unit) (file : Option Text) (patch : StackSettingsPatch) :
    Except String StackSettings × Option Text :=
  match getStackSettings file with
  | .error e => (.error e, file)
  | .ok current =>
      match setStackSettings io file (patch.merge current) with
      | .error e => (.error e, file)
      | .ok content => (.ok (patch.merge current), some content)

end MeshClient.Reticulum
