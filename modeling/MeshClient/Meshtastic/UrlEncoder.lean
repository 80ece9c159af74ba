import MeshClient.Js.Text
import MeshClient.Lib.Base64
import MeshClient.Mqtt.ChannelKeys

namespace MeshClient.Meshtastic

open Js Mqtt

inductive MeshtasticChannelRole where
  | disabled
  | primary
  | secondary
deriving DecidableEq, Repr

structure MeshtasticChannelSettingsInput where
  name : String
  psk : Psk
  uplinkEnabled : Bool
  downlinkEnabled : Bool
  positionPrecision : Nat
deriving DecidableEq, Repr

structure MeshtasticChannelConfigInput extends MeshtasticChannelSettingsInput where
  index : Int
  role : MeshtasticChannelRole
deriving DecidableEq, Repr

structure GenerateConfigUrlOptions where
  includeAll : Option Bool := none
  addOnly : Option Bool := none
  channelIndexes : Option (List Int) := none
deriving DecidableEq, Repr

inductive ImportMode where
  | replace
  | add
deriving DecidableEq, Repr

-- The LoRa section goes through as it is.
structure ParsedChannelSet (Lora : Type) where
  settings : List MeshtasticChannelSettingsInput
  loraConfig : Option Lora
  mode : ImportMode
deriving DecidableEq, Repr

structure ChannelSettingsMessage where
  name : String
  psk : Psk
  uplinkEnabled : Bool
  downlinkEnabled : Bool
  positionPrecision : Option Nat
deriving DecidableEq, Repr

structure ChannelSetMessage (Lora : Type) where
  settings : List ChannelSettingsMessage
  loraConfig : Option Lora
deriving DecidableEq, Repr

-- `toBinary` and `fromBinary` of the ChannelSet schema; `none` where reading throws.
structure ChannelSetCodec (Lora : Type) where
  toBinary : ChannelSetMessage Lora → List UInt8
  fromBinary : List UInt8 → Option (ChannelSetMessage Lora)

def MESHTASTIC_CONFIG_URL_MAX_PAYLOAD_CHARS : Nat := 16 * 1024

structure MeshtasticUrlError where
  message : String := "Invalid or corrupted Meshtastic configuration link"
deriving DecidableEq, Repr

-- `length` of the text.
def unitLength (cs : List Char) : Nat := (cs.flatMap charCodes).length

def base64UrlEncode (bytes : List UInt8) : List Char :=
  ((Base64.encode bytes).filter (· ≠ '=')).map fun c => if c = '+' then '-' else if c = '/' then '_' else c

def base64UrlDecode (encoded : List Char) : List UInt8 :=
  let padded := encoded ++ List.replicate ((4 - unitLength encoded % 4) % 4) '='
  Base64.decode (padded.map fun c => if c = '-' then '+' else if c = '_' then '/' else c)

def channelSettingsToProtobuf (input : MeshtasticChannelSettingsInput) : ChannelSettingsMessage :=
  ⟨input.name, input.psk, input.uplinkEnabled, input.downlinkEnabled, some input.positionPrecision⟩

def channelSettingsFromProtobuf (settings : ChannelSettingsMessage) : MeshtasticChannelSettingsInput :=
  let pskBytes := if settings.psk.length = 0 then MESHTASTIC_DEFAULT_PUBLIC_PSK_BYTES else settings.psk
  { name := settings.name
    psk := normalizeMeshtasticPskTo16Bytes pskBytes
    uplinkEnabled := settings.uplinkEnabled
    downlinkEnabled := settings.downlinkEnabled
    positionPrecision := settings.positionPrecision.getD 0 }

def isSelected (options : GenerateConfigUrlOptions) (ch : MeshtasticChannelConfigInput) : Bool :=
  let includeAll := options.includeAll ≠ some false
  if options.channelIndexes.any (ch.index ∉ ·) then false
  else match ch.role with
    | .disabled => false
    | .primary => true
    | .secondary => includeAll

def selectChannelsForExport (channels : List MeshtasticChannelConfigInput)
    (options : Option GenerateConfigUrlOptions) : List MeshtasticChannelSettingsInput :=
  ((channels.filter (isSelected (options.getD {}))).insertionSort fun a b => a.index ≤ b.index).map
    (·.toMeshtasticChannelSettingsInput)

def buildChannelSet {Lora : Type} (settings : List MeshtasticChannelSettingsInput) (loraConfig : Option Lora) :
    ChannelSetMessage Lora :=
  ⟨settings.map channelSettingsToProtobuf, loraConfig⟩

def ADD_ONLY_MARKER : List Char := ['?', 'a', 'd', 'd', '=', 't', 'r', 'u', 'e', '#']

-- /\?add=true#/i
def isAddOnlyConfigUrl (url : List Char) : Bool :=
  url.tails.any fun rest => (rest.take ADD_ONLY_MARKER.length).map Char.toLower = ADD_ONLY_MARKER

def isBase64UrlChar (c : Char) : Bool := c.isAlphanum || c = '_' || c = '-'

def extractPayloadFromUrl (url : String) : Except MeshtasticUrlError (List Char × ImportMode) :=
  let trimmed := trimChars url.toList
  if trimmed = [] then .error {}
  else
    let mode := if isAddOnlyConfigUrl trimmed then .add else .replace
    if '#' ∈ trimmed then
      let payload := trimChars ((trimmed.dropWhile (· ≠ '#')).drop 1)
      if payload = [] then .error {}
      else if unitLength payload > MESHTASTIC_CONFIG_URL_MAX_PAYLOAD_CHARS then
        .error { message := "Configuration link payload is too large" }
      else .ok (payload, mode)
    else if trimmed.all isBase64UrlChar then
      if unitLength trimmed > MESHTASTIC_CONFIG_URL_MAX_PAYLOAD_CHARS then
        .error { message := "Configuration link payload is too large" }
      else .ok (trimmed, mode)
    else .error {}

structure ConfigUrls where
  httpsUrl : String
  meshtasticUrl : String
deriving DecidableEq, Repr

def urlText (scheme : String) (addOnly : Bool) (encoded : List Char) : String :=
  String.ofList (scheme.toList ++ (if addOnly then "?add=true".toList else []) ++ '#' :: encoded)

def generateConfigUrl {Lora : Type} (codec : ChannelSetCodec Lora)
    (channels : List MeshtasticChannelConfigInput) (loraConfig : Option Lora)
    (options : Option GenerateConfigUrlOptions) : Except MeshtasticUrlError ConfigUrls :=
  let settings := selectChannelsForExport channels options
  if settings.length = 0 then .error { message := "No channels selected for export" }
  else
    let encoded := base64UrlEncode (codec.toBinary (buildChannelSet settings loraConfig))
    let addOnly := (options.getD {}).addOnly = some true
    .ok {
      httpsUrl := urlText "https://meshtastic.org/e/" addOnly encoded
      meshtasticUrl := urlText "meshtastic://meshtastic/e/" addOnly encoded }

-- Whatever goes wrong while reading is reported as a corrupted link.
def parseConfigUrl {Lora : Type} (codec : ChannelSetCodec Lora) (url : String) :
    Except MeshtasticUrlError (ParsedChannelSet Lora) := do
  let (payload, mode) ← extractPayloadFromUrl url
  match codec.fromBinary (base64UrlDecode payload) with
  | none => .error {}
  | some channelSet =>
      if channelSet.settings.length = 0 then .error {}
      else .ok ⟨channelSet.settings.map channelSettingsFromProtobuf, channelSet.loraConfig, mode⟩

theorem ascii_forall {P : Char → Prop} (h : ∀ n < 128, P (Char.ofNat n)) {c : Char} (hc : c.toNat < 128) :
    P c := by
  rw [← Char.ofNat_toNat c]
  exact h c.toNat hc

theorem isBase64UrlChar_lt {c : Char} (h : isBase64UrlChar c = true) : c.toNat < 128 := by
  simp only [isBase64UrlChar, Char.isAlphanum, Char.isAlpha, Char.isUpper, Char.isLower, Char.isDigit,
    Bool.or_eq_true, Bool.and_eq_true, decide_eq_true_eq, UInt32.le_iff_toNat_le, ge_iff_le] at h
  have hval : c.toNat = c.val.toNat := rfl
  rcases h with (((h | h) | h) | rfl) | rfl
  · have := h.2
    simp at this
    omega
  · have := h.2
    simp at this
    omega
  · have := h.2
    simp at this
    omega
  · decide
  · decide

-- What separates the payload from the rest of a link.
theorem isBase64UrlChar_plain {c : Char} (h : isBase64UrlChar c = true) :
    isSpace c = false ∧ c ≠ '#' ∧ c ≠ '?' := by
  have hall : ∀ n < 128, isBase64UrlChar (Char.ofNat n) = true →
      isSpace (Char.ofNat n) = false ∧ Char.ofNat n ≠ '#' ∧ Char.ofNat n ≠ '?' := by decide
  exact ascii_forall (P := fun c => isBase64UrlChar c = true → isSpace c = false ∧ c ≠ '#' ∧ c ≠ '?')
    hall (isBase64UrlChar_lt h) h

theorem filter_encode (bytes : List UInt8) : (Base64.encode bytes).filter (· ≠ '=') = Base64.digits bytes := by
  rw [Base64.encode, List.filter_append, List.filter_eq_self.mpr, List.filter_eq_nil_iff.mpr, List.append_nil]
  · intro c hc
    simp [List.eq_of_mem_replicate hc]
  · intro c hc
    simpa using Base64.ne_pad_of_isDigit (Base64.isDigit_of_mem c hc)

theorem mem_base64UrlEncode {bytes : List UInt8} {c : Char} (h : c ∈ base64UrlEncode bytes) :
    isBase64UrlChar c = true := by
  rw [base64UrlEncode, filter_encode] at h
  obtain ⟨d, hd, rfl⟩ := List.mem_map.mp h
  rcases Base64.isDigit_alphanum (Base64.isDigit_of_mem d hd) with hd | rfl | rfl
  · have hplus : d ≠ '+' := by
      rintro rfl
      exact absurd hd (by decide)
    have hslash : d ≠ '/' := by
      rintro rfl
      exact absurd hd (by decide)
    simp [isBase64UrlChar, hplus, hslash, hd]
  · decide
  · decide

theorem base64UrlEncode_eq_nil_iff (bytes : List UInt8) : base64UrlEncode bytes = [] ↔ bytes = [] := by
  rw [base64UrlEncode, filter_encode, List.map_eq_nil_iff, Base64.digits_eq_nil_iff]

theorem unitLength_of_ascii {cs : List Char} (h : ∀ c ∈ cs, c.toNat < 128) : unitLength cs = cs.length := by
  induction cs with
  | nil => rfl
  | cons c cs ih =>
      have hc : charCodes c = [c.toNat] := by
        have := h c List.mem_cons_self
        rw [charCodes, if_pos (by omega)]
      have hrest := ih fun d hd => h d (List.mem_cons_of_mem c hd)
      rw [unitLength] at hrest ⊢
      rw [List.flatMap_cons, hc, List.length_append, hrest, List.length_singleton, List.length_cons]
      omega

theorem base64UrlDecode_encode (bytes : List UInt8) : base64UrlDecode (base64UrlEncode bytes) = bytes := by
  have hlen : unitLength (base64UrlEncode bytes) = (Base64.digits bytes).length := by
    rw [unitLength_of_ascii fun c hc => isBase64UrlChar_lt (mem_base64UrlEncode hc), base64UrlEncode,
      filter_encode, List.length_map]
  have hback : (base64UrlEncode bytes).map (fun c => if c = '-' then '+' else if c = '_' then '/' else c) =
      Base64.digits bytes := by
    rw [base64UrlEncode, filter_encode, List.map_map]
    conv_rhs => rw [← List.map_id (Base64.digits bytes)]
    apply List.map_congr_left
    intro c hc
    rcases Base64.isDigit_alphanum (Base64.isDigit_of_mem c hc) with hc | rfl | rfl
    · have hne : ∀ d : Char, d.isAlphanum = false → c ≠ d := by
        rintro d hd rfl
        simp [hc] at hd
      simp [hne '+' (by decide), hne '/' (by decide), hne '-' (by decide), hne '_' (by decide)]
    · decide
    · decide
  rw [base64UrlDecode, List.map_append, hback, hlen, List.map_replicate, if_neg (by decide), if_neg (by decide)]
  exact Base64.decode_encode bytes

-- Text that neither begins nor ends with a space.
theorem trimChars_eq_self {first last : Char} {cs : List Char} (hfirst : isSpace first = false)
    (hlast : isSpace last = false) : trimChars (first :: (cs ++ [last])) = first :: (cs ++ [last]) := by
  have hrev : (first :: (cs ++ [last])).reverse = last :: (first :: cs).reverse := by simp
  rw [trimChars, dropWhile_isSpace_of_head hfirst, hrev, dropWhile_isSpace_of_head hlast, ← hrev,
    List.reverse_reverse]

theorem toLower_eq_mark {c : Char} (h : c.toLower = '?') : c = '?' := by
  unfold Char.toLower at h
  split at h
  · rename_i hupper
    have hval := congrArg (fun d : Char => d.val.toNat) h
    simp only [UInt32.le_iff_toNat_le, ge_iff_le] at hupper
    simp [UInt32.toNat_add] at hval hupper
    omega
  · exact h

-- Without a question mark no marker, with the marker in front of the payload one.
theorem isAddOnlyConfigUrl_false {url : List Char} (h : '?' ∉ url) : isAddOnlyConfigUrl url = false := by
  rw [isAddOnlyConfigUrl, List.any_eq_false]
  intro rest hrest hmark
  have hmark := of_decide_eq_true hmark
  cases rest with
  | nil => simp [ADD_ONLY_MARKER] at hmark
  | cons c cs =>
      simp only [ADD_ONLY_MARKER, List.length_cons, List.length_nil, List.take_succ_cons, List.map_cons, List.cons.injEq] at hmark
      have hc := toLower_eq_mark hmark.1
      have hsuffix := (List.mem_tails (c :: cs) url).mp hrest
      exact h (hsuffix.subset (hc ▸ List.mem_cons_self))

theorem isAddOnlyConfigUrl_true (front payload : List Char) :
    isAddOnlyConfigUrl (front ++ (ADD_ONLY_MARKER ++ payload)) = true := by
  rw [isAddOnlyConfigUrl, List.any_eq_true]
  refine ⟨ADD_ONLY_MARKER ++ payload, (List.mem_tails _ _).mpr (List.suffix_append front _), ?_⟩
  rw [List.take_left]
  decide

-- A link is taken apart where it was put together.
theorem extractPayload_urlText {scheme : String} {first : Char} {rest payload : List Char} (addOnly : Bool)
    (hscheme : scheme.toList = first :: rest) (hfirst : isSpace first = false)
    (hhash : '#' ∉ scheme.toList) (hmark : '?' ∉ scheme.toList)
    (hpayload : ∀ c ∈ payload, isBase64UrlChar c = true) (hne : payload ≠ [])
    (hsize : unitLength payload ≤ MESHTASTIC_CONFIG_URL_MAX_PAYLOAD_CHARS) :
    extractPayloadFromUrl (urlText scheme addOnly payload) =
      .ok (payload, if addOnly then .add else .replace) := by
  have hspace : ∀ c ∈ payload, isSpace c = false := fun c hc => (isBase64UrlChar_plain (hpayload c hc)).1
  obtain ⟨last, hlast⟩ : ∃ last, payload = payload.dropLast ++ [last] :=
    ⟨payload.getLast hne, (List.dropLast_append_getLast hne).symm⟩
  have hlastspace : isSpace last = false := hspace last (by rw [hlast]; simp)
  let query := if addOnly then "?add=true".toList else []
  have hquery : '#' ∉ query := by
    cases addOnly
    · simp [query]
    · simp [query]
  have hurl : (urlText scheme addOnly payload).toList = scheme.toList ++ query ++ '#' :: payload := by
    rw [urlText, String.toList_ofList]
  have htrim : trimChars (scheme.toList ++ query ++ '#' :: payload) = scheme.toList ++ query ++ '#' :: payload := by
    have hform : scheme.toList ++ query ++ '#' :: payload =
        first :: ((rest ++ query ++ '#' :: payload.dropLast) ++ [last]) := by
      conv_lhs => rw [hlast, hscheme]
      simp
    rw [hform, trimChars_eq_self hfirst hlastspace]
  have hdrop : ((scheme.toList ++ query ++ '#' :: payload).dropWhile (· ≠ '#')).drop 1 = payload := by
    have hbefore : ∀ c ∈ scheme.toList ++ query, decide (c ≠ '#') = true := by
      intro c hc
      rcases List.mem_append.mp hc with hc | hc
      · exact decide_eq_true fun h => hhash (h ▸ hc)
      · exact decide_eq_true fun h => hquery (h ▸ hc)
    rw [List.dropWhile_append_of_pos hbefore]
    simp
  have hmode : isAddOnlyConfigUrl (scheme.toList ++ query ++ '#' :: payload) = addOnly := by
    cases addOnly with
    | false =>
        apply isAddOnlyConfigUrl_false
        simp only [query, Bool.false_eq_true, if_false, List.append_nil, List.mem_append, List.mem_cons, not_or]
        refine ⟨hmark, by decide, fun h => ?_⟩
        exact (isBase64UrlChar_plain (hpayload _ h)).2.2 rfl
    | true =>
        have hform : scheme.toList ++ query ++ '#' :: payload = scheme.toList ++ (ADD_ONLY_MARKER ++ payload) := by
          simp [query, ADD_ONLY_MARKER]
        rw [hform]
        exact isAddOnlyConfigUrl_true _ _
  have hnil : scheme.toList ++ query ++ '#' :: payload ≠ [] := by simp
  rw [extractPayloadFromUrl, hurl, htrim]
  simp only [hdrop, trimChars_of_forall hspace, hmode, if_neg hnil, if_neg hne, if_neg (not_lt.mpr hsize),
    List.mem_append, List.mem_cons, true_or, or_true, if_true, gt_iff_lt]

def keyOf (psk : Psk) : Psk := (aliasOf psk).getD psk

-- The keys a channel can have: of 16 or 32 bytes, or a one-byte alias.
def KeyAllowed (psk : Psk) : Prop :=
  psk.length = 16 ∨ psk.length = 32 ∨ ∃ byte : UInt8, psk = [byte] ∧ 1 ≤ byte ∧ byte ≤ 10

instance (psk : Psk) : Decidable (KeyAllowed psk) :=
  decidable_of_iff (psk.length = 16 ∨ psk.length = 32 ∨
      (psk.length = 1 ∧ 1 ≤ psk.headD 0 ∧ psk.headD 0 ≤ 10)) (by
    unfold KeyAllowed
    refine or_congr_right (or_congr_right ⟨?_, ?_⟩)
    · rintro ⟨hlen, hlow, hhigh⟩
      obtain ⟨byte, rfl⟩ := List.length_eq_one_iff.mp hlen
      exact ⟨byte, rfl, hlow, hhigh⟩
    · rintro ⟨byte, rfl, hlow, hhigh⟩
      exact ⟨rfl, hlow, hhigh⟩)

theorem aliasOf_of_length {psk : Psk} (h : psk.length ≠ 1) : aliasOf psk = none := by
  cases psk with
  | nil => rfl
  | cons a rest =>
      cases rest with
      | nil => exact absurd rfl h
      | cons b rest => rfl

-- The key survives unless it has 32 bytes, of which the second half is cut off.
theorem normalize_eq_keyOf_iff {psk : Psk} (h : KeyAllowed psk) :
    normalizeMeshtasticPskTo16Bytes psk = keyOf psk ↔ psk.length ≠ 32 := by
  unfold normalizeMeshtasticPskTo16Bytes keyOf
  rcases h with h | h | ⟨byte, rfl, hlow, hhigh⟩
  · rw [aliasOf_of_length (by omega), Option.getD_none, Option.getD_none, zeroPadded,
      List.take_append_of_le_length (by omega), ← h, List.take_length]
    exact iff_of_true rfl (by omega)
  · rw [aliasOf_of_length (by omega), Option.getD_none, Option.getD_none]
    refine iff_of_false ?_ (by omega)
    intro heq
    have hlen := congrArg List.length heq
    simp only [zeroPadded, List.length_take, List.length_append, List.length_replicate] at hlen
    omega
  · have halias : ∃ key, aliasOf [byte] = some key := by
      have hin : ¬ (byte < 1 ∨ 10 < byte) := by
        rw [not_or, UInt8.not_lt, UInt8.not_lt]
        exact ⟨hlow, hhigh⟩
      exact ⟨_, by rw [aliasOf, expandMeshtasticPskAlias, if_neg hin]⟩
    obtain ⟨key, hkey⟩ := halias
    rw [hkey]
    exact iff_of_true rfl (by simp)

theorem KeyAllowed.ne_nil {psk : Psk} (h : KeyAllowed psk) : psk.length ≠ 0 := by
  rcases h with h | h | ⟨byte, rfl, _, _⟩
  · omega
  · omega
  · simp

-- What the receiver should see of a channel.
def expectedSettings (ch : MeshtasticChannelConfigInput) : MeshtasticChannelSettingsInput :=
  { ch.toMeshtasticChannelSettingsInput with psk := keyOf ch.psk }

theorem fromProtobuf_toProtobuf_iff {ch : MeshtasticChannelConfigInput} (h : KeyAllowed ch.psk) :
    channelSettingsFromProtobuf (channelSettingsToProtobuf ch.toMeshtasticChannelSettingsInput) =
      expectedSettings ch ↔ ch.psk.length ≠ 32 := by
  have hpsk : (channelSettingsToProtobuf ch.toMeshtasticChannelSettingsInput).psk.length ≠ 0 := h.ne_nil
  rw [← normalize_eq_keyOf_iff h, channelSettingsFromProtobuf, if_neg hpsk]
  simp only [channelSettingsToProtobuf, expectedSettings, Option.getD_some,
    MeshtasticChannelSettingsInput.mk.injEq, true_and, and_true]

-- The channels an export is to hold: those asked for by index if any are, and the secondary
-- ones unless they are left out.
def Exported (options : GenerateConfigUrlOptions) (ch : MeshtasticChannelConfigInput) : Prop :=
  (∀ indexes, options.channelIndexes = some indexes → ch.index ∈ indexes) ∧
    (ch.role = .primary ∨ options.includeAll ≠ some false)

theorem isSelected_iff {options : GenerateConfigUrlOptions} {ch : MeshtasticChannelConfigInput}
    (h : ch.role = .primary ∨ ch.role = .secondary) : isSelected options ch = true ↔ Exported options ch := by
  unfold isSelected Exported
  cases hindexes : options.channelIndexes with
  | none =>
      rcases h with h | h
      · simp [h]
      · simp [h]
  | some indexes =>
      by_cases hmem : ch.index ∈ indexes
      · rcases h with h | h
        · simp [h, hmem]
        · simp [h, hmem]
      · simp [hmem]

instance (options : GenerateConfigUrlOptions) : DecidablePred (Exported options) := fun ch =>
  decidable_of_iff ((options.channelIndexes.all (ch.index ∈ ·) = true) ∧
      (ch.role = .primary ∨ options.includeAll ≠ some false)) (by
    unfold Exported
    cases options.channelIndexes <;> simp)

def exportedChannels (channels : List MeshtasticChannelConfigInput) (options : Option GenerateConfigUrlOptions) :
    List MeshtasticChannelConfigInput :=
  (channels.filter (Exported (options.getD {}))).insertionSort fun a b => a.index ≤ b.index

theorem selectChannels_eq {channels : List MeshtasticChannelConfigInput}
    (henabled : ∀ ch ∈ channels, ch.role = .primary ∨ ch.role = .secondary)
    (options : Option GenerateConfigUrlOptions) :
    selectChannelsForExport channels options =
      (exportedChannels channels options).map (·.toMeshtasticChannelSettingsInput) := by
  have hfilter : channels.filter (isSelected (options.getD {})) =
      channels.filter fun ch => decide (Exported (options.getD {}) ch) := by
    apply List.filter_congr
    intro ch hch
    rw [Bool.eq_iff_iff, isSelected_iff (henabled ch hch), decide_eq_true_eq]
  rw [selectChannelsForExport, exportedChannels, hfilter]

theorem mem_exportedChannels {channels : List MeshtasticChannelConfigInput}
    {options : Option GenerateConfigUrlOptions} {ch : MeshtasticChannelConfigInput}
    (h : ch ∈ exportedChannels channels options) : ch ∈ channels := by
  rw [exportedChannels, List.mem_insertionSort] at h
  exact List.mem_of_mem_filter h

section

variable {Lora : Type} {codec : ChannelSetCodec Lora} {channels : List MeshtasticChannelConfigInput}
  {loraConfig : Option Lora} {options : Option GenerateConfigUrlOptions}

-- Reading back one of the two links.
theorem parse_urlText (scheme : String) {first : Char} {rest : List Char} {set : ChannelSetMessage Lora}
    (addOnly : Bool) (hscheme : scheme.toList = first :: rest) (hfirst : isSpace first = false)
    (hhash : '#' ∉ scheme.toList) (hmark : '?' ∉ scheme.toList)
    (hinverse : codec.fromBinary (codec.toBinary set) = some set) (hne : set.settings.length ≠ 0)
    (hempty : codec.fromBinary [] = some ⟨[], none⟩)
    (hsize : unitLength (base64UrlEncode (codec.toBinary set)) ≤ MESHTASTIC_CONFIG_URL_MAX_PAYLOAD_CHARS) :
    parseConfigUrl codec (urlText scheme addOnly (base64UrlEncode (codec.toBinary set))) =
      .ok ⟨set.settings.map channelSettingsFromProtobuf, set.loraConfig,
        if addOnly then .add else .replace⟩ := by
  have hbytes : codec.toBinary set ≠ [] := by
    intro hnil
    rw [hnil, hempty, Option.some.injEq] at hinverse
    rw [← hinverse] at hne
    exact hne rfl
  have hextract := extractPayload_urlText addOnly hscheme hfirst hhash hmark
    (fun c hc => mem_base64UrlEncode hc) (mt (base64UrlEncode_eq_nil_iff _).mp hbytes) hsize
  simp only [parseConfigUrl, hextract, base64UrlDecode_encode, hinverse, if_neg hne, bind, Except.bind]

-- Both links give back the exported channels with their keys, the LoRa section and the mode,
-- exactly when no exported channel has a key of 32 bytes.
theorem config_url_round_trip_iff (codec : ChannelSetCodec Lora) (channels : List MeshtasticChannelConfigInput)
    (loraConfig : Option Lora) (options : Option GenerateConfigUrlOptions)
    (henabled : ∀ ch ∈ channels, ch.role = .primary ∨ ch.role = .secondary)
    (hkeys : ∀ ch ∈ channels, KeyAllowed ch.psk)
    (hinverse : codec.fromBinary (codec.toBinary
      (buildChannelSet (selectChannelsForExport channels options) loraConfig)) =
        some (buildChannelSet (selectChannelsForExport channels options) loraConfig))
    (hempty : codec.fromBinary [] = some ⟨[], none⟩)
    (hsize : unitLength (base64UrlEncode (codec.toBinary
      (buildChannelSet (selectChannelsForExport channels options) loraConfig))) ≤
        MESHTASTIC_CONFIG_URL_MAX_PAYLOAD_CHARS) :
    ((∃ urls, generateConfigUrl codec channels loraConfig options = .ok urls) ↔
      exportedChannels channels options ≠ []) ∧
    ∀ urls, generateConfigUrl codec channels loraConfig options = .ok urls →
      ((∀ url ∈ [urls.httpsUrl, urls.meshtasticUrl], parseConfigUrl codec url =
        .ok ⟨(exportedChannels channels options).map expectedSettings, loraConfig,
          if (options.getD {}).addOnly = some true then .add else .replace⟩) ↔
        ∀ ch ∈ exportedChannels channels options, ch.psk.length ≠ 32) := by
  have hselect := selectChannels_eq henabled options
  have hlen : (selectChannelsForExport channels options).length = 0 ↔ exportedChannels channels options = [] := by
    rw [hselect, List.length_map, List.length_eq_zero_iff]
  constructor
  · rw [generateConfigUrl]
    by_cases hnone : (selectChannelsForExport channels options).length = 0
    · simp [hnone, hlen.mp hnone]
    · simp [hnone, mt hlen.mpr hnone]
  · intro urls hurls
    rw [generateConfigUrl] at hurls
    by_cases hnone : (selectChannelsForExport channels options).length = 0
    · rw [if_pos hnone] at hurls
      cases hurls
    · rw [if_neg hnone, Except.ok.injEq] at hurls
      have hsettings : (buildChannelSet (selectChannelsForExport channels options)
          loraConfig).settings.length ≠ 0 := by simpa [buildChannelSet] using hnone
      have hhttps := parse_urlText "https://meshtastic.org/e/"
        (decide ((options.getD {}).addOnly = some true)) rfl (by decide) (by decide) (by decide)
        hinverse hsettings hempty hsize
      have hmeshtastic := parse_urlText "meshtastic://meshtastic/e/"
        (decide ((options.getD {}).addOnly = some true)) rfl (by decide) (by decide) (by decide)
        hinverse hsettings hempty hsize
      have hparsed : (buildChannelSet (selectChannelsForExport channels options)
          loraConfig).settings.map channelSettingsFromProtobuf =
          (exportedChannels channels options).map fun ch =>
            channelSettingsFromProtobuf (channelSettingsToProtobuf ch.toMeshtasticChannelSettingsInput) := by
        rw [buildChannelSet, hselect, List.map_map, List.map_map]
        rfl
      rw [← hurls]
      simp only [List.mem_cons, List.not_mem_nil, or_false, forall_eq_or_imp, forall_eq, hhttps, hmeshtastic,
        hparsed, decide_eq_true_eq, Except.ok.injEq, ParsedChannelSet.mk.injEq, and_self, and_true]
      simp only [buildChannelSet, and_true, List.map_inj_left]
      refine forall₂_congr fun ch hch => ?_
      exact fromProtobuf_toProtobuf_iff (hkeys ch (mem_exportedChannels hch))

end

-- One primary channel with the default key's alias: what the schema's field numbers make of it.
def aliasChannel : MeshtasticChannelConfigInput :=
  { name := "A", psk := [1], uplinkEnabled := true, downlinkEnabled := false, positionPrecision := 0
    index := 0, role := .primary }

def aliasChannelBytes : List UInt8 :=
  [0x0a, 0x0a, 0x12, 0x01, 0x01, 0x1a, 0x01, 0x41, 0x28, 0x01, 0x3a, 0x00]

-- The same channel with a key of 32 bytes.
def longKeyChannel : MeshtasticChannelConfigInput := { aliasChannel with psk := List.replicate 32 7 }

def longKeyChannelBytes : List UInt8 :=
  [0x0a, 0x29, 0x12, 0x20] ++ List.replicate 32 7 ++ [0x1a, 0x01, 0x41, 0x28, 0x01, 0x3a, 0x00]

-- The codec on these two messages and on the empty one.
def sampleCodec : ChannelSetCodec Unit where
  toBinary set :=
    if set = buildChannelSet [aliasChannel.toMeshtasticChannelSettingsInput] none then aliasChannelBytes
    else if set = buildChannelSet [longKeyChannel.toMeshtasticChannelSettingsInput] none then longKeyChannelBytes
    else []
  fromBinary bytes :=
    if bytes = [] then some ⟨[], none⟩
    else if bytes = aliasChannelBytes then
      some (buildChannelSet [aliasChannel.toMeshtasticChannelSettingsInput] none)
    else if bytes = longKeyChannelBytes then
      some (buildChannelSet [longKeyChannel.toMeshtasticChannelSettingsInput] none)
    else none

-- The link holds the whole key of 32 bytes, and reading it gives half of it.
theorem long_key_is_cut :
    ∃ urls, generateConfigUrl sampleCodec [longKeyChannel] none none = .ok urls ∧
      parseConfigUrl sampleCodec urls.httpsUrl =
        .ok ⟨[{ longKeyChannel.toMeshtasticChannelSettingsInput with psk := List.replicate 16 7 }], none, .replace⟩ ∧
      longKeyChannel.psk = List.replicate 32 7 :=
  ⟨_, rfl, by decide, rfl⟩

theorem config_url_round_trip_alias :
    ∃ urls, generateConfigUrl sampleCodec [aliasChannel] none (some { addOnly := some true }) = .ok urls ∧
      parseConfigUrl sampleCodec urls.httpsUrl = .ok
        ⟨[{ aliasChannel.toMeshtasticChannelSettingsInput with psk := MESHTASTIC_DEFAULT_PUBLIC_PSK_BYTES }],
          none, .add⟩ := by
  refine ⟨_, rfl, ?_⟩
  have hround := ((config_url_round_trip_iff sampleCodec [aliasChannel] none (some { addOnly := some true })
    (by decide) (by decide) (by decide) (by decide) (by decide)).2 _ rfl).mpr
    (by decide)
  exact (hround _ (by simp)).trans (by decide)

end MeshClient.Meshtastic
