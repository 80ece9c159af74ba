import MeshClient.Lib.Delimited
import MeshClient.Lib.Run
import MeshClient.Mecp.Rebroadcast

namespace MeshClient.Mecp

open Holdoff Js Run
open Incident (MeshProtocol)

-- Case mapping leaves no capital letter of the alphabet, and changes no text of digits and
-- small letters.
structure LowersAscii (js : Runtime) : Prop where
  noCapital : ∀ s, ∀ c ∈ (js.toLowerCase s).toList, ¬ ('A' ≤ c ∧ c ≤ 'Z')
  same : ∀ s, (∀ c ∈ s.toList, isDigit c = true ∨ 'a' ≤ c ∧ c ≤ 'z') → js.toLowerCase s = s

def MecpRebroadcastEndpoint.WellFormed : MecpRebroadcastEndpoint → Prop
  | .lora _ channelIndex => 0 ≤ channelIndex ∧ channelIndex ≤ 7
  | .reticulum (.rrc hubDestHash _) => HEX32_RE hubDestHash = true
  | .reticulum (.lxmf destinationHash) =>
      destinationHash = MECP_REBROADCAST_ANY_PEER ∨ HEX32_RE destinationHash = true

def MecpRebroadcastRule.WellFormed (rule : MecpRebroadcastRule) : Prop :=
  rule.endpointA.WellFormed ∧ rule.endpointB.WellFormed

variable {js : Runtime}

theorem parseReticulumEndpoint_wellFormed {o : Json} {e : MecpReticulumEndpoint}
    (h : parseReticulumEndpoint js o = some e) : (MecpRebroadcastEndpoint.reticulum e).WellFormed := by
  unfold parseReticulumEndpoint at h
  simp only at h
  split_ifs at h with hlxmf hrrc
  · obtain ⟨text, _, hparse⟩ := Option.bind_eq_some_iff.mp h
    split_ifs at hparse with hbad
    obtain rfl := Option.some.inj hparse
    rw [not_and_or, not_ne_iff, Bool.not_eq_false] at hbad
    exact hbad
  · obtain ⟨hubText, _, hparse⟩ := Option.bind_eq_some_iff.mp h
    obtain ⟨roomText, _, hparse⟩ := Option.bind_eq_some_iff.mp hparse
    split_ifs at hparse with hbad
    obtain rfl := Option.some.inj hparse
    rw [not_or, Bool.not_eq_false] at hbad
    exact hbad.1

theorem parseLoraEndpoint_wellFormed {protocol : LoraProtocol} {o : Json} {e : MecpRebroadcastEndpoint}
    (h : parseLoraEndpoint protocol o = some e) : e.WellFormed := by
  unfold parseLoraEndpoint at h
  split at h
  · simp only at h
    split_ifs at h with hbad
    obtain rfl := Option.some.inj h
    exact ⟨by omega, by omega⟩
  · exact absurd h (Option.some_ne_none e).symm

theorem parseEndpoint_wellFormed {raw : Json} {e : MecpRebroadcastEndpoint}
    (h : parseEndpoint js raw = some e) : e.WellFormed := by
  unfold parseEndpoint at h
  simp only at h
  split_ifs at h
  · obtain ⟨r, hr, rfl⟩ := Option.map_eq_some_iff.mp h
    exact parseReticulumEndpoint_wellFormed hr
  · exact parseLoraEndpoint_wellFormed h
  · exact parseLoraEndpoint_wellFormed h

theorem parseRule_wellFormed {item : Json} {rule : MecpRebroadcastRule}
    (h : parseRule js item = some rule) : rule.WellFormed := by
  unfold parseRule at h
  split_ifs at h
  obtain ⟨a, ha, h⟩ := Option.bind_eq_some_iff.mp h
  obtain ⟨b, hb, h⟩ := Option.bind_eq_some_iff.mp h
  obtain ⟨id, _, h⟩ := Option.bind_eq_some_iff.mp h
  obtain ⟨rawA, _, hA⟩ := Option.bind_eq_some_iff.mp ha
  obtain ⟨rawB, _, hB⟩ := Option.bind_eq_some_iff.mp hb
  split_ifs at h
  obtain rfl := Option.some.inj h
  exact ⟨parseEndpoint_wellFormed hA, parseEndpoint_wellFormed hB⟩

theorem parseMecpRebroadcastRules_wellFormed {raw : Option Json} {rule : MecpRebroadcastRule}
    (h : rule ∈ parseMecpRebroadcastRules js raw) : rule.WellFormed := by
  unfold parseMecpRebroadcastRules at h
  split at h
  · obtain ⟨item, _, hitem⟩ := List.mem_filterMap.mp h
    exact parseRule_wellFormed hitem
  · exact absurd h List.not_mem_nil

-- What a fingerprint stands for besides the payload.
def destination (js : Runtime) (e : MecpRebroadcastEndpoint) : MeshProtocol × DestChannel :=
  (e.protocol, mecpEndpointKey js e)

def destinationKey (payload : String) (d : MeshProtocol × DestChannel) : String :=
  fingerprintKey payload (protocolName d.1) d.2

theorem fingerprintKey_toList (payload destProtocol : String) (destChannel : DestChannel) :
    (fingerprintKey payload destProtocol destChannel).toList
      = destProtocol.toList ++ ':' :: (destChannel.toString.toList ++ ':' :: payload.toList) := by
  simp [fingerprintKey, String.toList_append]

theorem length_of_hex32 {s : String} (h : HEX32_RE s = true) : s.toList.length = 32 := by
  simp only [HEX32_RE, Bool.and_eq_true, decide_eq_true_eq] at h
  exact h.1

theorem toLowerCase_hex32 (hjs : LowersAscii js) {s : String} (h : HEX32_RE s = true) :
    js.toLowerCase s = s := by
  simp only [HEX32_RE, Bool.and_eq_true, List.all_eq_true, Bool.or_eq_true, decide_eq_true_eq] at h
  refine hjs.same s fun c hc => (h.2 c hc).imp_right fun hletter => ⟨hletter.1, hletter.2.trans (by decide)⟩

-- The channel numbers in use have one digit.
theorem repr_channel {n : Int} (h : 0 ≤ n ∧ n ≤ 7) :
    ∃ d, n.repr.toList = [d] ∧ d.toNat = n.toNat + 48 := by
  obtain ⟨hlow, hhigh⟩ := h
  interval_cases n <;> exact ⟨_, rfl, rfl⟩

theorem mecp_head {payload : String} (h : MECP_REGEX payload = true) :
    ∃ rest, payload.toList = 'M' :: rest := by
  unfold MECP_REGEX matchesMecp at h
  split at h
  · exact ⟨_, by assumption⟩
  · exact absurd h Bool.false_ne_true

-- A payload that starts with a capital letter ends the lower-case room before it.
theorem room_payload_inj (hjs : LowersAscii js) {room room' payload payload' : String}
    (hp : MECP_REGEX payload = true) (hp' : MECP_REGEX payload' = true)
    (h : (js.toLowerCase room).toList ++ ':' :: payload.toList
      = (js.toLowerCase room').toList ++ ':' :: payload'.toList) :
    js.toLowerCase room = js.toLowerCase room' ∧ payload = payload' := by
  obtain ⟨rest, hrest⟩ := mecp_head hp
  obtain ⟨rest', hrest'⟩ := mecp_head hp'
  have hnotin : ∀ r, 'M' ∉ (js.toLowerCase r).toList ++ [':'] := by
    intro r hmem
    rcases List.mem_append.mp hmem with hmem | hmem
    · exact hjs.noCapital r 'M' hmem (by decide)
    · exact absurd (List.mem_singleton.mp hmem) (by decide)
  have hsplit : ((js.toLowerCase room).toList ++ [':']) ++ 'M' :: rest
      = ((js.toLowerCase room').toList ++ [':']) ++ 'M' :: rest' := by
    rw [List.append_assoc, List.append_assoc, List.singleton_append, List.singleton_append,
      ← hrest, ← hrest']
    exact h
  obtain ⟨hroom, htail⟩ := Delimited.append_cons_inj (hnotin room) (hnotin room') hsplit
  refine ⟨String.toList_injective (List.append_cancel_right hroom), String.toList_injective ?_⟩
  rw [hrest, hrest', htail]

theorem protocolName_inj {p p' : MeshProtocol} (h : (protocolName p).toList = (protocolName p').toList) :
    p = p' := by
  cases p <;> cases p' <;> first | rfl | exact absurd h (by decide)

theorem colon_notMem_protocolName (p : MeshProtocol) : ':' ∉ (protocolName p).toList := by
  cases p <;> decide

theorem mesh_ne_reticulum (protocol : LoraProtocol) : protocol.mesh ≠ .reticulum := by
  cases protocol <;> decide

theorem channel_inj {n n' : Int} (hn : 0 ≤ n ∧ n ≤ 7) (hn' : 0 ≤ n' ∧ n' ≤ 7) {rest rest' : List Char}
    (h : n.repr.toList ++ ':' :: rest = n'.repr.toList ++ ':' :: rest') : n = n' ∧ rest = rest' := by
  obtain ⟨d, hd, hdn⟩ := repr_channel hn
  obtain ⟨d', hd', hdn'⟩ := repr_channel hn'
  rw [hd, hd', List.singleton_append, List.singleton_append, List.cons.injEq, List.cons.injEq] at h
  obtain ⟨rfl, _, hrest⟩ := h
  exact ⟨by omega, hrest⟩

theorem hex32_of_concrete {candidate : MecpRebroadcastCandidate} {hash : String}
    (hwf : (MecpRebroadcastEndpoint.reticulum (.lxmf hash)).WellFormed)
    (h : concrete js candidate (.reticulum (.lxmf hash)) = true) : HEX32_RE hash = true := by
  simp only [concrete, Bool.and_eq_true, decide_eq_true_eq] at h
  exact hwf.resolve_left h.1

-- Two reports with one fingerprint are the same text for the same destination.
theorem destinationKey_inj (hjs : LowersAscii js) {e e' : MecpRebroadcastEndpoint}
    (he : e.WellFormed) (he' : e'.WellFormed) {candidate candidate' : MecpRebroadcastCandidate}
    (hc : concrete js candidate e = true) (hc' : concrete js candidate' e' = true)
    {payload payload' : String} (hp : MECP_REGEX payload = true) (hp' : MECP_REGEX payload' = true)
    (h : destinationKey payload (destination js e) = destinationKey payload' (destination js e')) :
    payload = payload' ∧ destination js e = destination js e' := by
  have hlist := congrArg String.toList h
  simp only [destinationKey, destination, fingerprintKey_toList] at hlist
  obtain ⟨hname, hrest⟩ := Delimited.append_cons_inj (colon_notMem_protocolName _)
    (colon_notMem_protocolName _) hlist
  have hproto : e.protocol = e'.protocol := protocolName_inj hname
  suffices hkey : payload = payload' ∧ mecpEndpointKey js e = mecpEndpointKey js e' from
    ⟨hkey.1, Prod.ext hproto hkey.2⟩
  cases e with
  | lora protocol n =>
      cases e' with
      | lora protocol' n' =>
          obtain ⟨rfl, hpayload⟩ := channel_inj he he' hrest
          exact ⟨String.toList_injective hpayload, rfl⟩
      | reticulum r' => exact absurd hproto (mesh_ne_reticulum protocol)
  | reticulum r =>
      cases e' with
      | lora protocol' n' => exact absurd hproto.symm (mesh_ne_reticulum protocol')
      | reticulum r' =>
          cases r with
          | rrc hub room =>
              cases r' with
              | rrc hub' room' =>
                  simp only [mecpEndpointKey, DestChannel.toString, String.toList_append, List.append_assoc] at hrest
                  have htail := List.append_cancel_left hrest
                  obtain ⟨hhub, htail⟩ := List.append_inj htail
                    ((length_of_hex32 he).trans (length_of_hex32 he').symm)
                  have hroom := room_payload_inj hjs hp hp' (List.append_cancel_left htail)
                  refine ⟨hroom.2, ?_⟩
                  rw [mecpEndpointKey, mecpEndpointKey, String.toList_injective hhub, hroom.1]
              | lxmf hash' => simp [mecpEndpointKey, DestChannel.toString] at hrest
          | lxmf hash =>
              cases r' with
              | rrc hub' room' => simp [mecpEndpointKey, DestChannel.toString] at hrest
              | lxmf hash' =>
                  simp only [mecpEndpointKey, DestChannel.toString, String.toList_append, List.append_assoc] at hrest
                  obtain ⟨hhash, htail⟩ := List.append_inj (List.append_cancel_left hrest)
                    ((length_of_hex32 (hex32_of_concrete he hc)).trans
                      (length_of_hex32 (hex32_of_concrete he' hc')).symm)
                  refine ⟨String.toList_injective (List.cons.inj htail).2, ?_⟩
                  rw [mecpEndpointKey, mecpEndpointKey, String.toList_injective hhash]

def MecpRebroadcastSendTarget.destination (js : Runtime) (t : MecpRebroadcastSendTarget) :
    MeshProtocol × DestChannel :=
  (t.protocol,
    match t.reticulum with
    | none => .index t.channelIndex
    | some r => mecpEndpointKey js (.reticulum r))

theorem sendTarget_destination (candidate : MecpRebroadcastCandidate) (rule : MecpRebroadcastRule)
    (dest : MecpRebroadcastEndpoint) :
    (sendTarget candidate rule dest).destination js = destination js dest := by
  cases dest <;> rfl

structure RebroadcastCall where
  candidate : MecpRebroadcastCandidate
  rules : List MecpRebroadcastRule
  now : Int
deriving DecidableEq

structure MadeCall extends RebroadcastCall where
  targets : List MecpRebroadcastSendTarget
deriving DecidableEq

def RebroadcastCall.resolve (js : Runtime) (fingerprintSeenAt : OrderedMap String Int)
    (c : RebroadcastCall) : Resolved :=
  resolveMecpRebroadcastTargets js fingerprintSeenAt c.candidate c.rules c.now

def afterCall (js : Runtime) (fingerprintSeenAt : OrderedMap String Int) (c : RebroadcastCall) :
    OrderedMap String Int :=
  (c.resolve js fingerprintSeenAt).fingerprintSeenAt

def made (js : Runtime) (fingerprintSeenAt : OrderedMap String Int) : List RebroadcastCall → List MadeCall
  | [] => []
  | c :: rest => ⟨c, (c.resolve js fingerprintSeenAt).targets⟩ :: made js (afterCall js fingerprintSeenAt c) rest

def MadeCall.offers (js : Runtime) (m : MadeCall) : List (Offer String) :=
  m.targets.map fun t => ⟨destinationKey m.candidate.payload (t.destination js), m.now⟩

-- Where an enabled rule sends the candidate, before the fingerprints are asked.
def sendsTo (js : Runtime) (candidate : MecpRebroadcastCandidate) (rule : MecpRebroadcastRule) :
    Option MecpRebroadcastEndpoint :=
  if rule.enabled then (ruleDest js candidate rule).filter (concrete js candidate) else none

def destOffer (js : Runtime) (candidate : MecpRebroadcastCandidate) (now : Int)
    (dest : MecpRebroadcastEndpoint) : Offer String :=
  ⟨destinationKey candidate.payload (destination js dest), now⟩

def ruleOffers (js : Runtime) (candidate : MecpRebroadcastCandidate) (now : Int)
    (rules : List MecpRebroadcastRule) : List (Offer String) :=
  rules.filterMap fun rule => (sendsTo js candidate rule).map (destOffer js candidate now)

def RebroadcastCall.offers (js : Runtime) (c : RebroadcastCall) : List (Offer String) :=
  if c.candidate.eligible then ruleOffers js c.candidate c.now c.rules else []

-- Each turn of the loop offers one fingerprint to the filter, or none.
theorem resolveRule_eq (candidate : MecpRebroadcastCandidate) (now : Int) (acc : Resolved)
    (rule : MecpRebroadcastRule) :
    resolveRule js candidate now acc rule =
      match sendsTo js candidate rule with
      | none => acc
      | some dest =>
          ⟨offer FINGERPRINT_TTL_MS acc.fingerprintSeenAt (destOffer js candidate now dest),
            acc.targets ++
              if admits FINGERPRINT_TTL_MS acc.fingerprintSeenAt (destOffer js candidate now dest) then
                [sendTarget candidate rule dest]
              else []⟩ := by
  unfold resolveRule sendsTo
  by_cases henabled : rule.enabled = true
  · rw [if_neg (by simp [henabled]), if_pos henabled]
    cases hdest : ruleDest js candidate rule with
    | none => rfl
    | some dest =>
        by_cases hconcrete : concrete js candidate dest = true
        · simp only [hconcrete, Option.filter_some_pos, Bool.true_eq_false, if_false]
          by_cases hseen : ((pruneFingerprints acc.fingerprintSeenAt now).get?
              (fingerprintKey candidate.payload (protocolName dest.protocol) (mecpEndpointKey js dest))).isSome = true
          · have hno : admits FINGERPRINT_TTL_MS acc.fingerprintSeenAt (destOffer js candidate now dest) = false := by
              rw [admits, Option.isNone_eq_false_iff]
              exact hseen
            rw [if_pos hseen, offer, hno]
            simp
            rfl
          · have hyes : admits FINGERPRINT_TTL_MS acc.fingerprintSeenAt (destOffer js candidate now dest) = true := by
              rw [Bool.not_eq_true, Option.isSome_eq_false_iff] at hseen
              exact hseen
            rw [if_neg hseen, offer, hyes]
            simp
            rfl
        · have hnone : (some dest).filter (concrete js candidate) = none := by simp [hconcrete]
          rw [hnone]
          simp [hconcrete]
  · rw [if_pos (by simpa using henabled), if_neg henabled]

theorem resolveRules_spec (candidate : MecpRebroadcastCandidate) (now : Int)
    (rules : List MecpRebroadcastRule) (acc : Resolved) :
    ∃ sent, (rules.foldl (resolveRule js candidate now) acc).targets = acc.targets ++ sent ∧
      (rules.foldl (resolveRule js candidate now) acc).fingerprintSeenAt
        = offerAll FINGERPRINT_TTL_MS acc.fingerprintSeenAt (ruleOffers js candidate now rules) ∧
      sent.map (fun t => (⟨destinationKey candidate.payload (t.destination js), now⟩ : Offer String))
        = admitted FINGERPRINT_TTL_MS acc.fingerprintSeenAt (ruleOffers js candidate now rules) ∧
      ∀ t ∈ sent, ∃ rule ∈ rules, ∃ dest, sendsTo js candidate rule = some dest ∧
        t = sendTarget candidate rule dest := by
  induction rules generalizing acc with
  | nil => exact ⟨[], (List.append_nil _).symm, rfl, rfl, by simp⟩
  | cons rule rest ih =>
      obtain ⟨sent, htargets, hseen, hmap, hmem⟩ := ih (resolveRule js candidate now acc rule)
      rw [List.foldl_cons]
      rw [resolveRule_eq] at htargets hseen hmap ⊢
      cases hdest : sendsTo js candidate rule with
      | none =>
          simp only [hdest] at htargets hseen hmap ⊢
          have hoffers : ruleOffers js candidate now (rule :: rest) = ruleOffers js candidate now rest := by
            simp [ruleOffers, hdest]
          rw [hoffers]
          refine ⟨sent, htargets, hseen, hmap, fun t ht => ?_⟩
          obtain ⟨r, hr, hsent⟩ := hmem t ht
          exact ⟨r, List.mem_cons_of_mem _ hr, hsent⟩
      | some dest =>
          simp only [hdest] at htargets hseen hmap ⊢
          have hoffers : ruleOffers js candidate now (rule :: rest)
              = destOffer js candidate now dest :: ruleOffers js candidate now rest := by
            simp [ruleOffers, hdest]
          rw [hoffers]
          refine ⟨_, htargets.trans (List.append_assoc _ _ _), hseen, ?_, ?_⟩
          · rw [List.map_append, hmap, admitted]
            congr 1
            by_cases hadmits : admits FINGERPRINT_TTL_MS acc.fingerprintSeenAt (destOffer js candidate now dest) = true
            · rw [if_pos hadmits, if_pos hadmits, List.map_singleton, sendTarget_destination]
              rfl
            · simp [hadmits]
          · intro t ht
            rcases List.mem_append.mp ht with ht | ht
            · split_ifs at ht
              · exact ⟨rule, List.mem_cons_self, dest, hdest, List.mem_singleton.mp ht⟩
              · exact absurd ht List.not_mem_nil
            · obtain ⟨r, hr, hsent⟩ := hmem t ht
              exact ⟨r, List.mem_cons_of_mem _ hr, hsent⟩

theorem call_spec (seen : OrderedMap String Int) (c : RebroadcastCall) :
    afterCall js seen c = offerAll FINGERPRINT_TTL_MS seen (c.offers js) ∧
      (MadeCall.mk c (c.resolve js seen).targets).offers js
        = admitted FINGERPRINT_TTL_MS seen (c.offers js) ∧
      ∀ t ∈ (c.resolve js seen).targets, ∃ rule ∈ c.rules, ∃ dest,
        sendsTo js c.candidate rule = some dest ∧ t = sendTarget c.candidate rule dest := by
  unfold afterCall RebroadcastCall.offers MadeCall.offers RebroadcastCall.resolve resolveMecpRebroadcastTargets
  by_cases heligible : c.candidate.eligible = true
  · obtain ⟨sent, htargets, hseen, hmap, hmem⟩ := @resolveRules_spec js c.candidate c.now c.rules ⟨seen, []⟩
    simp only [heligible, if_true]
    rw [htargets, List.nil_append]
    exact ⟨hseen, hmap, hmem⟩
  · simp only [heligible]
    exact ⟨rfl, rfl, by simp⟩

theorem run_afterCall (seen : OrderedMap String Int) (calls : List RebroadcastCall) :
    run (afterCall js) seen calls
      = offerAll FINGERPRINT_TTL_MS seen (calls.flatMap (RebroadcastCall.offers js)) := by
  induction calls generalizing seen with
  | nil => rfl
  | cons c rest ih =>
      rw [run_cons, ih, (call_spec seen c).1, List.flatMap_cons, offerAll_append]

-- What the calls of a run target is what the filter lets through.
theorem made_offers (seen : OrderedMap String Int) (calls : List RebroadcastCall) :
    (made js seen calls).flatMap (MadeCall.offers js)
      = admitted FINGERPRINT_TTL_MS seen (calls.flatMap (RebroadcastCall.offers js)) := by
  induction calls generalizing seen with
  | nil => rfl
  | cons c rest ih =>
      obtain ⟨hafter, hoffers, _⟩ := @call_spec js seen c
      rw [made, List.flatMap_cons, List.flatMap_cons, admitted_append, ih, hoffers, hafter]

theorem made_concat (seen : OrderedMap String Int) (calls : List RebroadcastCall) (c : RebroadcastCall) :
    made js seen (calls ++ [c])
      = made js seen calls ++ [⟨c, (c.resolve js (run (afterCall js) seen calls)).targets⟩] := by
  induction calls generalizing seen with
  | nil => rfl
  | cons first rest ih => rw [List.cons_append, made, made, ih, List.cons_append, run_cons]

theorem mem_made {seen : OrderedMap String Int} {calls : List RebroadcastCall} {m : MadeCall}
    (h : m ∈ made js seen calls) : m.toRebroadcastCall ∈ calls ∧
      ∀ t ∈ m.targets, ∃ rule ∈ m.rules, ∃ dest,
        sendsTo js m.candidate rule = some dest ∧ t = sendTarget m.candidate rule dest := by
  induction calls generalizing seen with
  | nil => exact absurd h List.not_mem_nil
  | cons c rest ih =>
      rcases List.mem_cons.mp h with rfl | h
      · exact ⟨List.mem_cons_self, (call_spec seen c).2.2⟩
      · obtain ⟨hmem, htargets⟩ := ih h
        exact ⟨List.mem_cons_of_mem _ hmem, htargets⟩

abbrev InCallOrder (calls : List RebroadcastCall) : Prop := calls.Pairwise fun a b => a.now ≤ b.now

theorem now_of_mem_offers {c : RebroadcastCall} {o : Offer String} (h : o ∈ c.offers js) : o.now = c.now := by
  unfold RebroadcastCall.offers ruleOffers at h
  split_ifs at h
  · obtain ⟨rule, _, hrule⟩ := List.mem_filterMap.mp h
    obtain ⟨dest, _, rfl⟩ := Option.map_eq_some_iff.mp hrule
    rfl
  · exact absurd h List.not_mem_nil

theorem offers_inOrder {calls : List RebroadcastCall} (horder : InCallOrder calls) :
    InOrder (calls.flatMap (RebroadcastCall.offers js)) := by
  refine List.pairwise_flatMap.mpr ⟨?_, horder.imp ?_⟩
  · intro c _
    refine List.pairwise_of_forall_mem_list fun a ha b hb => ?_
    rw [now_of_mem_offers ha, now_of_mem_offers hb]
  · intro c d hcd a ha b hb
    rw [now_of_mem_offers ha, now_of_mem_offers hb]
    exact hcd

def MadeCall.Targets (js : Runtime) (m : MadeCall) (d : MeshProtocol × DestChannel) : Prop :=
  ∃ t ∈ m.targets, t.destination js = d

instance (m : MadeCall) (d : MeshProtocol × DestChannel) : Decidable (m.Targets js d) :=
  inferInstanceAs (Decidable (∃ t ∈ m.targets, t.destination js = d))

theorem MadeCall.Targets.offer_mem {m : MadeCall} {d : MeshProtocol × DestChannel} (h : m.Targets js d) :
    ⟨destinationKey m.candidate.payload d, m.now⟩ ∈ m.offers js := by
  obtain ⟨t, ht, rfl⟩ := h
  exact List.mem_map.mpr ⟨t, ht, rfl⟩

theorem made_apart {calls : List RebroadcastCall} (horder : InCallOrder calls) :
    (made js ∅ calls).Pairwise fun a b =>
      a.candidate.payload = b.candidate.payload → ∀ d, a.Targets js d → b.Targets js d →
        FINGERPRINT_TTL_MS < b.now - a.now := by
  have h : (admitted FINGERPRINT_TTL_MS ∅ (calls.flatMap (RebroadcastCall.offers js))).Pairwise _ :=
    admitted_apart (offers_inOrder horder)
  rw [← made_offers] at h
  refine (List.pairwise_flatMap.mp h).2.imp ?_
  intro a b hab hpayload d ha hb
  exact hab _ ha.offer_mem _ hb.offer_mem (by rw [hpayload])

theorem made_distinct {calls : List RebroadcastCall} (horder : InCallOrder calls) {m : MadeCall}
    (hm : m ∈ made js ∅ calls) : (m.targets.map fun t => t.destination js).Nodup := by
  have h : (admitted FINGERPRINT_TTL_MS ∅ (calls.flatMap (RebroadcastCall.offers js))).Pairwise _ :=
    admitted_apart (offers_inOrder horder)
  rw [← made_offers] at h
  have hcall := (List.pairwise_flatMap.mp h).1 m hm
  rw [MadeCall.offers, List.pairwise_map] at hcall
  refine List.pairwise_map.mpr (hcall.imp ?_)
  intro a b hab heq
  have hlate := hab (by rw [heq])
  rw [sub_self] at hlate
  exact absurd hlate (by decide)

-- The rule takes what comes from its source, one of its ends, to the other end.
def MecpRebroadcastRule.Maps (js : Runtime) (rule : MecpRebroadcastRule)
    (candidate : MecpRebroadcastCandidate) (dest : MecpRebroadcastEndpoint) : Prop :=
  endpointMatchesCandidate js rule.endpointA candidate = true ∧ dest = rule.endpointB ∨
    rule.bidirectional = true ∧ endpointMatchesCandidate js rule.endpointB candidate = true ∧
      dest = rule.endpointA

instance (rule : MecpRebroadcastRule) (candidate : MecpRebroadcastCandidate) (dest : MecpRebroadcastEndpoint) :
    Decidable (rule.Maps js candidate dest) :=
  inferInstanceAs (Decidable (_ ∨ _))

-- No end that the candidate comes from is another place to send it to.
theorem eq_of_matches {e e' : MecpRebroadcastEndpoint} {candidate : MecpRebroadcastCandidate}
    (he : endpointMatchesCandidate js e candidate = true)
    (he' : endpointMatchesCandidate js e' candidate = true)
    (hconcrete : concrete js candidate e = true) : e = e' := by
  cases e with
  | lora protocol n =>
      simp only [endpointMatchesCandidate, Bool.and_eq_true, decide_eq_true_eq] at he
      cases e' with
      | lora protocol' n' =>
          simp only [endpointMatchesCandidate, Bool.and_eq_true, decide_eq_true_eq] at he'
          have hproto : protocol = protocol' := by
            have hmesh := he.1.trans he'.1.symm
            cases protocol <;> cases protocol' <;> first | rfl | exact absurd hmesh (by decide)
          rw [hproto, he.2, he'.2]
      | reticulum r' =>
          cases r' with
          | rrc hub room => exact absurd he' (by simp [endpointMatchesCandidate])
          | lxmf hash =>
              simp only [endpointMatchesCandidate, Bool.and_eq_true, decide_eq_true_eq] at he'
              exact absurd (he.1.trans he'.1) (mesh_ne_reticulum protocol)
  | reticulum r =>
      cases r with
      | rrc hub room => exact absurd he (by simp [endpointMatchesCandidate])
      | lxmf hash =>
          simp only [endpointMatchesCandidate, Bool.and_eq_true, Bool.or_eq_true, decide_eq_true_eq] at he
          simp only [concrete, Bool.and_eq_true, decide_eq_true_eq] at hconcrete
          rcases he.2 with hany | hsender
          · exact absurd hany hconcrete.1
          · exact absurd hsender hconcrete.2

theorem sendsTo_of_maps {rule : MecpRebroadcastRule} {candidate : MecpRebroadcastCandidate}
    {dest : MecpRebroadcastEndpoint} (henabled : rule.enabled = true) (hmaps : rule.Maps js candidate dest)
    (hconcrete : concrete js candidate dest = true) : sendsTo js candidate rule = some dest := by
  have hdest : ruleDest js candidate rule = some dest := by
    unfold ruleDest
    rcases hmaps with ⟨hA, rfl⟩ | ⟨hboth, hB, rfl⟩
    · rw [if_pos hA]
    · by_cases hA : endpointMatchesCandidate js rule.endpointA candidate = true
      · rw [if_pos hA, eq_of_matches hA hB hconcrete]
      · rw [if_neg hA, if_pos (by rw [hB, hboth]; rfl)]
  rw [sendsTo, if_pos henabled, hdest, Option.filter_some_pos hconcrete]

theorem concrete_of_sendsTo {rule : MecpRebroadcastRule} {candidate : MecpRebroadcastCandidate}
    {dest : MecpRebroadcastEndpoint} (h : sendsTo js candidate rule = some dest) :
    concrete js candidate dest = true ∧ (dest = rule.endpointA ∨ dest = rule.endpointB) := by
  unfold sendsTo ruleDest at h
  split_ifs at h
  · obtain ⟨hdest, hconcrete⟩ := Option.filter_eq_some_iff.mp h
    exact ⟨hconcrete, .inr (Option.some.inj hdest).symm⟩
  · obtain ⟨hdest, hconcrete⟩ := Option.filter_eq_some_iff.mp h
    exact ⟨hconcrete, .inl (Option.some.inj hdest).symm⟩
  · simp at h

-- What the watcher passes: a report, and the rules as they are read from the settings.
def RebroadcastCall.FromWatcher (js : Runtime) (c : RebroadcastCall) : Prop :=
  MECP_REGEX c.candidate.payload = true ∧ ∃ raw, c.rules = parseMecpRebroadcastRules js raw

theorem RebroadcastCall.FromWatcher.wellFormed {c : RebroadcastCall} (h : c.FromWatcher js)
    {rule : MecpRebroadcastRule} (hrule : rule ∈ c.rules) {dest : MecpRebroadcastEndpoint}
    (hdest : sendsTo js c.candidate rule = some dest) : dest.WellFormed := by
  obtain ⟨_, raw, hraw⟩ := h
  have hwf := parseMecpRebroadcastRules_wellFormed (hraw ▸ hrule)
  rcases (concrete_of_sendsTo hdest).2 with rfl | rfl
  · exact hwf.1
  · exact hwf.2

-- A fingerprint among a call's offers tells what the call sends where.
theorem targets_of_offer (hjs : LowersAscii js) {m : MadeCall} (hm : m.FromWatcher js)
    (htargets : ∀ t ∈ m.targets, ∃ rule ∈ m.rules, ∃ dest,
      sendsTo js m.candidate rule = some dest ∧ t = sendTarget m.candidate rule dest)
    {c : RebroadcastCall} (hc : c.FromWatcher js) {rule : MecpRebroadcastRule} (hrule : rule ∈ c.rules)
    {dest : MecpRebroadcastEndpoint} (hdest : sendsTo js c.candidate rule = some dest) {o : Offer String}
    (ho : o ∈ m.offers js) (hkey : o.key = destinationKey c.candidate.payload (destination js dest)) :
    m.candidate.payload = c.candidate.payload ∧ m.Targets js (destination js dest) ∧ o.now = m.now := by
  obtain ⟨t, ht, rfl⟩ := List.mem_map.mp ho
  obtain ⟨rule', hrule', dest', hdest', rfl⟩ := htargets t ht
  rw [sendTarget_destination] at hkey
  obtain ⟨hpayload, hsame⟩ := destinationKey_inj hjs (hm.wellFormed hrule' hdest') (hc.wellFormed hrule hdest)
    (concrete_of_sendsTo hdest').1 (concrete_of_sendsTo hdest).1 hm.1 hc.1 hkey
  exact ⟨hpayload, ⟨_, ht, (sendTarget_destination _ _ _).trans hsame⟩, rfl⟩

theorem made_complete (hjs : LowersAscii js) {calls : List RebroadcastCall} {c : RebroadcastCall}
    (hcalls : ∀ d ∈ calls ++ [c], d.FromWatcher js) (heligible : c.candidate.eligible = true)
    {rule : MecpRebroadcastRule} (hrule : rule ∈ c.rules) (henabled : rule.enabled = true)
    {dest : MecpRebroadcastEndpoint} (hmaps : rule.Maps js c.candidate dest)
    (hconcrete : concrete js c.candidate dest = true)
    (hfree : ∀ m ∈ made js ∅ calls, m.candidate.payload = c.candidate.payload →
      m.Targets js (destination js dest) → FINGERPRINT_TTL_MS < c.now - m.now) :
    (MadeCall.mk c (c.resolve js (run (afterCall js) ∅ calls)).targets).Targets js (destination js dest) := by
  have hdest := sendsTo_of_maps henabled hmaps hconcrete
  have hc : c.FromWatcher js := hcalls c (by simp)
  obtain ⟨_, hoffers, htargets⟩ := @call_spec js (run (afterCall js) ∅ calls) c
  generalize hm : MadeCall.mk c (c.resolve js (run (afterCall js) ∅ calls)).targets = m at hoffers ⊢
  have hmc : m.toRebroadcastCall = c := by rw [← hm]
  have hmt : ∀ t ∈ m.targets, ∃ rule ∈ m.rules, ∃ dest,
      sendsTo js m.candidate rule = some dest ∧ t = sendTarget m.candidate rule dest := by
    rw [← hm]
    exact htargets
  have hmem : destOffer js c.candidate c.now dest ∈ c.offers js := by
    rw [RebroadcastCall.offers, if_pos heligible]
    exact List.mem_filterMap.mpr ⟨rule, hrule, by rw [hdest]; rfl⟩
  obtain ⟨front, back, hsplit⟩ := List.append_of_mem hmem
  rw [hsplit, show front ++ destOffer js c.candidate c.now dest :: back
    = (front ++ [destOffer js c.candidate c.now dest]) ++ back by simp, admitted_append, admitted_concat] at hoffers
  by_cases hadmits : admits FINGERPRINT_TTL_MS (offerAll FINGERPRINT_TTL_MS (run (afterCall js) ∅ calls) front)
      (destOffer js c.candidate c.now dest) = true
  · have hin : destOffer js c.candidate c.now dest ∈ m.offers js := by
      rw [hoffers, if_pos hadmits]
      simp
    exact (targets_of_offer hjs (hmc ▸ hc) hmt hc hrule hdest hin rfl).2.1
  · -- the fingerprint is known: from an earlier call, or from an earlier rule of this one
    rw [run_afterCall, ← offerAll_append, Bool.not_eq_true] at hadmits
    obtain ⟨a, ha, hkey, hrecent⟩ := exists_recent_of_not_admits hadmits
    rw [admitted_append, ← made_offers, ← run_afterCall, List.mem_append] at ha
    rcases ha with ha | ha
    · obtain ⟨m', hm', ha⟩ := List.mem_flatMap.mp ha
      obtain ⟨hmem', hmt'⟩ := mem_made hm'
      obtain ⟨hpayload, htarget, hnow⟩ := targets_of_offer hjs (hcalls _ (List.mem_append_left _ hmem'))
        hmt' hc hrule hdest ha hkey
      have hlate := hfree m' hm' hpayload htarget
      rw [hnow] at hrecent
      exact absurd hrecent (not_le.mpr hlate)
    · have hin : a ∈ m.offers js := by
        rw [hoffers]
        simp [ha]
      exact (targets_of_offer hjs (hmc ▸ hc) hmt hc hrule hdest hin hkey).2.1

-- No letter case of the sender's hash makes it another peer.
theorem made_not_sender (hjs : LowersAscii js) {calls : List RebroadcastCall} {m : MadeCall}
    (hm : m ∈ made js ∅ calls) (hwatcher : m.FromWatcher js) {t : MecpRebroadcastSendTarget}
    (ht : t ∈ m.targets) {hash sender : String} (hhash : t.reticulum = some (.lxmf hash))
    (hsender : m.candidate.reticulumSenderHash = some sender) :
    js.toLowerCase hash ≠ js.toLowerCase sender := by
  obtain ⟨rule, hrule, dest, hdest, rfl⟩ := (mem_made hm).2 t ht
  have hwf := hwatcher.wellFormed hrule hdest
  have hconcrete := (concrete_of_sendsTo hdest).1
  cases dest with
  | lora protocol n => simp [sendTarget] at hhash
  | reticulum r =>
      obtain rfl : r = .lxmf hash := Option.some.inj hhash
      rw [toLowerCase_hex32 hjs (hex32_of_concrete hwf hconcrete)]
      rintro rfl
      simp [concrete, hsender] at hconcrete

theorem notice_not_mecp (senderLabel : String) (fromProtocol : MeshProtocol) (fromChannelName : String) :
    MECP_REGEX (formatMecpRebroadcastNotice senderLabel fromProtocol fromChannelName) = false := by
  have hstart : "MECP from ".toList = ['M', 'E', 'C', 'P', ' ', 'f', 'r', 'o', 'm', ' '] := by decide
  unfold MECP_REGEX formatMecpRebroadcastNotice
  rw [String.toList_append, String.toList_append, String.toList_append, String.toList_append, String.toList_append,
    String.toList_append, hstart]
  rfl

-- `/MECP\/[0-3]\//.test(text)`, wherever in the text.
def containsMecp (text : String) : Bool := text.toList.tails.any matchesMecp

theorem rebroadcast_once_and_complete {js : Runtime} (hjs : LowersAscii js) {calls : List RebroadcastCall}
    {call : RebroadcastCall} (horder : InCallOrder (calls ++ [call])) :
    (made js ∅ (calls ++ [call])).Pairwise (fun a b =>
      a.candidate.payload = b.candidate.payload → ∀ d, a.Targets js d → b.Targets js d →
        8 * 60 * 1000 < b.now - a.now) ∧
    (∀ m ∈ made js ∅ (calls ++ [call]), (m.targets.map fun t => t.destination js).Nodup) ∧
    ((∀ c ∈ calls ++ [call], c.FromWatcher js) → call.candidate.eligible = true →
      ∀ rule ∈ call.rules, rule.enabled = true → ∀ dest, rule.Maps js call.candidate dest →
        concrete js call.candidate dest = true →
        (∀ m ∈ made js ∅ calls, m.candidate.payload = call.candidate.payload →
          m.Targets js (destination js dest) → 8 * 60 * 1000 < call.now - m.now) →
        ∃ m, made js ∅ (calls ++ [call]) = made js ∅ calls ++ [m] ∧ m.toRebroadcastCall = call ∧
          m.Targets js (destination js dest)) ∧
    (∀ m ∈ made js ∅ (calls ++ [call]), m.FromWatcher js → ∀ t ∈ m.targets, ∀ hash,
      t.reticulum = some (.lxmf hash) → ∀ sender, m.candidate.reticulumSenderHash = some sender →
        js.toLowerCase hash ≠ js.toLowerCase sender) ∧
    ∀ senderLabel fromProtocol fromChannelName,
      MECP_REGEX (formatMecpRebroadcastNotice senderLabel fromProtocol fromChannelName) = false := by
  refine ⟨made_apart horder, fun m hm => made_distinct horder hm, ?_, ?_, notice_not_mecp⟩
  · intro hcalls heligible rule hrule henabled dest hmaps hconcrete hfree
    exact ⟨_, made_concat ∅ calls call, rfl,
      made_complete hjs hcalls heligible hrule henabled hmaps hconcrete hfree⟩
  · intro m hm hwatcher t ht hash hhash sender hsender
    exact made_not_sender hjs hm hwatcher ht hhash hsender

theorem toLower_notCapital (c : Char) : ¬ ('A' ≤ c.toLower ∧ c.toLower ≤ 'Z') := by
  rintro ⟨hlow, hhigh⟩
  rw [Char.le_def, UInt32.le_iff_toNat_le] at hlow hhigh
  unfold Char.toLower at hlow hhigh
  split_ifs at hlow hhigh with hd
  · obtain ⟨hd, hd'⟩ := hd
    rw [ge_iff_le, UInt32.le_iff_toNat_le] at hd
    rw [UInt32.le_iff_toNat_le] at hd'
    have hsum : (c.val + ('a'.val - 'A'.val)).toNat = c.val.toNat + 32 := by
      rw [UInt32.toNat_add]
      exact Nat.mod_eq_of_lt (Nat.lt_of_le_of_lt (Nat.add_le_add_right hd' _) (by decide))
    have hmoved : (c.val + ('a'.val - 'A'.val)).toNat ≤ 'Z'.val.toNat := hhigh
    have hA : 'A'.val.toNat = 65 := rfl
    have hZ : 'Z'.val.toNat = 90 := rfl
    omega
  · exact hd ⟨UInt32.le_iff_toNat_le.mpr hlow, UInt32.le_iff_toNat_le.mpr hhigh⟩

theorem toLower_same {c : Char} (h : isDigit c = true ∨ 'a' ≤ c ∧ c ≤ 'z') : c.toLower = c := by
  have hcap : ¬ (c.val ≥ 'A'.val ∧ c.val ≤ 'Z'.val) := by
    rintro ⟨hlow, hhigh⟩
    rw [ge_iff_le, UInt32.le_iff_toNat_le] at hlow
    rw [UInt32.le_iff_toNat_le] at hhigh
    have hA : 'A'.val.toNat = 65 := rfl
    have hZ : 'Z'.val.toNat = 90 := rfl
    rcases h with h | ⟨h, _⟩
    · simp only [isDigit, Bool.and_eq_true, decide_eq_true_eq] at h
      have h9 : '9'.toNat = 57 := rfl
      have hc : c.toNat = c.val.toNat := rfl
      omega
    · rw [Char.le_def, UInt32.le_iff_toNat_le] at h
      have ha : 'a'.val.toNat = 97 := rfl
      omega
  unfold Char.toLower
  rw [dif_neg hcap]

theorem lowersAscii_asciiRuntime : LowersAscii asciiRuntime where
  noCapital s c hc := by
    simp only [asciiRuntime, String.toList_ofList, List.mem_map] at hc
    obtain ⟨d, _, rfl⟩ := hc
    exact toLower_notCapital d
  same s hs := by
    have hmap : s.toList.map Char.toLower = s.toList :=
      (List.map_congr_left fun c hc => toLower_same (hs c hc)).trans (List.map_id _)
    simp only [asciiRuntime, hmap, String.ofList_toList]

def rawRelay : Json := .array [.object
  [("id", .string "relay"), ("enabled", .bool true), ("bidirectional", .bool false),
    ("endpointA", .object [("protocol", .string "meshtastic"), ("channelIndex", .number (.finite 0))]),
    ("endpointB", .object [("protocol", .string "meshcore"), ("channelIndex", .number (.finite 1))])]]

def relayed (now : Int) : RebroadcastCall where
  candidate := { protocol := .meshtastic, channelIndex := 0, payload := "MECP/0/M01" }
  rules := parseMecpRebroadcastRules asciiRuntime (some rawRelay)
  now

-- The same report goes out again once eight minutes are over.
theorem report_relayed_again :
    (relayed 0).FromWatcher asciiRuntime ∧
    ∃ m, made asciiRuntime ∅ ([relayed 0] ++ [relayed 480001]) = made asciiRuntime ∅ [relayed 0] ++ [m] ∧
      m.toRebroadcastCall = relayed 480001 ∧
      m.Targets asciiRuntime (destination asciiRuntime (.lora .meshcore 1)) := by
  have horder : InCallOrder ([relayed 0] ++ [relayed 480001]) := by decide
  obtain ⟨_, _, hcomplete, _, _⟩ := rebroadcast_once_and_complete lowersAscii_asciiRuntime horder
  have hwatcher : ∀ c ∈ [relayed 0] ++ [relayed 480001], c.FromWatcher asciiRuntime := by
    intro c hc
    rcases List.mem_append.mp hc with hc | hc
    · obtain rfl := List.mem_singleton.mp hc
      exact ⟨by decide, some rawRelay, rfl⟩
    · obtain rfl := List.mem_singleton.mp hc
      exact ⟨by decide, some rawRelay, rfl⟩
  refine ⟨hwatcher _ (by simp), hcomplete hwatcher (by decide)
    ⟨"relay", true, false, .lora .meshtastic 0, .lora .meshcore 1⟩ (by decide) rfl
    (.lora .meshcore 1) (by decide) (by decide) (by decide)⟩

-- A sender may be called like a report, and a text that is no report may end like the room of
-- another rule.
def hub : String := "aaaaaaaaaaaaaaaaaaaaaaaaaaaaaaaa"

def roomRule (room : String) : MecpRebroadcastRule where
  id := room
  enabled := true
  bidirectional := false
  endpointA := .lora .meshtastic 0
  endpointB := .reticulum (.rrc hub room)

def textCall (room payload : String) (now : Int) : RebroadcastCall where
  candidate := { protocol := .meshtastic, channelIndex := 0, payload }
  rules := [roomRule room]
  now

theorem notice_and_room_mislead :
    containsMecp (formatMecpRebroadcastNotice "MECP/0/M01" .meshtastic "LongFast") = true ∧
    (textCall "ops:x" "MECP/0/M01" 1).candidate.eligible = true ∧
    (roomRule "ops:x").Maps asciiRuntime (textCall "ops:x" "MECP/0/M01" 1).candidate (roomRule "ops:x").endpointB ∧
    concrete asciiRuntime (textCall "ops:x" "MECP/0/M01" 1).candidate (roomRule "ops:x").endpointB = true ∧
    (∀ m ∈ made asciiRuntime ∅ [textCall "ops" "x:MECP/0/M01" 0],
      ¬ (m.candidate.payload = "MECP/0/M01" ∧
        m.Targets asciiRuntime (destination asciiRuntime (roomRule "ops:x").endpointB))) ∧
    ∀ m ∈ made asciiRuntime ∅ [textCall "ops" "x:MECP/0/M01" 0, textCall "ops:x" "MECP/0/M01" 1],
      ¬ m.Targets asciiRuntime (destination asciiRuntime (roomRule "ops:x").endpointB) := by
  decide

end MeshClient.Mecp
