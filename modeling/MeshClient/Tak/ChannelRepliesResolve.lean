import MeshClient.Tak.ChannelReplies

namespace MeshClient.Tak.ChannelReplies

open Js Run MeshClient.Meshcore

-- The reader of the marker sees the name, no key, and the message.
def ReadsBack (text name message : String) : Prop :=
  parseMeshcorePlainBracketLine text = { hadBracketReplyPrefix := true, payload := message, bracketTargetName := some name }

theorem parse_mention {name : String} (hbracket : ']' ∉ name.toList) (rest : String) :
    parseMeshcorePlainBracketLine (mention name rest).1 =
      { hadBracketReplyPrefix := true
        payload := (mention name rest).2
        bracketTargetName := (parseMeshcoreBracketTarget name.toList).1
        wireReplyKey := (parseMeshcoreBracketTarget name.toList).2 } := by
  have hwire : ("@[" ++ name ++ "]").toList = '@' :: '[' :: (name.toList ++ [']']) := by simp
  by_cases hempty : trim rest = ""
  · have htrim : trimChars ("@[" ++ name ++ "]").toList = '@' :: '[' :: (name.toList ++ [']']) := by
      rw [hwire, trimChars_eq_self_iff]
      have hneat : ∀ c, isSpace c = false → Trim.Neat isSpace [c] := by
        intro c hc
        refine ⟨fun d hd => ?_, fun d hd => ?_⟩ <;> simp at hd <;> exact hd ▸ hc
      have happend := @Trim.Neat.append _ isSpace ['@'] [']'] ('[' :: name.toList) (hneat '@' (by decide))
        (hneat ']' (by decide)) (by simp) (by simp)
      simpa using happend
    have hparse : parseMeshcoreBracketPrefix ("@[" ++ name ++ "]") =
        { hadBracketPrefix := true, targetName := (parseMeshcoreBracketTarget name.toList).1,
          wireReplyKey := (parseMeshcoreBracketTarget name.toList).2, body := "" } := by
      simp only [parseMeshcoreBracketPrefix, htrim, splitAtBracket hbracket]
      rfl
    simp only [mention, hempty, if_true, parseMeshcorePlainBracketLine, hparse]
    rfl
  · have hbody : trim (trim rest) = trim rest := by
      rw [trim, trim, String.toList_ofList]
      exact congrArg String.ofList (Trim.trim_trim _)
    simp only [mention, if_neg hempty]
    exact parseMeshcorePlainBracketLine_wire hwire hbracket hbody hempty

theorem replyKeySuffix_length {name before digits : List Char} (h : replyKeySuffix name = some (before, digits)) :
    before.length < name.length := by
  simp only [replyKeySuffix] at h
  have hwhole := congrArg List.length (@List.rdropWhile_append_rtakeWhile _ isDigit name)
  rw [List.length_append] at hwhole
  split_ifs at h with hshort
  split at h
  · obtain ⟨rfl, _⟩ := Prod.mk.inj (Option.some.inj h)
    rw [List.length_dropLast]
    omega
  · cases h

-- A sender's name is taken for a key exactly where it ends like one.
theorem parseMeshcoreBracketTarget_sender (sender : Sender) :
    parseMeshcoreBracketTarget sender.name.toList = (some sender.name, none) ↔
      replyKeySuffix sender.name.toList = none := by
  have hneat : trimChars sender.name.toList = sender.name.toList := by
    have hlist := congrArg String.toList sender.neat
    rwa [trim, String.toList_ofList] at hlist
  have hnonempty : sender.name.toList ≠ [] := fun hnil => sender.nonempty (String.toList_injective hnil)
  simp only [parseMeshcoreBracketTarget, hneat, if_neg hnonempty]
  cases hkey : replyKeySuffix sender.name.toList with
  | none => simp only [String.ofList_toList]
  | some parts =>
      obtain ⟨before, digits⟩ := parts
      have hshorter := replyKeySuffix_length hkey
      simp only [reduceCtorEq, iff_false, Prod.mk.injEq, not_and_or]
      refine .inl ?_
      split_ifs
      · exact not_false
      · intro heq
        have hlist := congrArg String.toList (Option.some.inj heq)
        rw [String.toList_ofList] at hlist
        have hle := Trim.length_trim_le (p := isSpace) before
        have hlength := congrArg List.length hlist
        have htrim : trimChars before = Trim.trim isSpace before := rfl
        rw [htrim] at hlength
        omega

-- The only one of those heard lately with a property.
def OnlyOne (lately P : String → Prop) (name : String) : Prop :=
  lately name ∧ P name ∧ ∀ other, lately other → P other → other = name

theorem filter_eq_singleton_iff {names : List String} (hnodup : names.Nodup) {p : String → Bool} {name : String} :
    names.filter p = [name] ↔ OnlyOne (· ∈ names) (p · = true) name := by
  constructor
  · intro h
    obtain ⟨hmem, hp⟩ := List.mem_filter.mp (h ▸ List.mem_singleton_self name)
    refine ⟨hmem, hp, fun other hother hq => ?_⟩
    exact List.mem_singleton.mp (h ▸ List.mem_filter.mpr ⟨hother, hq⟩)
  · intro ⟨hmem, hp, honly⟩
    have hperm : (names.filter p).Perm [name] := by
      refine (List.perm_ext_iff_of_nodup (hnodup.filter p) (List.nodup_singleton name)).mpr fun other => ?_
      rw [List.mem_filter, List.mem_singleton]
      constructor
      · intro ⟨hother, hq⟩
        exact honly other hother hq
      · rintro rfl
        exact ⟨hmem, hp⟩
    exact List.perm_singleton.mp hperm

-- Whom the text is for: the last speaker, or the only name that is the typed one or begins with it.
def Meant (normalizeReplyName : String → String) (maxNames : Nat) (maxAge : Int) (log : Log) (channelKey text : String)
    (nowMs : Int) (name : String) : Prop :=
  let lately := HeardLately maxNames maxAge log channelKey nowMs
  ∃ cs, text.toList = '@' :: cs ∧ cs.head? ≠ some '[' ∧
    if namesLastSpeaker cs then lately name ∧ ∃ atMs older, heardOn channelKey log = (name, atMs) :: older
    else ∃ typed rest, splitTyped cs = some (typed, rest) ∧ normalizeReplyName typed ≠ "" ∧
      (OnlyOne lately (fun n => normalizeReplyName n = normalizeReplyName typed) name ∨
        OnlyOne lately (fun n => (normalizeReplyName typed).toList <+: (normalizeReplyName n).toList) name)

theorem meant_unique {normalizeReplyName : String → String} {maxNames : Nat} {maxAge : Int} {log : Log}
    {channelKey text : String} {nowMs : Int} {name other : String}
    (h : Meant normalizeReplyName maxNames maxAge log channelKey text nowMs name)
    (h' : Meant normalizeReplyName maxNames maxAge log channelKey text nowMs other) : name = other := by
  obtain ⟨cs, hcs, -, hname⟩ := h
  obtain ⟨cs', hcs', -, hother⟩ := h'
  obtain rfl : cs = cs' := (List.cons.inj (hcs.symm.trans hcs')).2
  split_ifs at hname hother with hlast
  · obtain ⟨-, atMs, older, hheard⟩ := hname
    obtain ⟨-, atMs', older', hheard'⟩ := hother
    exact congrArg Prod.fst (List.cons.inj (hheard.symm.trans hheard')).1
  · obtain ⟨typed, rest, hsplit, -, honly⟩ := hname
    obtain ⟨typed', rest', hsplit', -, honly'⟩ := hother
    obtain ⟨rfl, _⟩ := Prod.mk.inj (Option.some.inj (hsplit.symm.trans hsplit'))
    -- An exact match is a prefix match as well.
    have hbegins : ∀ {n}, normalizeReplyName n = normalizeReplyName typed →
        (normalizeReplyName typed).toList <+: (normalizeReplyName n).toList := by
      intro n hn
      rw [hn]
    rcases honly with hexact | hfirst
    · rcases honly' with hexact' | hfirst'
      · exact hexact'.2.2 name hexact.1 hexact.2.1
      · exact hfirst'.2.2 name hexact.1 (hbegins hexact.2.1)
    · rcases honly' with hexact' | hfirst'
      · exact (hfirst.2.2 other hexact'.1 (hbegins hexact'.2.1)).symm
      · exact hfirst'.2.2 name hfirst.1 hfirst.2.1

theorem matching_eq_singleton_iff {normalizeReplyName : String → String} {recent : List String} (hnodup : recent.Nodup)
    {key name : String} :
    matching normalizeReplyName recent key = [name] ↔
      OnlyOne (· ∈ recent) (fun n => normalizeReplyName n = key) name ∨
        OnlyOne (· ∈ recent) (fun n => key.toList <+: (normalizeReplyName n).toList) name := by
  have hexact := @filter_eq_singleton_iff recent hnodup (fun n => normalizeReplyName n = key)
  have hfirst := @filter_eq_singleton_iff recent hnodup (fun n => key.toList.isPrefixOf (normalizeReplyName n).toList)
  simp only [decide_eq_true_eq] at hexact
  simp only [List.isPrefixOf_iff_prefix] at hfirst
  rw [← hexact, ← hfirst]
  simp only [matching]
  split_ifs with hone
  · refine ⟨.inl, fun h => ?_⟩
    rcases h with h | h
    · exact h
    · obtain ⟨only, honly⟩ := List.length_eq_one_iff.mp hone
      obtain ⟨hmem, hkey, -⟩ := hexact.mp honly
      have hsame := (hfirst.mp h).2.2 only hmem (by simp [hkey])
      rw [honly, hsame]
  · refine ⟨.inr, fun h => ?_⟩
    rcases h with h | h
    · rw [h] at hone
      exact absurd rfl hone
    · exact h

-- A text is for one person and answered to them, or for nobody and sent as it is or not at all.
theorem resolve_cases (normalizeReplyName : String → String) {r : ChannelReplies} {log : Log} (h : Remembers r log)
    (hordered : (log.map fun e => e.2.2).Pairwise (· ≥ ·)) (channelKey text : String) (nowMs : Int) :
    (∃ name rest, Meant normalizeReplyName r.maxNamesPerChannel r.maxAgeMs log channelKey text nowMs name ∧
      resolve normalizeReplyName r channelKey text nowMs = replyTo name rest) ∨
    (∀ name, ¬ Meant normalizeReplyName r.maxNamesPerChannel r.maxAgeMs log channelKey text nowMs name) ∧
      (resolve normalizeReplyName r channelKey text nowMs = .send text none none ∨
        resolve normalizeReplyName r channelKey text nowMs = .nobody ∨
        ∃ typed names, resolve normalizeReplyName r channelKey text nowMs = .ambiguous typed names) := by
  unfold resolve
  split
  case h_2 hother =>
    refine .inr ⟨fun name ⟨cs, hcs, _⟩ => hother cs hcs, .inl rfl⟩
  case h_1 cs hcs =>
    by_cases hbracket : cs.head? = some '['
    · rw [if_pos hbracket]
      refine .inr ⟨fun name ⟨cs', hcs', hhead, _⟩ => hhead ?_, .inl rfl⟩
      rw [← (List.cons.inj (hcs.symm.trans hcs')).2]
      exact hbracket
    rw [if_neg hbracket]
    have hmeant : ∀ name, Meant normalizeReplyName r.maxNamesPerChannel r.maxAgeMs log channelKey text nowMs name ↔
        if namesLastSpeaker cs then (r.recent channelKey nowMs).head? = some name
        else ∃ typed rest, splitTyped cs = some (typed, rest) ∧ normalizeReplyName typed ≠ "" ∧
          matching normalizeReplyName (r.recent channelKey nowMs) (normalizeReplyName typed) = [name] := by
      intro name
      simp only [head_recent h hordered, matching_eq_singleton_iff (nodup_recent h), mem_recent h]
      constructor
      · intro ⟨cs', hcs', _, hname⟩
        rw [(List.cons.inj (hcs.symm.trans hcs')).2]
        exact hname
      · exact fun hname => ⟨cs, hcs, hbracket, hname⟩
    simp only [hmeant]
    by_cases hlast : namesLastSpeaker cs = true
    · simp only [if_pos hlast]
      cases hhead : (r.recent channelKey nowMs).head? with
      | none => exact .inr ⟨fun name => Option.some_ne_none name ∘ Eq.symm, .inr (.inl rfl)⟩
      | some last => exact .inl ⟨last, _, rfl, rfl⟩
    · simp only [if_neg hlast]
      cases hsplit : splitTyped cs with
      | none => exact .inr ⟨fun name ⟨typed, rest, hnone, _⟩ => (by cases hnone), .inl rfl⟩
      | some parts =>
          obtain ⟨typed, rest⟩ := parts
          simp only
          by_cases hkey : normalizeReplyName typed = ""
          · rw [if_pos hkey]
            refine .inr ⟨fun name ⟨typed', rest', heq, hne, _⟩ => hne ?_, .inl rfl⟩
            rw [← (Prod.mk.inj (Option.some.inj heq)).1]
            exact hkey
          rw [if_neg hkey]
          have hiff : ∀ name, (∃ typed' rest', some (typed, rest) = some (typed', rest') ∧
              normalizeReplyName typed' ≠ "" ∧ matching normalizeReplyName (r.recent channelKey nowMs) (normalizeReplyName typed') = [name]) ↔
              matching normalizeReplyName (r.recent channelKey nowMs) (normalizeReplyName typed) = [name] := by
            intro name
            constructor
            · intro ⟨typed', rest', heq, _, hone⟩
              rw [(Prod.mk.inj (Option.some.inj heq)).1]
              exact hone
            · exact fun hone => ⟨typed, rest, rfl, hkey, hone⟩
          simp only [hiff]
          cases matching normalizeReplyName (r.recent channelKey nowMs) (normalizeReplyName typed) with
          | nil => exact .inr ⟨fun name hnil => (by cases hnil), .inl rfl⟩
          | cons first more =>
              cases more with
              | nil => exact .inl ⟨first, rest, rfl, rfl⟩
              | cons second more => exact .inr ⟨fun name hone => (by cases hone), .inr (.inr ⟨typed, _, rfl⟩)⟩

-- What is sent goes to whom it was meant for and reads so, or goes out as it was typed.
def AsMeant (meant : String → Prop) (text : String) : ChannelReplyOutcome → Prop
  | .send sent (some name) message => meant name ∧ ∃ payload, message = some payload ∧ ReadsBack sent name payload
  | .send sent none _ => sent = text
  | _ => True

theorem readsBack_mention (sender : Sender) (hbracket : ']' ∉ sender.name.toList) (rest : String) :
    ReadsBack (mention sender.name rest).1 sender.name (mention sender.name rest).2 ↔
      replyKeySuffix sender.name.toList = none := by
  rw [ReadsBack, parse_mention hbracket, ← parseMeshcoreBracketTarget_sender]
  simp only [MeshcoreNormalizedText.mk.injEq, true_and, and_true, Prod.ext_iff]

theorem asMeant_replyTo (sender : Sender) (rest text : String) {meant : String → Prop} (hmeant : meant sender.name) :
    AsMeant meant text (replyTo sender.name rest) ↔
      (']' ∉ sender.name.toList → replyKeySuffix sender.name.toList = none) := by
  by_cases hbracket : ']' ∈ sender.name.toList
  · have hrefused : replyTo sender.name rest = .unencodable sender.name := by
      simp [replyTo, fitsReplyMarker, hbracket]
    rw [hrefused]
    exact ⟨fun _ h => absurd hbracket h, fun _ => trivial⟩
  · have hsent : replyTo sender.name rest =
        .send (mention sender.name rest).1 (some sender.name) (some (mention sender.name rest).2) := by
      simp [replyTo, fitsReplyMarker, hbracket]
    rw [hsent, ← readsBack_mention sender hbracket rest]
    constructor
    · intro ⟨_, payload, hpayload, hreads⟩ _
      rw [Option.some.inj hpayload]
      exact hreads
    · exact fun hreads => ⟨hmeant, _, rfl, hreads hbracket⟩

theorem reply_as_meant_iff (normalizeReplyName : String → String) (maxNames : Nat) (maxAge : Int) (ops : List Op)
    (horder : (heardTimes ops).Pairwise (· ≤ ·)) (channelKey text : String) (nowMs : Int) :
    AsMeant (Meant normalizeReplyName maxNames maxAge (run remember [] ops) channelKey text nowMs) text
        (resolve normalizeReplyName (run step ⟨maxNames, maxAge, ∅⟩ ops) channelKey text nowMs) ↔
      ∀ name, Meant normalizeReplyName maxNames maxAge (run remember [] ops) channelKey text nowMs name →
        ']' ∉ name.toList → replyKeySuffix name.toList = none := by
  have hstart : Remembers ⟨maxNames, maxAge, ∅⟩ [] := fun _ => List.take_nil.symm
  obtain ⟨hremembers, hcap, hage⟩ := remembers_run _ _ hstart ops
  have hcases := resolve_cases normalizeReplyName hremembers (ordered_run [] ops horder) channelKey text nowMs
  rw [hcap, hage] at hcases
  rcases hcases with ⟨name, rest, hmeant, hreply⟩ | ⟨hnobody, hreply⟩
  · have hsender : ∃ sender : Sender, sender.name = name := by
      obtain ⟨_, _, _, hname⟩ := hmeant
      have hlately : HeardLately maxNames maxAge (run remember [] ops) channelKey nowMs name := by
        split_ifs at hname
        · exact hname.1
        · obtain ⟨_, _, _, _, honly⟩ := hname
          exact honly.elim (·.1) (·.1)
      obtain ⟨atMs, after, older, hheard, -⟩ := hlately
      have hmem : (name, atMs) ∈ heardOn channelKey (run remember [] ops) := by
        rw [hheard]
        exact List.mem_append_right _ List.mem_cons_self
      obtain ⟨e, he, hentry⟩ := List.mem_map.mp hmem
      obtain ⟨sender, hsender⟩ := senders_run ops e (List.mem_filter.mp he).1
      exact ⟨sender, by rw [hsender, hentry]⟩
    obtain ⟨sender, rfl⟩ := hsender
    rw [hreply, asMeant_replyTo sender rest text hmeant]
    constructor
    · intro h other hother
      rw [← meant_unique hmeant hother]
      exact h
    · exact fun h => h sender.name hmeant
  · refine iff_of_true ?_ fun name hmeant => absurd hmeant (hnobody name)
    rcases hreply with hsend | hno | ⟨typed, names, hambiguous⟩
    · rw [hsend]
      exact rfl
    · rw [hno]
      trivial
    · rw [hambiguous]
      trivial

def eagle : Sender where
  name := "Eagle"
  neat := by decide +kernel
  nonempty := by decide
  short := by decide +kernel

theorem eagle_is_meant :
    (heardTimes [.heard "public" eagle 0]).Pairwise (· ≤ ·) ∧
      (AsMeant (Meant id 50 1000 (run remember [] [.heard "public" eagle 0]) "public" "@@ hi" 5) "@@ hi"
          (resolve id (run step ⟨50, 1000, ∅⟩ [.heard "public" eagle 0]) "public" "@@ hi" 5) ↔
        ∀ name, Meant id 50 1000 (run remember [] [.heard "public" eagle 0]) "public" "@@ hi" 5 name →
          ']' ∉ name.toList → replyKeySuffix name.toList = none) := by
  have horder : (heardTimes [.heard "public" eagle 0]).Pairwise (· ≤ ·) := List.pairwise_singleton _ _
  exact ⟨horder, reply_as_meant_iff id 50 1000 [.heard "public" eagle 0] horder "public" "@@ hi" 5⟩

def relay : Sender where
  name := "Relay #1234567890"
  neat := by decide +kernel
  nonempty := by decide
  short := by decide +kernel

theorem relay_is_read_as_key :
    ¬ ∀ (ops : List Op), (heardTimes ops).Pairwise (· ≤ ·) → ∀ channelKey text nowMs,
      AsMeant (Meant id 50 1000 (run remember [] ops) channelKey text nowMs) text
        (resolve id (run step ⟨50, 1000, ∅⟩ ops) channelKey text nowMs) := by
  intro hall
  have hreply := hall [.heard "public" relay 0] (List.pairwise_singleton _ _) "public" "@@ hi" 5
  have hsent : resolve id (run step ⟨50, 1000, ∅⟩ [.heard "public" relay 0]) "public" "@@ hi" 5 =
      .send "@[Relay #1234567890] hi" (some "Relay #1234567890") (some "hi") := by decide +kernel
  rw [hsent] at hreply
  obtain ⟨-, payload, hpayload, hreads⟩ := hreply
  have hread : (parseMeshcorePlainBracketLine "@[Relay #1234567890] hi").bracketTargetName = some "Relay" := by
    decide +kernel
  rw [ReadsBack] at hreads
  rw [hreads] at hread
  exact absurd (Option.some.inj hread) (by decide)

end MeshClient.Tak.ChannelReplies
