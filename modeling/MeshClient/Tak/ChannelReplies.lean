import MeshClient.Lib.OrderedMap
import MeshClient.Lib.Recency
import MeshClient.Lib.Run
import MeshClient.Meshcore.WireReply

namespace MeshClient.Tak

open Js

inductive ChannelReplyOutcome where
  | send (text : String) (repliedTo : Option String) (message : Option String)
  | ambiguous (typed : String) (names : List String)
  | nobody
  | unencodable (name : String)
deriving DecidableEq

def MAX_NAME_CHARS : Nat := 40
def DEFAULT_MAX_NAMES_PER_CHANNEL : Nat := 50
def DEFAULT_MAX_AGE_MS : Int := 24 * 60 * 60 * 1000

def fitsReplyMarker (name : String) : Bool := !name.toList.contains ']'

-- The text and the message in it.
def mention (name rest : String) : String × String :=
  let message := trim rest
  (if message = "" then "@[" ++ name ++ "]" else "@[" ++ name ++ "]" ++ " " ++ message, message)

def replyTo (name rest : String) : ChannelReplyOutcome :=
  if !fitsReplyMarker name then .unencodable name
  else .send (mention name rest).1 (some name) (some (mention name rest).2)

def splitTyped : List Char → Option (String × String)
  | '"' :: cs =>
      match cs.dropWhile (· ≠ '"') with
      | [] => none
      | _ :: rest => some (String.ofList (cs.takeWhile (· ≠ '"')), String.ofList rest)
  | cs => some (String.ofList (cs.takeWhile (!isSpace ·)), String.ofList (cs.dropWhile (!isSpace ·)))

-- `@@` by itself or with a blank behind it; read from behind the first `@`.
def namesLastSpeaker : List Char → Bool
  | ['@'] => true
  | '@' :: c :: _ => isSpace c
  | _ => false

-- Each channel's names are in the order in which they were last heard.
structure ChannelReplies where
  maxNamesPerChannel : Nat := DEFAULT_MAX_NAMES_PER_CHANNEL
  maxAgeMs : Int := DEFAULT_MAX_AGE_MS
  heardBy : OrderedMap String (OrderedMap String Int) := ∅

namespace ChannelReplies

def heard (r : ChannelReplies) (channelKey senderName : String) (atMs : Int) : ChannelReplies :=
  let name := trim senderName
  if name = "" ∨ (codeUnits name).length > MAX_NAME_CHARS then r
  else
    let names := (((r.heardBy.get? channelKey).getD ∅).erase name).set name atMs
    { r with heardBy := r.heardBy.set channelKey (names.drop (names.size - r.maxNamesPerChannel)) }

def clear (r : ChannelReplies) : ChannelReplies := { r with heardBy := ∅ }

def recent (r : ChannelReplies) (channelKey : String) (nowMs : Int) : List String :=
  match r.heardBy.get? channelKey with
  | none => []
  | some names => ((names.entries.filter fun e => nowMs - e.2 ≤ r.maxAgeMs).map Prod.fst).reverse

-- A single name that is the key itself wins over the names that begin with it.
def matching (normalizeReplyName : String → String) (recent : List String) (key : String) : List String :=
  let exact := recent.filter fun n => normalizeReplyName n = key
  if exact.length = 1 then exact else recent.filter fun n => key.toList.isPrefixOf (normalizeReplyName n).toList

def resolve (normalizeReplyName : String → String) (r : ChannelReplies) (channelKey text : String) (nowMs : Int) :
    ChannelReplyOutcome :=
  match text.toList with
  | '@' :: cs =>
      if cs.head? = some '[' then .send text none none
      else
        let recent := r.recent channelKey nowMs
        if namesLastSpeaker cs then
          match recent.head? with
          | none => .nobody
          | some last => replyTo last (String.ofList (cs.drop 1))
        else
          match splitTyped cs with
          | none => .send text none none
          | some (typed, rest) =>
              let key := normalizeReplyName typed
              if key = "" then .send text none none
              else
                match matching normalizeReplyName recent key with
                | [] => .send text none none
                | [name] => replyTo name rest
                | names => .ambiguous typed names
  | _ => .send text none none

-- A name as it is heard: trimmed, and not too long.
structure Sender where
  name : String
  neat : trim name = name
  nonempty : name ≠ ""
  short : (codeUnits name).length ≤ MAX_NAME_CHARS

inductive Op where
  | heard (channelKey : String) (sender : Sender) (atMs : Int)
  | clear

def step (r : ChannelReplies) : Op → ChannelReplies
  | .heard channelKey sender atMs => r.heard channelKey sender.name atMs
  | .clear => r.clear

def Op.time? : Op → Option Int
  | .heard _ _ atMs => some atMs
  | .clear => none

-- What was heard on the channels, the newest first.
abbrev Log := List (String × String × Int)

def remember (log : Log) : Op → Log
  | .heard channelKey sender atMs => (channelKey, sender.name, atMs) :: log
  | .clear => []

def heardOn (channelKey : String) (log : Log) : List (String × Int) :=
  (log.filter fun e => e.1 = channelKey).map Prod.snd

-- The names of a channel with the times, the newest first.
def entriesOn (r : ChannelReplies) (channelKey : String) : List (String × Int) :=
  match r.heardBy.get? channelKey with
  | none => []
  | some names => names.entries.reverse

theorem recent_eq (r : ChannelReplies) (channelKey : String) (nowMs : Int) :
    r.recent channelKey nowMs = ((r.entriesOn channelKey).filter fun e => nowMs - e.2 ≤ r.maxAgeMs).map Prod.fst := by
  unfold recent entriesOn
  cases r.heardBy.get? channelKey with
  | none => rfl
  | some names => simp only [List.filter_reverse, List.map_reverse]

-- The sender comes first, and the last one may go.
theorem entriesOn_heard (r : ChannelReplies) (channelKey other : String) (sender : Sender) (atMs : Int) :
    (r.heard channelKey sender.name atMs).entriesOn other =
      if other = channelKey then
        ((sender.name, atMs) :: (r.entriesOn channelKey).filter fun e => e.1 ≠ sender.name).take r.maxNamesPerChannel
      else r.entriesOn other := by
  have hshort : ¬ (sender.name = "" ∨ (codeUnits sender.name).length > MAX_NAME_CHARS) :=
    not_or.mpr ⟨sender.nonempty, Nat.not_lt.mpr sender.short⟩
  simp only [heard, sender.neat, if_neg hshort, entriesOn, OrderedMap.get?_set]
  split_ifs with hother
  · subst hother
    obtain ⟨names, hnames, hentries⟩ : ∃ names : OrderedMap String Int, (r.heardBy.get? other).getD ∅ = names ∧
        (match r.heardBy.get? other with | none => [] | some names => names.entries.reverse) = names.entries.reverse := by
      cases r.heardBy.get? other with
      | none => exact ⟨∅, rfl, rfl⟩
      | some names => exact ⟨names, rfl, rfl⟩
    rw [hnames, hentries]
    have hfresh : sender.name ∉ (names.erase sender.name).keys := by
      rw [← OrderedMap.get?_eq_none_iff, OrderedMap.get?_erase, if_pos rfl]
    have hset := OrderedMap.entries_set_of_notMem _ atMs hfresh
    simp only [OrderedMap.drop, OrderedMap.size, hset, List.reverse_drop, List.reverse_append, List.reverse_singleton]
    simp only [OrderedMap.erase, OrderedMap.filter, List.filter_reverse, List.singleton_append]
    conv_rhs => rw [List.take_eq_take_min]
    rw [Nat.sub_sub_eq_min, Nat.min_comm, List.length_append]
    simp only [List.length_cons, List.length_reverse, List.length_nil, Nat.zero_add]
  · rfl

end ChannelReplies

end MeshClient.Tak

namespace MeshClient.Tak.ChannelReplies

open Run MeshClient.Meshcore

-- The channels hold the latest names of the log, up to the cap.
def Remembers (r : ChannelReplies) (log : Log) : Prop :=
  ∀ channelKey, r.entriesOn channelKey = (Recency.latest (heardOn channelKey log)).take r.maxNamesPerChannel

theorem remembers_step {r : ChannelReplies} {log : Log} (h : Remembers r log) (op : Op) :
    Remembers (step r op) (remember log op) := by
  intro other
  cases op with
  | clear => exact List.take_nil.symm
  | heard channelKey sender atMs =>
      have hcap : (step r (.heard channelKey sender atMs)).maxNamesPerChannel = r.maxNamesPerChannel := by
        simp only [step, heard]
        split_ifs <;> rfl
      rw [hcap, step, remember, entriesOn_heard, heardOn]
      by_cases hother : other = channelKey
      · subst hother
        rw [if_pos rfl, h other, List.filter_cons, if_pos (decide_eq_true rfl), List.map_cons]
        exact Recency.take_latest_cons (sender.name, atMs) _ _
      · rw [if_neg hother, h other, List.filter_cons, if_neg (by simpa using Ne.symm hother)]
        rfl

-- What a run keeps: the cap, the age, and the names of its log.
theorem remembers_run (r : ChannelReplies) (log : Log) (h : Remembers r log) (ops : List Op) :
    Remembers (run step r ops) (run remember log ops) ∧
      (run step r ops).maxNamesPerChannel = r.maxNamesPerChannel ∧ (run step r ops).maxAgeMs = r.maxAgeMs := by
  induction ops generalizing r log with
  | nil => exact ⟨h, rfl, rfl⟩
  | cons op rest ih =>
      obtain ⟨hrest, hcap, hage⟩ := ih _ _ (remembers_step h op)
      have hsame : (step r op).maxNamesPerChannel = r.maxNamesPerChannel ∧ (step r op).maxAgeMs = r.maxAgeMs := by
        cases op with
        | clear => exact ⟨rfl, rfl⟩
        | heard channelKey sender atMs =>
            simp only [step, heard]
            split_ifs <;> exact ⟨rfl, rfl⟩
      exact ⟨hrest, hcap.trans hsame.1, hage.trans hsame.2⟩

-- Every name of the log is the name of a sender.
theorem senders_run (ops : List Op) : ∀ e ∈ run remember [] ops, ∃ sender : Sender, sender.name = e.2.1 := by
  refine @invariant_run _ _ remember (fun log => ∀ e ∈ log, ∃ sender : Sender, sender.name = e.2.1) ?_ [] ?_ ops
  · intro log op hlog
    cases op with
    | clear => exact fun _ h => absurd h List.not_mem_nil
    | heard channelKey sender atMs =>
        intro e he
        rcases List.mem_cons.mp he with rfl | he
        · exact ⟨sender, rfl⟩
        · exact hlog e he
  · exact fun _ h => absurd h List.not_mem_nil

def heardTimes (ops : List Op) : List Int := ops.filterMap Op.time?

-- The log of a run in order is in order.
theorem ordered_run (log : Log) (ops : List Op)
    (h : ((log.map fun e => e.2.2).reverse ++ heardTimes ops).Pairwise (· ≤ ·)) :
    ((run remember log ops).map fun e => e.2.2).Pairwise (· ≥ ·) := by
  induction ops generalizing log with
  | nil =>
      rw [heardTimes, List.filterMap_nil, List.append_nil, List.pairwise_reverse] at h
      exact h
  | cons op rest ih =>
      cases op with
      | clear => exact ih [] (h.sublist (List.sublist_append_right _ _))
      | heard channelKey sender atMs =>
          refine ih ((channelKey, sender.name, atMs) :: log) ?_
          rw [List.map_cons, List.reverse_cons, List.append_assoc]
          exact h

-- Among the last names of the channel, and not too long ago.
def HeardLately (maxNames : Nat) (maxAge : Int) (log : Log) (channelKey : String) (nowMs : Int) (name : String) : Prop :=
  ∃ atMs after older, heardOn channelKey log = after ++ (name, atMs) :: older ∧ name ∉ after.map Prod.fst ∧
    (after.map Prod.fst).toFinset.card < maxNames ∧ nowMs - atMs ≤ maxAge

section Recent

variable {r : ChannelReplies} {log : Log} (h : Remembers r log) {channelKey : String} {nowMs : Int}
include h

theorem mem_recent {name : String} :
    name ∈ r.recent channelKey nowMs ↔ HeardLately r.maxNamesPerChannel r.maxAgeMs log channelKey nowMs name := by
  rw [recent_eq, h channelKey, List.mem_map]
  constructor
  · intro ⟨e, he, hname⟩
    obtain ⟨hmem, hage⟩ := List.mem_filter.mp he
    obtain ⟨after, older, hheard, hafter, hcard⟩ := Recency.mem_take_latest.mp (show (e.1, e.2) ∈ _ from hmem)
    subst hname
    exact ⟨e.2, after, older, hheard, hafter, hcard, of_decide_eq_true hage⟩
  · intro ⟨atMs, after, older, hheard, hafter, hcard, hage⟩
    refine ⟨(name, atMs), List.mem_filter.mpr ⟨?_, decide_eq_true hage⟩, rfl⟩
    exact Recency.mem_take_latest.mpr ⟨after, older, hheard, hafter, hcard⟩

theorem nodup_recent : (r.recent channelKey nowMs).Nodup := by
  rw [recent_eq, h channelKey]
  exact (Recency.nodup_latest _).sublist ((List.filter_sublist.trans (List.take_sublist _ _)).map _)

theorem head_recent_of_heard {first : String × Int} {older : List (String × Int)}
    (hheard : heardOn channelKey log = first :: older) (hcap : 0 < r.maxNamesPerChannel)
    (hage : nowMs - first.2 ≤ r.maxAgeMs) :
    (r.recent channelKey nowMs).head? = some first.1 := by
  obtain ⟨cap, hcap⟩ : ∃ cap, r.maxNamesPerChannel = cap + 1 := ⟨r.maxNamesPerChannel - 1, by omega⟩
  rw [recent_eq, h channelKey, hheard, hcap, Recency.latest, List.take_succ_cons, List.filter_cons,
    if_pos (decide_eq_true hage)]
  rfl

-- The first of the recent names is the last speaker: whoever spoke before is not more recent.
theorem head_recent (hordered : (log.map fun e => e.2.2).Pairwise (· ≥ ·)) {name : String} :
    (r.recent channelKey nowMs).head? = some name ↔
      HeardLately r.maxNamesPerChannel r.maxAgeMs log channelKey nowMs name ∧
        ∃ atMs older, heardOn channelKey log = (name, atMs) :: older := by
  have htimes : (heardOn channelKey log).Pairwise fun a b => a.2 ≥ b.2 := by
    rw [heardOn, List.pairwise_map]
    exact (List.pairwise_map.mp hordered).sublist List.filter_sublist
  cases hheard : heardOn channelKey log with
  | nil =>
      have hnone : r.recent channelKey nowMs = [] := by
        rw [recent_eq, h channelKey, hheard, Recency.latest_nil, List.take_nil]
        rfl
      rw [hnone]
      simp
  | cons first older =>
      constructor
      · intro hhead
        have hmem := (mem_recent h).mp (List.mem_of_head? hhead)
        refine ⟨hmem, ?_⟩
        obtain ⟨atMs, after, before, hsplit, hafter, hcard, hage⟩ := hmem
        rw [hheard] at hsplit htimes
        have hfirst : nowMs - first.2 ≤ r.maxAgeMs := by
          cases after with
          | nil =>
              obtain ⟨rfl, _⟩ := List.cons.inj hsplit
              exact hage
          | cons _ rest =>
              obtain ⟨rfl, rfl⟩ := List.cons.inj hsplit
              have hle := (List.pairwise_cons.mp htimes).1 (name, atMs) (List.mem_append_right _ List.mem_cons_self)
              simp only at hle
              omega
        rw [head_recent_of_heard h hheard (by omega) hfirst, Option.some.injEq] at hhead
        exact ⟨first.2, older, by rw [← hhead]⟩
      · intro ⟨⟨atMs, after, before, hsplit, hafter, hcard, hage⟩, atMs', older', heq⟩
        obtain ⟨rfl, rfl⟩ := List.cons.inj heq
        obtain rfl : after = [] := by
          cases after with
          | nil => rfl
          | cons e rest =>
              rw [hheard] at hsplit
              obtain ⟨rfl, _⟩ := List.cons.inj hsplit
              exact absurd List.mem_cons_self hafter
        rw [hheard] at hsplit
        obtain ⟨heq', _⟩ := List.cons.inj hsplit
        obtain ⟨_, rfl⟩ := Prod.mk.inj heq'
        exact head_recent_of_heard h hheard (by omega) hage

end Recent

end MeshClient.Tak.ChannelReplies
