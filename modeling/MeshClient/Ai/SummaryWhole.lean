import MeshClient.Ai.SummaryPacked

namespace MeshClient.Ai

open Js

-- The prompt takes every message, each on a line of its own.
def WholePrompt (format : DateTimeFormat) (frame : AiSummaryPromptContext) (budget : PromptBudget)
    (chunk : List AiSummaryMessage) : Prop :=
  ∃ prompt lines,
    buildAiSummaryPrompt format frame chunk (some budget.maxChars) (some budget.maxPromptBytes) = .ok prompt ∧
    prompt.truncated = false ∧ prompt.included = chunk.length ∧ Lines format frame chunk lines ∧
    prompt.user = frame.before format ++ List.intercalate (units "\n") lines ++ frame.after

-- A message that a prompt of its own would take stays whole; another one is cut.
def PiecesOf (format : DateTimeFormat) (frame : AiSummaryPromptContext) (budget : PromptBudget)
    (message : AiSummaryMessage) (pieces : List AiSummaryMessage) : Prop :=
  WholePrompt format frame budget [message] ∧ pieces = [message] ∨
    ¬WholePrompt format frame budget [message] ∧ ∃ bodies : List Units,
      pieces = bodies.map (fun body => { message with body }) ∧ bodies ≠ [] ∧ bodies.flatten = message.body ∧
        ∀ body ∈ bodies, body ≠ []

structure Packed (format : DateTimeFormat) (frame : AiSummaryPromptContext) (budget : PromptBudget)
    (messages : List AiSummaryMessage) (chunks : List (List AiSummaryMessage)) : Prop where
  contents : ∃ (ordered : List AiSummaryMessage) (pieces : List (List AiSummaryMessage)),
    ordered.Perm messages ∧ ordered.Pairwise (·.at_ ≤ ·.at_) ∧
      (∀ time : ℚ, ordered.filter (·.at_ = time) = messages.filter (·.at_ = time)) ∧
      List.Forall₂ (PiecesOf format frame budget) ordered pieces ∧ chunks.flatten = pieces.flatten
  chunk : ∀ chunk ∈ chunks, chunk ≠ [] ∧ chunk.length ≤ AI_MAX_MESSAGES ∧ WholePrompt format frame budget chunk

-- No chunk has room for the next message, and no piece for the next code point.
structure Greedy (format : DateTimeFormat) (frame : AiSummaryPromptContext) (budget : PromptBudget)
    (messages : List AiSummaryMessage) (chunks : List (List AiSummaryMessage)) : Prop where
  rooms : chunks.IsChain fun chunk next => ∀ message ∈ next.head?,
    AI_MAX_MESSAGES < (chunk ++ [message]).length ∨ ¬WholePrompt format frame budget (chunk ++ [message])
  pieces : ∀ message ∈ messages, ¬WholePrompt format frame budget [message] → ∃ bodies : List Units,
    bodies.flatten = message.body ∧
      (bodies.map fun body => ({ message with body } : AiSummaryMessage)) <:+: chunks.flatten ∧
      bodies.IsChain fun body next => ∀ point ∈ (codePoints next).head?,
        ¬WholePrompt format frame budget [{ message with body := body ++ point }]

section
variable {format : DateTimeFormat} {frame : AiSummaryPromptContext} {empty : AiSummaryPrompt} {budget : PromptBudget}
variable {messages chunk : List AiSummaryMessage} {chunks : List (List AiSummaryMessage)} {message : AiSummaryMessage}

theorem wholePrompt_iff (hempty : IsEmpty format frame empty) (hframe : framingBytes empty ≤ budget.maxPromptBytes)
    (hsorted : chunk.Pairwise (·.at_ ≤ ·.at_)) :
    chunk.length ≤ AI_MAX_MESSAGES ∧ WholePrompt format frame budget chunk ↔ Fitting format frame empty budget chunk := by
  constructor
  · rintro ⟨hfew, prompt, lines, hbuild, htruncated, -, hlines, -⟩
    obtain ⟨prompt', hbuild', hroom, -⟩ := build_chunk hempty hframe hsorted hlines
    rw [hbuild] at hbuild'
    obtain rfl := Except.ok.inj hbuild'
    exact ⟨hfew, lines, hlines, hroom.mp htruncated⟩
  · rintro ⟨hfew, lines, hlines, hroom⟩
    obtain ⟨prompt, hbuild, htruncated, hwhole⟩ := build_chunk hempty hframe hsorted hlines
    have hall := htruncated.mpr hroom
    exact ⟨hfew, prompt, lines, hbuild, hall, (hwhole hall).1, hlines, (hwhole hall).2⟩

theorem wholePrompt_singleton (hempty : IsEmpty format frame empty) (hframe : framingBytes empty ≤ budget.maxPromptBytes) :
    WholePrompt format frame budget [message] ↔ Alone format frame empty budget message := by
  rw [alone_iff hempty, ← wholePrompt_iff hempty hframe (List.pairwise_singleton _ message), and_iff_right]
  simp [AI_MAX_MESSAGES]

theorem rooms_of_chain (hempty : IsEmpty format frame empty) (hframe : framingBytes empty ≤ budget.maxPromptBytes)
    (hsorted : chunks.flatten.Pairwise (·.at_ ≤ ·.at_)) (hchain : chunks.IsChain (NoRoom format frame empty budget)) :
    chunks.IsChain fun chunk next => ∀ message ∈ next.head?,
      AI_MAX_MESSAGES < (chunk ++ [message]).length ∨ ¬WholePrompt format frame budget (chunk ++ [message]) := by
  induction chunks with
  | nil => exact List.isChain_nil
  | cons chunk chunks ih =>
      rw [List.flatten_cons] at hsorted
      rw [List.isChain_cons] at hchain ⊢
      refine ⟨fun next hnext message hmessage => ?_, ih (hsorted.sublist (List.sublist_append_right _ _)) hchain.2⟩
      have hpairwise : (chunk ++ [message]).Pairwise (·.at_ ≤ ·.at_) := by
        refine List.Pairwise.sublist ((List.Sublist.refl chunk).append (List.singleton_sublist.mpr ?_)) hsorted
        exact List.mem_flatten.mpr ⟨next, List.mem_of_mem_head? hnext, List.mem_of_mem_head? hmessage⟩
      by_cases hfew : (chunk ++ [message]).length ≤ AI_MAX_MESSAGES
      · right
        intro hwhole
        exact hchain.1 next hnext message hmessage ((wholePrompt_iff hempty hframe hpairwise).mp ⟨hfew, hwhole⟩)
      · exact .inl (Nat.not_le.mp hfew)

-- What the loop leaves behind, with the last chunk closed.
theorem packs {engine : AiEngine} {context : PartialPromptContext} (hne : messages ≠ [])
    (h : packAiSummaryChunks format messages engine context = .ok chunks) :
    ∃ empty parts, IsEmpty format context.frame empty ∧
      framingBytes empty ≤ (aiSummaryPromptBudget engine).maxPromptBytes ∧
      List.Forall₂ (PartsOf format context.frame empty (aiSummaryPromptBudget engine)) (inTime messages) parts ∧
      chunks.flatten = parts.flatten ∧
      (∀ chunk ∈ chunks, chunk ≠ [] ∧ Fitting format context.frame empty (aiSummaryPromptBudget engine) chunk) ∧
      chunks.IsChain (NoRoom format context.frame empty (aiSummaryPromptBudget engine)) := by
  rw [packAiSummaryChunks, if_neg hne, build_empty] at h
  obtain ⟨empty, hempty, h⟩ := bind_eq_ok h
  obtain rfl := Except.ok.inj hempty
  split_ifs at h with hframe
  obtain ⟨packer, hfold, rfl⟩ := map_eq_ok h
  have hempty : IsEmpty format context.frame
      ⟨systemPrompt context.frame.passMode, context.frame.before format ++ context.frame.after, 0, false⟩ := ⟨rfl, rfl⟩
  obtain ⟨parts, hparts, hpacking⟩ := foldlM_packing hempty (initial_packing (by omega)) hfold
  refine ⟨_, parts, hempty, by omega, hparts, ?_⟩
  rw [← List.nil_append parts.flatten, ← hpacking.packed]
  split_ifs with hcurrent
  · refine ⟨by rw [List.flatten_append, List.flatten_singleton], fun chunk hchunk => ?_, hpacking.full⟩
    rw [List.mem_append, List.mem_singleton] at hchunk
    cases hchunk with
    | inl hchunk => exact hpacking.chunks chunk hchunk
    | inr hchunk => exact hchunk ▸ ⟨hcurrent, hpacking.current⟩
  · rw [not_not] at hcurrent
    rw [hcurrent, hpacking.begun hcurrent]
    exact ⟨rfl, by simp, List.isChain_nil⟩

end

section
variable {format : DateTimeFormat} {messages : List AiSummaryMessage} {engine : AiEngine} {context : PartialPromptContext}
variable {chunks : List (List AiSummaryMessage)}

theorem sorted_inTime (messages : List AiSummaryMessage) : (inTime messages).Pairwise (·.at_ ≤ ·.at_) :=
  haveI : Std.Total fun a b : AiSummaryMessage => a.at_ ≤ b.at_ := ⟨fun a b => le_total a.at_ b.at_⟩
  haveI : IsTrans AiSummaryMessage fun a b => a.at_ ≤ b.at_ := ⟨fun _ _ _ => le_trans⟩
  List.pairwise_insertionSort _ _

theorem filter_inTime (messages : List AiSummaryMessage) (time : ℚ) :
    (inTime messages).filter (·.at_ = time) = messages.filter (·.at_ = time) := by
  apply StableSort.filter_insertionSort
  intro a b ha hb
  rw [of_decide_eq_true ha, of_decide_eq_true hb]

theorem packAiSummaryChunks_packed (h : packAiSummaryChunks format messages engine context = .ok chunks) :
    Packed format context.frame (aiSummaryPromptBudget engine) messages chunks := by
  by_cases hne : messages = []
  · subst hne
    obtain rfl := Except.ok.inj h
    exact ⟨⟨[], [], .nil, .nil, fun _ => rfl, .nil, rfl⟩, by simp⟩
  · obtain ⟨empty, parts, hempty, hframe, hparts, hflatten, hchunks, -⟩ := packs hne h
    have hsorted : chunks.flatten.Pairwise (·.at_ ≤ ·.at_) := hflatten ▸ pairwise_parts hparts (sorted_inTime messages)
    refine ⟨⟨inTime messages, parts, List.perm_insertionSort _ _, sorted_inTime messages, filter_inTime messages,
      hparts.imp fun message part hpart => ?_, hflatten⟩, fun chunk hchunk => ?_⟩
    · rw [PiecesOf, wholePrompt_singleton hempty hframe]
      obtain hwhole | ⟨hnot, bodies, hmap, hbodies, hbody, hcut, -⟩ := hpart
      · exact .inl hwhole
      · exact .inr ⟨hnot, bodies, hmap, hbodies, hbody, hcut⟩
    · obtain ⟨hnil, hfitting⟩ := hchunks chunk hchunk
      exact ⟨hnil, (wholePrompt_iff hempty hframe (hsorted.sublist (List.sublist_flatten_of_mem hchunk))).mpr hfitting⟩

end

-- The first two minutes of the clock, in UTC.
def utcFormat : DateTimeFormat where
  timeZone := units "UTC"
  formatToParts := fun at_ =>
    if 0 ≤ at_ ∧ at_ < 120000 then
      some ⟨units "1970", units "01", units "01", units "00", units (if at_ < 60000 then "00" else "01"),
        some (units "GMT")⟩
    else none

def earlyDigest : AiSummaryMessage := ⟨5, units "Part 1", units "relay \"north\" down"⟩

def lateDigest : AiSummaryMessage := ⟨60000, [], units "KX4ABC on site"⟩

theorem digests_packs :
    packAiSummaryChunks utcFormat [lateDigest, earlyDigest] .os { mode := some .reduce } =
      .ok [[earlyDigest, lateDigest]] := by
  decide +kernel

theorem digests_packed :
    Packed utcFormat (PartialPromptContext.frame { mode := some .reduce }) (aiSummaryPromptBudget .os)
      [lateDigest, earlyDigest] [[earlyDigest, lateDigest]] :=
  packAiSummaryChunks_packed digests_packs

end MeshClient.Ai
