import MeshClient.Ai.SummaryChunking

namespace MeshClient.Ai

open Js

section Line
variable {format : DateTimeFormat} {frame : AiSummaryPromptContext} {message : AiSummaryMessage} {line : Units}

theorem exists_jsonQuote (s : Units) : ∃ front, jsonQuote s = front ++ [0x22] := ⟨_, rfl⟩

-- A line ends in a quotation mark, so no code point reaches over its end.
theorem exists_line (h : lineOf format frame message = .ok line) : ∃ front, line = front ++ [0x22] := by
  obtain ⟨front, hfront⟩ := exists_jsonQuote message.body
  rw [lineOf] at h
  cases hstamp : stampOf format message.at_ with
  | error e =>
      rw [hstamp] at h
      cases h
  | ok stamp =>
      rw [hstamp] at h
      rw [← Except.ok.inj h]
      split_ifs
      · exact ⟨front, hfront⟩
      · exact ⟨_, by rw [hfront]; exact (List.append_assoc _ front [0x22]).symm⟩

theorem exists_before (format : DateTimeFormat) (frame : AiSummaryPromptContext) :
    ∃ front, frame.before format = front ++ [0x0A] := by
  have hdigests : units "\nBEGIN_UNTRUSTED_DIGESTS\n" = units "\nBEGIN_UNTRUSTED_DIGESTS" ++ [0x0A] := by decide
  have htranscript : units "\nBEGIN_UNTRUSTED_TRANSCRIPT\n" = units "\nBEGIN_UNTRUSTED_TRANSCRIPT" ++ [0x0A] := by
    decide
  rw [AiSummaryPromptContext.before, userPrefix, hdigests, htranscript, ← List.append_assoc, ← List.append_assoc]
  split_ifs
  all_goals exact ⟨_, rfl⟩

theorem utf8Length_framed (h : lineOf format frame message = .ok line) (system after : Units) :
    utf8Length (system ++ (frame.before format ++ line ++ after)) =
      utf8Length (system ++ (frame.before format ++ after)) + utf8Length line := by
  obtain ⟨front, rfl⟩ := exists_line h
  obtain ⟨before, hbefore⟩ := exists_before format frame
  have hnewline : isHigh 0x0A = false := by decide
  have hquote : isHigh 0x22 = false := by decide
  have hwhole : system ++ (before ++ [0x0A] ++ (front ++ [0x22]) ++ after) =
      (system ++ before) ++ [0x0A] ++ (front ++ [0x22] ++ after) := by simp
  have hempty : system ++ (before ++ [0x0A] ++ after) = (system ++ before) ++ [0x0A] ++ after := by simp
  rw [hbefore, hwhole, hempty, utf8Length_append hnewline, utf8Length_append hquote, utf8Length_append hnewline]
  omega

end Line

theorem bind_eq_ok {α β : Type} {x : Except String α} {f : α → Except String β} {b : β} (h : x.bind f = .ok b) :
    ∃ a, x = .ok a ∧ f a = .ok b := by
  cases x with
  | error e => cases h
  | ok a => exact ⟨a, rfl, h⟩

theorem map_eq_ok {α β : Type} {x : Except String α} {f : α → β} {b : β} (h : x.map f = .ok b) :
    ∃ a, x = .ok a ∧ f a = b := by
  cases x with
  | error e => cases h
  | ok a => exact ⟨a, rfl, Except.ok.inj h⟩

def weight (lines : List Units) : ℕ := (lines.map fun line => utf8Length line + 1).sum

def span (lines : List Units) : ℕ := (lines.map fun line => line.length + 1).sum

theorem weight_append (lines lines' : List Units) : weight (lines ++ lines') = weight lines + weight lines' := by
  rw [weight, List.map_append, List.sum_append, weight, weight]

theorem span_append (lines lines' : List Units) : span (lines ++ lines') = span lines + span lines' := by
  rw [span, List.map_append, List.sum_append, span, span]

theorem weight_singleton (line : Units) : weight [line] = utf8Length line + 1 := by simp [weight]

theorem span_singleton (line : Units) : span [line] = line.length + 1 := by simp [span]

section Pack
variable {format : DateTimeFormat} {frame : AiSummaryPromptContext} {empty : AiSummaryPrompt} {budget : PromptBudget}
variable {message : AiSummaryMessage} {packer packer' : Packer}

def Lines (format : DateTimeFormat) (frame : AiSummaryPromptContext) : List AiSummaryMessage → List Units → Prop :=
  List.Forall₂ fun message line => lineOf format frame message = .ok line

theorem build_empty (format : DateTimeFormat) (frame : AiSummaryPromptContext) (maxChars maxBytes : Option ℕ) :
    buildAiSummaryPrompt format frame [] maxChars maxBytes =
      .ok ⟨systemPrompt frame.passMode, frame.before format ++ frame.after, 0, false⟩ := by
  simp [buildAiSummaryPrompt, inTime, collectLines, Except.map, List.intercalate]

-- The empty prompt that the packing measures against.
def IsEmpty (format : DateTimeFormat) (frame : AiSummaryPromptContext) (empty : AiSummaryPrompt) : Prop :=
  empty.system = systemPrompt frame.passMode ∧ empty.user = frame.before format ++ frame.after

theorem cost_eq (hempty : IsEmpty format frame empty) (message : AiSummaryMessage) :
    cost format frame empty message =
      (lineOf format frame message).map fun line => ⟨(utf8Length line + 1 : ℕ), (line.length + 1 : ℕ)⟩ := by
  cases hline : lineOf format frame message with
  | error e => simp [cost, buildAiSummaryPrompt, inTime, collectLines, hline, Except.map, Except.bind]
  | ok line =>
      have hbytes := utf8Length_framed hline (systemPrompt frame.passMode) frame.after
      simp only [cost, buildAiSummaryPrompt, inTime, List.insertionSort_cons, List.insertionSort_nil, List.orderedInsert_nil,
        List.reverse_singleton, collectLines, hline, exceeds, Option.any_none, Bool.or_self, Bool.false_eq_true, if_false,
        Except.bind, Except.map, List.nil_append, List.intercalate, List.intersperse_singleton, List.flatten_singleton]
      rw [hbytes, framingBytes, hempty.1, hempty.2]
      simp only [Except.ok.injEq, Cost.mk.injEq, List.length_append]
      omega

theorem fits_iff {line : Units} :
    fits empty budget ⟨(utf8Length line + 1 : ℕ), (line.length + 1 : ℕ)⟩ = true ↔
      framingBytes empty + weight [line] ≤ budget.maxPromptBytes ∧ span [line] ≤ budget.maxChars := by
  simp only [fits, Bool.and_eq_true, decide_eq_true_eq, weight_singleton, span_singleton]
  omega

-- Messages whose lines stay within the budget together.
structure Fitting (format : DateTimeFormat) (frame : AiSummaryPromptContext) (empty : AiSummaryPrompt)
    (budget : PromptBudget) (chunk : List AiSummaryMessage) : Prop where
  few : chunk.length ≤ AI_MAX_MESSAGES
  within : ∃ lines, Lines format frame chunk lines ∧ framingBytes empty + weight lines ≤ budget.maxPromptBytes ∧
    span lines ≤ budget.maxChars

-- The first message of the next chunk does not fit behind this one.
def NoRoom (format : DateTimeFormat) (frame : AiSummaryPromptContext) (empty : AiSummaryPrompt) (budget : PromptBudget)
    (chunk next : List AiSummaryMessage) : Prop :=
  ∀ message ∈ next.head?, ¬Fitting format frame empty budget (chunk ++ [message])

structure Packing (format : DateTimeFormat) (frame : AiSummaryPromptContext) (empty : AiSummaryPrompt)
    (budget : PromptBudget) (packer : Packer) (packed : List AiSummaryMessage) : Prop where
  chunks : ∀ chunk ∈ packer.chunks, chunk ≠ [] ∧ Fitting format frame empty budget chunk
  current : Fitting format frame empty budget packer.current
  sums : ∀ lines, Lines format frame packer.current lines →
    packer.bytes = (framingBytes empty + weight lines : ℕ) ∧ packer.chars = (span lines : ℕ)
  packed : packer.chunks.flatten ++ packer.current = packed
  begun : packer.current = [] → packer.chunks = []
  full : List.IsChain (NoRoom format frame empty budget) (packer.chunks ++ [packer.current])

theorem Lines.unique {messages : List AiSummaryMessage} {lines lines' : List Units} (h : Lines format frame messages lines)
    (h' : Lines format frame messages lines') : lines = lines' := by
  induction h generalizing lines' with
  | nil =>
      cases h'
      rfl
  | cons hline _ ih =>
      cases h' with
      | cons hline' hrest =>
          rw [hline] at hline'
          rw [Except.ok.inj hline', ih hrest]

theorem append_packing (hempty : IsEmpty format frame empty) {packed : List AiSummaryMessage} {size : Cost}
    (hpacking : Packing format frame empty budget packer packed) (hcost : cost format frame empty message = .ok size)
    (hfits : fits empty budget size = true) (happend : append format frame empty budget packer message = .ok packer') :
    Packing format frame empty budget packer' (packed ++ [message]) := by
  rw [append, hcost] at happend
  rw [cost_eq hempty] at hcost
  obtain ⟨line, hline, rfl⟩ := map_eq_ok hcost
  obtain ⟨lines, hlines, hbytes, hchars⟩ := hpacking.current.within
  obtain ⟨hsum, hsum'⟩ := hpacking.sums lines hlines
  rw [fits_iff] at hfits
  have hone : Lines format frame [message] [line] := .cons hline .nil
  have hfew := hpacking.current.few
  replace happend := Except.ok.inj happend
  dsimp only at happend
  have hmore : Lines format frame (packer.current ++ [message]) (lines ++ [line]) := List.rel_append hlines hone
  rw [← happend, ← hpacking.packed]
  split_ifs with hfull
  · have hnoRoom : ¬Fitting format frame empty budget (packer.current ++ [message]) := by
      rintro ⟨hlength, lines', hlines', hroom⟩
      obtain rfl := hmore.unique hlines'
      obtain ⟨-, hover⟩ := hfull
      rw [weight_append, span_append, weight_singleton, span_singleton] at hroom
      rw [List.length_append, List.length_singleton] at hlength
      omega
    refine ⟨?_, ⟨by simp [AI_MAX_MESSAGES], [line], hone, hfits⟩, ?_, by simp, fun h => absurd h (by simp), ?_⟩
    · intro chunk hchunk
      rw [List.mem_append, List.mem_singleton] at hchunk
      cases hchunk with
      | inl h => exact hpacking.chunks chunk h
      | inr h => exact h ▸ ⟨hfull.1, hpacking.current⟩
    · intro lines' hlines'
      obtain rfl := hone.unique hlines'
      rw [weight_singleton, span_singleton]
      exact ⟨by simp, rfl⟩
    · rw [List.isChain_append]
      refine ⟨hpacking.full, List.isChain_singleton _, fun chunk hchunk next hnext m hm => ?_⟩
      rw [List.getLast?_concat, Option.mem_some_iff] at hchunk
      rw [List.head?_cons, Option.mem_some_iff] at hnext
      rw [← hnext, List.head?_cons, Option.mem_some_iff] at hm
      rwa [← hchunk, ← hm]
  · have hplace : packer.current = [] ∨ (packer.current.length < AI_MAX_MESSAGES ∧
        framingBytes empty + weight (lines ++ [line]) ≤ budget.maxPromptBytes ∧
          span (lines ++ [line]) ≤ budget.maxChars) := by
      rw [weight_append, span_append, weight_singleton, span_singleton]
      by_cases hnil : packer.current = []
      · exact .inl hnil
      · right
        obtain ⟨hfew, hroom⟩ := not_or.mp fun h => hfull ⟨hnil, h⟩
        obtain ⟨hbytes, hchars⟩ := not_or.mp hroom
        omega
    refine ⟨hpacking.chunks, ?_, ?_, by simp, fun h => absurd h (by simp), ?_⟩
    · cases hplace with
      | inl hnil =>
          simp only [hnil, List.nil_append]
          exact ⟨by simp [AI_MAX_MESSAGES], [line], hone, hfits⟩
      | inr hroom => exact ⟨by simpa using hroom.1, lines ++ [line], hmore, hroom.2⟩
    · intro lines' hlines'
      obtain rfl := hmore.unique hlines'
      rw [weight_append, span_append, weight_singleton, span_singleton, hsum, hsum']
      constructor <;> push_cast <;> ring
    · by_cases hnil : packer.current = []
      · rw [hpacking.begun hnil]
        exact List.isChain_singleton _
      · have hchain := hpacking.full
        rw [List.isChain_append] at hchain ⊢
        refine ⟨hchain.1, List.isChain_singleton _, fun chunk hchunk next hnext m hm => ?_⟩
        rw [List.head?_cons, Option.mem_some_iff] at hnext
        rw [← hnext, List.head?_append_of_ne_nil _ hnil] at hm
        exact hchain.2.2 chunk hchunk packer.current (by simp) m hm

-- What is taken of the messages is all of them just when they fit.
theorem collectLines_eq {maxChars maxBytes baseBytes : ℕ} {newest : List AiSummaryMessage} {lines : List Units}
    (hlines : Lines format frame newest lines) (acc : List Units) {size promptBytes : ℕ} (hsize : size ≤ maxChars)
    (hbytes : promptBytes ≤ maxBytes) :
    ∃ taken, collectLines format frame (some maxChars) (some maxBytes) baseBytes newest acc size promptBytes =
        .ok (acc ++ taken) ∧ taken.length ≤ newest.length ∧
      (taken.length = newest.length ↔ promptBytes + weight lines ≤ maxBytes ∧ size + span lines ≤ maxChars) ∧
      (taken.length = newest.length → taken = lines) := by
  induction hlines generalizing acc size promptBytes with
  | nil =>
      refine ⟨[], by rw [collectLines, List.append_nil], Nat.le_refl _, ?_, fun _ => rfl⟩
      simp [weight, span, hsize, hbytes]
  | @cons message line older lines hline _ ih =>
      have hweight : weight (line :: lines) = utf8Length line + 1 + weight lines := by
        rw [weight, List.map_cons, List.sum_cons, weight]
      have hspan : span (line :: lines) = line.length + 1 + span lines := by
        rw [span, List.map_cons, List.sum_cons, span]
      rw [collectLines, hline]
      simp only [Except.bind, exceeds, Option.any_some, Bool.or_eq_true, decide_eq_true_eq]
      split_ifs with hover halone
      · obtain ⟨taken, hrun, hle, -, -⟩ := ih acc hsize hbytes
        refine ⟨taken, hrun, Nat.le_succ_of_le hle, ?_, ?_⟩
        · rw [List.length_cons]
          omega
        · rw [List.length_cons]
          omega
      · refine ⟨[], by rw [List.append_nil], Nat.zero_le _, ?_, ?_⟩
        · rw [List.length_cons, List.length_nil]
          omega
        · rw [List.length_cons, List.length_nil]
          omega
      · obtain ⟨taken, hrun, hle, hall, heq⟩ := @ih (acc ++ [line]) (size + line.length + 1)
          (promptBytes + (utf8Length line + 1)) (by omega) (by omega)
        refine ⟨line :: taken, ?_, Nat.succ_le_succ hle, ?_, ?_⟩
        · rw [hrun, List.append_assoc, List.singleton_append]
        · rw [List.length_cons, List.length_cons, Nat.add_right_cancel_iff, hall]
          omega
        · rw [List.length_cons, List.length_cons, Nat.add_right_cancel_iff]
          intro h
          rw [heq h]

theorem build_chunk (hempty : IsEmpty format frame empty) (hframe : framingBytes empty ≤ budget.maxPromptBytes)
    {chunk : List AiSummaryMessage} (hsorted : chunk.Pairwise (·.at_ ≤ ·.at_)) {lines : List Units}
    (hlines : Lines format frame chunk lines) :
    ∃ prompt, buildAiSummaryPrompt format frame chunk (some budget.maxChars) (some budget.maxPromptBytes) = .ok prompt ∧
      (prompt.truncated = false ↔
        framingBytes empty + weight lines ≤ budget.maxPromptBytes ∧ span lines ≤ budget.maxChars) ∧
      (prompt.truncated = false → prompt.included = chunk.length ∧
        prompt.user = frame.before format ++ List.intercalate (units "\n") lines ++ frame.after) := by
  have hbase : utf8Length (systemPrompt frame.passMode ++ frame.before format ++ frame.after) = framingBytes empty := by
    rw [framingBytes, hempty.1, hempty.2, List.append_assoc]
  have htime : inTime chunk = chunk := List.Pairwise.insertionSort_eq hsorted
  have hback : Lines format frame chunk.reverse lines.reverse := List.rel_reverse hlines
  have hweight : weight lines.reverse = weight lines := by rw [weight, List.map_reverse, List.sum_reverse, weight]
  have hspan : span lines.reverse = span lines := by rw [span, List.map_reverse, List.sum_reverse, span]
  obtain ⟨taken, hrun, hle, hall, heq⟩ := @collectLines_eq format frame budget.maxChars budget.maxPromptBytes
    (framingBytes empty) _ _ hback [] 0 (framingBytes empty) (Nat.zero_le _) hframe
  rw [List.length_reverse] at hle hall heq
  rw [hweight, hspan, Nat.zero_add] at hall
  refine ⟨_, by rw [buildAiSummaryPrompt, htime, hbase, hrun]; rfl, ?_, ?_⟩
  · dsimp only
    rw [List.nil_append, decide_eq_false_iff_not, Nat.not_lt, ← hall]
    omega
  · intro hwhole
    dsimp only at hwhole ⊢
    rw [List.nil_append, decide_eq_false_iff_not, Nat.not_lt] at hwhole
    rw [List.nil_append, heq (by omega), List.reverse_reverse, List.length_reverse]
    exact ⟨hlines.length_eq.symm, rfl⟩

-- The search ends at a length that fits, and the next one was tried and did not.
theorem longest_spec {fitting : ℕ → Except String Bool} {low high n : ℕ} (hle : low ≤ high)
    (h : longest fitting low high = .ok n) :
    low ≤ n ∧ n ≤ high ∧ (n = low ∨ fitting n = .ok true) ∧ (n = high ∨ fitting (n + 1) = .ok false) := by
  induction low, high using longest.induct with
  | case1 low high hlt length ihlow ihhigh =>
      rw [longest, if_pos hlt] at h
      obtain ⟨ok, hok, hrest⟩ := bind_eq_ok h
      cases ok with
      | true =>
          obtain ⟨hn, hn', hfit, hnext⟩ := ihlow (by omega) hrest
          refine ⟨by omega, hn', .inr ?_, hnext⟩
          cases hfit with
          | inl heq => exact heq ▸ hok
          | inr hfit => exact hfit
      | false =>
          obtain ⟨hn, hn', hfit, hnext⟩ := ihhigh (by omega) hrest
          refine ⟨hn, by omega, hfit, .inr ?_⟩
          cases hnext with
          | inl heq =>
              have hsucc : n + 1 = (low + high + 1) / 2 := by omega
              exact hsucc ▸ hok
          | inr hnext => exact hnext
  | case2 low high hlt =>
      rw [longest, if_neg hlt] at h
      obtain rfl := Except.ok.inj h
      exact ⟨Nat.le_refl _, hle, .inl rfl, .inl (by omega)⟩

-- A message that would fit into a chunk of its own.
def Alone (format : DateTimeFormat) (frame : AiSummaryPromptContext) (empty : AiSummaryPrompt) (budget : PromptBudget)
    (message : AiSummaryMessage) : Prop :=
  (cost format frame empty message).map (fits empty budget) = .ok true

theorem alone_iff (hempty : IsEmpty format frame empty) :
    Alone format frame empty budget message ↔ Fitting format frame empty budget [message] := by
  rw [Alone, cost_eq hempty]
  constructor
  · intro h
    obtain ⟨size, hsize, hfits⟩ := map_eq_ok h
    obtain ⟨line, hline, rfl⟩ := map_eq_ok hsize
    exact ⟨by simp [AI_MAX_MESSAGES], [line], .cons hline .nil, fits_iff.mp hfits⟩
  · rintro ⟨-, lines, hlines, hroom⟩
    cases hlines with
    | cons hline hnil =>
        cases hnil
        rw [hline, Except.map, Except.map, fits_iff.mpr hroom]

theorem length_le_jsonQuote (s : Units) : (codePoints s).length ≤ (jsonQuote s).length := by
  have hpoint : ∀ point ∈ codePoints s, 1 ≤ (quotePoint point).length := by
    intro point hpoint
    have hne := not_nil_of_mem_codePoints hpoint
    unfold quotePoint
    split
    · split_ifs
      all_goals first | exact Nat.le_refl _ | decide | simp [unicodeEscape]
    · exact List.length_pos_iff.mpr hne
  have hsum : ∀ points : List Units, (∀ point ∈ points, 1 ≤ (quotePoint point).length) →
      points.length ≤ (points.flatMap quotePoint).length := by
    intro points h
    induction points with
    | nil => exact Nat.le_refl _
    | cons point points ih =>
        have hfirst := h point List.mem_cons_self
        have hrest := ih fun q hq => h q (List.mem_cons_of_mem _ hq)
        rw [List.flatMap_cons, List.length_append, List.length_cons]
        omega
  have hwhole := hsum _ hpoint
  rw [jsonQuote, List.length_append, List.length_append]
  omega

theorem length_le_utf8Length (s : Units) : s.length ≤ utf8Length s := by
  induction s using codePoints.induct with
  | case1 => exact Nat.le_refl _
  | case2 u =>
      simp only [utf8Length, codePoints, List.map_singleton, List.sum_singleton, pointBytes, List.length_singleton]
      split_ifs <;> omega
  | case3 u v rest hpair ih =>
      rw [utf8Length] at ih ⊢
      rw [codePoints, if_pos hpair, List.map_cons, List.sum_cons, List.length_cons, List.length_cons,
        show pointBytes [u, v] = 4 from rfl]
      omega
  | case4 u v rest hpair ih =>
      have hfirst : 1 ≤ pointBytes [u] := by
        rw [pointBytes]
        split_ifs <;> omega
      rw [utf8Length] at ih ⊢
      rw [codePoints, if_neg hpair, List.map_cons, List.sum_cons, List.length_cons]
      omega

-- What fits has fewer code points than either limit.
theorem length_lt_of_alone (hempty : IsEmpty format frame empty) (h : Alone format frame empty budget message) :
    (codePoints message.body).length < budget.maxChars ∧ (codePoints message.body).length < budget.maxPromptBytes := by
  obtain ⟨-, lines, hlines, hroom⟩ := (alone_iff hempty).mp h
  cases hlines with
  | @cons _ line _ _ hline hnil =>
      cases hnil
      rw [weight_singleton, span_singleton] at hroom
      have hquote := length_le_jsonQuote message.body
      have hbytes := length_le_utf8Length line
      have hbody : (jsonQuote message.body).length ≤ line.length := by
        rw [lineOf] at hline
        obtain ⟨stamp, -, rfl⟩ := map_eq_ok hline
        split_ifs
        · exact Nat.le_refl _
        · rw [List.length_append]
          exact Nat.le_add_left _ _
      omega

-- A body and the next one: the first code point of the next does not fit behind it.
def Cut (format : DateTimeFormat) (frame : AiSummaryPromptContext) (empty : AiSummaryPrompt) (budget : PromptBudget)
    (message : AiSummaryMessage) (body next : Units) : Prop :=
  ∀ point ∈ (codePoints next).head?, ¬Alone format frame empty budget { message with body := body ++ point }

theorem codePoints_slice {s : Units} (start length : ℕ) :
    codePoints (((codePoints s).drop start).take length).flatten = ((codePoints s).drop start).take length := by
  have hback := (codePoints_of_append (List.take_append_drop start (codePoints s)).symm).2
  exact (codePoints_of_append (hback.trans (List.take_append_drop length ((codePoints s).drop start)).symm)).1

theorem appendPieces_packing (hempty : IsEmpty format frame empty) {start : ℕ} {packed : List AiSummaryMessage}
    (hpacking : Packing format frame empty budget packer packed)
    (h : appendPieces format frame empty budget message (codePoints message.body) packer start = .ok packer') :
    ∃ bodies : List Units,
      Packing format frame empty budget packer' (packed ++ bodies.map fun body => { message with body }) ∧
      bodies.flatten = ((codePoints message.body).drop start).flatten ∧ (∀ body ∈ bodies, body ≠ []) ∧
      bodies.IsChain (Cut format frame empty budget message) ∧
      ∀ body ∈ bodies.head?, (codePoints body).head? = ((codePoints message.body).drop start).head? := by
  induction hleft : (codePoints message.body).length - start using Nat.strong_induction_on generalizing packer packed start
    with
  | _ left ih =>
  rw [appendPieces] at h
  split_ifs at h with hstart
  · obtain ⟨low, hlow, h⟩ := bind_eq_ok h
    split_ifs at h with hzero
    obtain ⟨packer₁, happend, hrest⟩ := bind_eq_ok h
    obtain ⟨-, hhigh, hfit, hnext⟩ := longest_spec (Nat.zero_le _) hlow
    replace hfit : Alone format frame empty budget (piece message (codePoints message.body) start low) :=
      hfit.resolve_left hzero
    obtain ⟨size, hsize, hfits⟩ := map_eq_ok hfit
    obtain ⟨bodies, hpacking', hflatten, hne, hchain, hhead⟩ := ih _ (by omega)
      (append_packing hempty hpacking hsize hfits happend) hrest rfl
    have hslice := @codePoints_slice message.body start low
    refine ⟨(((codePoints message.body).drop start).take low).flatten :: bodies, ?_, ?_, ?_, ?_, ?_⟩
    · rwa [List.append_assoc] at hpacking'
    · rw [List.flatten_cons, hflatten, ← List.drop_drop, ← List.flatten_append, List.take_append_drop]
    · intro body hbody
      rw [List.mem_cons] at hbody
      cases hbody with
      | inl hbody =>
          intro hnil
          rw [← hbody, hnil] at hslice
          have hlength := congrArg List.length hslice
          rw [codePoints, List.length_nil, List.length_take, List.length_drop] at hlength
          omega
      | inr hbody => exact hne body hbody
    · rw [List.isChain_cons]
      refine ⟨fun next hnext' point hpoint halone => ?_, hchain⟩
      rw [hhead next hnext', List.head?_drop] at hpoint
      have hmore : (((codePoints message.body).drop start).take low).flatten ++ point =
          (((codePoints message.body).drop start).take (low + 1)).flatten := by
        rw [List.take_add_one, List.getElem?_drop, hpoint, List.flatten_append, Option.toList_some,
          List.flatten_singleton]
      rw [hmore] at halone
      have hlength := length_lt_of_alone hempty halone
      have hin := (List.getElem?_eq_some_iff.mp hpoint).1
      simp only [codePoints_slice, List.length_take, List.length_drop] at hlength
      cases hnext with
      | inl heq => omega
      | inr hnext =>
          rw [Alone] at halone
          rw [piece, halone] at hnext
          cases hnext
    · intro body hbody
      rw [List.head?_cons, Option.mem_some_iff] at hbody
      rw [← hbody, hslice, List.head?_take, if_neg hzero]
  · rw [← Except.ok.inj h]
    refine ⟨[], by rwa [List.map_nil, List.append_nil], ?_, by simp, List.isChain_nil, by simp⟩
    rw [List.drop_eq_nil_of_le (by omega)]

-- What a message is packed as: itself, or pieces of its body when it is too long.
def PartsOf (format : DateTimeFormat) (frame : AiSummaryPromptContext) (empty : AiSummaryPrompt) (budget : PromptBudget)
    (message : AiSummaryMessage) (parts : List AiSummaryMessage) : Prop :=
  Alone format frame empty budget message ∧ parts = [message] ∨
    ¬Alone format frame empty budget message ∧ ∃ bodies : List Units,
      parts = bodies.map (fun body => { message with body }) ∧ bodies ≠ [] ∧ bodies.flatten = message.body ∧ (∀ body ∈ bodies, body ≠ []) ∧
      bodies.IsChain (Cut format frame empty budget message)

theorem packMessage_packing (hempty : IsEmpty format frame empty) {packed : List AiSummaryMessage}
    (hpacking : Packing format frame empty budget packer packed)
    (h : packMessage format frame empty budget packer message = .ok packer') :
    ∃ parts, PartsOf format frame empty budget message parts ∧
      Packing format frame empty budget packer' (packed ++ parts) := by
  obtain ⟨size, hsize, h⟩ := bind_eq_ok h
  by_cases hfits : fits empty budget size = true
  · rw [if_pos hfits] at h
    have halone : Alone format frame empty budget message := by rw [Alone, hsize, Except.map, hfits]
    exact ⟨[message], .inl ⟨halone, rfl⟩, append_packing hempty hpacking hsize hfits h⟩
  · have halone : ¬Alone format frame empty budget message := by
      rw [Alone, hsize, Except.map]
      exact fun heq => hfits (Except.ok.inj heq)
    rw [if_neg hfits] at h
    obtain ⟨packer₁, hpieces, h⟩ := bind_eq_ok h
    split_ifs at h with hnil
    obtain rfl := Except.ok.inj h
    obtain ⟨bodies, hpacking', hflatten, hne, hchain, -⟩ := appendPieces_packing hempty hpacking hpieces
    rw [List.drop_zero, codePoints_flatten] at hflatten
    refine ⟨_, .inr ⟨halone, bodies, rfl, ?_, hflatten, hne, hchain⟩, hpacking'⟩
    rintro rfl
    apply hnil
    rw [← hflatten]
    rfl

theorem foldlM_packing (hempty : IsEmpty format frame empty) {messages packed : List AiSummaryMessage}
    (hpacking : Packing format frame empty budget packer packed)
    (h : messages.foldlM (packMessage format frame empty budget) packer = .ok packer') :
    ∃ parts, List.Forall₂ (PartsOf format frame empty budget) messages parts ∧
      Packing format frame empty budget packer' (packed ++ parts.flatten) := by
  induction messages generalizing packer packed with
  | nil =>
      obtain rfl := Except.ok.inj h
      exact ⟨[], .nil, by rwa [List.flatten_nil, List.append_nil]⟩
  | cons message messages ih =>
      rw [List.foldlM_cons] at h
      obtain ⟨packer₁, hfirst, hrest⟩ := bind_eq_ok h
      obtain ⟨part, hpart, hpacking₁⟩ := packMessage_packing hempty hpacking hfirst
      obtain ⟨parts, hparts, hpacking'⟩ := ih hpacking₁ hrest
      refine ⟨part :: parts, .cons hpart hparts, ?_⟩
      rwa [List.flatten_cons, ← List.append_assoc]

theorem initial_packing (hframe : framingBytes empty ≤ budget.maxPromptBytes) :
    Packing format frame empty budget { bytes := framingBytes empty } [] := by
  refine ⟨by simp, ⟨Nat.zero_le _, [], .nil, by simpa [weight] using hframe, Nat.zero_le _⟩, ?_, rfl, fun _ => rfl,
    List.isChain_singleton _⟩
  intro lines hlines
  cases hlines
  exact ⟨rfl, rfl⟩

theorem at_eq_of_mem_parts {parts : List AiSummaryMessage} (h : PartsOf format frame empty budget message parts)
    {part : AiSummaryMessage} (hpart : part ∈ parts) : part.at_ = message.at_ := by
  obtain ⟨-, rfl⟩ | ⟨-, bodies, rfl, -⟩ := h
  · rw [List.mem_singleton.mp hpart]
  · obtain ⟨body, -, rfl⟩ := List.mem_map.mp hpart
    rfl

theorem pairwise_parts {messages : List AiSummaryMessage} {parts : List (List AiSummaryMessage)}
    (h : List.Forall₂ (PartsOf format frame empty budget) messages parts)
    (hsorted : messages.Pairwise (·.at_ ≤ ·.at_)) :
    parts.flatten.Pairwise (·.at_ ≤ ·.at_) := by
  induction h with
  | nil => exact List.Pairwise.nil
  | @cons message part messages parts hpart hparts ih =>
      rw [List.pairwise_cons] at hsorted
      rw [List.flatten_cons, List.pairwise_append]
      refine ⟨List.pairwise_of_forall_mem_list fun a ha b hb => ?_, ih hsorted.2, fun a ha b hb => ?_⟩
      · rw [at_eq_of_mem_parts hpart ha, at_eq_of_mem_parts hpart hb]
      · obtain ⟨later, hlater, hb⟩ := List.mem_flatten.mp hb
        obtain ⟨m, hm, hof⟩ : ∃ m ∈ messages, PartsOf format frame empty budget m later := by
          obtain ⟨i, hi, rfl⟩ := List.mem_iff_getElem.mp hlater
          exact ⟨_, List.getElem_mem (hparts.length_eq ▸ hi), hparts.get _ hi⟩
        rw [at_eq_of_mem_parts hpart ha, at_eq_of_mem_parts hof hb]
        exact hsorted.1 m hm

end Pack

end MeshClient.Ai
