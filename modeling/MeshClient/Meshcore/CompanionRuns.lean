import MeshClient.Meshcore.CompanionQueue

namespace MeshClient.Meshcore.Companion

open Run Turns

def startedOf : Act → Option Nat
  | .started i => some i
  | _ => none

def Act.id : Act → Nat
  | .fired i => i
  | .started i => i
  | .finished i => i

-- The signal of the request fired while its function had not been called.
def FiredFirst (i : Nat) (trace : List Act) : Prop :=
  ∃ pre post, trace = pre ++ .fired i :: post ∧ .started i ∉ pre

theorem concat_eq_append_cons {α : Type*} {xs pre post : List α} {a x : α} (h : xs ++ [a] = pre ++ x :: post) :
    (pre = xs ∧ x = a ∧ post = []) ∨ ∃ post', post = post' ++ [a] ∧ xs = pre ++ x :: post' := by
  obtain rfl | ⟨post', y, rfl⟩ := List.eq_nil_or_concat' post
  · obtain ⟨hxs, ha⟩ := List.append_inj' h rfl
    exact .inl ⟨hxs.symm, (List.cons.inj ha).1.symm, rfl⟩
  · rw [← List.cons_append, ← List.append_assoc] at h
    obtain ⟨hxs, ha⟩ := List.append_inj' h rfl
    obtain rfl := (List.cons.inj ha).1
    exact .inr ⟨post', rfl, hxs⟩

theorem firedFirst_concat {i : Nat} {trace : List Act} {a : Act} :
    FiredFirst i (trace ++ [a]) ↔ FiredFirst i trace ∨ a = .fired i ∧ .started i ∉ trace := by
  constructor
  · rintro ⟨pre, post, h, hpre⟩
    obtain ⟨rfl, ha, _⟩ | ⟨post', _, hold⟩ := concat_eq_append_cons h
    · exact .inr ⟨ha.symm, hpre⟩
    · exact .inl ⟨pre, post', hold, hpre⟩
  · rintro (⟨pre, post, rfl, hpre⟩ | ⟨rfl, hpre⟩)
    · exact ⟨pre, post ++ [a], by simp, hpre⟩
    · exact ⟨trace, [], rfl, hpre⟩

theorem not_firedFirst_nil (i : Nat) : ¬ FiredFirst i [] := by
  rintro ⟨pre, post, h, _⟩
  simp at h

-- Each function is called after all slots before its own have been released.
def AfterOthers (trace : List Act) : Prop :=
  ∀ pre post i, trace = pre ++ .started i :: post → ∀ k < i, .finished k ∈ pre

theorem AfterOthers.concat {trace : List Act} {a : Act} (h : AfterOthers trace)
    (ha : ∀ i, a = .started i → ∀ k < i, .finished k ∈ trace) : AfterOthers (trace ++ [a]) := by
  intro pre post i heq k hk
  obtain ⟨rfl, hstart, _⟩ | ⟨post', _, hold⟩ := concat_eq_append_cons heq
  · exact ha i hstart.symm k hk
  · exact h pre post' i hold k hk

namespace Queue

variable {s : Queue} {i : Nat} {r : Request}

structure Sound (s : Queue) : Prop where
  inTurn : ∀ (i : Nat) (r : Request), s.requests[i]? = some r → r.phase ≠ .waiting →
    ∀ (k : Nat) (y : Request), k < i → s.requests[k]? = some y → y.phase = .finished
  chained : ∀ (i : Nat) (r : Request), s.requests[i]? = some r → r.phase = .waiting →
    (∀ p ∈ r.before, p + 1 = i) ∧
      (r.before = none → ∀ (k : Nat) (y : Request), k < i → s.requests[k]? = some y → y.phase = .finished)
  noTail : s.tail = none → ∀ r ∈ s.requests, r.phase = .finished
  tail : ∀ p, s.tail = some p → p + 1 = s.requests.length ∧ ∀ r, s.requests[p]? = some r → r.phase ≠ .finished
  started : ∀ i, .started i ∈ s.trace ↔ ∃ r, s.requests[i]? = some r ∧ r.phase ≠ .waiting ∧ r.cancelled = false
  finished : ∀ i, .finished i ∈ s.trace ↔ ∃ r, s.requests[i]? = some r ∧ r.phase = .finished
  known : ∀ i, FiredFirst i s.trace → i < s.requests.length
  fired : ∀ (i : Nat) (r : Request), s.requests[i]? = some r → (r.cancelled = true ↔ FiredFirst i s.trace)
  listening : ∀ (i : Nat) (r : Request), s.requests[i]? = some r → r.phase = .waiting → r.cancelled = false →
    r.listening = r.hasSignal
  quiet : ∀ (i : Nat) (r : Request), s.requests[i]? = some r → r.phase ≠ .waiting → r.listening = false
  running : ∀ (i : Nat) (r : Request), s.requests[i]? = some r → r.phase = .running → r.cancelled = false
  outcome : ∀ (i : Nat) (r : Request), s.requests[i]? = some r →
    if r.cancelled then r.outcome = some .aborted
    else if r.phase = .finished then r.outcome = some .resolved ∨ r.outcome = some .rejected
    else r.outcome = none
  order : (s.trace.filterMap startedOf).Pairwise (· < ·)
  others : AfterOthers s.trace

theorem sound_start : Sound {} := by
  constructor
  case order => exact List.Pairwise.nil
  case others =>
    intro pre post i h
    simp at h
  case known => exact fun i h => absurd h (not_firedFirst_nil i)
  all_goals simp

theorem set_cases {xs : List Request} {r' : Request} {k : Nat} {y : Request} (h : (xs.set i r')[k]? = some y) :
    (k = i ∧ y = r') ∨ (k ≠ i ∧ xs[k]? = some y) := by
  rw [List.getElem?_set] at h
  by_cases hk : i = k
  · rw [if_pos hk] at h
    split at h
    · exact .inl ⟨hk.symm, (Option.some.inj h).symm⟩
    · cases h
  · rw [if_neg hk] at h
    exact .inr ⟨Ne.symm hk, h⟩

-- The change of one request together with what can be seen of it.
theorem Sound.put (h : Sound s) (hr : s.requests[i]? = some r) {r' : Request} {a : Act} {t : Option Nat}
    (ha : a.id = i) (hbefore : r'.before = r.before) (hwait : r'.phase = .waiting → r.phase = .waiting)
    (hkeep : r.phase = .finished → r'.phase = .finished)
    (hturn : r'.phase ≠ .waiting → ∀ (k : Nat) (y : Request), k < i → s.requests[k]? = some y → y.phase = .finished)
    (hnone : t = none → ∀ y ∈ s.requests.set i r', y.phase = .finished)
    (htail : ∀ p, t = some p → s.tail = some p ∧ (p = i → r'.phase ≠ .finished))
    (hstarted : .started i ∈ s.trace ++ [a] ↔ r'.phase ≠ .waiting ∧ r'.cancelled = false)
    (hfinished : .finished i ∈ s.trace ++ [a] ↔ r'.phase = .finished)
    (hfired : r'.cancelled = true ↔ FiredFirst i (s.trace ++ [a]))
    (hlistening : r'.phase = .waiting → r'.cancelled = false → r'.listening = r'.hasSignal)
    (hquiet : r'.phase ≠ .waiting → r'.listening = false) (hrunning : r'.phase = .running → r'.cancelled = false)
    (houtcome : if r'.cancelled then r'.outcome = some .aborted
      else if r'.phase = .finished then r'.outcome = some .resolved ∨ r'.outcome = some .rejected
      else r'.outcome = none)
    (horder : ((s.trace ++ [a]).filterMap startedOf).Pairwise (· < ·)) (hothers : AfterOthers (s.trace ++ [a])) :
    Sound { tail := t, requests := s.requests.set i r', trace := s.trace ++ [a] } := by
  have hlt := (List.getElem?_eq_some_iff.mp hr).1
  have hself : (s.requests.set i r')[i]? = some r' := List.getElem?_set_self hlt
  -- every place holds a request that was finished if the old one was
  have hfinishedAt : ∀ (k : Nat) (y : Request), (s.requests.set i r')[k]? = some y →
      (∀ z, s.requests[k]? = some z → z.phase = .finished) → y.phase = .finished := by
    intro k y hy hold
    obtain ⟨rfl, rfl⟩ | ⟨_, hy⟩ := set_cases hy
    · exact hkeep (hold r hr)
    · exact hold y hy
  have hother : ∀ (P : Request → Prop) (k : Nat), k ≠ i →
      ((∃ y, (s.requests.set i r')[k]? = some y ∧ P y) ↔ ∃ y, s.requests[k]? = some y ∧ P y) := by
    intro P k hk
    rw [List.getElem?_set_ne (Ne.symm hk)]
  constructor
  case inTurn =>
    intro k y hy hstart m z hm hz
    refine hfinishedAt m z hz fun w hw => ?_
    obtain ⟨rfl, rfl⟩ | ⟨_, hy⟩ := set_cases hy
    · exact hturn hstart m w hm hw
    · exact h.inTurn k y hy hstart m w hm hw
  case chained =>
    intro k y hy hwaiting
    obtain ⟨rfl, rfl⟩ | ⟨_, hy⟩ := set_cases hy
    · obtain ⟨hlast, hfirst⟩ := h.chained k r hr (hwait hwaiting)
      rw [hbefore]
      exact ⟨hlast, fun hb m z hm hz => hfinishedAt m z hz fun w hw => hfirst hb m w hm hw⟩
    · obtain ⟨hlast, hfirst⟩ := h.chained k y hy hwaiting
      exact ⟨hlast, fun hb m z hm hz => hfinishedAt m z hz fun w hw => hfirst hb m w hm hw⟩
  case noTail => exact hnone
  case tail =>
    intro p hp
    obtain ⟨htp, hpi⟩ := htail p hp
    obtain ⟨hlen, hopen⟩ := h.tail p htp
    refine ⟨by rw [List.length_set]; exact hlen, fun y hy => ?_⟩
    obtain ⟨hk, rfl⟩ | ⟨_, hy⟩ := set_cases hy
    · exact hpi hk
    · exact hopen y hy
  case started =>
    intro k
    by_cases hk : k = i
    · subst hk
      rw [hstarted, hself]
      simp
    · rw [hother _ k hk, ← h.started k, List.mem_append, List.mem_singleton]
      refine or_iff_left fun heq => hk ?_
      rw [← ha, ← heq, Act.id]
  case finished =>
    intro k
    by_cases hk : k = i
    · subst hk
      rw [hfinished, hself]
      simp
    · rw [hother _ k hk, ← h.finished k, List.mem_append, List.mem_singleton]
      refine or_iff_left fun heq => hk ?_
      rw [← ha, ← heq, Act.id]
  case known =>
    intro k hk
    rw [List.length_set]
    obtain hold | ⟨rfl, _⟩ := firedFirst_concat.mp hk
    · exact h.known k hold
    · exact (show k = i from ha) ▸ hlt
  case fired =>
    intro k y hy
    obtain ⟨rfl, rfl⟩ | ⟨hk, hy⟩ := set_cases hy
    · exact hfired
    · rw [h.fired k y hy, firedFirst_concat]
      exact (or_iff_left fun hnew => hk (by rw [← ha, hnew.1, Act.id])).symm
  case listening =>
    intro k y hy
    obtain ⟨rfl, rfl⟩ | ⟨_, hy⟩ := set_cases hy
    · exact hlistening
    · exact h.listening k y hy
  case quiet =>
    intro k y hy
    obtain ⟨rfl, rfl⟩ | ⟨_, hy⟩ := set_cases hy
    · exact hquiet
    · exact h.quiet k y hy
  case running =>
    intro k y hy
    obtain ⟨rfl, rfl⟩ | ⟨_, hy⟩ := set_cases hy
    · exact hrunning
    · exact h.running k y hy
  case outcome =>
    intro k y hy
    obtain ⟨rfl, rfl⟩ | ⟨_, hy⟩ := set_cases hy
    · exact houtcome
    · exact h.outcome k y hy
  case order => exact horder
  case others => exact hothers

theorem Sound.mem_started (h : Sound s) (hr : s.requests[i]? = some r) :
    .started i ∈ s.trace ↔ r.phase ≠ .waiting ∧ r.cancelled = false := by
  rw [h.started i, hr]
  simp

theorem Sound.mem_finished (h : Sound s) (hr : s.requests[i]? = some r) : .finished i ∈ s.trace ↔ r.phase = .finished := by
  rw [h.finished i, hr]
  simp

-- What was called stands before a request that waits.
theorem Sound.started_before (h : Sound s) (hr : s.requests[i]? = some r) (hwaiting : r.phase = .waiting) :
    ∀ k ∈ s.trace.filterMap startedOf, k < i := by
  intro k hk
  obtain ⟨a, ha, hka⟩ := List.mem_filterMap.mp hk
  obtain rfl : a = .started k := by
    cases a with
    | started j => rw [Option.some.inj hka]
    | fired j => cases hka
    | finished j => cases hka
  obtain ⟨y, hy, hstarted, _⟩ := (h.started k).mp ha
  obtain hlt | rfl | hgt := Nat.lt_trichotomy k i
  · exact hlt
  · obtain rfl := Option.some.inj (hr.symm.trans hy)
    exact absurd hwaiting hstarted
  · have hfinished := h.inTurn k y hy hstarted i r hgt hr
    rw [hwaiting] at hfinished
    cases hfinished

theorem order_of_other {trace : List Act} {a : Act} (h : (trace.filterMap startedOf).Pairwise (· < ·))
    (ha : startedOf a = none) : ((trace ++ [a]).filterMap startedOf).Pairwise (· < ·) := by
  rw [List.filterMap_append, List.filterMap_cons_none ha, List.filterMap_nil, List.append_nil]
  exact h

def AllFinishedBefore (s : Queue) (i : Nat) : Prop :=
  ∀ (k : Nat) (y : Request), k < i → s.requests[k]? = some y → y.phase = .finished

theorem sound_begin (h : Sound s) (hr : s.requests[i]? = some r) (hwaiting : r.phase = .waiting)
    (hlive : r.cancelled = false) (hbefore : s.AllFinishedBefore i) :
    Sound ((s.put i { r with
      listening := false
      phase := .running }).act (.started i)) := by
  have hlt := (List.getElem?_eq_some_iff.mp hr).1
  refine h.put hr rfl rfl (fun hp => by cases hp) (fun hp => ?_) (fun _ => hbefore) (fun hnone => ?_) (fun p hp => ?_)
    (by simp [hlive]) ?_ ?_ (fun hp => by cases hp) (fun _ => rfl) (fun _ => hlive) ?_ ?_ ?_
  · rw [hwaiting] at hp
    cases hp
  · have hfinished := h.noTail hnone r (List.mem_of_getElem? hr)
    rw [hwaiting] at hfinished
    cases hfinished
  · exact ⟨hp, fun _ hfinished => by cases hfinished⟩
  · rw [List.mem_append, h.mem_finished hr, hwaiting]
    simp
  · rw [firedFirst_concat, ← h.fired i r hr]
    simp
  · have hopen := h.outcome i r hr
    simpa [hlive, hwaiting] using hopen
  · rw [List.filterMap_append, List.pairwise_append]
    refine ⟨h.order, List.pairwise_singleton _ _, fun k hk m hm => ?_⟩
    obtain rfl : m = i := List.mem_singleton.mp hm
    exact h.started_before hr hwaiting k hk
  · refine h.others.concat fun j hj k hk => ?_
    obtain rfl : i = j := by cases hj; rfl
    have hkl : k < s.requests.length := by omega
    exact (h.mem_finished (List.getElem?_eq_getElem hkl)).mpr (hbefore k _ hk (List.getElem?_eq_getElem hkl))

theorem sound_finish (h : Sound s) (hr : s.requests[i]? = some r) (hopen : r.phase ≠ .finished)
    (hbefore : s.AllFinishedBefore i) {r' : Request} (hlink : r'.before = r.before) (hcancelled : r'.cancelled = r.cancelled)
    (hquiet : r'.listening = false) (hstart : r.phase = .waiting → r.cancelled = true)
    (houtcome : if r'.cancelled then r'.outcome = some .aborted
      else r'.outcome = some .resolved ∨ r'.outcome = some .rejected) : Sound (s.finish i r') := by
  have hlt := (List.getElem?_eq_some_iff.mp hr).1
  refine h.put hr rfl hlink (fun hp => by cases hp) (fun _ => rfl) (fun _ => hbefore) (fun hnone y hy => ?_)
    (fun p hp => ?_) ?_ (by simp) ?_ (fun hp => by cases hp) (fun _ => hquiet) (fun hp => by cases hp) ?_
    (order_of_other h.order rfl) ?_
  · obtain ⟨k, hk⟩ := List.mem_iff_getElem?.mp hy
    obtain ⟨_, rfl⟩ | ⟨hki, hold⟩ := set_cases hk
    · rfl
    split at hnone
    · rename_i hlast
      have hlen := (h.tail i hlast).1
      have hkl := (List.getElem?_eq_some_iff.mp hold).1
      exact hbefore k y (by omega) hold
    · exact h.noTail hnone y (List.mem_of_getElem? hold)
  · split at hp
    · cases hp
    · rename_i hlast
      exact ⟨hp, fun hpi => absurd (hpi ▸ hp) hlast⟩
  · rw [List.mem_append, h.mem_started hr]
    simp only [hcancelled, List.mem_singleton, reduceCtorEq, or_false, ne_eq, not_false_eq_true, true_and]
    refine and_iff_right_of_imp fun hlive hwaiting => ?_
    rw [hstart hwaiting] at hlive
    cases hlive
  · rw [firedFirst_concat, ← h.fired i r hr, ← hcancelled]
    simp
  · simpa using houtcome
  · exact h.others.concat fun j hj => by cases hj

-- In its turn a request is called, or skipped when it was cancelled.
theorem sound_turn (h : Sound s) (hr : s.requests[i]? = some r) (hwaiting : r.phase = .waiting)
    (hbefore : s.AllFinishedBefore i) : Sound (s.start i r) := by
  unfold start
  split
  · rename_i hcancelled
    have houtcome := h.outcome i r hr
    rw [if_pos hcancelled] at houtcome
    refine sound_finish h hr (by simp [hwaiting]) hbefore rfl rfl rfl (fun _ => hcancelled) ?_
    simpa [hcancelled] using houtcome
  · rename_i hlive
    exact sound_begin h hr hwaiting (by simpa using hlive) hbefore

theorem sound_abort (h : Sound s) (i : Nat) : Sound (s.abort i) := by
  unfold abort
  cases hr : s.requests[i]? with
  | none => exact h
  | some r =>
      simp only
      split
      swap
      · exact h
      rename_i hsignal
      have houtcome := h.outcome i r hr
      have hnotail : s.tail = none → ∀ y ∈ s.requests.set i (if r.listening then r.onAbort else r), y.phase = .finished := by
        intro hnone y hy
        obtain ⟨k, hk⟩ := List.mem_iff_getElem?.mp hy
        obtain ⟨_, rfl⟩ | ⟨_, hold⟩ := set_cases hk
        · have hfinished := h.noTail hnone r (List.mem_of_getElem? hr)
          split
          · exact hfinished
          · exact hfinished
        · exact h.noTail hnone y (List.mem_of_getElem? hold)
      have htail : ∀ p, s.tail = some p → s.tail = some p ∧ (p = i → (if r.listening then r.onAbort else r).phase ≠ .finished) := by
        intro p hp
        refine ⟨hp, fun hpi => ?_⟩
        have hopen := (h.tail p hp).2 r (hpi ▸ hr)
        split
        · exact hopen
        · exact hopen
      have horder := order_of_other (a := .fired i) h.order rfl
      have hothers : AfterOthers (s.trace ++ [.fired i]) := h.others.concat fun j hj => by cases hj
      cases hlisten : r.listening with
      | true =>
          simp only [hlisten, if_true] at hnotail htail ⊢
          -- the listener is there only as long as the function has not been called
          have hwaiting : r.phase = .waiting := by
            by_contra hstarted
            rw [h.quiet i r hr hstarted] at hlisten
            cases hlisten
          refine h.put hr rfl rfl (fun hp => hp) (fun hp => hp) (fun hp => absurd hwaiting hp) hnotail htail ?_ ?_ ?_
            (fun _ hlive => by cases hlive) (fun _ => rfl) (fun hp => ?_) ?_ horder hothers
          · rw [List.mem_append, h.mem_started hr, hwaiting]
            simp [Request.onAbort]
          · rw [List.mem_append, h.mem_finished hr, hwaiting]
            simp [Request.onAbort, Request.settle, hwaiting]
          · have hnot : .started i ∉ s.trace := by
              rw [h.mem_started hr]
              simp [hwaiting]
            rw [firedFirst_concat]
            simp [Request.onAbort, hnot]
          · have hphase : r.phase = .running := hp
            rw [hwaiting] at hphase
            cases hphase
          · cases hlive : r.cancelled with
            | true =>
                rw [if_pos hlive] at houtcome
                simp [Request.onAbort, Request.settle, houtcome]
            | false =>
                simp [hlive, hwaiting] at houtcome
                simp [Request.onAbort, Request.settle, houtcome]
      | false =>
          simp only [hlisten, Bool.false_eq_true, if_false] at hnotail htail ⊢
          refine h.put hr rfl rfl (fun hp => hp) (fun hp => hp) (h.inTurn i r hr) hnotail htail ?_ ?_ ?_
            (h.listening i r hr) (h.quiet i r hr) (h.running i r hr) houtcome horder hothers
          · rw [List.mem_append, h.mem_started hr]
            simp
          · rw [List.mem_append, h.mem_finished hr]
            simp
          · rw [firedFirst_concat, ← h.fired i r hr, or_iff_left_of_imp]
            rintro ⟨_, hnot⟩
            rw [h.mem_started hr, not_and, Bool.not_eq_false] at hnot
            by_cases hwaiting : r.phase = .waiting
            · by_contra hlive
              have hset := h.listening i r hr hwaiting (by simpa using hlive)
              rw [hlisten, hsignal] at hset
              cases hset
            · exact hnot hwaiting

theorem sound_settle (h : Sound s) (i : Nat) (ok : Bool) : Sound (s.settle i ok) := by
  unfold settle
  cases hr : s.requests[i]? with
  | none => exact h
  | some r =>
      simp only
      split
      swap
      · exact h
      rename_i hrunning
      have hlive := h.running i r hr hrunning
      have houtcome := h.outcome i r hr
      simp only [hlive, hrunning, Bool.false_eq_true, if_false, reduceCtorEq] at houtcome
      refine sound_finish h hr (by simp [hrunning]) (h.inTurn i r hr (by simp [hrunning])) rfl rfl
        (h.quiet i r hr (by simp [hrunning])) (fun hp => by rw [hrunning] at hp; cases hp) ?_
      cases ok with
      | true => simp [Request.settle, hlive, houtcome]
      | false => simp [Request.settle, hlive, houtcome]

theorem register_fired (s : Queue) : s.register (some true) = (s.register (some false)).abort s.requests.length := by
  simp [register, abort, put, act, Request.onAbort, Request.settle]

def quietRequest (s : Queue) (signal : Option Bool) : Request :=
  { before := s.tail, hasSignal := signal.isSome, listening := signal.isSome }

theorem register_quiet {signal : Option Bool} (hsignal : signal ≠ some true) : s.register signal = { s with
    requests := s.requests ++ [s.quietRequest signal]
    tail := some s.requests.length } := by
  rw [register]
  simp only [if_neg hsignal]
  rfl

-- A new slot whose signal is quiet.
theorem sound_quiet (h : Sound s) {signal : Option Bool} (hsignal : signal ≠ some true) : Sound (s.register signal) := by
  rw [register_quiet hsignal]
  have hnew : ∀ {k : Nat} {y : Request}, (s.requests ++ [s.quietRequest signal])[k]? = some y →
      s.requests[k]? = some y ∨ (k = s.requests.length ∧ y = s.quietRequest signal) := fun hy => getElem?_concat_cases hy
  have hbelow : ∀ {k m : Nat} {y z : Request}, s.requests[k]? = some y → m < k →
      (s.requests ++ [s.quietRequest signal])[m]? = some z → s.requests[m]? = some z := by
    intro k m y z hy hm hz
    obtain hz | ⟨rfl, _⟩ := hnew hz
    · exact hz
    · have hk := (List.getElem?_eq_some_iff.mp hy).1
      omega
  have hfresh : ¬ FiredFirst s.requests.length s.trace := fun hf => absurd (h.known _ hf) (by omega)
  constructor
  case inTurn =>
    intro k y hy hstart m z hm hz
    obtain hy | ⟨rfl, rfl⟩ := hnew hy
    · exact h.inTurn k y hy hstart m z hm (hbelow hy hm hz)
    · exact absurd rfl hstart
  case chained =>
    intro k y hy hwaiting
    obtain hy | ⟨rfl, rfl⟩ := hnew hy
    · obtain ⟨hlast, hfirst⟩ := h.chained k y hy hwaiting
      exact ⟨hlast, fun hb m z hm hz => hfirst hb m z hm (hbelow hy hm hz)⟩
    · refine ⟨fun p hp => (h.tail p hp).1, fun hb m z hm hz => ?_⟩
      obtain hz | ⟨rfl, _⟩ := hnew hz
      · exact h.noTail hb z (List.mem_of_getElem? hz)
      · omega
  case noTail => exact fun hnone => by cases hnone
  case tail =>
    intro p hp
    obtain rfl := Option.some.inj hp
    refine ⟨by simp, fun y hy => ?_⟩
    rw [List.getElem?_concat_length] at hy
    obtain rfl := Option.some.inj hy
    exact fun hfinished => by cases hfinished
  case started =>
    intro k
    rw [h.started k]
    constructor
    · rintro ⟨y, hy, hp⟩
      exact ⟨y, getElem?_concat_of_some hy, hp⟩
    · rintro ⟨y, hy, hp⟩
      obtain hy | ⟨_, rfl⟩ := hnew hy
      · exact ⟨y, hy, hp⟩
      · exact absurd rfl hp.1
  case finished =>
    intro k
    rw [h.finished k]
    constructor
    · rintro ⟨y, hy, hp⟩
      exact ⟨y, getElem?_concat_of_some hy, hp⟩
    · rintro ⟨y, hy, hp⟩
      obtain hy | ⟨_, rfl⟩ := hnew hy
      · exact ⟨y, hy, hp⟩
      · cases hp
  case known =>
    intro k hk
    have hlt := h.known k hk
    simp only [List.length_append, List.length_singleton]
    omega
  case fired =>
    intro k y hy
    obtain hy | ⟨rfl, rfl⟩ := hnew hy
    · exact h.fired k y hy
    · exact iff_of_false (fun hcancelled => by cases hcancelled) hfresh
  case listening =>
    intro k y hy
    obtain hy | ⟨rfl, rfl⟩ := hnew hy
    · exact h.listening k y hy
    · exact fun _ _ => rfl
  case quiet =>
    intro k y hy
    obtain hy | ⟨rfl, rfl⟩ := hnew hy
    · exact h.quiet k y hy
    · exact fun hp => absurd rfl hp
  case running =>
    intro k y hy
    obtain hy | ⟨rfl, rfl⟩ := hnew hy
    · exact h.running k y hy
    · exact fun hp => by cases hp
  case outcome =>
    intro k y hy
    obtain hy | ⟨rfl, rfl⟩ := hnew hy
    · exact h.outcome k y hy
    · rfl
  case order => exact h.order
  case others => exact h.others

theorem sound_register (h : Sound s) (signal : Option Bool) : Sound (s.register signal) := by
  by_cases hsignal : signal = some true
  · rw [hsignal, register_fired]
    exact sound_abort (sound_quiet h (by simp)) _
  · exact sound_quiet h hsignal

-- A request that is due has only finished ones before it.
theorem Sound.finished_before (h : Sound s) (hr : s.requests[i]? = some r) (hwaiting : r.phase = .waiting)
    (hdue : s.isDue r = true) : s.AllFinishedBefore i := by
  obtain ⟨hlast, hfirst⟩ := h.chained i r hr hwaiting
  cases hb : r.before with
  | none => exact hfirst hb
  | some p =>
      have hp := hlast p hb
      simp only [isDue, hb, Option.all_some] at hdue
      obtain ⟨y, hy, hfinished⟩ := (Option.any_eq_true _ _).mp hdue
      have hyf : y.phase = .finished := by simpa using hfinished
      intro k z hk hz
      obtain hlt | rfl : k < p ∨ k = p := by omega
      · exact h.inTurn p y hy (by simp [hyf]) k z hlt hz
      · obtain rfl := Option.some.inj (hy.symm.trans hz)
        exact hyf

theorem sound_due (h : Sound s) (i : Nat) : Sound (s.turn i) := by
  unfold turn
  cases hr : s.requests[i]? with
  | none => exact h
  | some r =>
      simp only
      split
      · rename_i hturn
        exact sound_turn h hr hturn.1 (h.finished_before hr hturn.1 hturn.2)
      · exact h

theorem sound_step (h : Sound s) (e : Event) : Sound (s.step e) := by
  cases e with
  | call signal =>
      rw [step, call]
      split
      · exact sound_due (sound_register h signal) _
      · exact sound_register h signal
  | turn i => exact sound_due h i
  | abort i => exact sound_abort h i
  | settle i ok => exact sound_settle h i ok

theorem sound_run (events : List Event) : Sound (run step {} events) :=
  @invariant_run _ _ step Sound (fun _ e h => sound_step h e) {} sound_start events

-- No request function is open, and no start is due.
def Idle (s : Queue) : Prop :=
  ∀ (i : Nat) (r : Request), s.requests[i]? = some r → r.phase ≠ .running ∧ ¬ (r.phase = .waiting ∧ s.isDue r = true)

theorem isDue_of_finished (h : Sound s) (hr : s.requests[i]? = some r) (hwaiting : r.phase = .waiting)
    (hbefore : s.AllFinishedBefore i) : s.isDue r = true := by
  have hlt := (List.getElem?_eq_some_iff.mp hr).1
  obtain ⟨hlast, _⟩ := h.chained i r hr hwaiting
  cases hb : r.before with
  | none => simp [isDue, hb]
  | some p =>
      have hp := hlast p hb
      have hget := List.getElem?_eq_getElem (show p < s.requests.length by omega)
      have hfinished := hbefore p _ (by omega) hget
      simp [isDue, hb, hget, hfinished]

-- The first request that is not finished would run or be due.
theorem Idle.finished (hidle : s.Idle) (h : Sound s) (hr : s.requests[i]? = some r) : r.phase = .finished := by
  induction i using Nat.strong_induction_on generalizing r with
  | _ i ih =>
      obtain ⟨hrunning, hdue⟩ := hidle i r hr
      cases hphase : r.phase with
      | running => exact absurd hphase hrunning
      | waiting => exact absurd ⟨hphase, isDue_of_finished h hr hphase fun k y hk hy => ih k hk hy⟩ hdue
      | finished => rfl

theorem Idle.tail (hidle : s.Idle) (h : Sound s) : s.tail = none := by
  cases htail : s.tail with
  | none => rfl
  | some p =>
      obtain ⟨hlen, hopen⟩ := h.tail p htail
      have hget := List.getElem?_eq_getElem (show p < s.requests.length by omega)
      exact absurd (hidle.finished h hget) (hopen _ hget)

theorem count_started (i : Nat) (trace : List Act) : trace.count (.started i) = (trace.filterMap startedOf).count i := by
  induction trace with
  | nil => rfl
  | cons a rest ih =>
      cases a with
      | started k =>
          have hcons : (Act.started k :: rest).filterMap startedOf = k :: rest.filterMap startedOf := rfl
          rw [hcons, List.count_cons, List.count_cons, ih]
          simp
      | fired k => rw [List.filterMap_cons_none rfl, ← ih, List.count_cons_of_ne (by simp)]
      | finished k => rw [List.filterMap_cons_none rfl, ← ih, List.count_cons_of_ne (by simp)]

theorem started_turn (h : Sound s) (hr : s.requests[i]? = some r) (hwaiting : r.phase = .waiting)
    (hbefore : s.AllFinishedBefore i) (hquiet : ¬ FiredFirst i s.trace) : .started i ∈ (s.step (.turn i)).trace := by
  have hlive : r.cancelled ≠ true := fun hcancelled => hquiet ((h.fired i r hr).mp hcancelled)
  rw [step, turn, hr]
  simp only
  rw [if_pos ⟨hwaiting, isDue_of_finished h hr hwaiting hbefore⟩, start, if_neg hlive]
  simp [act]

-- One request function at a time, called in the order of the calls; a request whose signal fires
-- first is never called, every other one is, once, after those before it, and none is left behind.
theorem requests_take_turns (events : List Event) :
    let s := run step {} events
    (∀ (i k : Nat) (r y : Request), s.requests[i]? = some r → s.requests[k]? = some y → r.phase = .running →
      y.phase = .running → i = k) ∧
    (s.trace.filterMap startedOf).Pairwise (· < ·) ∧
    (∀ i, FiredFirst i s.trace → .started i ∉ s.trace ∧ ∃ r, s.requests[i]? = some r ∧ r.outcome = some .aborted) ∧
    AfterOthers s.trace ∧
    (∀ (i : Nat) (r : Request), s.requests[i]? = some r → r.phase = .waiting → (∀ k < i, .finished k ∈ s.trace) →
      ¬ FiredFirst i s.trace → .started i ∈ (s.step (.turn i)).trace) ∧
    (s.Idle → s.tail = none ∧ ∀ i < s.requests.length, ¬ FiredFirst i s.trace → s.trace.count (.started i) = 1) := by
  intro s
  have h : Sound s := sound_run events
  refine ⟨?_, h.order, ?_, h.others, ?_, ?_⟩
  · intro i k r y hr hy hri hyk
    obtain hlt | rfl | hgt := Nat.lt_trichotomy i k
    · have hfinished := h.inTurn k y hy (by simp [hyk]) i r hlt hr
      rw [hri] at hfinished
      cases hfinished
    · rfl
    · have hfinished := h.inTurn i r hr (by simp [hri]) k y hgt hy
      rw [hyk] at hfinished
      cases hfinished
  · intro i hfired
    have hget := List.getElem?_eq_getElem (h.known i hfired)
    have hcancelled := (h.fired i _ hget).mpr hfired
    refine ⟨fun hstarted => ?_, _, hget, ?_⟩
    · have hlive := ((h.mem_started hget).mp hstarted).2
      rw [hcancelled] at hlive
      cases hlive
    · have houtcome := h.outcome i _ hget
      rwa [if_pos hcancelled] at houtcome
  · intro i r hr hwaiting hfinished hquiet
    refine started_turn h hr hwaiting (fun k y hk hy => ?_) hquiet
    exact (h.mem_finished hy).mp (hfinished k hk)
  · intro hidle
    refine ⟨hidle.tail h, fun i hi hquiet => ?_⟩
    have hget := List.getElem?_eq_getElem hi
    have hstarted : .started i ∈ s.trace := by
      rw [h.mem_started hget, hidle.finished h hget]
      refine ⟨by simp, ?_⟩
      by_contra hcancelled
      exact hquiet ((h.fired i _ hget).mp (by simpa using hcancelled))
    have hmem : i ∈ s.trace.filterMap startedOf := List.mem_filterMap.mpr ⟨_, hstarted, rfl⟩
    have hnodup : (s.trace.filterMap startedOf).Nodup := h.order.imp fun hlt => Nat.ne_of_lt hlt
    rw [count_started, List.count_eq_one_of_mem hnodup hmem]

-- The second call is cancelled in the queue, the third takes its turn after it.
example : run step {} [.call none, .call (some false), .call none, .abort 1, .settle 0 true, .turn 1, .turn 2, .settle 2 false] =
    { tail := none
      requests := [{ before := none, hasSignal := false, phase := .finished, outcome := some .resolved },
        { before := some 0, hasSignal := true, cancelled := true, phase := .finished, outcome := some .aborted },
        { before := some 1, hasSignal := false, phase := .finished, outcome := some .rejected }]
      trace := [.started 0, .fired 1, .finished 0, .finished 1, .started 2, .finished 2] } := by
  decide

end Queue

end MeshClient.Meshcore.Companion
