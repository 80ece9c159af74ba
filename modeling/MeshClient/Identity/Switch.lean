import MeshClient.Identity.Effects

namespace MeshClient.Identity

open Program

def loads (crates : Crates) (k : Bytes) : Bool :=
  (if k.size = 64 then crates.fromPrivateKey k else crates.fromFile k).toBool

-- Failures that `switch_identity` recovers from, or that leave nothing to recover from. A check
-- of the default slot or of the pointer that fails makes the code copy the working key to the
-- default slot; the read of the working key that failed (call 1) is missed when the target key
-- does not load; and a write is missed where the working key is not the active slot's.
def harmless (crates : Crates) (target : String) (n : Nat) (c : FileCall) (s : Sidecar) : Bool :=
  match c with
  | .fileExists (.slotIdentity id) =>
      id ≠ DEFAULT_SLOT_ID || s.key DEFAULT_SLOT_ID = none || s.key DEFAULT_SLOT_ID = s.working
  | .fileExists .activeIdentity => s.key DEFAULT_SLOT_ID = s.working
  | .read .activeIdentity => n = 0 || s.key DEFAULT_SLOT_ID = s.working
  | .read .identity => n ≠ 1 || (s.key target).all fun k => loads crates k || some k = s.working
  | .change (.write .activeIdentityTemp _) => Matched s
  | .change (.write .identity _) => Matched s
  | .change (.rename _ _) => Matched s
  | _ => true

def switching (crates : Crates) (osError target : String) : Setting fileInterface Sidecar where
  world := fileWorld osError
  others s := (run (fileWorld osError) (listIdentities crates) s).2
  calm := Matched
  harmless n c s := harmless crates target n c s = true

instance (crates : Crates) (osError target : String) (s : Sidecar) :
    Decidable ((switching crates osError target).calm s) :=
  inferInstanceAs (Decidable (Matched s))

instance (crates : Crates) (osError target : String) (n : Nat) (c : fileInterface.Call) (s : Sidecar) :
    Decidable ((switching crates osError target).harmless n c s) :=
  inferInstanceAs (Decidable (harmless crates target n c s = true))

-- Every key of `K` is in place, other slots hold copies of `A`, and `A` is the working key and
-- the one of the active slot.
structure Sound (K : String → Option Bytes) (A : Bytes) (v : View) : Prop where
  kept : ∀ id, v.key id = K id ∨ K id = none ∧ v.key id = some A
  working : v.working = some A
  matched : v.key v.active = some A

-- The target key is installed and the pointer still names a slot with `A`.
structure Installed (K : String → Option Bytes) (A T : Bytes) (target : String) (v : View) : Prop where
  kept : ∀ id, v.key id = K id ∨ K id = none ∧ v.key id = some A
  working : v.working = some T
  active : v.key v.active = some A
  target : v.key target = some T

-- Nothing of `K` is lost, whatever else holds.
structure Present (K : String → Option Bytes) (v : View) : Prop where
  kept : ∀ id k, K id = some k → v.key id = some k
  working : v.working ≠ none
  active : v.key v.active ≠ none

section

variable {K : String → Option Bytes} {A T : Bytes} {target : String} {v : View}

theorem kept_of_copies (h : ∀ id, v.key id = K id ∨ K id = none ∧ v.key id = some A) (id : String)
    (k : Bytes) (hk : K id = some k) : v.key id = some k := by
  rcases h id with h | ⟨h, _⟩
  · exact h.trans hk
  · rw [hk] at h; cases h

theorem Sound.present (h : Sound K A v) : Present K v :=
  ⟨kept_of_copies h.kept, by simp [h.working], by simp [h.matched]⟩

theorem Installed.present (h : Installed K A T target v) : Present K v :=
  ⟨kept_of_copies h.kept, by simp [h.working], by simp [h.active]⟩

theorem Installed.sound (h : Installed K A T target v) (hsame : T = A) : Sound K A v :=
  ⟨h.kept, hsame ▸ h.working, h.active⟩

theorem Sound.matched_iff {s : Sidecar} (h : Sound K A s.view) : Matched s :=
  ⟨by simp [show s.working = some A from h.working],
    (show s.key s.active = some A from h.matched).trans (show s.working = some A from h.working).symm⟩

theorem Installed.matched_iff {s : Sidecar} (h : Installed K A T target s.view) : Matched s ↔ T = A := by
  have hworking : s.working = some T := h.working
  have hactive : s.key s.active = some A := h.active
  simp [Matched, hworking, hactive, eq_comm]

theorem Ensured.view_key {k : Bytes} {s s' : Sidecar} (h : Ensured k s s') (hmatched : s.key s.active = some k)
    (id : String) : s'.key id = s.key id ∨ s.key id = none ∧ s'.key id = some k := by
  rw [h.key]
  split_ifs with hactive hdefault
  · exact .inl (hactive ▸ hmatched.symm)
  · subst hdefault
    cases hkey : s.key DEFAULT_SLOT_ID with
    | none => exact .inr ⟨rfl, rfl⟩
    | some key => exact .inl rfl
  · exact .inl rfl

theorem Sound.of_ensured {s s' : Sidecar} (h : Sound K A s.view) (he : Ensured A s s') :
    Sound K A s'.view := by
  have hmatched : s.key s.active = some A := h.matched
  refine ⟨fun id => ?_, he.working, (congrArg s'.key he.active).trans ((he.key _).trans (if_pos rfl))⟩
  rcases he.view_key hmatched id with hid | ⟨hnone, hcopy⟩
  · rw [show s'.view.key id = s.view.key id from hid]
    exact h.kept id
  · rcases h.kept id with hk | ⟨_, hk⟩
    · exact .inr ⟨hk.symm.trans hnone, hcopy⟩
    · exact absurd (hk.symm.trans hnone) (by simp)

end

section

variable {crates : Crates} {osError target : String} {K : String → Option Bytes} {A : Bytes}

theorem others_ensured {s : Sidecar} (h : Matched s) :
    ∃ k, s.working = some k ∧ s.key s.active = some k ∧
      Ensured k s ((switching crates osError target).others s) := by
  obtain ⟨k, hk⟩ := Option.ne_none_iff_exists'.mp h.1
  obtain ⟨s', hrun, hensured⟩ := run_ensureSlotLayout osError hk
  have hothers : (switching crates osError target).others s = s' := by
    change (run (fileWorld osError) (listIdentities crates) s).2 = s'
    rw [run_listIdentities, hrun]
  exact ⟨k, hk, h.2.trans hk, hothers ▸ hensured⟩

-- What holds of views where the working key is `A` has to survive `ensure_slot_layout` only.
theorem stable_of_ensured {P : View → Prop}
    (hworking : ∀ s, P s.view → Matched s → s.working = some A)
    (h : ∀ s s', P s.view → s.key s.active = some A → Ensured A s s' → P s'.view) :
    (switching crates osError target).Stable fun s => P s.view := by
  intro s hcalm hs
  obtain ⟨k, hk, hactive, hensured⟩ := @others_ensured crates osError target s hcalm
  obtain rfl : k = A := Option.some.inj (hk.symm.trans (hworking s hs hcalm))
  exact h s _ hs hactive hensured

theorem sound_stable : (switching crates osError target).Stable fun s => Sound K A s.view :=
  stable_of_ensured (fun _ h _ => h.working) fun _ _ h _ he => h.of_ensured he

theorem soundSlot_stable (a : String) :
    (switching crates osError target).Stable fun s => Sound K A s.view ∧ s.view.key a = some A := by
  refine stable_of_ensured (P := fun v => Sound K A v ∧ v.key a = some A) (fun _ h _ => h.1.working)
    fun s s' h hmatched he => ⟨h.1.of_ensured he, ?_⟩
  rcases he.view_key hmatched a with ha | ⟨_, ha⟩
  · exact ha.trans h.2
  · exact ha

-- A slot that the working key may be copied to.
def Copyable (A : Bytes) (a : String) (v : View) : Prop := v.key a = none ∨ v.key a = some A

theorem copyable_stable (a : String) :
    (switching crates osError target).Stable fun s => Sound K A s.view ∧ Copyable A a s.view := by
  refine stable_of_ensured (P := fun v => Sound K A v ∧ Copyable A a v) (fun _ h _ => h.1.working)
    fun s s' h hmatched he => ⟨h.1.of_ensured he, ?_⟩
  rcases he.view_key hmatched a with ha | ⟨_, ha⟩
  · exact h.2.imp ha.trans ha.trans
  · exact .inr ha

theorem Sound.copyTo {v : View} {a : String} (h : Sound K A v) (ha : Copyable A a v) :
    Sound K A (v.put (some A) (.slotIdentity a)) := by
  refine ⟨fun id => ?_, h.working, ?_⟩
  · by_cases hid : id = a
    · subst hid
      simp only [View.put, Function.update_self, and_true]
      rcases h.kept id with hk | ⟨hk, _⟩
      · rcases ha with ha | ha
        · exact .inr (hk.symm.trans ha)
        · exact .inl (ha.symm.trans hk)
      · exact .inr hk
    · simpa only [View.put, Function.update_of_ne hid] using h.kept id
  · by_cases hactive : v.active = a
    · simp [View.put, hactive]
    · simpa [View.put, hactive] using h.matched

theorem put_self {v : View} {a : String} (ha : v.key a = some A) : v.put (some A) (.slotIdentity a) = v := by
  rw [View.put, ← ha, Function.update_eq_self]

end

section

variable {crates : Crates} {osError target : String} {K : String → Option Bytes} {A : Bytes}
  {P : Sidecar → Prop} {s : Sidecar} {f : Bool} {n : Nat}

-- Why a call got a negative reply: it is right, or it is the one failure.
def Missed (crates : Crates) (target : String) (n : Nat) (c : FileCall) (right : Prop) (f f' : Bool)
    (s : Sidecar) : Prop :=
  right ∧ f' = f ∨ harmless crates target n c s = true ∧ f = false ∧ f' = true

theorem Missed.right_of_failed {c : FileCall} {right : Prop} {f' : Bool}
    (h : Missed crates target n c right true f' s) : right := by
  rcases h with ⟨h, _⟩ | ⟨_, h, _⟩
  · exact h
  · cases h

theorem safe_fileExists {α : Type} {C : Sidecar → Prop} {Q : Except String α → Sidecar → Bool → Nat → Prop}
    {path : FilePath} {g : Bool → FileProgram α} (hP : (switching crates osError target).Stable P)
    (hs : P s) (hC : ∀ s, P s → C s)
    (hyes : ∀ s, P s → Safe (switching crates osError target) C Q (g true) s f (n + 1))
    (hno : ∀ s f', P s → Missed crates target n (.fileExists path) (s.config.read path = none) f f' s →
      Safe (switching crates osError target) C Q (g false) s f' (n + 1)) :
    Safe (switching crates osError target) C Q (fileExists path >>= g) s f n := by
  refine .call hP hs hC (fun s hs => ?_) fun s reply hs hreply hf hharmless => ?_
  · change Safe _ C Q (g (s.config.read path).isSome) s f (n + 1)
    cases hread : s.config.read path with
    | none => exact hno s f hs (.inl ⟨hread, rfl⟩)
    | some contents => exact hyes s hs
  · cases hreply
    exact hno s true hs (.inr ⟨hharmless, hf, rfl⟩)

theorem safe_readFile {α : Type} {C : Sidecar → Prop} {Q : Except String α → Sidecar → Bool → Nat → Prop}
    {path : FilePath} {g : Except String Bytes → FileProgram α}
    (hP : (switching crates osError target).Stable P) (hs : P s) (hC : ∀ s, P s → C s)
    (hok : ∀ s k, P s → s.config.read path = some k →
      Safe (switching crates osError target) C Q (g (.ok k)) s f (n + 1))
    (herr : ∀ s f' e, P s → Missed crates target n (.read path) (s.config.read path = none) f f' s →
      Safe (switching crates osError target) C Q (g (.error e)) s f' (n + 1)) :
    Safe (switching crates osError target) C Q (readFile path >>= g) s f n := by
  refine .call hP hs hC (fun s hs => ?_) fun s reply hs hreply hf hharmless => ?_
  · change Safe _ C Q (g (orNotFound (s.config.read path))) s f (n + 1)
    cases hread : s.config.read path with
    | none => exact herr s f _ hs (.inl ⟨hread, rfl⟩)
    | some k => exact hok s k hs hread
  · cases hreply
    exact herr s true _ hs (.inr ⟨hharmless, hf, rfl⟩)

theorem safe_change {α : Type} {C : Sidecar → Prop} {Q : Except String α → Sidecar → Bool → Nat → Prop}
    {w : FileChange} {g : Except String Unit → FileProgram α}
    (hP : (switching crates osError target).Stable P) (hs : P s) (hC : ∀ s, P s → C s)
    (hok : ∀ s s', P s → w.apply s = some s' →
      Safe (switching crates osError target) C Q (g (.ok ())) s' f (n + 1))
    (herr : ∀ s f' e, P s → Missed crates target n (.change w) (w.apply s = none) f f' s →
      Safe (switching crates osError target) C Q (g (.error e)) s f' (n + 1)) :
    Safe (switching crates osError target) C Q (change w >>= g) s f n := by
  refine .call hP hs hC (fun s hs => ?_) fun s reply hs hreply hf hharmless => ?_
  · change Safe _ C Q (g (orNotFound ((w.apply s).map fun _ => ()))) ((w.apply s).getD s) f (n + 1)
    cases happly : w.apply s with
    | none => exact herr s f _ hs (.inl ⟨happly, rfl⟩)
    | some s' => exact hok s s' hs happly
  · cases hreply
    exact herr s true _ hs (.inr ⟨hharmless, hf, rfl⟩)

theorem keeps_copyTo {a what : String} :
    Keeps (fileWorld osError) (fun s => Sound K A s.view ∧ Copyable A a s.view)
      (changeOrErr what (.copy .identity (.slotIdentity a))) := by
  refine keeps_changeOrErr fun s s' happly h => ?_
  obtain ⟨k, hk, hview⟩ := view_copy happly
  obtain rfl : k = A := Option.some.inj (hk.symm.trans h.1.working)
  rw [hview]
  exact ⟨h.1.copyTo h.2, .inr (by simp [View.put])⟩

theorem keeps_createSlotDir {P : View → Prop} {what id : String} :
    Keeps (fileWorld osError) (fun s => P s.view) (changeOrErr what (.createSlotDir id)) :=
  keeps_changeOrErr fun s s' happly h => by
    rw [view_fixed happly (.inr (.inl ⟨id, rfl⟩))]
    exact h

theorem migrateIdentity_safe (hs : Sound K A s.view) :
    Safe (switching crates osError target) (fun s => Present K s.view)
      (fun _ s _ _ => Sound K A s.view) migrateIdentity s f n := by
  refine safe_fileExists sound_stable hs (fun _ h => h.present) (fun s hs => ?_)
    fun s _ hs _ => .ok sound_stable hs (fun _ h => h.present) fun _ h => h
  refine safe_fileExists sound_stable hs (fun _ h => h.present)
    (fun s hs => .ok sound_stable hs (fun _ h => h.present) fun _ h => h) fun s f hs hno => ?_
  have hcopyable : Copyable A DEFAULT_SLOT_ID s.view := by
    rcases hno with ⟨hnone, _⟩ | ⟨hharmless, _⟩
    · exact .inl hnone
    · simpa [harmless, Copyable, Sidecar.view, show s.working = some A from hs.working] using hharmless
  refine (Safe.of_keeps (P := fun s : Sidecar => Sound K A s.view ∧ Copyable A DEFAULT_SLOT_ID s.view) ?_
    (copyable_stable _) (fun _ h => h.1.present) ⟨hs, hcopyable⟩).mono fun _ _ _ _ h => h.1
  exact (keeps_createSlotDir (P := fun v => Sound K A v ∧ Copyable A DEFAULT_SLOT_ID v)).bind
    fun _ => keeps_copyTo

-- Between the two steps of `write_active_id` the temporary file holds the new id, unless a
-- listing has used it up.
theorem temp_stable {P : View → Prop} {quiet : Prop} (hP : (switching crates osError target).Stable fun s => P s.view)
    (hquiet : ∀ s : Sidecar, P s.view → Matched s → quiet) (contents : Bytes) :
    (switching crates osError target).Stable fun s =>
      P s.view ∧ (s.view.temp = some contents ∨ quiet ∧ s.view.temp = none) := by
  intro s hcalm hs
  obtain ⟨k, _, _, hensured⟩ := @others_ensured crates osError target s hcalm
  have hq := hquiet s hs.1 hcalm
  refine ⟨hP s hcalm hs.1, ?_⟩
  rcases hensured.temp with htemp | htemp
  · exact hs.2.imp htemp.trans (And.imp_right htemp.trans)
  · exact .inr ⟨hq, htemp⟩

theorem writeActiveId_safe {P R : View → Prop} {quiet : Prop} {id : String} (hid : isSafeSlotId id = true)
    (hP : (switching crates osError target).Stable fun s => P s.view)
    (hR : (switching crates osError target).Stable fun s => R s.view)
    (hquiet : ∀ s : Sidecar, P s.view → Matched s → quiet)
    (hPK : ∀ v, P v → Present K v) (hRK : ∀ v, R v → Present K v)
    (htemp : ∀ v contents, P v → P (v.put contents .activeIdentityTemp))
    (hstep : ∀ v, P v → R ((v.put (some id.toUTF8) .activeIdentity).put none .activeIdentityTemp))
    (hs : P s.view) :
    Safe (switching crates osError target) (fun s => Present K s.view)
      (fun r s _ _ => R s.view ∨ (∃ e, r = .error e) ∧ P s.view ∧ quiet) (writeActiveId id) s f n := by
  have herr : ∀ (s : Sidecar) (f : Bool) (n : Nat) (e : String), P s.view → quiet →
      Safe (switching crates osError target) (fun s => Present K s.view)
        (fun (r : Except String Unit) s _ _ => R s.view ∨ (∃ e, r = .error e) ∧ P s.view ∧ quiet)
        (.err e) s f n :=
    fun s f n e hs hq => .err hP hs (fun s h => hPK _ h) fun s h => .inr ⟨⟨e, rfl⟩, h, hq⟩
  unfold writeActiveId
  rw [if_pos hid]
  refine safe_change hP hs (fun s h => hPK _ h) (fun s s' hs happly => ?_) fun s f e hs hno => ?_
  · have hview := view_write happly
    have hs' : P s'.view ∧ (s'.view.temp = some id.toUTF8 ∨ quiet ∧ s'.view.temp = none) := by
      rw [hview]
      exact ⟨htemp _ _ hs, .inl rfl⟩
    refine safe_change (temp_stable hP hquiet _) hs' (fun s h => hPK _ h.1) (fun s s' hs happly => ?_)
      fun s f e hs hno => ?_
    · obtain ⟨k, hk, hview⟩ := view_rename happly
      have hk' : s.view.temp = some k := hk
      have hR' : R s'.view := by
        rw [hview]
        rcases hs.2 with htemp | ⟨_, hnone⟩
        · obtain rfl : k = id.toUTF8 := Option.some.inj (hk'.symm.trans htemp)
          exact hstep _ hs.1
        · exact absurd (hk'.symm.trans hnone) (by simp)
      exact .ok hR hR' (fun s h => hRK _ h) fun s h => .inl h
    · have hq : quiet := by
        rcases hno with ⟨hnone, _⟩ | ⟨hharmless, _⟩
        · rcases hs.2 with htemp | ⟨hq, _⟩
          · have hread : s.config.read .activeIdentityTemp = some id.toUTF8 := htemp
            simp [FileChange.apply, hread, Sidecar.putFile, ConfigDir.put] at hnone
          · exact hq
        · exact hquiet s hs.1 (by simpa [harmless] using hharmless)
      refine safe_change hP hs.1 (fun s h => hPK _ h) (fun s s' hs happly => ?_) fun s f _ hs _ => ?_
      · exact herr s' _ _ _ (by rw [view_removeFile happly]; exact htemp _ _ hs) hq
      · exact herr s _ _ _ hs hq
  · have hq : quiet := by
      rcases hno with ⟨hnone, _⟩ | ⟨hharmless, _⟩
      · simp [FileChange.apply, Sidecar.putFile, ConfigDir.put] at hnone
      · exact hquiet s hs (by simpa [harmless] using hharmless)
    exact herr s _ _ _ hs hq

-- Where the pointer is missing or cannot be seen, it is set to the default slot.
theorem ensureActiveIdentity_safe (hs : Sound K A s.view) :
    Safe (switching crates osError target) (fun s => Present K s.view)
      (fun _ s _ _ => Sound K A s.view) ensureActiveIdentity s f n := by
  refine safe_fileExists sound_stable hs (fun _ h => h.present)
    (fun s hs => .ok sound_stable hs (fun _ h => h.present) fun _ h => h) fun s f hs hno => ?_
  have hdefault : s.view.key DEFAULT_SLOT_ID = some A := by
    rcases hno with ⟨hnone, _⟩ | ⟨hharmless, _⟩
    · have hactive : s.view.active = DEFAULT_SLOT_ID := congrArg activeIdIn hnone
      exact hactive ▸ hs.matched
    · have hsame : s.key DEFAULT_SLOT_ID = s.working := by simpa [harmless] using hharmless
      exact hsame.trans hs.working
  have hsafe : isSafeSlotId DEFAULT_SLOT_ID = true := by decide
  refine (writeActiveId_safe (P := fun v => Sound K A v ∧ v.key DEFAULT_SLOT_ID = some A) (R := Sound K A)
    hsafe (soundSlot_stable _) sound_stable (fun _ _ _ => trivial) (fun _ h => h.1.present)
    (fun _ h => h.present) (fun v _ h => ⟨⟨h.1.kept, h.1.working, h.1.matched⟩, h.2⟩) (fun v h => ?_)
    ⟨hs, hdefault⟩).mono fun _ _ _ _ h => h.elim id fun h => h.2.1.1
  refine ⟨h.1.kept, h.1.working, ?_⟩
  rw [← activeIdIn_of_safe hsafe] at h
  exact h.2

-- Copies between the working identity and a slot with the same key change nothing.
theorem keeps_copySame (what a : String) :
    Keeps (fileWorld osError) (fun s => Sound K A s.view ∧ s.view.key a = some A)
      (changeOrErr what (.copy .identity (.slotIdentity a))) :=
  keeps_changeOrErr fun s s' happly h => by
    obtain ⟨k, hk, hview⟩ := view_copy happly
    obtain rfl : k = A := Option.some.inj (hk.symm.trans h.1.working)
    rw [hview, put_self h.2]
    exact h

theorem keeps_syncActiveSlot (a : String) :
    Keeps (fileWorld osError) (fun s => Sound K A s.view ∧ s.view.key a = some A) (syncActiveSlot a) := by
  have hfrom : ∀ what, Keeps (fileWorld osError) (fun s => Sound K A s.view ∧ s.view.key a = some A)
      (changeOrErr what (.copy (.slotIdentity a) .identity)) := fun what =>
    keeps_changeOrErr fun s s' happly h => by
      obtain ⟨k, hk, hview⟩ := view_copy happly
      obtain rfl : k = A := Option.some.inj (hk.symm.trans h.2)
      rw [hview]
      exact ⟨⟨h.1.kept, rfl, h.1.matched⟩, h.2⟩
  refine (keeps_fileExists _).bind fun hasWorking => ?_
  cases hasWorking with
  | true =>
      refine (keeps_createSlotDir (P := fun v => Sound K A v ∧ v.key a = some A)).bind fun _ =>
        (keeps_fileExists _).bind fun hasKey => ?_
      cases hasKey with
      | true =>
          have hdiffer : Keeps (fileWorld osError) (fun s => Sound K A s.view ∧ s.view.key a = some A)
              (filesDiffer .identity (.slotIdentity a)) :=
            (keeps_readFile _).bind fun x => (keeps_readFile _).bind fun y => by
              cases x <;> cases y <;> trivial
          refine hdiffer.bind fun differ => ?_
          cases differ with
          | true => exact keeps_copySame ..
          | false => trivial
      | false => exact keeps_copySame ..
  | false =>
      refine (keeps_fileExists _).bind fun hasKey => ?_
      cases hasKey with
      | true => exact hfrom _
      | false => trivial

-- A pointer that cannot be read stands for the default slot.
theorem readActiveId_safe {α : Type} {C : Sidecar → Prop} {Q : Except String α → Sidecar → Bool → Nat → Prop}
    {g : String → FileProgram α} (hs : Sound K A s.view) (hn : n ≠ 0) (hC : ∀ s, Sound K A s.view → C s)
    (hnext : ∀ a s f, Sound K A s.view → s.view.key a = some A →
      Safe (switching crates osError target) C Q (g a) s f (n + 1)) :
    Safe (switching crates osError target) C Q (readActiveId >>= g) s f n := by
  refine .call sound_stable hs hC (fun s hs => ?_) fun s reply hs hreply _ hharmless => ?_
  · have hrun := run_readActiveId osError s
    change Safe _ C Q (g (activeIdIn (orNotFound (s.config.read .activeIdentity)).toOption)) s f (n + 1)
    have hactive : activeIdIn (orNotFound (s.config.read .activeIdentity)).toOption = s.active := by
      unfold Sidecar.active
      cases s.config.read .activeIdentity <;> rfl
    rw [hactive]
    exact hnext _ s f hs hs.matched
  · cases hreply
    have hbool : harmless crates target n (.read .activeIdentity) s = true := hharmless
    have hsame : s.key DEFAULT_SLOT_ID = s.working := by simpa [harmless, hn] using hbool
    exact hnext DEFAULT_SLOT_ID s true hs (hsame.trans hs.working)

theorem ensureSlotLayout_safe (hs : Sound K A s.view) (hn : n ≠ 0) :
    Safe (switching crates osError target) (fun s => Present K s.view)
      (fun _ s _ _ => Sound K A s.view) ensureSlotLayout s f n := by
  have hroot : Keeps (fileWorld osError) (fun s => Sound K A s.view)
      (changeOrErr "create identities dir" .createIdentitiesDir) :=
    keeps_changeOrErr fun s s' happly h => by cases happly; exact h
  refine Safe.seq (.of_keeps hroot sound_stable (fun s h => h.present) hs) (fun _ s f n1 hs _ h1 => ?_)
    fun _ _ _ _ h => h
  refine Safe.seq (migrateIdentity_safe hs) (fun _ s f n2 hs _ h2 => ?_) fun _ _ _ _ h => h
  refine Safe.seq (ensureActiveIdentity_safe hs) (fun _ s f n3 hs _ h3 => ?_) fun _ _ _ _ h => h
  refine readActiveId_safe hs (by omega) (fun s h => h.present) fun a s f hs ha => ?_
  exact (Safe.of_keeps (keeps_syncActiveSlot a) (soundSlot_stable a) (fun s h => h.1.present)
    ⟨hs, ha⟩).mono fun _ _ _ _ h => h.1

-- Metadata changes nothing that keys depend on.
theorem fixed_writeSlotMeta (v : View) (id : String) (displayName identityHash lxmfHash : Option String) :
    Keeps (fileWorld osError) (fun s => s.view = v)
      (writeSlotMeta crates id displayName identityHash lxmfHash) := by
  unfold writeSlotMeta
  split_ifs
  · exact (keeps_createSlotDir (P := fun w => w = v)).bind fun _ => keeps_changeOrErr fun s s' happly h =>
      (view_fixed happly (.inr (.inr (.inl ⟨_, _, rfl⟩)))).trans h
  · trivial

theorem stashWorkingIntoActiveSlot_safe (identity : StackIdentity) (hs : Sound K A s.view) (hn : n ≠ 0) :
    Safe (switching crates osError target) (fun s => Present K s.view)
      (fun _ s _ _ => Sound K A s.view) (stashWorkingIntoActiveSlot crates identity) s f n := by
  refine Safe.seq (ensureSlotLayout_safe hs hn) (fun _ s f n1 hs _ h1 => ?_) fun _ _ _ _ h => h
  refine readActiveId_safe hs (by omega) (fun s h => h.present) fun a s f hs ha => ?_
  have hkey : Keeps (fileWorld osError) (fun s => Sound K A s.view ∧ s.view.key a = some A) (stashKey a) := by
    refine (keeps_fileExists _).bind fun hasWorking => ?_
    cases hasWorking with
    | true =>
        exact (keeps_createSlotDir (P := fun v => Sound K A v ∧ v.key a = some A)).bind fun _ =>
          keeps_copySame ..
    | false => trivial
  have hmeta : Keeps (fileWorld osError) (fun s => Sound K A s.view ∧ s.view.key a = some A)
      (stashMeta crates a identity) := by
    refine Keeps.of_fixed (fun v => ?_) fun v => Sound K A v ∧ v.key a = some A
    unfold stashMeta
    split_ifs
    · exact fixed_writeSlotMeta ..
    · trivial
  exact (Safe.of_keeps (hkey.bind fun _ => hmeta) (soundSlot_stable a) (fun s h => h.1.present)
    ⟨hs, ha⟩).mono fun _ _ _ _ h => h.1

theorem installed_stable {T : Bytes} :
    (switching crates osError target).Stable fun s => Installed K A T target s.view := by
  intro s hcalm hs
  obtain rfl : T = A := hs.matched_iff.mp hcalm
  obtain ⟨hsound, htarget⟩ := soundSlot_stable target s hcalm ⟨hs.sound rfl, hs.target⟩
  exact ⟨hsound.kept, hsound.working, hsound.matched, htarget⟩

theorem Sound.install {v : View} {T : Bytes} (h : Sound K A v) (hT : v.key target = some T) :
    Installed K A T target (v.put (some T) .identity) :=
  ⟨h.kept, rfl, h.matched, hT⟩

theorem installSlotToWorking_safe (hs : Sound K A s.view) (hn : n ≠ 0) :
    Safe (switching crates osError target) (fun s => Present K s.view)
      (fun r s _ _ => match r with
        | .ok _ => isSafeSlotId target = true ∧ ∃ T, Installed K A T target s.view
        | .error _ => Sound K A s.view) (installSlotToWorking target) s f n := by
  unfold installSlotToWorking
  split_ifs with hsafe
  · refine Safe.seq (ensureSlotLayout_safe hs hn) (fun _ s f n1 hs _ _ => ?_) fun _ _ _ _ h => h
    refine safe_fileExists sound_stable hs (fun _ h => h.present) (fun s hs => ?_) fun s _ hs _ =>
      .err sound_stable hs (fun _ h => h.present) fun _ h => h
    refine safe_change sound_stable hs (fun _ h => h.present) (fun s s' hs happly => ?_) fun s f e hs _ =>
      .err sound_stable hs (fun _ h => h.present) fun _ h => h
    obtain ⟨T, hT, hview⟩ := view_copy happly
    have hs' : Installed K A T target s'.view := by
      rw [hview]
      exact hs.install hT
    exact .ok installed_stable hs' (fun _ h => h.present) fun _ h => ⟨hsafe, T, h⟩
  · exact .err sound_stable hs (fun _ h => h.present) fun _ h => h

-- Reconciling changes what is in memory and in the state file, and no key.
theorem fixed_reconcile (v : View) :
    Keeps (fileWorld osError) (fun s => s.view = v) (reconcilePersistedIdentityFromFile crates) := by
  have hfile : Keeps (fileWorld osError) (fun s : Sidecar => s.view = v) (loadFromFile crates) :=
    (keeps_readFile _).bind fun data => by
      cases data with
      | error e => trivial
      | ok data =>
          simp only
          split <;> trivial
  have hload : Keeps (fileWorld osError) (fun s : Sidecar => s.view = v) (loadIdentity crates) := by
    refine (keeps_fileExists _).bind fun hasWorking => ?_
    cases hasWorking with
    | false => trivial
    | true =>
        refine (keeps_readFile _).bind fun data => ?_
        cases data with
        | error e => trivial
        | ok data =>
            simp only
            split_ifs
            · cases crates.fromPrivateKey data <;> trivial
            · exact hfile
  refine (keeps_fileExists _).bind fun hasWorking => ?_
  cases hasWorking with
  | false => trivial
  | true =>
      refine hload.bind fun identity => keeps_stackIdentity.bind fun current => ?_
      unfold adoptIdentity
      split_ifs
      · trivial
      · refine ⟨fun s h => h, fun _ => ?_⟩
        have hsave : Keeps (fileWorld osError) (fun s : Sidecar => s.view = v) saveState :=
          (keeps_change fun s s' happly h =>
            (view_fixed happly (.inr (.inr (.inr rfl)))).trans h).bind fun r => by cases r <;> trivial
        exact hsave.bind fun _ => trivial

-- With the one failure behind, a target key that loads is accepted.
theorem loadIdentity_accepts {T : Bytes} (hs : Installed K A T target s.view) (hloads : loads crates T = true) :
    Safe (switching crates osError target) (fun s => Present K s.view)
      (fun r s f _ => Installed K A T target s.view ∧ f = true ∧ ∃ a, r = .ok a) (loadIdentity crates) s true n := by
  have hC : ∀ s : Sidecar, Installed K A T target s.view → Present K s.view := fun s h => h.present
  have hthere : ∀ {s : Sidecar}, Installed K A T target s.view → s.config.read .identity ≠ none :=
    fun h hnone => by cases hnone.symm.trans h.working
  have hdone : ∀ (identity : RnsIdentity) (s : Sidecar) n, Installed K A T target s.view →
      Safe (switching crates osError target) (fun s => Present K s.view)
        (fun r s f _ => Installed K A T target s.view ∧ f = true ∧ ∃ a, r = .ok a)
        (pure identity : FileProgram RnsIdentity) s true n :=
    fun identity s n hs => .ok installed_stable hs hC fun s h => ⟨h, rfl, identity, rfl⟩
  refine safe_fileExists installed_stable hs hC (fun s hs => ?_) fun s f hs hno =>
    absurd hno.right_of_failed (hthere hs)
  refine safe_readFile installed_stable hs hC (fun s k hs hk => ?_) fun s f e hs hno =>
    absurd hno.right_of_failed (hthere hs)
  obtain rfl : k = T := Option.some.inj (hk.symm.trans hs.working)
  unfold loads at hloads
  simp only
  split_ifs at hloads ⊢ with hsize
  · cases hkey : crates.fromPrivateKey k with
    | ok identity => exact hdone identity s _ hs
    | error e => rw [hkey] at hloads; cases hloads
  · refine safe_readFile installed_stable hs hC (fun s k' hs hk' => ?_) fun s f e hs hno =>
      absurd hno.right_of_failed (hthere hs)
    obtain rfl : k' = k := Option.some.inj (hk'.symm.trans hs.working)
    simp only
    cases hkey : crates.fromFile k' with
    | ok identity => exact hdone identity s _ hs
    | error e => rw [hkey] at hloads; cases hloads

theorem reconcile_accepts {T : Bytes} (hs : Installed K A T target s.view) (hloads : loads crates T = true) :
    Safe (switching crates osError target) (fun s => Present K s.view)
      (fun r s _ _ => Installed K A T target s.view ∧ ∃ a, r = .ok a)
      (reconcilePersistedIdentityFromFile crates) s true n := by
  have hC : ∀ s : Sidecar, Installed K A T target s.view → Present K s.view := fun s h => h.present
  refine safe_fileExists installed_stable hs hC (fun s hs => ?_) fun s f hs hno =>
    .ok installed_stable hs hC fun s h => ⟨h, none, rfl⟩
  refine Safe.bind (loadIdentity_accepts hs hloads) (fun identity s f n ⟨hs, hf, _⟩ => ?_)
    fun e s f n ⟨_, _, a, ha⟩ => by cases ha
  subst hf
  refine .call_of_failed installed_stable hs hC fun s hs => ?_
  change Safe _ _ _ (adoptIdentity (stackIdentityFromRns identity s.identity.displayName
    s.identity.mnemonic) s.identity) s true _
  unfold adoptIdentity
  split_ifs
  · exact .ok installed_stable hs hC fun s h => ⟨h, none, rfl⟩
  · refine .call_of_failed installed_stable hs hC fun s hs => ?_
    refine safe_change installed_stable hs hC (fun s s' hs happly => ?_) fun s f e hs hno => ?_
    · have hs' : Installed K A T target s'.view := by
        rw [view_fixed happly (.inr (.inr (.inr rfl)))]
        exact hs
      exact .ok installed_stable hs' hC fun s h => ⟨h, _, rfl⟩
    · cases hno.right_of_failed

theorem soundActive_stable (a : String) :
    (switching crates osError target).Stable fun s => Sound K A s.view ∧ s.view.active = a :=
  stable_of_ensured (P := fun v => Sound K A v ∧ v.active = a) (fun _ h _ => h.1.working)
    fun _ _ h _ he => ⟨h.1.of_ensured he, he.active.trans h.2⟩

-- The switch is done: the target key is the working one and the pointer names its slot.
def Switched (K : String → Option Bytes) (T : Bytes) (target : String) (v : View) : Prop :=
  ∃ K', (∀ id k, K id = some k → K' id = some k) ∧ Sound K' T v ∧ v.active = target

theorem switched_stable {T : Bytes} :
    (switching crates osError target).Stable fun s => Switched K T target s.view :=
  fun s hcalm ⟨K', hK', hsound, hactive⟩ =>
    ⟨K', hK', soundActive_stable target s hcalm ⟨hsound, hactive⟩⟩

theorem Switched.present {v : View} {T : Bytes} (h : Switched K T target v) : Present K v := by
  obtain ⟨K', hK', hsound, _⟩ := h
  exact ⟨fun id k hk => hsound.present.kept id k (hK' id k hk), hsound.present.working, hsound.present.active⟩

theorem Installed.switch {v : View} {T : Bytes} (h : Installed K A T target v)
    (hsafe : isSafeSlotId target = true) :
    Switched K T target ((v.put (some target.toUTF8) .activeIdentity).put none .activeIdentityTemp) := by
  refine ⟨v.key, kept_of_copies h.kept, ⟨fun _ => .inl rfl, h.working, ?_⟩, activeIdIn_of_safe hsafe⟩
  exact (congrArg v.key (activeIdIn_of_safe hsafe)).trans h.target

-- How a switch ends: no key of `K` is lost, and the working identity is the active slot's key.
structure Outcome (K : String → Option Bytes) (target : String) (r : Except String Unit) (s : Sidecar)
    (f : Bool) : Prop where
  kept : ∀ id k, K id = some k → s.key id = some k
  matched : Matched s
  active : r = .ok () → f = false → s.active = target

theorem Sound.outcome {r : Except String Unit} (h : Sound K A s.view)
    (hactive : r = .ok () → f = false → s.active = target) : Outcome K target r s f :=
  ⟨h.present.kept, h.matched_iff, hactive⟩

theorem Switched.outcome {T : Bytes} (r : Except String Unit) (h : Switched K T target s.view) :
    Outcome K target r s f := by
  obtain ⟨K', hK', hsound, hactive⟩ := h
  exact ⟨fun id k hk => hsound.present.kept id k (hK' id k hk), hsound.matched_iff, fun _ _ => hactive⟩

theorem rollbackSwitch_safe {T : Bytes} {previous : Option Bytes} (hs : Installed K A T target s.view)
    (hprevious : previous = some A ∨ previous = none ∧ T = A) :
    Safe (switching crates osError target) (fun s => Present K s.view)
      (fun _ s _ _ => Sound K A s.view) (rollbackSwitch crates previous) s f n := by
  have hreconcile : ∀ (s : Sidecar) f n, Sound K A s.view →
      Safe (switching crates osError target) (fun s => Present K s.view) (fun _ s _ _ => Sound K A s.view)
        (do
          let _ ← (reconcilePersistedIdentityFromFile crates).attempt
          pure ()) s f n := fun s f n hs =>
    .of_keeps ((Keeps.of_fixed fixed_reconcile _).attempt.bind fun _ => trivial) sound_stable
      (fun _ h => h.present) hs
  rcases hprevious with rfl | ⟨rfl, hsame⟩
  · refine safe_change installed_stable hs (fun _ h => h.present) (fun s s' hs happly => ?_)
      fun s f e hs hno => ?_
    · have hs' : Sound K A s'.view := by
        rw [view_write happly]
        exact ⟨hs.kept, rfl, hs.active⟩
      exact hreconcile s' _ _ hs'
    · rcases hno with ⟨hnone, _⟩ | ⟨hharmless, _⟩
      · simp [FileChange.apply, Sidecar.putFile, ConfigDir.put] at hnone
      · exact hreconcile s _ _ (hs.sound (hs.matched_iff.mp (by simpa [harmless] using hharmless)))
  · exact hreconcile s _ _ (hs.sound hsame)

theorem commitSwitch_safe {T : Bytes} {previous : Option Bytes}
    {reconciled : Except String (Option StackIdentity)} (hs : Installed K A T target s.view)
    (hsafe : isSafeSlotId target = true)
    (hprevious : previous = some A ∨ previous = none ∧ ∀ e, reconciled = .error e → T = A) :
    Safe (switching crates osError target) (fun s => Present K s.view)
      (fun r s f _ => Outcome K target r s f) (commitSwitch crates target previous reconciled) s f n := by
  cases reconciled with
  | ok _ =>
      refine (writeActiveId_safe (P := Installed K A T target) (R := Switched K T target) hsafe installed_stable
        switched_stable (fun _ h => h.matched_iff.mp) (fun _ h => h.present) (fun _ h => h.present)
        (fun v _ h => ⟨h.kept, h.working, h.active, h.target⟩) (fun v h => h.switch hsafe) hs).mono
        fun r s f _ h => ?_
      rcases h with h | ⟨⟨e, rfl⟩, h, hsame⟩
      · exact h.outcome r
      · exact (h.sound hsame).outcome fun hr => by cases hr
  | error e =>
      refine Safe.bind (rollbackSwitch_safe hs (hprevious.imp_right fun h => ⟨h.1, h.2 e rfl⟩))
        (fun _ s f n hs => ?_) fun _ s f n hs => hs.outcome fun hr => by cases hr
      exact .err sound_stable hs (fun _ h => h.present) fun s h => h.outcome fun hr => by cases hr

-- The rest of the switch, once the old working key has been read or its read has failed.
theorem replaceWorking_safe {previous : Option Bytes} (hs : Sound K A s.view) (hn : n ≠ 0)
    (hprevious : previous = some A ∨
      previous = none ∧ f = true ∧ ∀ k, K target = some k → loads crates k = true ∨ k = A) :
    Safe (switching crates osError target) (fun s => Present K s.view)
      (fun r s f _ => Outcome K target r s f) (do
        let identity ← stackIdentity
        stashWorkingIntoActiveSlot crates identity
        installSlotToWorking target
        let reconciled ← (reconcilePersistedIdentityFromFile crates).attempt
        commitSwitch crates target previous reconciled) s f n := by
  have herr : ∀ (e : String) (s : Sidecar) (f : Bool) (n : Nat), Sound K A s.view →
      Outcome K target (.error e) s f := fun e s f n h => h.outcome fun hr => by cases hr
  refine Safe.seq (.of_keeps keeps_stackIdentity sound_stable (fun _ h => h.present) hs)
    (fun identity s f1 n1 hs hf1 hn1 => ?_) fun e s f n h => herr e s f n h
  refine Safe.seq (stashWorkingIntoActiveSlot_safe identity hs (by omega))
    (fun _ s f2 n2 hs hf2 hn2 => ?_) fun e s f n h => herr e s f n h
  refine Safe.seq (installSlotToWorking_safe hs (by omega)) (fun _ s f3 n3 h hf3 hn3 => ?_)
    fun e s f n h => herr e s f n h
  obtain ⟨hsafe, T, hs⟩ := h
  -- reconciling fails only for a target key that does not load, or through the one failure
  have hreconcile : Safe (switching crates osError target) (fun s => Present K s.view)
      (fun r s _ _ => Installed K A T target s.view ∧
        (previous = some A ∨ previous = none ∧ ∀ e, r = .error e → T = A))
      (reconcilePersistedIdentityFromFile crates) s f3 n3 := by
    have hkeeps : Safe (switching crates osError target) (fun s => Present K s.view)
        (fun _ s _ _ => Installed K A T target s.view) (reconcilePersistedIdentityFromFile crates) s f3 n3 :=
      .of_keeps (Keeps.of_fixed fixed_reconcile _) installed_stable (fun _ h => h.present) hs
    rcases hprevious with hprevious | ⟨hnone, hfailed, htarget⟩
    · exact hkeeps.mono fun _ _ _ _ h => ⟨h, .inl hprevious⟩
    · have hloads : loads crates T = true ∨ T = A := by
        rcases hs.kept target with hk | ⟨_, hk⟩
        · exact htarget T (hk.symm.trans hs.target)
        · exact .inr (Option.some.inj (hs.target.symm.trans hk))
      rcases hloads with hloads | hsame
      · obtain rfl : f3 = true := hf3 (hf2 (hf1 hfailed))
        refine (reconcile_accepts hs hloads).mono fun r _ _ _ ⟨h, a, ha⟩ => ⟨h, .inr ⟨hnone, fun e he => ?_⟩⟩
        rw [ha] at he
        cases he
      · exact hkeeps.mono fun _ _ _ _ h => ⟨h, .inr ⟨hnone, fun _ _ => hsame⟩⟩
  exact Safe.attempt hreconcile fun r s f n ⟨hs, hprevious⟩ => commitSwitch_safe hs hsafe hprevious

theorem switchIdentity_safe (hs : Sound K A s.view) :
    Safe (switching crates osError target) (fun s => Present K s.view)
      (fun r s f _ => Outcome K target r s f) (switchIdentity crates target) s false 0 := by
  -- `a` is the slot that was read as the active one
  have hrest : ∀ (a : String) (s : Sidecar) (f : Bool), Sound K A s.view →
      (f = false → s.view.active = a) →
      Safe (switching crates osError target) (fun s => Present K s.view)
        (fun r s f _ => Outcome K target r s f) (if a = target then pure () else do
          let previousWorking ← readFile .identity
          let identity ← stackIdentity
          stashWorkingIntoActiveSlot crates identity
          installSlotToWorking target
          let reconciled ← (reconcilePersistedIdentityFromFile crates).attempt
          commitSwitch crates target previousWorking.toOption reconciled) s f 1 := by
    intro a s f hs ha
    split_ifs with hsame
    · cases f with
      | true => exact .ok sound_stable hs (fun _ h => h.present) fun _ h => h.outcome fun _ hf => by cases hf
      | false =>
          exact .ok (soundActive_stable a) ⟨hs, ha rfl⟩ (fun _ h => h.1.present) fun _ h =>
            h.1.outcome fun _ _ => h.2.trans hsame
    · refine safe_readFile sound_stable hs (fun _ h => h.present) (fun s k hs hk => ?_)
        fun s f e hs hno => ?_
      · obtain rfl : k = A := Option.some.inj (hk.symm.trans hs.working)
        exact replaceWorking_safe hs (by omega) (.inl rfl)
      · rcases hno with ⟨hnone, _⟩ | ⟨hharmless, _, rfl⟩
        · cases hnone.symm.trans hs.working
        · refine replaceWorking_safe hs (by omega) (.inr ⟨rfl, rfl, fun k hk => ?_⟩)
          have hkey : s.key target = some k := hs.present.kept target k hk
          have hworking : s.working = some A := hs.working
          simpa [harmless, hkey, hworking] using hharmless
  refine .call (soundActive_stable s.active) ⟨hs, rfl⟩ (fun _ h => h.1.present) (fun s' hs' => ?_)
    fun s' reply hs' hreply _ _ => ?_
  · have hactive : activeIdIn (orNotFound (s'.config.read .activeIdentity)).toOption = s'.view.active := by
      change _ = activeIdIn (s'.config.read .activeIdentity)
      cases s'.config.read .activeIdentity <;> rfl
    exact hrest _ s' false hs'.1 fun _ => hactive.symm
  · cases hreply
    exact hrest _ s' true hs'.1 fun hf => by cases hf

theorem Sound.copyable {v : View} {a : String} (h : Sound K A v) (ha : v.key a = some A) {w : View}
    (hw : Sound K A w) : Copyable A a w := by
  rcases hw.kept a with hk | ⟨_, hk⟩
  · rcases h.kept a with hk' | ⟨hk', _⟩
    · exact .inr (hk.trans (hk'.symm.trans ha))
    · exact .inl (hk.trans hk')
  · exact .inr hk

theorem syncActiveSlotFromWorking_safe (displayName identityHash lxmfHash : Option String)
    (hs : Sound K A s.view) (hn : n ≠ 0) :
    Safe (switching crates osError target) (fun s => Present K s.view) (fun _ s _ _ => Sound K A s.view)
      (syncActiveSlotFromWorking crates displayName identityHash lxmfHash) s f n := by
  refine readActiveId_safe hs hn (fun s h => h.present) fun a s f hs ha => ?_
  unfold syncSlotFromWorking
  split_ifs
  · refine Safe.bind (ensureSlotLayout_safe hs (by omega)) (fun _ s' f n hs' => ?_) fun _ _ _ _ h => h
    have hkeeps : Keeps (fileWorld osError) (fun s => Sound K A s.view ∧ Copyable A a s.view)
        (copyToSlot crates a displayName identityHash lxmfHash) := by
      refine (keeps_fileExists _).bind fun hasWorking => ?_
      cases hasWorking with
      | true =>
          refine Keeps.bind (p := copyWorkingTo "copy to slot" a) ?_ fun _ =>
            Keeps.of_fixed (fun v => fixed_writeSlotMeta v a _ _ _) fun v => Sound K A v ∧ Copyable A a v
          exact (keeps_createSlotDir (P := fun v => Sound K A v ∧ Copyable A a v)).bind fun _ => keeps_copyTo
      | false => trivial
    exact (Safe.of_keeps hkeeps (copyable_stable a) (fun _ h => h.1.present)
      ⟨hs', hs.copyable ha hs'⟩).mono fun _ _ _ _ h => h.1
  · exact .err sound_stable hs (fun _ h => h.present) fun _ h => h

theorem syncAtStart_safe (hs : Sound K A s.view) (hn : n ≠ 0) :
    Safe (switching crates osError target) (fun s => Present K s.view) (fun _ s _ _ => Sound K A s.view)
      (syncAtStart crates) s f n := by
  refine Safe.seq (.of_keeps (Keeps.of_fixed fixed_reconcile _).attempt sound_stable
    (fun _ h => h.present) hs) (fun _ s f n1 hs _ h1 => ?_) fun _ _ _ _ h => h
  refine Safe.seq (.of_keeps keeps_stackIdentity sound_stable (fun _ h => h.present) hs)
    (fun identity s f n2 hs _ h2 => ?_) fun _ _ _ _ h => h
  split_ifs
  · exact Safe.attempt (syncActiveSlotFromWorking_safe _ _ _ hs (by omega)) fun _ s f n hs =>
      .ok sound_stable hs (fun _ h => h.present) fun _ h => h
  · exact .ok sound_stable hs (fun _ h => h.present) fun _ h => h

end

-- Every key of `s` is still in its slot, and the working identity is the active slot's key.
def KeepsSlots (s s' : Sidecar) : Prop :=
  (∀ id k, s.key id = some k → s'.key id = some k) ∧ Matched s'

-- A restart overwrites the key of the active slot with the working one.
theorem restart_keepsSlots_iff (crates : Crates) (osError : String) {s₀ s : Sidecar}
    (hs : Present s₀.key s.view) :
    KeepsSlots s₀ (restart crates osError s) ↔ Matched s ∨ s₀.key s.active = none := by
  obtain ⟨k, hk⟩ := Option.ne_none_iff_exists'.mp hs.working
  obtain ⟨s1, hrun, he⟩ := run_ensureSlotLayout osError (s := { s with identity := s.saved }) hk
  have hsound : Sound s1.key k s1.view :=
    ⟨fun _ => .inl rfl, he.working, (congrArg s1.key he.active).trans ((he.key _).trans (if_pos rfl))⟩
  have hsafe : Safe (switching crates osError "") (fun s => Present s1.key s.view)
      (fun _ s _ _ => Sound s1.key k s.view) (syncAtStart crates) s1 false 1 :=
    syncAtStart_safe hsound (by omega)
  obtain ⟨_, hafter⟩ := hsafe.run
  have hstate : restart crates osError s = (run (fileWorld osError) (syncAtStart crates) s1).2 := by
    simp only [restart, bootstrapIdentity, run_bind, run_attempt, hrun]
  rw [hstate]
  constructor
  · rintro ⟨hkept, _⟩
    cases hactive : s₀.key s.active with
    | none => exact .inr rfl
    | some k' =>
        have hafterKey := hafter.present.kept s.active k ((he.key _).trans (if_pos rfl))
        obtain rfl : k' = k := Option.some.inj ((hkept _ _ hactive).symm.trans hafterKey)
        exact .inl ⟨hs.working, (hs.kept _ _ hactive).trans hk.symm⟩
  · intro h
    refine ⟨fun id k' hk' => hafter.present.kept id k' ?_, hafter.matched_iff⟩
    have hid : s.key id = some k' := hs.kept id k' hk'
    rw [he.key]
    split_ifs with hactive hdefault
    · subst hactive
      rcases h with hmatched | hnone
      · exact hk.symm.trans (hmatched.2.symm.trans hid)
      · exact absurd (hk'.symm.trans hnone) (by simp)
    · subst hdefault
      exact congrArg (fun o => some (o.getD k)) hid
    · exact hid

-- In a run that starts from a matched layout, has listings in matched states only and at most
-- one harmless failure, the switch keeps every slot, and stopping it anywhere does so exactly
-- where the layout is matched or the slot under the pointer had no key to lose.
theorem switch_keepsSlots (crates : Crates) (osError target : String) {s : Sidecar} (hmatched : Matched s)
    {turns : List Turn}
    (hcareful : Run.Each (advance (switching crates osError target)) (Careful (switching crates osError target))
      (start (switchIdentity crates target) s) turns) :
    let x := Run.run (advance (switching crates osError target)) (start (switchIdentity crates target) s) turns
    (x.returned = true → KeepsSlots s x.state) ∧
      (KeepsSlots s (restart crates osError x.state) ↔
        Matched x.state ∨ s.key x.state.active = none) := by
  obtain ⟨A, hA⟩ := Option.ne_none_iff_exists'.mp hmatched.1
  have hsound : Sound s.key A s.view := ⟨fun _ => .inl rfl, hA, hmatched.2.trans hA⟩
  have hstart : Safe (switching crates osError target) (fun x => Present s.key x.view)
      (fun r x f _ => Outcome s.key target r x f) (switchIdentity crates target) s false 0 :=
    switchIdentity_safe hsound
  have hsafe := Safe.of_careful hcareful hstart
  exact ⟨fun hreturned => by
    obtain ⟨r, houtcome⟩ := hsafe.of_returned hreturned
    exact ⟨houtcome.kept, houtcome.matched⟩, restart_keepsSlots_iff crates osError hsafe.here⟩

def markedKey (marker : UInt8) : Bytes := ⟨Array.replicate 64 marker⟩

def rnsIdentityOf (key : Bytes) : RnsIdentity :=
  ⟨key, "identity-" ++ toString (key.data.getD 0 0), "lxmf-" ++ toString (key.data.getD 0 0)⟩

def sampleCrates : Crates where
  toJson slotMeta := slotMeta.id.toUTF8
  fromJson bytes := (String.fromUTF8? bytes).map fun id => ⟨id, none, none, none⟩
  fromPrivateKey key :=
    if key.size = 64 then .ok (rnsIdentityOf key) else .error "invalid private key length"
  fromFile _ := .error "invalid private key length"

def sampleIdentity : StackIdentity := stackIdentityFromRns (rnsIdentityOf (markedKey 1)) none none

def twoSlots : Sidecar where
  config := {
    identity := some (markedKey 1)
    activeIdentity := some "default".toUTF8
    activeIdentityTemp := none
    slots := ((∅ : OrderedMap String Slot).set "default" ⟨some (markedKey 1), none⟩).set "alt"
      ⟨some (markedKey 2), none⟩ }
  identity := sampleIdentity
  saved := sampleIdentity

def switchToAlt (turns : List Turn) : Execution fileInterface Sidecar String Unit :=
  Run.run (advance (switching sampleCrates "Input/output error (os error 5)" "alt"))
    (start (switchIdentity sampleCrates "alt") twoSlots) turns

-- Two listings, and a state file that cannot be written once the target key is installed.
theorem switch_keepsSlots_unsaved :
    KeepsSlots twoSlots
      (switchToAlt (.interfere :: List.replicate 36 .call ++ .fail :: List.replicate 8 .call ++ [.interfere])).state :=
  (switch_keepsSlots sampleCrates "Input/output error (os error 5)" "alt" (by decide +kernel)
    (by decide +kernel)).1 (by decide +kernel)

def keysOf (s : Sidecar) : Option Bytes × String × Option Bytes × Option Bytes :=
  (s.working, s.active, s.key "default", s.key "alt")

-- Between the copy of the target key and the move of the pointer: a listing or a stop loses the
-- key of the old slot, and a rename that fails leaves the target key under the old pointer.
theorem switch_window_loses_key :
    let listed := switchToAlt (List.replicate 33 .call ++ .interfere :: List.replicate 6 .call)
    let stopped := restart sampleCrates "Input/output error (os error 5)"
      (switchToAlt (List.replicate 33 .call)).state
    let unmoved := switchToAlt (List.replicate 38 .call ++ [.fail, .call])
    let old := some (markedKey 1)
    let new := some (markedKey 2)
    Matched twoSlots ∧ keysOf twoSlots = (old, "default", old, new) ∧
      (listed.returned = true ∧ keysOf listed.state = (new, "alt", new, new) ∧
        ¬KeepsSlots twoSlots listed.state) ∧
      (keysOf stopped = (new, "default", new, new) ∧ ¬KeepsSlots twoSlots stopped) ∧
      (unmoved.returned = true ∧ keysOf unmoved.state = (new, "default", old, new) ∧
        ¬KeepsSlots twoSlots unmoved.state) := by
  intro listed stopped unmoved old new
  have hne : old ≠ new := by decide
  have hold : twoSlots.key "default" = old := by decide
  have hlisted : keysOf listed.state = (new, "alt", new, new) := by decide
  have hstopped : keysOf stopped = (new, "default", new, new) := by decide
  have hunmoved : keysOf unmoved.state = (new, "default", old, new) := by decide
  have hlost : ∀ {s : Sidecar}, s.key "default" = new → ¬KeepsSlots twoSlots s :=
    fun hnew hkeeps => hne ((hkeeps.1 "default" _ hold).symm.trans hnew)
  refine ⟨by decide, by decide, ⟨by decide, hlisted, hlost ?_⟩, ⟨hstopped, hlost ?_⟩,
    by decide, hunmoved, fun hkeeps => ?_⟩
  · simp only [keysOf, Prod.mk.injEq] at hlisted
    exact hlisted.2.2.1
  · simp only [keysOf, Prod.mk.injEq] at hstopped
    exact hstopped.2.2.1
  · simp only [keysOf, Prod.mk.injEq] at hunmoved
    obtain ⟨hworking, hactive, hdefault, _⟩ := hunmoved
    have hmatched := hkeeps.2.2
    rw [hactive, hdefault, hworking] at hmatched
    exact hne hmatched

end MeshClient.Identity
