import MeshClient.Lib.Run
import MeshClient.Secrets.Store

namespace MeshClient.Secrets

open Run

-- What a get returns while the keyring is there.
def SecretStore.visible (s : SecretStore) : Option String := s.session.or s.stored

-- The store beside what has been asked of it: the direct sets and the removes by the time they
-- were started, how sets and migrations ended, and which of them changed a value.
structure Audit where
  store : SecretStore
  starts : List Nat := []
  removes : List Nat := []
  sets : List (Nat × String) := []
  migrations : List Nat := []
  rejected : List Nat := []
  superseded : List Nat := []
  changed : List Nat := []
  overwritten : List Nat := []
  durable : Option String := none

def Audit.settle (a : Audit) : Settled → Audit
  | some (.set id value, .written persistent _) =>
      { a with sets := a.sets ++ [(id, value)], durable := if persistent then some value else none }
  | some (.set id _, .rejected error) =>
      { a with
        rejected := a.rejected ++ [id]
        superseded := if error = SUPERSEDED then a.superseded ++ [id] else a.superseded }
  | some (.migrate id, .written _ _) => { a with migrations := a.migrations ++ [id] }
  | some (.migrate id, .rejected _) => { a with rejected := a.rejected ++ [id] }
  | _ => a

-- What an answer to a set or a migration changes.
def Audit.note (a : Audit) (owner : Owner) (s : SecretStore) : Audit :=
  if s.session = a.store.session ∧ s.stored = a.store.stored then a
  else match owner with
    | .get _ => a
    | .set id _ => { a with changed := a.changed ++ [id] }
    | .migrate id =>
        { a with
          changed := a.changed ++ [id]
          overwritten := if a.store.visible = none then a.overwritten else a.overwritten ++ [id] }

def Audit.step (platform : Platform) (a : Audit) (event : Event) : Audit :=
  let next := a.store.step platform event
  match event with
  | .set value _ =>
      { a.settle next.2 with
        store := next.1
        starts := if validSecret value then a.starts ++ [a.store.clock] else a.starts }
  | .get => { a with store := next.1 }
  | .remove commits =>
      { a with
        store := next.1
        starts := a.starts ++ [a.store.clock]
        removes := if commits then a.removes ++ [a.store.clock] else a.removes
        durable := if commits then none else a.durable }
  | .migrate _ _ => { a.settle next.2 with store := next.1 }
  | .answered i _ _ =>
      match a.store.pending[i]? with
      | some await => { (a.note await.owner next.1).settle next.2 with store := next.1 }
      | none => a

-- The first outcome of a run.
def SecretStore.outcomeOf (platform : Platform) (s : SecretStore) : List Event → Settled
  | [] => none
  | event :: rest =>
      match (s.step platform event).2 with
      | some outcome => some outcome
      | none => SecretStore.outcomeOf platform (s.step platform event).1 rest

-- A get by itself, with the keyring available.
def SecretStore.Gets (platform : Platform) (s : SecretStore) (value : Option String) : Prop :=
  ∀ result result' shouldReEncrypt shouldReEncrypt' commits,
    (s.outcomeOf platform [.get, .answered 0 (.available true) true, .answered 0 (.decrypted result shouldReEncrypt) true,
      .answered 0 (.available true) true, .answered 0 .encrypted true,
      .answered 0 (.decrypted result' shouldReEncrypt') commits]).map Prod.snd = some (.value value)

-- The user's last change is what is stored, and nobody else's.
structure Audit.Honest (platform : Platform) (a : Audit) : Prop where
  rejected : ∀ id ∈ a.rejected, id ∉ a.changed
  latest : ∀ e ∈ a.sets, (∀ e' ∈ a.sets, e'.1 ≤ e.1) → (∀ r ∈ a.removes, r < e.1) → a.store.visible = some e.2
  removed : ∀ r ∈ a.removes, (∀ e ∈ a.sets, e.1 < r) → (∀ m ∈ a.migrations, m < r) → a.store.visible = none
  gets : a.store.pending = [] → a.store.Gets platform a.store.visible
  superseded : ∀ id ∈ a.superseded, ∃ t ∈ a.starts, id < t
  overwritten : a.overwritten = []
  durable : ∀ value, a.durable = some value → a.store.stored = some value

-- A write that is not a direct one takes effect where it changes nothing that is there.
def Write.Safe (s : SecretStore) (w : Write) (persistent : Bool) : Prop :=
  match w.writer with
  | .set _ => True
  | .migrate _ => s.session = none ∧ s.stored = none
  | .reEncrypt (.get _) =>
      (s.session = none ∧ s.stored = some w.value) ∨ (persistent = false ∧ s.session = some w.value)
  | .reEncrypt (.migrate _) =>
      if persistent then s.session = none ∧ s.stored = some w.value else s.session = some w.value

-- The symbol of a direct set that waits.
def Await.direct : Await → Option Nat
  | .available w | .encrypted w | .verified w =>
      match w.writer with
      | .set _ => w.mutation
      | _ => none
  | _ => none

def Answer.result : Answer → Option String
  | .decrypted result _ => some result
  | _ => none

def Await.Careful (s : SecretStore) (answer : Answer) (commits : Bool) : Await → Prop
  | .available w => answer = .available false → s.mutation = w.mutation → w.Safe s false
  | .verified w => answer.result = some w.value → s.mutation = w.mutation → commits = true → w.Safe s true
  | .found m none => answer = .returned → s.mutation = m.mutation → s.legacyRetired = false →
      validSecret m.plaintext = true → ∀ q ∈ s.pending, ∀ σ ∈ q.direct, s.mutation ≠ some σ
  | _ => True

def Audit.Careful (a : Audit) : Event → Prop
  | .answered i answer commits => ∀ q ∈ a.store.pending[i]?, q.Careful a.store answer commits
  | _ => True

-- What a call that waits knows of the symbol it goes by.
def Migration.Fits (mutation : Option Nat) (starts : List Nat) (clock : Nat) (m : Migration) : Prop :=
  (∀ σ ∈ m.mutation, σ < clock) ∧ (m.mutation = mutation → ∀ t ∈ starts, t < m.id)

def Caller.Fits (mutation : Option Nat) (starts : List Nat) (clock : Nat) : Caller → Prop
  | .get _ => True
  | .migrate m => m.Fits mutation starts clock

def Write.Fits (mutation : Option Nat) (starts : List Nat) (clock : Nat) (w : Write) : Prop :=
  match w.writer with
  | .set id => w.mutation = some id ∧ id ∈ starts ∧ (mutation ≠ some id → ∃ t ∈ starts, id < t)
  | .reEncrypt caller => caller.Fits mutation starts clock
  | .migrate m => (∃ σ, w.mutation = some σ ∧ σ < clock) ∧ (w.mutation = mutation → ∀ t ∈ starts, t < m.id)

def Await.Fits (mutation : Option Nat) (starts : List Nat) (clock : Nat) : Await → Prop
  | .available w | .encrypted w | .verified w => w.Fits mutation starts clock
  | .readable caller _ | .decrypted caller _ _ => caller.Fits mutation starts clock
  | .legacyAvailable m | .legacyDecrypted m | .found m _ => m.Fits mutation starts clock
  | .status _ _ => True

-- A call that has not ended.
structure Audit.Open (a : Audit) (id : Nat) : Prop where
  started : id < a.store.clock
  rejected : id ∉ a.rejected
  changed : id ∉ a.changed
  sets : id ∉ a.sets.map Prod.fst
  removes : id ∉ a.removes

structure Audit.Sound (a : Audit) : Prop where
  ids : (a.store.pending.map fun q => q.owner.id).Nodup
  opened : ∀ q ∈ a.store.pending, a.Open q.owner.id
  fits : ∀ q ∈ a.store.pending, q.Fits a.store.mutation a.starts a.store.clock
  symbol : ∀ σ ∈ a.store.mutation, σ < a.store.clock
  starts : ∀ t ∈ a.starts, ∃ σ, a.store.mutation = some σ ∧ t ≤ σ
  sets : ∀ e ∈ a.sets, e.1 ∈ a.starts
  removes : ∀ r ∈ a.removes, r ∈ a.starts
  rejected : ∀ id ∈ a.rejected, id < a.store.clock
  changed : ∀ id ∈ a.changed, id < a.store.clock

-- What holds of the values.
structure Audit.Kept (a : Audit) : Prop where
  rejected : ∀ id ∈ a.rejected, id ∉ a.changed
  latest : ∀ e ∈ a.sets, (∀ e' ∈ a.sets, e'.1 ≤ e.1) → (∀ r ∈ a.removes, r < e.1) → a.store.visible = some e.2
  removed : ∀ r ∈ a.removes, (∀ e ∈ a.sets, e.1 < r) → (∀ m ∈ a.migrations, m < r) → a.store.visible = none
  superseded : ∀ id ∈ a.superseded, ∃ t ∈ a.starts, id < t
  overwritten : a.overwritten = []
  durable : ∀ value, a.durable = some value → a.store.stored = some value

structure Audit.Good (a : Audit) : Prop where
  sound : a.Sound
  kept : a.Kept

section Fits

variable {mutation : Option Nat} {starts : List Nat} {clock : Nat}

theorem Migration.Fits.tick {m : Migration} (h : m.Fits mutation starts clock) : m.Fits mutation starts (clock + 1) :=
  ⟨fun σ hσ => (h.1 σ hσ).trans (Nat.lt_succ_self clock), h.2⟩

-- A new symbol is nobody's.
theorem Migration.Fits.renew {m : Migration} (h : m.Fits mutation starts clock) (starts' : List Nat) :
    m.Fits (some clock) starts' (clock + 1) := by
  refine ⟨fun σ hσ => (h.1 σ hσ).trans (Nat.lt_succ_self clock), fun heq => ?_⟩
  have hlt := h.1 clock heq
  omega

theorem Caller.Fits.tick {caller : Caller} (h : caller.Fits mutation starts clock) :
    caller.Fits mutation starts (clock + 1) := by
  cases caller with
  | get id => trivial
  | migrate m => exact Migration.Fits.tick h

theorem Caller.Fits.renew {caller : Caller} (h : caller.Fits mutation starts clock) (starts' : List Nat) :
    caller.Fits (some clock) starts' (clock + 1) := by
  cases caller with
  | get id => trivial
  | migrate m => exact Migration.Fits.renew h starts'

theorem Write.Fits.tick {w : Write} (h : w.Fits mutation starts clock) : w.Fits mutation starts (clock + 1) := by
  unfold Write.Fits at h ⊢
  cases hwriter : w.writer with
  | set id =>
      rw [hwriter] at h
      exact h
  | reEncrypt caller =>
      rw [hwriter] at h
      exact Caller.Fits.tick h
  | migrate m =>
      rw [hwriter] at h
      obtain ⟨⟨σ, hσ, hlt⟩, hlater⟩ := h
      exact ⟨⟨σ, hσ, hlt.trans (Nat.lt_succ_self clock)⟩, hlater⟩

-- A direct set or a remove supersedes the sets that wait.
theorem Write.Fits.supersede {w : Write} (h : w.Fits mutation starts clock) (hstarts : ∀ t ∈ starts, t < clock) :
    w.Fits (some clock) (starts ++ [clock]) (clock + 1) := by
  unfold Write.Fits at h ⊢
  cases hwriter : w.writer with
  | set id =>
      rw [hwriter] at h
      obtain ⟨hmutation, hmem, _⟩ := h
      exact ⟨hmutation, List.mem_append_left _ hmem, fun _ => ⟨clock, by simp, hstarts id hmem⟩⟩
  | reEncrypt caller =>
      rw [hwriter] at h
      exact Caller.Fits.renew h _
  | migrate m =>
      rw [hwriter] at h
      obtain ⟨⟨σ, hσ, hlt⟩, _⟩ := h
      refine ⟨⟨σ, hσ, hlt.trans (Nat.lt_succ_self clock)⟩, fun heq => ?_⟩
      rw [hσ] at heq
      obtain rfl := Option.some.inj heq
      omega

-- A migration that stores supersedes no set that is still current.
theorem Write.Fits.supplant {w : Write} (h : w.Fits mutation starts clock)
    (hdirect : ∀ id, w.writer = .set id → mutation ≠ some id) : w.Fits (some clock) starts (clock + 1) := by
  unfold Write.Fits at h ⊢
  cases hwriter : w.writer with
  | set id =>
      rw [hwriter] at h
      obtain ⟨hmutation, hmem, hlater⟩ := h
      exact ⟨hmutation, hmem, fun _ => hlater (hdirect id hwriter)⟩
  | reEncrypt caller =>
      rw [hwriter] at h
      exact Caller.Fits.renew h _
  | migrate m =>
      rw [hwriter] at h
      obtain ⟨⟨σ, hσ, hlt⟩, _⟩ := h
      refine ⟨⟨σ, hσ, hlt.trans (Nat.lt_succ_self clock)⟩, fun heq => ?_⟩
      rw [hσ] at heq
      obtain rfl := Option.some.inj heq
      omega

theorem Await.Fits.tick {q : Await} (h : q.Fits mutation starts clock) : q.Fits mutation starts (clock + 1) := by
  cases q with
  | available w | encrypted w | verified w => exact Write.Fits.tick h
  | readable caller _ | decrypted caller _ _ => exact Caller.Fits.tick h
  | legacyAvailable m | legacyDecrypted m | found m _ => exact Migration.Fits.tick h
  | status _ _ => trivial

theorem Await.Fits.supersede {q : Await} (h : q.Fits mutation starts clock) (hstarts : ∀ t ∈ starts, t < clock) :
    q.Fits (some clock) (starts ++ [clock]) (clock + 1) := by
  cases q with
  | available w | encrypted w | verified w => exact Write.Fits.supersede h hstarts
  | readable caller _ | decrypted caller _ _ => exact Caller.Fits.renew h _
  | legacyAvailable m | legacyDecrypted m | found m _ => exact Migration.Fits.renew h _
  | status _ _ => trivial

theorem Await.Fits.supplant {q : Await} (h : q.Fits mutation starts clock)
    (hdirect : ∀ σ ∈ q.direct, mutation ≠ some σ) : q.Fits (some clock) starts (clock + 1) := by
  have hwrite : ∀ w : Write, w.Fits mutation starts clock → q.direct = (Await.available w).direct →
      ∀ id, w.writer = .set id → mutation ≠ some id := by
    intro w hfits hsame id hwriter
    refine hdirect id ?_
    unfold Write.Fits at hfits
    rw [hwriter] at hfits
    rw [hsame]
    unfold Await.direct
    dsimp only
    rw [hwriter]
    exact hfits.1
  cases q with
  | available w | encrypted w | verified w => exact Write.Fits.supplant h (hwrite w h rfl)
  | readable caller _ | decrypted caller _ _ => exact Caller.Fits.renew h _
  | legacyAvailable m | legacyDecrypted m | found m _ => exact Migration.Fits.renew h _
  | status _ _ => trivial

end Fits

section Moves

variable {a : Audit} {i id : Nat} {q waiting : Await}

theorem Audit.Sound.started (h : a.Sound) : ∀ t ∈ a.starts, t < a.store.clock := by
  intro t ht
  obtain ⟨σ, hσ, hle⟩ := h.starts t ht
  exact hle.trans_lt (h.symbol σ hσ)

-- A call that is about to end, or to wait again.
structure Audit.Loose (a : Audit) (id : Nat) : Prop where
  opened : a.Open id
  alone : id ∉ a.store.pending.map fun q => q.owner.id

def Audit.drop (a : Audit) (i : Nat) : Audit := { a with store := { a.store with pending := a.store.pending.eraseIdx i } }

theorem Audit.Good.drop (h : a.Good) (hawait : a.store.pending[i]? = some waiting) :
    (a.drop i).Good ∧ (a.drop i).Loose waiting.owner.id ∧ waiting.Fits a.store.mutation a.starts a.store.clock := by
  have hmem := List.mem_of_getElem? hawait
  have hsub : ∀ q ∈ a.store.pending.eraseIdx i, q ∈ a.store.pending := fun q hq => List.mem_of_mem_eraseIdx hq
  obtain ⟨hsound, hkept⟩ := h
  have hopen := hsound.opened waiting hmem
  refine ⟨⟨⟨?_, fun q hq => ?_, fun q hq => hsound.fits q (hsub q hq), hsound.symbol, hsound.starts, hsound.sets,
    hsound.removes, hsound.rejected, hsound.changed⟩, ⟨hkept.rejected, hkept.latest, hkept.removed, hkept.superseded,
    hkept.overwritten, hkept.durable⟩⟩, ⟨⟨hopen.started, hopen.rejected, hopen.changed, hopen.sets, hopen.removes⟩, ?_⟩,
    hsound.fits waiting hmem⟩
  · exact hsound.ids.sublist ((List.eraseIdx_sublist _ _).map _)
  · obtain ⟨hstarted, hrejected, hchanged, hsets, hremoves⟩ := hsound.opened q (hsub q hq)
    exact ⟨hstarted, hrejected, hchanged, hsets, hremoves⟩
  · obtain ⟨hlt, heq⟩ := List.getElem?_eq_some_iff.mp hawait
    have hperm := List.getElem_cons_eraseIdx_perm hlt
    rw [heq] at hperm
    have hnodup := (hperm.map fun q => q.owner.id).nodup_iff.mpr hsound.ids
    exact (List.nodup_cons.mp hnodup).1

theorem Audit.Good.await (h : a.Good) (hloose : a.Loose q.owner.id)
    (hfits : q.Fits a.store.mutation a.starts a.store.clock) : Audit.Good { a with store := a.store.await q } := by
  obtain ⟨hsound, hkept⟩ := h
  refine ⟨⟨?_, fun p hp => ?_, fun p hp => ?_, hsound.symbol, hsound.starts, hsound.sets, hsound.removes,
    hsound.rejected, hsound.changed⟩, ⟨hkept.rejected, hkept.latest, hkept.removed, hkept.superseded,
    hkept.overwritten, hkept.durable⟩⟩
  · change ((a.store.pending ++ [q]).map fun q => q.owner.id).Nodup
    rw [List.map_append, List.map_singleton]
    refine hsound.ids.append (List.nodup_singleton _) ?_
    rw [List.disjoint_singleton]
    exact hloose.alone
  · rcases List.mem_append.mp hp with hp | hp
    · obtain ⟨hstarted, hrejected, hchanged, hsets, hremoves⟩ := hsound.opened p hp
      exact ⟨hstarted, hrejected, hchanged, hsets, hremoves⟩
    · obtain rfl := List.mem_singleton.mp hp
      obtain ⟨hstarted, hrejected, hchanged, hsets, hremoves⟩ := hloose.opened
      exact ⟨hstarted, hrejected, hchanged, hsets, hremoves⟩
  · rcases List.mem_append.mp hp with hp | hp
    · exact hsound.fits p hp
    · obtain rfl := List.mem_singleton.mp hp
      exact hfits

-- A new call takes the next number.
theorem Audit.Good.tick (h : a.Good) :
    Audit.Good { a with store := { a.store with clock := a.store.clock + 1 } } ∧
    Audit.Loose { a with store := { a.store with clock := a.store.clock + 1 } } a.store.clock := by
  obtain ⟨hsound, hkept⟩ := h
  have hstarted := hsound.started
  refine ⟨⟨⟨hsound.ids, fun q hq => ?_, fun q hq => (hsound.fits q hq).tick, fun σ hσ => ?_, hsound.starts, hsound.sets,
    hsound.removes, fun id hid => ?_, fun id hid => ?_⟩, ⟨hkept.rejected, hkept.latest, hkept.removed,
    hkept.superseded, hkept.overwritten, hkept.durable⟩⟩, ⟨⟨Nat.lt_succ_self _, fun hmem => ?_, fun hmem => ?_,
    fun hmem => ?_, fun hmem => ?_⟩, fun hmem => ?_⟩⟩
  · obtain ⟨hlt, hrejected, hchanged, hsets, hremoves⟩ := hsound.opened q hq
    exact ⟨hlt.trans (Nat.lt_succ_self _), hrejected, hchanged, hsets, hremoves⟩
  · exact (hsound.symbol σ hσ).trans (Nat.lt_succ_self _)
  · exact (hsound.rejected id hid).trans (Nat.lt_succ_self _)
  · exact (hsound.changed id hid).trans (Nat.lt_succ_self _)
  · exact absurd (hsound.rejected _ hmem) (lt_irrefl _)
  · exact absurd (hsound.changed _ hmem) (lt_irrefl _)
  · obtain ⟨e, he, heq⟩ := List.mem_map.mp hmem
    have hlt := hstarted e.1 (hsound.sets e he)
    exact absurd (heq ▸ hlt) (lt_irrefl _)
  · exact absurd (hstarted _ (hsound.removes _ hmem)) (lt_irrefl _)
  · obtain ⟨q, hq, heq⟩ := List.mem_map.mp hmem
    have hlt := (hsound.opened q hq).started
    exact absurd (heq ▸ hlt) (lt_irrefl _)

-- A set or a migration that has changed nothing rejects.
theorem Audit.Good.reject (h : a.Good) (hloose : a.Loose id) (more : List Nat)
    (hmore : ∀ other ∈ more, ∃ t ∈ a.starts, other < t) :
    Audit.Good { a with rejected := a.rejected ++ [id], superseded := a.superseded ++ more } := by
  obtain ⟨hsound, hkept⟩ := h
  refine ⟨⟨hsound.ids, fun q hq => ?_, hsound.fits, hsound.symbol, hsound.starts, hsound.sets, hsound.removes,
    fun other hother => ?_, hsound.changed⟩, ⟨fun other hother => ?_, hkept.latest, hkept.removed, fun other hother => ?_,
    hkept.overwritten, hkept.durable⟩⟩
  · obtain ⟨hlt, hrejected, hchanged, hsets, hremoves⟩ := hsound.opened q hq
    refine ⟨hlt, fun hmem => ?_, hchanged, hsets, hremoves⟩
    rcases List.mem_append.mp hmem with hmem | hmem
    · exact hrejected hmem
    · exact hloose.alone (List.mem_map.mpr ⟨q, hq, List.mem_singleton.mp hmem⟩)
  · rcases List.mem_append.mp hother with hother | hother
    · exact hsound.rejected other hother
    · exact List.mem_singleton.mp hother ▸ hloose.opened.started
  · rcases List.mem_append.mp hother with hother | hother
    · exact hkept.rejected other hother
    · exact List.mem_singleton.mp hother ▸ hloose.opened.changed
  · rcases List.mem_append.mp hother with hother | hother
    · exact hkept.superseded other hother
    · exact hmore other hother

-- A migration resolves.
theorem Audit.Good.resolve (h : a.Good) (id : Nat) : Audit.Good { a with migrations := a.migrations ++ [id] } := by
  obtain ⟨hsound, hkept⟩ := h
  refine ⟨⟨hsound.ids, fun q hq => ?_, hsound.fits, hsound.symbol, hsound.starts, hsound.sets, hsound.removes,
    hsound.rejected, hsound.changed⟩, ⟨hkept.rejected, hkept.latest, fun r hr hsets hmigrations => ?_, hkept.superseded,
    hkept.overwritten, hkept.durable⟩⟩
  · obtain ⟨hlt, hrejected, hchanged, hsets, hremoves⟩ := hsound.opened q hq
    exact ⟨hlt, hrejected, hchanged, hsets, hremoves⟩
  · exact hkept.removed r hr hsets fun m hm => hmigrations m (List.mem_append_left _ hm)

-- How a call ends that writes nothing in its last step.
def Ends (a : Audit) (owner : Owner) (outcome : Outcome) : Prop :=
  ∀ id value, owner = .set id value → ∃ error, outcome = .rejected error ∧
    (error = SUPERSEDED → ∃ t ∈ a.starts, id < t)

theorem Audit.Good.end' {owner : Owner} {outcome : Outcome} (h : a.Good) (hloose : a.Loose owner.id)
    (hends : Ends a owner outcome) : (a.settle (some (owner, outcome))).Good := by
  cases owner with
  | get id => exact h
  | set id value =>
      obtain ⟨error, rfl, hlater⟩ := hends id value rfl
      unfold Audit.settle
      dsimp only
      split_ifs with herror
      · exact h.reject hloose [id] fun other hother => List.mem_singleton.mp hother ▸ hlater herror
      · have hrejected := h.reject hloose [] (by simp)
        rw [List.append_nil] at hrejected
        exact hrejected
  | migrate id =>
      cases outcome with
      | written persistent verified => exact h.resolve id
      | value value => exact h
      | rejected error =>
          have hrejected := h.reject hloose [] (by simp)
          rw [List.append_nil] at hrejected
          exact hrejected

-- A write takes effect in the database, or in the session while there is no keyring.
def SecretStore.apply (s : SecretStore) (w : Write) (persistent : Bool) : SecretStore :=
  if persistent then
    { s with stored := some w.value, legacyRetired := s.legacyRetired || w.retireLegacy, session := none }
  else { s with session := some w.value }

theorem apply_rest (s : SecretStore) (w : Write) (persistent : Bool) :
    (s.apply w persistent).mutation = s.mutation ∧ (s.apply w persistent).clock = s.clock ∧
    (s.apply w persistent).pending = s.pending ∧ (s.apply w persistent).visible = some w.value := by
  cases persistent with
  | true => exact ⟨rfl, rfl, rfl, rfl⟩
  | false => exact ⟨rfl, rfl, rfl, rfl⟩

variable {w : Write} {persistent : Bool} {more : List Nat}

theorem Audit.Sound.apply (h : a.Sound) (hloose : a.Loose id) (hmore : ∀ other ∈ more, other = id)
    (written : List (Nat × String)) (hwritten : ∀ e ∈ written, e.1 = id ∧ id ∈ a.starts) (migrations : List Nat)
    (durable : Option String) :
    Audit.Sound { a with
      store := a.store.apply w persistent, changed := a.changed ++ more, sets := a.sets ++ written
      migrations := migrations, durable := durable } := by
  obtain ⟨hmutation, hclock, hpending, -⟩ := apply_rest a.store w persistent
  refine ⟨?_, fun q hq => ?_, fun q hq => ?_, fun σ hσ => ?_, fun t ht => ?_, fun e he => ?_, h.removes,
    fun other hother => ?_, fun other hother => ?_⟩
  · rw [hpending]
    exact h.ids
  · rw [hpending] at hq
    obtain ⟨hlt, hrejected, hchanged, hsets, hremoves⟩ := h.opened q hq
    have hne : q.owner.id ≠ id := fun heq => hloose.alone (List.mem_map.mpr ⟨q, hq, heq⟩)
    refine ⟨hclock ▸ hlt, hrejected, fun hmem => ?_, fun hmem => ?_, hremoves⟩
    · rcases List.mem_append.mp hmem with hmem | hmem
      · exact hchanged hmem
      · exact hne (hmore _ hmem)
    · rw [List.map_append] at hmem
      rcases List.mem_append.mp hmem with hmem | hmem
      · exact hsets hmem
      · obtain ⟨e, he, heq⟩ := List.mem_map.mp hmem
        exact hne (heq.symm.trans (hwritten e he).1)
  · rw [hpending] at hq
    rw [hmutation, hclock]
    exact h.fits q hq
  · rw [hmutation] at hσ
    exact hclock ▸ h.symbol σ hσ
  · obtain ⟨σ, hσ, hle⟩ := h.starts t ht
    exact ⟨σ, hmutation.trans hσ, hle⟩
  · rcases List.mem_append.mp he with he | he
    · exact h.sets e he
    · exact (hwritten e he).1 ▸ (hwritten e he).2
  · exact hclock ▸ h.rejected other hother
  · rcases List.mem_append.mp hother with hother | hother
    · exact hclock ▸ h.changed other hother
    · exact hmore other hother ▸ hclock ▸ hloose.opened.started

-- The set that goes by the current symbol is the last one that was started.
theorem Audit.Good.commit (h : a.Good) (hloose : a.Loose id) (hcurrent : a.store.mutation = some id)
    (hstarted : id ∈ a.starts) (hmore : ∀ other ∈ more, other = id) :
    Audit.Good { a with
      store := a.store.apply w persistent, changed := a.changed ++ more, sets := a.sets ++ [(id, w.value)]
      durable := if persistent then some w.value else none } := by
  obtain ⟨hsound, hkept⟩ := h
  have hlast : ∀ t ∈ a.starts, t ≤ id := by
    intro t ht
    obtain ⟨σ, hσ, hle⟩ := hsound.starts t ht
    rw [hcurrent] at hσ
    exact Option.some.inj hσ ▸ hle
  have hvisible := (apply_rest a.store w persistent).2.2.2
  refine ⟨?_, ⟨fun other hother hmem => ?_, fun e he hmax hremoved => ?_, fun r hr hsets _ => ?_, hkept.superseded,
    hkept.overwritten, fun value hvalue => ?_⟩⟩
  · exact hsound.apply hloose hmore [(id, w.value)] (by simpa using hstarted) a.migrations _
  · rcases List.mem_append.mp hmem with hmem | hmem
    · exact hkept.rejected other hother hmem
    · exact hloose.opened.rejected (hmore other hmem ▸ hother)
  · rcases List.mem_append.mp he with he | he
    · have hle : id ≤ e.1 := hmax (id, w.value) (by simp)
      have hsame : e.1 = id := le_antisymm (hlast _ (hsound.sets e he)) hle
      exact absurd (List.mem_map.mpr ⟨e, he, hsame⟩) hloose.opened.sets
    · obtain rfl := List.mem_singleton.mp he
      exact hvisible
  · have hlt : id < r := hsets (id, w.value) (by simp)
    have hle := hlast r (hsound.removes r hr)
    omega
  · cases persistent with
    | true => exact hvalue
    | false => cases hvalue

-- A migration writes where there was nothing.
theorem Audit.Good.import' (h : a.Good) (hloose : a.Loose id) (hnone : a.store.session = none ∧ a.store.stored = none)
    (hlater : ∀ t ∈ a.starts, t < id) (hmore : ∀ other ∈ more, other = id) :
    Audit.Good { a with
      store := a.store.apply w persistent, changed := a.changed ++ more, migrations := a.migrations ++ [id] } := by
  obtain ⟨hsound, hkept⟩ := h
  have hvisible : a.store.visible = none := by
    unfold SecretStore.visible
    rw [hnone.1, hnone.2]
    rfl
  refine ⟨?_, ⟨fun other hother hmem => ?_, fun e he hmax hremoved => ?_, fun r hr _ hmigrations => ?_,
    hkept.superseded, hkept.overwritten, fun value hvalue => ?_⟩⟩
  · have happlied := @Audit.Sound.apply a id w persistent more hsound hloose hmore [] (by simp) (a.migrations ++ [id])
      a.durable
    rw [List.append_nil] at happlied
    exact happlied
  · rcases List.mem_append.mp hmem with hmem | hmem
    · exact hkept.rejected other hother hmem
    · exact hloose.opened.rejected (hmore other hmem ▸ hother)
  · have hbefore := hkept.latest e he hmax hremoved
    rw [hvisible] at hbefore
    cases hbefore
  · have hlt : id < r := hmigrations id (by simp)
    have hlt' := hlater r (hsound.removes r hr)
    omega
  · have hbefore := hkept.durable value hvalue
    rw [hnone.2] at hbefore
    cases hbefore

-- A get that re-encrypts keeps the value in the session as well.
theorem Audit.Good.remember {value : String} (h : a.Good)
    (hsafe : a.store.session = none ∧ a.store.stored = some value) :
    Audit.Good { a with store := { a.store with session := some value } } := by
  obtain ⟨hsound, hkept⟩ := h
  have hvisible : a.store.visible = some value := by
    unfold SecretStore.visible
    rw [hsafe.1, hsafe.2]
    rfl
  refine ⟨⟨hsound.ids, fun q hq => ?_, hsound.fits, hsound.symbol, hsound.starts, hsound.sets, hsound.removes,
    hsound.rejected, hsound.changed⟩, ⟨hkept.rejected, fun e he hmax hremoved => ?_, fun r hr hsets hmigrations => ?_,
    hkept.superseded, hkept.overwritten, hkept.durable⟩⟩
  · obtain ⟨hlt, hrejected, hchanged, hsets, hremoves⟩ := hsound.opened q hq
    exact ⟨hlt, hrejected, hchanged, hsets, hremoves⟩
  · have hbefore := hkept.latest e he hmax hremoved
    rw [hvisible] at hbefore
    exact hbefore
  · have hbefore := hkept.removed r hr hsets hmigrations
    rw [hvisible] at hbefore
    cases hbefore

theorem Audit.Good.remove (h : a.Good) (commits : Bool) :
    Audit.Good { a with
      store := a.store.remove commits
      starts := a.starts ++ [a.store.clock]
      removes := if commits then a.removes ++ [a.store.clock] else a.removes
      durable := if commits then none else a.durable } := by
  obtain ⟨hsound, hkept⟩ := h
  have hstarted := hsound.started
  have hrest : (a.store.remove commits).mutation = some a.store.clock ∧
      (a.store.remove commits).clock = a.store.clock + 1 ∧ (a.store.remove commits).pending = a.store.pending := by
    cases commits with
    | true => exact ⟨rfl, rfl, rfl⟩
    | false => exact ⟨rfl, rfl, rfl⟩
  obtain ⟨hmutation, hclock, hpending⟩ := hrest
  refine ⟨⟨?_, fun q hq => ?_, fun q hq => ?_, fun σ hσ => ?_, fun t ht => ?_, fun e he => ?_, fun r hr => ?_,
    fun id hid => ?_, fun id hid => ?_⟩, ⟨hkept.rejected, fun e he hmax hremoved => ?_, fun r hr hsets hmigrations => ?_,
    fun id hid => ?_, hkept.overwritten, fun value hvalue => ?_⟩⟩
  · rw [hpending]
    exact hsound.ids
  · rw [hpending] at hq
    obtain ⟨hlt, hrejected, hchanged, hsets, hremoves⟩ := hsound.opened q hq
    refine ⟨hclock ▸ hlt.trans (Nat.lt_succ_self _), hrejected, hchanged, hsets, ?_⟩
    dsimp only
    split_ifs
    · rw [List.mem_append, List.mem_singleton, not_or]
      exact ⟨hremoves, hlt.ne⟩
    · exact hremoves
  · rw [hpending] at hq
    rw [hmutation, hclock]
    exact (hsound.fits q hq).supersede hstarted
  · rw [hmutation] at hσ
    obtain rfl := Option.some.inj hσ
    rw [hclock]
    exact Nat.lt_succ_self _
  · refine ⟨a.store.clock, hmutation, ?_⟩
    rcases List.mem_append.mp ht with ht | ht
    · exact (hstarted t ht).le
    · exact (List.mem_singleton.mp ht).le
  · exact List.mem_append_left _ (hsound.sets e he)
  · dsimp only at hr
    split_ifs at hr
    · rcases List.mem_append.mp hr with hr | hr
      · exact List.mem_append_left _ (hsound.removes r hr)
      · exact List.mem_append_right _ hr
    · exact List.mem_append_left _ (hsound.removes r hr)
  · exact hclock ▸ (hsound.rejected id hid).trans (Nat.lt_succ_self _)
  · exact hclock ▸ (hsound.changed id hid).trans (Nat.lt_succ_self _)
  · cases commits with
    | true =>
        have hlt := hstarted _ (hsound.sets e he)
        have hgt : a.store.clock < e.1 := hremoved _ (by simp)
        omega
    | false => exact hkept.latest e he hmax hremoved
  · cases commits with
    | true => rfl
    | false => exact hkept.removed r hr hsets hmigrations
  · obtain ⟨t, ht, hlt⟩ := hkept.superseded id hid
    exact ⟨t, List.mem_append_left _ ht, hlt⟩
  · cases commits with
    | true => cases hvalue
    | false => exact hkept.durable value hvalue

-- A migration takes the symbol where no direct set goes by it.
theorem Audit.Good.supplant (h : a.Good) (hfree : ∀ q ∈ a.store.pending, ∀ σ ∈ q.direct, a.store.mutation ≠ some σ) :
    Audit.Good { a with store := { a.store with mutation := some a.store.clock, clock := a.store.clock + 1 } } := by
  obtain ⟨hsound, hkept⟩ := h
  refine ⟨⟨hsound.ids, fun q hq => ?_, fun q hq => (hsound.fits q hq).supplant (hfree q hq), fun σ hσ => ?_,
    fun t ht => ⟨a.store.clock, rfl, (hsound.started t ht).le⟩, hsound.sets, hsound.removes,
    fun id hid => (hsound.rejected id hid).trans (Nat.lt_succ_self _),
    fun id hid => (hsound.changed id hid).trans (Nat.lt_succ_self _)⟩,
    ⟨hkept.rejected, hkept.latest, hkept.removed, hkept.superseded, hkept.overwritten, hkept.durable⟩⟩
  · obtain ⟨hlt, hrejected, hchanged, hsets, hremoves⟩ := hsound.opened q hq
    exact ⟨hlt.trans (Nat.lt_succ_self _), hrejected, hchanged, hsets, hremoves⟩
  · obtain rfl := Option.some.inj hσ
    exact Nat.lt_succ_self _

end Moves

section Resume

variable {platform : Platform} {s s' : SecretStore} {waiting : Await} {answer : Answer} {commits : Bool}
variable {settled : Settled}

-- The call waits again, as the same call.
def Waits (s s' : SecretStore) (waiting : Await) (settled : Settled) : Prop :=
  ∃ q, s' = s.await q ∧ settled = none ∧ q.owner.id = waiting.owner.id ∧
    ∀ starts clock, waiting.Fits s.mutation starts clock → q.Fits s.mutation starts clock

-- The call ends without a write.
def Stops (s s' : SecretStore) (waiting : Await) (settled : Settled) : Prop :=
  s' = s ∧ ∃ outcome, settled = some (waiting.owner, outcome) ∧
    ∀ starts clock, waiting.Fits s.mutation starts clock → ∀ id value, waiting.owner = .set id value →
      ∃ error, outcome = .rejected error ∧ (error = SUPERSEDED → ∃ t ∈ starts, id < t)

-- A migration that found nothing starts to store.
def Imports (s s' : SecretStore) (waiting : Await) (answer : Answer) (settled : Settled) : Prop :=
  ∃ m, waiting = .found m none ∧ answer = .returned ∧ s.mutation = m.mutation ∧ s.legacyRetired = false ∧
    validSecret m.plaintext = true ∧ settled = none ∧
    s' = { s with mutation := some s.clock, clock := s.clock + 1 }.await
      (.available ⟨.migrate m, m.plaintext, false, true, some s.clock⟩)

-- A write takes effect.
def Writes (s s' : SecretStore) (waiting : Await) (answer : Answer) (commits : Bool) (settled : Settled) : Prop :=
  ∃ w persistent, s.mutation = w.mutation ∧
    (s', settled) = (s.apply w persistent).finishWrite w (.written persistent true) ∧
    ((waiting = .available w ∧ answer = .available false ∧ persistent = false) ∨
      (waiting = .verified w ∧ commits = true ∧ persistent = true ∧
        ∃ shouldReEncrypt, answer = .decrypted w.value shouldReEncrypt))

theorem finishRead_cases {caller : Caller} {existing : Option String} (howner : waiting.owner = caller.owner)
    (hfits : ∀ starts clock, waiting.Fits s.mutation starts clock → caller.Fits s.mutation starts clock)
    (h : s.finishRead caller existing = (s', settled)) : Waits s s' waiting settled ∨ Stops s s' waiting settled := by
  cases caller with
  | get id =>
      obtain ⟨rfl, rfl⟩ := Prod.ext_iff.mp h
      refine Or.inr ⟨rfl, _, by rw [howner]; rfl, ?_⟩
      intro starts clock _ other value hset
      rw [howner] at hset
      cases hset
  | migrate m =>
      obtain ⟨rfl, rfl⟩ := Prod.ext_iff.mp h
      exact Or.inl ⟨.found m existing, rfl, rfl, by rw [howner]; rfl, hfits⟩

-- A write that fails.
theorem finishWrite_cases {w : Write} {error : String} (howner : waiting.owner = w.owner)
    (hfits : ∀ starts clock, waiting.Fits s.mutation starts clock → w.Fits s.mutation starts clock)
    (hsuperseded : error = SUPERSEDED → s.mutation ≠ w.mutation)
    (h : s.finishWrite w (.rejected error) = (s', settled)) : Waits s s' waiting settled ∨ Stops s s' waiting settled := by
  unfold SecretStore.finishWrite at h
  unfold Write.Fits at hfits
  cases hwriter : w.writer with
  | set id =>
      rw [hwriter] at h hfits
      obtain ⟨rfl, rfl⟩ := Prod.ext_iff.mp h
      refine Or.inr ⟨rfl, .rejected error, by rw [howner], ?_⟩
      intro starts clock hwaiting other value hset
      refine ⟨error, rfl, fun herror => ?_⟩
      obtain ⟨hmutation, _, hlater⟩ := hfits starts clock hwaiting
      have hid : id = other := by
        rw [howner, Write.owner, hwriter] at hset
        cases hset
        rfl
      refine hid ▸ hlater ?_
      rw [← hmutation]
      exact hsuperseded herror
  | reEncrypt caller =>
      rw [hwriter] at h hfits
      refine finishRead_cases ?_ hfits h
      rw [howner, Write.owner, hwriter]
  | migrate m =>
      rw [hwriter] at h
      obtain ⟨rfl, rfl⟩ := Prod.ext_iff.mp h
      refine Or.inr ⟨rfl, .rejected error, by rw [howner], ?_⟩
      intro starts clock _ other value hset
      rw [howner, Write.owner, hwriter] at hset
      cases hset

theorem stops_migrate {m : Migration} {outcome : Outcome} (howner : waiting.owner = .migrate m.id) :
    Stops s s waiting (some (.migrate m.id, outcome)) := by
  refine ⟨rfl, outcome, by rw [howner], fun starts clock _ id value hset => ?_⟩
  rw [howner] at hset
  cases hset

theorem importFound_cases {m : Migration} {existing : Option String}
    (h : s.importFound platform m existing = (s', settled)) :
    Waits s s' (.found m existing) settled ∨ Stops s s' (.found m existing) settled ∨
      Imports s s' (.found m existing) .returned settled := by
  unfold SecretStore.importFound at h
  by_cases hchanged : s.mutation ≠ m.mutation ∨ (existing = none ∧ s.legacyRetired = true)
  · rw [if_pos hchanged] at h
    obtain ⟨rfl, rfl⟩ := Prod.ext_iff.mp h
    exact Or.inl ⟨.status m false, rfl, rfl, rfl, fun _ _ _ => trivial⟩
  · rw [if_neg hchanged] at h
    rw [not_or, not_not] at hchanged
    cases existing with
    | some existing =>
        dsimp only at h
        cases hagrees : m.legacy.agrees platform m.plaintext existing with
        | error error =>
            rw [hagrees] at h
            obtain ⟨rfl, rfl⟩ := Prod.ext_iff.mp h
            exact Or.inr (Or.inl (stops_migrate rfl))
        | ok _ =>
            rw [hagrees] at h
            obtain ⟨rfl, rfl⟩ := Prod.ext_iff.mp h
            exact Or.inl ⟨.status m true, rfl, rfl, rfl, fun _ _ _ => trivial⟩
    | none =>
        dsimp only at h
        split_ifs at h with hvalid
        · obtain ⟨rfl, rfl⟩ := Prod.ext_iff.mp h
          refine Or.inr (Or.inr ⟨m, rfl, rfl, hchanged.1, ?_, hvalid, rfl, rfl⟩)
          simpa using hchanged.2
        · obtain ⟨rfl, rfl⟩ := Prod.ext_iff.mp h
          exact Or.inr (Or.inl (stops_migrate rfl))

theorem startRead_cases {caller : Caller} (howner : waiting.owner = caller.owner)
    (hfits : ∀ starts clock, waiting.Fits s.mutation starts clock → caller.Fits s.mutation starts clock)
    (h : s.startRead caller = (s', settled)) : Waits s s' waiting settled ∨ Stops s s' waiting settled := by
  unfold SecretStore.startRead at h
  cases hsession : s.session with
  | some value =>
      rw [hsession] at h
      exact finishRead_cases howner hfits h
  | none =>
      rw [hsession] at h
      obtain ⟨rfl, rfl⟩ := Prod.ext_iff.mp h
      exact Or.inl ⟨.readable caller s.mutation, rfl, rfl, by rw [howner]; rfl, hfits⟩

-- What an answer can lead to.
theorem resume_cases (h : s.resume platform waiting answer commits = some (s', settled)) :
    Waits s s' waiting settled ∨ Stops s s' waiting settled ∨ Imports s s' waiting answer settled ∨
      Writes s s' waiting answer commits settled := by
  have hcases : Waits s s' waiting settled ∨ Stops s s' waiting settled →
      Waits s s' waiting settled ∨ Stops s s' waiting settled ∨ Imports s s' waiting answer settled ∨
        Writes s s' waiting answer commits settled := by
    rintro (hwaits | hstops)
    · exact Or.inl hwaits
    · exact Or.inr (Or.inl hstops)
  cases waiting with
  | available w =>
      cases answer with
      | available yes =>
          have h := Option.some.inj h
          split_ifs at h with hyes hmutation hpersistent
          · obtain ⟨rfl, rfl⟩ := Prod.ext_iff.mp h
            exact Or.inl ⟨.encrypted w, rfl, rfl, rfl, fun _ _ hfits => hfits⟩
          · exact hcases (finishWrite_cases rfl (fun _ _ hfits => hfits) (fun _ => hmutation) h)
          · exact hcases (finishWrite_cases rfl (fun _ _ hfits => hfits) (fun heq => absurd heq (by decide)) h)
          · rw [not_not] at hmutation
            refine Or.inr (Or.inr (Or.inr ⟨w, false, hmutation, h.symm, Or.inl ⟨rfl, ?_, rfl⟩⟩))
            rw [Bool.not_eq_true] at hyes
            rw [hyes]
      | encrypted | decrypted _ _ | failed | returned => cases h
  | encrypted w =>
      cases answer with
      | encrypted =>
          obtain ⟨rfl, rfl⟩ := Prod.ext_iff.mp (Option.some.inj h)
          exact Or.inl ⟨.verified w, rfl, rfl, rfl, fun _ _ hfits => hfits⟩
      | failed =>
          exact hcases (finishWrite_cases rfl (fun _ _ hfits => hfits) (fun heq => absurd heq (by decide))
            (Option.some.inj h))
      | available _ | decrypted _ _ | returned => cases h
  | verified w =>
      cases answer with
      | failed =>
          exact hcases (finishWrite_cases rfl (fun _ _ hfits => hfits) (fun heq => absurd heq (by decide))
            (Option.some.inj h))
      | decrypted result shouldReEncrypt =>
          have h := Option.some.inj h
          split_ifs at h with hresult hmutation hcommits
          · exact hcases (finishWrite_cases rfl (fun _ _ hfits => hfits) (fun heq => absurd heq (by decide)) h)
          · exact hcases (finishWrite_cases rfl (fun _ _ hfits => hfits) (fun _ => hmutation) h)
          · rw [not_not] at hresult hmutation
            exact Or.inr (Or.inr (Or.inr ⟨w, true, hmutation, h.symm,
              Or.inr ⟨rfl, hcommits, rfl, shouldReEncrypt, hresult ▸ rfl⟩⟩))
          · exact hcases (finishWrite_cases rfl (fun _ _ hfits => hfits) (fun heq => absurd heq (by decide)) h)
      | available _ | encrypted | returned => cases h
  | readable caller mutation =>
      cases answer with
      | available yes =>
          have h := Option.some.inj h
          cases hread : (if yes then s.stored else none) with
          | none =>
              rw [hread] at h
              exact hcases (finishRead_cases rfl (fun _ _ hfits => hfits) h)
          | some value =>
              rw [hread] at h
              obtain ⟨rfl, rfl⟩ := Prod.ext_iff.mp h
              exact Or.inl ⟨.decrypted caller mutation value, rfl, rfl, rfl, fun _ _ hfits => hfits⟩
      | encrypted | decrypted _ _ | failed | returned => cases h
  | decrypted caller mutation value =>
      cases answer with
      | failed => exact hcases (finishRead_cases rfl (fun _ _ hfits => hfits) (Option.some.inj h))
      | decrypted result shouldReEncrypt =>
          have h := Option.some.inj h
          split_ifs at h
          · obtain ⟨rfl, rfl⟩ := Prod.ext_iff.mp h
            exact Or.inl ⟨_, rfl, rfl, rfl, fun _ _ hfits => hfits⟩
          · exact hcases (finishRead_cases rfl (fun _ _ hfits => hfits) h)
      | available _ | encrypted | returned => cases h
  | legacyAvailable m =>
      cases answer with
      | available yes =>
          have h := Option.some.inj h
          split_ifs at h
          · obtain ⟨rfl, rfl⟩ := Prod.ext_iff.mp h
            exact Or.inl ⟨.legacyDecrypted m, rfl, rfl, rfl, fun _ _ hfits => hfits⟩
          · obtain ⟨rfl, rfl⟩ := Prod.ext_iff.mp h
            exact Or.inr (Or.inl (stops_migrate rfl))
      | encrypted | decrypted _ _ | failed | returned => cases h
  | legacyDecrypted m =>
      cases answer with
      | failed =>
          obtain ⟨rfl, rfl⟩ := Prod.ext_iff.mp (Option.some.inj h)
          exact Or.inr (Or.inl (stops_migrate rfl))
      | decrypted plaintext shouldReEncrypt =>
          have h := Option.some.inj h
          cases hcheck : m.legacy.check platform plaintext with
          | error error =>
              rw [hcheck] at h
              obtain ⟨rfl, rfl⟩ := Prod.ext_iff.mp h
              exact Or.inr (Or.inl (stops_migrate rfl))
          | ok _ =>
              rw [hcheck] at h
              refine hcases (startRead_cases ?_ ?_ h)
              · rfl
              · exact fun _ _ hfits => hfits
      | available _ | encrypted | returned => cases h
  | found m existing =>
      cases answer with
      | returned =>
          rcases importFound_cases (Option.some.inj h) with hwaits | hstops | himports
          · exact Or.inl hwaits
          · exact Or.inr (Or.inl hstops)
          · exact Or.inr (Or.inr (Or.inl himports))
      | available _ | encrypted | decrypted _ _ | failed => cases h
  | status m verified =>
      cases answer with
      | available yes =>
          obtain ⟨rfl, rfl⟩ := Prod.ext_iff.mp (Option.some.inj h)
          exact Or.inr (Or.inl (stops_migrate rfl))
      | encrypted | decrypted _ _ | failed | returned => cases h

end Resume

section Step

variable {platform : Platform} {a : Audit} {i : Nat} {waiting : Await} {answer : Answer} {commits : Bool}

theorem note_same {owner : Owner} {s : SecretStore} (hsession : s.session = a.store.session)
    (hstored : s.stored = a.store.stored) : a.note owner s = a := by
  unfold Audit.note
  rw [if_pos ⟨hsession, hstored⟩]

theorem note_set (id : Nat) (value : String) (s : SecretStore) :
    ∃ more, (∀ other ∈ more, other = id) ∧ a.note (.set id value) s = { a with changed := a.changed ++ more } := by
  unfold Audit.note
  by_cases hsame : s.session = a.store.session ∧ s.stored = a.store.stored
  · rw [if_pos hsame]
    exact ⟨[], by simp, by simp⟩
  · rw [if_neg hsame]
    exact ⟨[id], by simp, rfl⟩

theorem note_migrate (id : Nat) (s : SecretStore) (hnone : a.store.visible = none) :
    ∃ more, (∀ other ∈ more, other = id) ∧ a.note (.migrate id) s = { a with changed := a.changed ++ more } := by
  unfold Audit.note
  by_cases hsame : s.session = a.store.session ∧ s.stored = a.store.stored
  · rw [if_pos hsame]
    exact ⟨[], by simp, by simp⟩
  · rw [if_neg hsame]
    refine ⟨[id], by simp, ?_⟩
    dsimp only
    rw [if_pos hnone]

theorem settle_store (settled : Settled) (s : SecretStore) :
    { a.settle settled with store := s } = Audit.settle { a with store := s } settled := by
  unfold Audit.settle
  split <;> rfl

-- The part of the step that a call's answer makes.
theorem answered_eq (hwaiting : a.store.pending[i]? = some waiting) {s' : SecretStore} {settled : Settled}
    (hresume : (a.drop i).store.resume platform waiting answer commits = some (s', settled)) :
    a.step platform (.answered i answer commits) =
      Audit.settle { a.note waiting.owner s' with store := s' } settled := by
  have hstep : a.store.step platform (.answered i answer commits) = (s', settled) := by
    unfold SecretStore.step
    dsimp only
    rw [hwaiting]
    change ((a.drop i).store.resume platform waiting answer commits).getD (a.store, none) = (s', settled)
    rw [hresume]
    rfl
  unfold Audit.step
  dsimp only
  rw [hwaiting, hstep]
  exact settle_store settled s'

theorem Audit.Good.stops (h : a.Good) (hwaiting : a.store.pending[i]? = some waiting) {s' : SecretStore}
    {settled : Settled} (hstops : Stops (a.drop i).store s' waiting settled) :
    (Audit.settle { a.note waiting.owner s' with store := s' } settled).Good := by
  obtain ⟨hdrop, hloose, hfits⟩ := h.drop hwaiting
  obtain ⟨rfl, outcome, rfl, hplain⟩ := hstops
  rw [@note_same a waiting.owner (a.drop i).store rfl rfl]
  exact hdrop.end' hloose fun id value howner => hplain _ _ hfits id value howner

theorem Audit.Good.waits (h : a.Good) (hwaiting : a.store.pending[i]? = some waiting) {s' : SecretStore}
    {settled : Settled} (hwaits : Waits (a.drop i).store s' waiting settled) :
    (Audit.settle { a.note waiting.owner s' with store := s' } settled).Good := by
  obtain ⟨hdrop, hloose, hfits⟩ := h.drop hwaiting
  obtain ⟨q, rfl, rfl, hid, hkeeps⟩ := hwaits
  rw [@note_same a waiting.owner ((a.drop i).store.await q) rfl rfl]
  exact hdrop.await (hid ▸ hloose) (hkeeps _ _ hfits)

theorem Audit.Good.imports (h : a.Good) (hwaiting : a.store.pending[i]? = some waiting) {s' : SecretStore}
    {settled : Settled} (himports : Imports (a.drop i).store s' waiting answer settled)
    (hcareful : a.Careful (.answered i answer commits)) :
    (Audit.settle { a.note waiting.owner s' with store := s' } settled).Good := by
  obtain ⟨hdrop, hloose, hfits⟩ := h.drop hwaiting
  obtain ⟨m, rfl, rfl, hcurrent, hretired, hvalid, rfl, hs'⟩ := himports
  have hnote : a.note (Await.found m none).owner s' = a := note_same (hs' ▸ rfl) (hs' ▸ rfl)
  have hfree := hcareful _ hwaiting rfl hcurrent hretired hvalid
  have hsupplanted := hdrop.supplant fun q hq => hfree q (List.mem_of_mem_eraseIdx hq)
  rw [hnote, hs']
  refine hsupplanted.await ⟨⟨?_, ?_, ?_, ?_, ?_⟩, ?_⟩ ⟨⟨_, rfl, Nat.lt_succ_self _⟩, fun _ => ?_⟩
  · exact hloose.opened.started.trans (Nat.lt_succ_self _)
  · exact hloose.opened.rejected
  · exact hloose.opened.changed
  · exact hloose.opened.sets
  · exact hloose.opened.removes
  · exact hloose.alone
  · exact hfits.2 hcurrent.symm

-- What a re-encryption writes is there already.
theorem Audit.Good.reapply {w : Write} {persistent : Bool} (h : a.Good)
    (hsafe : (a.store.session = none ∧ a.store.stored = some w.value) ∨
      (persistent = false ∧ a.store.session = some w.value)) :
    Audit.Good { a with store := a.store.apply w persistent } := by
  rcases hsafe with ⟨hsession, hstored⟩ | ⟨rfl, hsession⟩
  · cases persistent with
    | false => exact h.remember ⟨hsession, hstored⟩
    | true =>
        have hsame : a.store.apply w true =
            { a.store with legacyRetired := a.store.legacyRetired || w.retireLegacy } := by
          unfold SecretStore.apply
          rw [if_pos rfl, ← hstored, ← hsession]
        obtain ⟨hsound, hkept⟩ := h
        rw [hsame]
        refine ⟨⟨hsound.ids, fun q hq => ?_, hsound.fits, hsound.symbol, hsound.starts, hsound.sets, hsound.removes,
          hsound.rejected, hsound.changed⟩, ⟨hkept.rejected, hkept.latest, hkept.removed, hkept.superseded,
          hkept.overwritten, hkept.durable⟩⟩
        obtain ⟨hlt, hrejected, hchanged, hsets, hremoves⟩ := hsound.opened q hq
        exact ⟨hlt, hrejected, hchanged, hsets, hremoves⟩
  · have hsame : a.store.apply w false = a.store := by
      unfold SecretStore.apply
      rw [if_neg (by simp), ← hsession]
    rw [hsame]
    exact h

theorem Audit.Good.writes (h : a.Good) (hwaiting : a.store.pending[i]? = some waiting) {s' : SecretStore}
    {settled : Settled} (hwrites : Writes (a.drop i).store s' waiting answer commits settled)
    (hcareful : a.Careful (.answered i answer commits)) :
    (Audit.settle { a.note waiting.owner s' with store := s' } settled).Good := by
  obtain ⟨hdrop, hloose, hfits⟩ := h.drop hwaiting
  obtain ⟨w, persistent, hcurrent, hfinish, hwhen⟩ := hwrites
  have hsafe : w.Safe a.store persistent ∧ waiting.owner = w.owner ∧
      w.Fits a.store.mutation a.starts a.store.clock := by
    rcases hwhen with ⟨rfl, rfl, rfl⟩ | ⟨rfl, rfl, rfl, shouldReEncrypt, rfl⟩
    · exact ⟨hcareful _ hwaiting rfl hcurrent, rfl, hfits⟩
    · exact ⟨hcareful _ hwaiting rfl hcurrent rfl, rfl, hfits⟩
  obtain ⟨hsafe, howner, hwfits⟩ := hsafe
  rw [howner] at hloose ⊢
  unfold SecretStore.finishWrite at hfinish
  unfold Write.Safe at hsafe
  unfold Write.Fits at hwfits
  cases hwriter : w.writer with
  | set id =>
      rw [hwriter] at hfinish hwfits
      obtain ⟨rfl, rfl⟩ := Prod.ext_iff.mp hfinish
      obtain ⟨hmutation, hstarted, _⟩ := hwfits
      have hset : w.owner = .set id w.value := by rw [Write.owner, hwriter]
      rw [hset] at hloose ⊢
      obtain ⟨more, hmore, hnote⟩ := @note_set a id w.value ((a.drop i).store.apply w persistent)
      rw [hnote]
      exact hdrop.commit hloose (hcurrent.trans hmutation) hstarted hmore
  | reEncrypt caller =>
      rw [hwriter] at hfinish hwfits hsafe
      have hcaller : w.owner = caller.owner := by rw [Write.owner, hwriter]
      cases caller with
      | get id =>
          have hs' : s' = (a.drop i).store.apply w persistent := congrArg Prod.fst hfinish
          have hsettled : settled = some (.get id, .value (some w.value)) := congrArg Prod.snd hfinish
          have hget : a.note w.owner ((a.drop i).store.apply w persistent) = a := by
            unfold Audit.note
            rw [hcaller]
            exact ite_self a
          rw [hs', hsettled, hget]
          exact hdrop.reapply hsafe
      | migrate m =>
          have hs' : s' = ((a.drop i).store.apply w persistent).await (.found m (some w.value)) :=
            congrArg Prod.fst hfinish
          have hsettled : settled = none := congrArg Prod.snd hfinish
          have hsame : ((a.drop i).store.apply w persistent).session = a.store.session ∧
              ((a.drop i).store.apply w persistent).stored = a.store.stored ∧
              ((a.store.session = none ∧ a.store.stored = some w.value) ∨
                (persistent = false ∧ a.store.session = some w.value)) := by
            cases persistent with
            | true => exact ⟨hsafe.1.symm, hsafe.2.symm, Or.inl hsafe⟩
            | false => exact ⟨Eq.symm hsafe, rfl, Or.inr ⟨rfl, hsafe⟩⟩
          have hnote : a.note w.owner (((a.drop i).store.apply w persistent).await (.found m (some w.value))) = a :=
            note_same hsame.1 hsame.2.1
          have hreapplied := @Audit.Good.reapply (a.drop i) w persistent hdrop hsame.2.2
          obtain ⟨hmutation, hclock, hpending, -⟩ := apply_rest (a.drop i).store w persistent
          rw [hcaller] at hloose
          rw [hs', hsettled, hnote]
          refine @Audit.Good.await _ (.found m (some w.value)) hreapplied ⟨⟨?_, ?_, ?_, ?_, ?_⟩, ?_⟩ ?_
          · exact hclock.symm ▸ hloose.opened.started
          · exact hloose.opened.rejected
          · exact hloose.opened.changed
          · exact hloose.opened.sets
          · exact hloose.opened.removes
          · exact hpending.symm ▸ hloose.alone
          · change Migration.Fits ((a.drop i).store.apply w persistent).mutation a.starts
              ((a.drop i).store.apply w persistent).clock m
            rw [hmutation, hclock]
            exact hwfits
  | migrate m =>
      rw [hwriter] at hfinish hwfits hsafe
      obtain ⟨rfl, rfl⟩ := Prod.ext_iff.mp hfinish
      have hmigrate : w.owner = .migrate m.id := by rw [Write.owner, hwriter]
      have hvisible : a.store.visible = none := by
        unfold SecretStore.visible
        rw [hsafe.1, hsafe.2]
        rfl
      rw [hmigrate] at hloose ⊢
      obtain ⟨more, hmore, hnote⟩ := @note_migrate a m.id ((a.drop i).store.apply w persistent) hvisible
      rw [hnote]
      exact hdrop.import' hloose hsafe (hwfits.2 hcurrent.symm) hmore

theorem startRead_good {caller : Caller} (h : a.Good) (hloose : a.Loose caller.owner.id)
    (hfits : caller.Fits a.store.mutation a.starts a.store.clock) (hget : ∃ id, caller = .get id) :
    Audit.Good { a with store := (a.store.startRead caller).1 } := by
  obtain ⟨id, rfl⟩ := hget
  unfold SecretStore.startRead
  cases a.store.session with
  | some value => exact h
  | none => exact h.await hloose hfits

theorem Audit.Good.step (h : a.Good) (event : Event) (hcareful : a.Careful event) : (a.step platform event).Good := by
  cases event with
  | set value requirePersistent =>
      obtain ⟨htick, hloose⟩ := h.tick
      unfold Audit.step SecretStore.step SecretStore.set
      dsimp only
      by_cases hvalid : validSecret value = true
      · simp only [hvalid, if_true]
        have hstarted := h.remove false
        refine hstarted.await ⟨⟨hloose.opened.started, hloose.opened.rejected, hloose.opened.changed,
          hloose.opened.sets, hloose.opened.removes⟩, hloose.alone⟩ ⟨rfl, ?_, fun hne => absurd rfl hne⟩
        exact List.mem_append_right _ (List.mem_singleton.mpr rfl)
      · simp only [hvalid, Bool.false_eq_true, if_false]
        exact @Audit.Good.end' _ (.set a.store.clock value) (.rejected "secureSecrets: invalid value") htick hloose
          fun id _ _ => ⟨_, rfl, fun heq => absurd heq (by decide)⟩
  | get =>
      obtain ⟨htick, hloose⟩ := h.tick
      exact startRead_good htick hloose trivial ⟨_, rfl⟩
  | remove commits => exact h.remove commits
  | migrate legacy ciphertext =>
      obtain ⟨htick, hloose⟩ := h.tick
      unfold Audit.step SecretStore.step SecretStore.migrate
      dsimp only
      by_cases hlength : ciphertext.length ≤ MAX_SECRET_BYTES * 2
      · simp only [hlength, if_true]
        refine htick.await hloose ⟨fun σ hσ => ?_, fun _ t ht => h.sound.started t ht⟩
        exact (h.sound.symbol σ hσ).trans (Nat.lt_succ_self _)
      · simp only [hlength, if_false]
        refine @Audit.Good.end' _ (.migrate a.store.clock) (.rejected "secureSecrets: invalid legacy ciphertext") htick
          hloose fun id value howner => ?_
        cases howner
  | answered i answer commits =>
      cases hwaiting : a.store.pending[i]? with
      | none =>
          unfold Audit.step
          dsimp only
          rw [hwaiting]
          exact h
      | some waiting =>
          cases hresume : (a.drop i).store.resume platform waiting answer commits with
          | none =>
              have hsame : a.step platform (.answered i answer commits) = a := by
                have hstep : a.store.step platform (.answered i answer commits) = (a.store, none) := by
                  unfold SecretStore.step
                  dsimp only
                  rw [hwaiting]
                  change ((a.drop i).store.resume platform waiting answer commits).getD (a.store, none) = _
                  rw [hresume]
                  rfl
                unfold Audit.step
                dsimp only
                rw [hwaiting, hstep]
                dsimp only
                rw [@note_same a waiting.owner a.store rfl rfl]
                rfl
              rw [hsame]
              exact h
          | some next =>
              obtain ⟨s', settled⟩ := next
              rw [answered_eq hwaiting hresume]
              rcases resume_cases hresume with hwaits | hstops | himports | hwrites
              · exact h.waits hwaiting hwaits
              · exact h.stops hwaiting hstops
              · exact h.imports hwaiting himports hcareful
              · exact h.writes hwaiting hwrites hcareful

-- With every call settled and the keyring there, a get returns what is visible.
theorem gets_visible {s : SecretStore} (hpending : s.pending = []) : s.Gets platform s.visible := by
  intro result result' shouldReEncrypt shouldReEncrypt' commits
  obtain ⟨session, stored, legacyRetired, mutation, clock, pending⟩ := s
  obtain rfl : pending = [] := hpending
  cases session with
  | some value => rfl
  | none =>
      cases stored with
      | none => rfl
      | some value =>
          by_cases hwrites : shouldReEncrypt = true ∧ validSecret value = true
          · by_cases hresult : result' = value
            · cases commits <;> simp [SecretStore.outcomeOf, SecretStore.step, SecretStore.startRead, SecretStore.await,
                SecretStore.resume, SecretStore.finishWrite, SecretStore.finishRead, hwrites, hresult, SecretStore.visible]
            · simp [SecretStore.outcomeOf, SecretStore.step, SecretStore.startRead, SecretStore.await,
                SecretStore.resume, SecretStore.finishWrite, SecretStore.finishRead, hwrites, hresult, SecretStore.visible]
          · simp [SecretStore.outcomeOf, SecretStore.step, SecretStore.startRead, SecretStore.await,
              SecretStore.resume, SecretStore.finishRead, hwrites, SecretStore.visible]

theorem Audit.Good.honest (h : a.Good) : a.Honest platform :=
  ⟨h.kept.rejected, h.kept.latest, h.kept.removed, gets_visible, h.kept.superseded, h.kept.overwritten, h.kept.durable⟩

-- A store that has just been opened over what the database holds.
def SecretStore.opened (stored : Option String) (legacyRetired : Bool) : SecretStore := { stored, legacyRetired }

theorem opened_good (stored : Option String) (legacyRetired : Bool) :
    Audit.Good { store := .opened stored legacyRetired } :=
  ⟨⟨List.nodup_nil, by simp [SecretStore.opened], by simp [SecretStore.opened], by simp [SecretStore.opened], by simp,
    by simp, by simp, by simp, by simp⟩, ⟨by simp, by simp, by simp, by simp, rfl, by simp⟩⟩

-- In every run whose writes are all careful, credentials follow the user's last change.
theorem credentials_follow_last_change (platform : Platform) (stored : Option String) (legacyRetired : Bool)
    (events : List Event)
    (hcareful : Each (Audit.step platform) Audit.Careful { store := .opened stored legacyRetired } events) :
    Visits (Audit.step platform) (Audit.Honest platform) { store := .opened stored legacyRetired } events :=
  visits_of_each (I := Audit.Good) (fun _ event h hc => h.step event hc) (fun _ h => h.honest) hcareful
    (opened_good stored legacyRetired)

end Step

section Decide

instance (s : SecretStore) (w : Write) (persistent : Bool) : Decidable (w.Safe s persistent) :=
  match hw : w.writer with
  | .set _ => decidable_of_iff True (by simp [Write.Safe, hw])
  | .migrate _ => decidable_of_iff (s.session = none ∧ s.stored = none) (by simp [Write.Safe, hw])
  | .reEncrypt (.get _) =>
      decidable_of_iff ((s.session = none ∧ s.stored = some w.value) ∨ (persistent = false ∧ s.session = some w.value))
        (by simp [Write.Safe, hw])
  | .reEncrypt (.migrate _) =>
      decidable_of_iff (if persistent then s.session = none ∧ s.stored = some w.value else s.session = some w.value)
        (by simp [Write.Safe, hw])

instance Await.Careful.decidable (s : SecretStore) (answer : Answer) (commits : Bool) :
    (q : Await) → Decidable (q.Careful s answer commits)
  | .available w => inferInstanceAs (Decidable (answer = .available false → s.mutation = w.mutation → w.Safe s false))
  | .verified w => inferInstanceAs (Decidable
      (answer.result = some w.value → s.mutation = w.mutation → commits = true → w.Safe s true))
  | .found m none => inferInstanceAs (Decidable (answer = .returned → s.mutation = m.mutation →
      s.legacyRetired = false → validSecret m.plaintext = true →
      ∀ q ∈ s.pending, ∀ σ ∈ q.direct, s.mutation ≠ some σ))
  | .found _ (some _) | .encrypted _ | .readable _ _ | .decrypted _ _ _ | .legacyAvailable _ | .legacyDecrypted _
  | .status _ _ => inferInstanceAs (Decidable True)

instance Audit.Careful.decidable (a : Audit) : (event : Event) → Decidable (a.Careful event)
  | .set _ _ | .get | .remove _ | .migrate _ _ => inferInstanceAs (Decidable True)
  | .answered i answer commits => inferInstanceAs (Decidable (∀ q ∈ a.store.pending[i]?, q.Careful a.store answer commits))

end Decide

-- No text is read.
def emptyPlatform : Platform := ⟨fun _ => none, fun _ => [], fun _ => ""⟩

def savedWithKeyring (i : Nat) (value : String) : List Event :=
  [.answered i (.available true) true, .answered i .encrypted true, .answered i (.decrypted value false) true]

-- A save, a read that re-encrypts after it, and a save that is forgotten before it is done.
theorem credentials_follow_last_change_saved :
    let events := [.set "new" true] ++ savedWithKeyring 0 "new" ++ [.get, .answered 0 (.available true) true,
      .answered 0 (.decrypted "new" true) true] ++ savedWithKeyring 0 "new" ++ [.set "late" false, .remove true,
      .answered 0 (.available false) true]
    Each (Audit.step emptyPlatform) Audit.Careful { store := .opened (some "old") false } events ∧
    Visits (Audit.step emptyPlatform) (Audit.Honest emptyPlatform) { store := .opened (some "old") false } events :=
  ⟨by decide, credentials_follow_last_change _ _ _ _ (by decide)⟩

-- A read that started while a save was on its way writes the old value back over the saved one.
theorem read_back_undoes_save :
    let events := [.set "new" true, .get, .answered 1 (.available true) true, .answered 0 (.available true) true,
      .answered 1 .encrypted true, .answered 1 (.decrypted "new" false) true, .answered 0 (.decrypted "old" true) true]
      ++ savedWithKeyring 0 "old"
    let a := run (Audit.step emptyPlatform) { store := .opened (some "old") false } events
    a.store.pending = [] ∧ a.sets = [(0, "new")] ∧ a.removes = [] ∧ a.store.visible = some "old" ∧
    ¬ a.Honest emptyPlatform := by
  refine ⟨by decide, by decide, by decide, by decide, fun h => ?_⟩
  have hlatest := h.latest (0, "new") (by decide) (by decide) (by decide)
  exact absurd hlatest (by decide)

end MeshClient.Secrets
