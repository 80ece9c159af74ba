import MeshClient.Lib.Run

-- Programs that touch the outside world one call at a time, with errors that end them.
structure Interface where
  Call : Type
  Reply : Call → Type

inductive Program (I : Interface) (ε α : Type) where
  | ok (a : α)
  | err (e : ε)
  | call (c : I.Call) (next : I.Reply c → Program I ε α)

-- What a call does when it succeeds, and what the program sees when it fails. A failed call
-- leaves the world as it was; one without a failed reply cannot fail.
structure World (I : Interface) (σ : Type) where
  run : (c : I.Call) → σ → I.Reply c × σ
  failed : (c : I.Call) → Option (I.Reply c)

namespace Program

variable {I : Interface} {σ ε α β : Type}

def bind : Program I ε α → (α → Program I ε β) → Program I ε β
  | ok a, f => f a
  | err e, _ => err e
  | call c next, f => call c fun reply => bind (next reply) f

instance : Monad (Program I ε) where
  pure := ok
  bind := bind

-- Hands an error to the program instead of ending it.
def attempt : Program I ε α → Program I ε (Except ε α)
  | ok a => ok (.ok a)
  | err e => ok (.error e)
  | call c next => call c fun reply => attempt (next reply)

-- Every call succeeds and nothing happens in between.
def run (w : World I σ) : Program I ε α → σ → Except ε α × σ
  | ok a, s => (.ok a, s)
  | err e, s => (.error e, s)
  | call c next, s => run w (next (w.run c s).1) (w.run c s).2

section

variable (w : World I σ)

@[simp] theorem run_pure (a : α) (s : σ) : run w (pure a : Program I ε α) s = (.ok a, s) := rfl

@[simp] theorem run_ok (a : α) (s : σ) : run w (ok a : Program I ε α) s = (.ok a, s) := rfl

@[simp] theorem run_err (e : ε) (s : σ) : run w (err e : Program I ε α) s = (.error e, s) := rfl

@[simp] theorem run_call (c : I.Call) (next : I.Reply c → Program I ε α) (s : σ) :
    run w (call c next) s = run w (next (w.run c s).1) (w.run c s).2 := rfl

@[simp] theorem run_bind (p : Program I ε α) (f : α → Program I ε β) (s : σ) :
    run w (p >>= f) s = match run w p s with
      | (.ok a, s') => run w (f a) s'
      | (.error e, s') => (.error e, s') := by
  induction p generalizing s with
  | ok a => rfl
  | err e => rfl
  | call c next ih => exact ih _ _

@[simp] theorem run_attempt (p : Program I ε α) (s : σ) :
    run w (attempt p) s = (.ok (run w p s).1, (run w p s).2) := by
  induction p generalizing s with
  | ok a => rfl
  | err e => rfl
  | call c next ih => exact ih _ _

-- Whatever the replies are, no call of the program breaks `P`.
def Keeps (P : σ → Prop) : Program I ε α → Prop
  | ok _ => True
  | err _ => True
  | call c next => (∀ s, P s → P (w.run c s).2) ∧ ∀ reply, Keeps P (next reply)

variable {w}

theorem Keeps.bind {P : σ → Prop} {p : Program I ε α} {g : α → Program I ε β} (hp : Keeps w P p)
    (hg : ∀ a, Keeps w P (g a)) : Keeps w P (p >>= g) := by
  induction p with
  | ok a => exact hg a
  | err e => trivial
  | call c next ih => exact ⟨hp.1, fun reply => ih reply (hp.2 reply)⟩

theorem Keeps.attempt {P : σ → Prop} {p : Program I ε α} (hp : Keeps w P p) :
    Keeps w P (attempt p) := by
  induction p with
  | ok a => trivial
  | err e => trivial
  | call c next ih => exact ⟨hp.1, fun reply => ih reply (hp.2 reply)⟩

-- A program that keeps `f` fixed keeps all that is said about `f`.
theorem Keeps.of_fixed {τ : Type} {f : σ → τ} {p : Program I ε α}
    (h : ∀ v, Keeps w (fun s => f s = v) p) (P : τ → Prop) : Keeps w (fun s => P (f s)) p := by
  induction p with
  | ok a => trivial
  | err e => trivial
  | call c next ih =>
      refine ⟨fun s hs => ?_, fun reply => ih reply fun v => (h v).2 reply⟩
      have hsame : f (w.run c s).2 = f s := (h (f s)).1 s rfl
      simpa only [hsame] using hs

theorem Keeps.run {P : σ → Prop} {p : Program I ε α} (h : Keeps w P p) {s : σ} (hs : P s) :
    P (run w p s).2 := by
  induction p generalizing s with
  | ok a => exact hs
  | err e => exact hs
  | call c next ih => exact ih _ (h.2 _) (h.1 s hs)

end

-- A program under way: what is left of it, whether a call has failed yet, and how many calls
-- it has made.
structure Execution (I : Interface) (σ ε α : Type) where
  program : Program I ε α
  state : σ
  failed : Bool
  calls : Nat

def start (p : Program I ε α) (s : σ) : Execution I σ ε α := ⟨p, s, false, 0⟩

def Execution.returned (x : Execution I σ ε α) : Bool :=
  match x.program with
  | call _ _ => false
  | _ => true

-- The next call succeeds or fails, or somebody else acts before it.
inductive Turn where
  | call
  | fail
  | interfere
deriving DecidableEq

-- What `others` do is allowed in a calm state, and a call may fail where that is harmless; its
-- place is the number of calls made before it.
structure Setting (I : Interface) (σ : Type) where
  world : World I σ
  others : σ → σ
  calm : σ → Prop
  harmless : Nat → I.Call → σ → Prop

-- At most one call fails.
def advance (E : Setting I σ) (x : Execution I σ ε α) : Turn → Execution I σ ε α
  | .interfere => { x with state := E.others x.state }
  | .call => match x.program with
      | call c next => ⟨next (E.world.run c x.state).1, (E.world.run c x.state).2, x.failed, x.calls + 1⟩
      | _ => x
  | .fail => match x.program with
      | call c next => match E.world.failed c with
          | some reply => if x.failed then x else ⟨next reply, x.state, true, x.calls + 1⟩
          | none => x
      | _ => x

def Careful (E : Setting I σ) (x : Execution I σ ε α) : Turn → Prop
  | .call => True
  | .interfere => E.calm x.state
  | .fail => match x.program with
      | call c _ => x.failed = false → E.harmless x.calls c x.state
      | _ => True

instance Careful.decidable (E : Setting I σ) [∀ s, Decidable (E.calm s)]
    [∀ n c s, Decidable (E.harmless n c s)] : (x : Execution I σ ε α) → (turn : Turn) →
    Decidable (Careful E x turn)
  | _, .call => isTrue trivial
  | x, .interfere => inferInstanceAs (Decidable (E.calm x.state))
  | ⟨ok _, _, _, _⟩, .fail => isTrue trivial
  | ⟨err _, _, _, _⟩, .fail => isTrue trivial
  | ⟨call c _, s, f, n⟩, .fail => inferInstanceAs (Decidable (f = false → E.harmless n c s))

namespace Setting

variable (E : Setting I σ)

def Between : σ → σ → Prop := Relation.ReflTransGen fun s s' => E.calm s ∧ s' = E.others s

def Stable (P : σ → Prop) : Prop := ∀ s, E.calm s → P s → P (E.others s)

variable {E}

theorem Stable.between {P : σ → Prop} (hP : E.Stable P) {s s' : σ} (h : E.Between s s') (hs : P s) :
    P s' := by
  induction h with
  | refl => exact hs
  | tail _ hstep ih => exact hstep.2 ▸ hP _ hstep.1 ih

end Setting

-- `C` holds before every call and `Q` at the end, whatever others do in calm states and
-- whichever harmless call fails.
def Safe (E : Setting I σ) (C : σ → Prop) (Q : Except ε α → σ → Bool → Nat → Prop) :
    Program I ε α → σ → Bool → Nat → Prop
  | ok a, s, f, n => ∀ s', E.Between s s' → C s' ∧ Q (.ok a) s' f n
  | err e, s, f, n => ∀ s', E.Between s s' → C s' ∧ Q (.error e) s' f n
  | call c next, s, f, n => ∀ s', E.Between s s' → C s' ∧
      Safe E C Q (next (E.world.run c s').1) (E.world.run c s').2 f (n + 1) ∧
      ∀ reply, E.world.failed c = some reply → f = false → E.harmless n c s' →
        Safe E C Q (next reply) s' true (n + 1)

section

variable {E : Setting I σ} {C : σ → Prop} {P : σ → Prop} {s : σ} {f : Bool} {n : Nat}

theorem Safe.ok {Q : Except ε α → σ → Bool → Nat → Prop} {a : α} (hstable : E.Stable P) (hs : P s)
    (hC : ∀ s, P s → C s) (hQ : ∀ s, P s → Q (.ok a) s f n) :
    Safe E C Q (Program.ok a) s f n :=
  fun s' h => ⟨hC s' (hstable.between h hs), hQ s' (hstable.between h hs)⟩

theorem Safe.err {Q : Except ε α → σ → Bool → Nat → Prop} {e : ε} (hstable : E.Stable P) (hs : P s)
    (hC : ∀ s, P s → C s) (hQ : ∀ s, P s → Q (.error e) s f n) :
    Safe E C Q (Program.err e) s f n :=
  fun s' h => ⟨hC s' (hstable.between h hs), hQ s' (hstable.between h hs)⟩

-- What is known before a call is a stable assertion.
theorem Safe.call {Q : Except ε α → σ → Bool → Nat → Prop} {c : I.Call}
    {next : I.Reply c → Program I ε α} (hstable : E.Stable P) (hs : P s) (hC : ∀ s, P s → C s)
    (hrun : ∀ s, P s → Safe E C Q (next (E.world.run c s).1) (E.world.run c s).2 f (n + 1))
    (hfail : ∀ s reply, P s → E.world.failed c = some reply → f = false → E.harmless n c s →
      Safe E C Q (next reply) s true (n + 1)) :
    Safe E C Q (Program.call c next) s f n := by
  intro s' h
  have hs' := hstable.between h hs
  exact ⟨hC s' hs', hrun s' hs', fun reply hr hf hh => hfail s' reply hs' hr hf hh⟩

-- After the one failure the replies are right.
theorem Safe.call_of_failed {Q : Except ε α → σ → Bool → Nat → Prop} {c : I.Call}
    {next : I.Reply c → Program I ε α} (hstable : E.Stable P) (hs : P s) (hC : ∀ s, P s → C s)
    (hrun : ∀ s, P s → Safe E C Q (next (E.world.run c s).1) (E.world.run c s).2 true (n + 1)) :
    Safe E C Q (Program.call c next) s true n :=
  .call hstable hs hC hrun fun _ _ _ _ hf _ => absurd hf (by simp)

theorem Safe.here {Q : Except ε α → σ → Bool → Nat → Prop} {p : Program I ε α}
    (h : Safe E C Q p s f n) : C s := by
  cases p with
  | ok a => exact (h s .refl).1
  | err e => exact (h s .refl).1
  | call c next => exact (h s .refl).1

theorem Safe.mono {Q Q' : Except ε α → σ → Bool → Nat → Prop} {p : Program I ε α}
    (h : Safe E C Q p s f n) (hQ : ∀ r s f n, Q r s f n → Q' r s f n) : Safe E C Q' p s f n := by
  induction p generalizing s f n with
  | ok a => exact fun s' hb => ⟨(h s' hb).1, hQ _ _ _ _ (h s' hb).2⟩
  | err e => exact fun s' hb => ⟨(h s' hb).1, hQ _ _ _ _ (h s' hb).2⟩
  | call c next ih =>
      intro s' hb
      obtain ⟨hC, hrun, hfail⟩ := h s' hb
      exact ⟨hC, ih _ hrun, fun reply hr hf hh => ih reply (hfail reply hr hf hh)⟩

theorem Safe.bind {Q : Except ε α → σ → Bool → Nat → Prop} {R : Except ε β → σ → Bool → Nat → Prop}
    {p : Program I ε α} {g : α → Program I ε β} (h : Safe E C Q p s f n)
    (hok : ∀ a s f n, Q (.ok a) s f n → Safe E C R (g a) s f n)
    (herr : ∀ e s f n, Q (.error e) s f n → R (.error e) s f n) :
    Safe E C R (p >>= g) s f n := by
  induction p generalizing s f n with
  | ok a => exact hok a s f n (h s .refl).2
  | err e => exact fun s' hb => ⟨(h s' hb).1, herr e _ _ _ (h s' hb).2⟩
  | call c next ih =>
      intro s' hb
      obtain ⟨hC, hrun, hfail⟩ := h s' hb
      exact ⟨hC, ih _ hrun, fun reply hr hf hh => ih reply (hfail reply hr hf hh)⟩

theorem Safe.attempt {Q : Except ε α → σ → Bool → Nat → Prop} {R : Except ε β → σ → Bool → Nat → Prop}
    {p : Program I ε α} {g : Except ε α → Program I ε β} (h : Safe E C Q p s f n)
    (hg : ∀ r s f n, Q r s f n → Safe E C R (g r) s f n) : Safe E C R (attempt p >>= g) s f n := by
  induction p generalizing s f n with
  | ok a => exact hg _ s f n (h s .refl).2
  | err e => exact hg _ s f n (h s .refl).2
  | call c next ih =>
      intro s' hb
      obtain ⟨hC, hrun, hfail⟩ := h s' hb
      exact ⟨hC, ih _ hrun, fun reply hr hf hh => ih reply (hfail reply hr hf hh)⟩

-- A call that failed stays in the record, and the count of calls only grows.
theorem Safe.history {Q : Except ε α → σ → Bool → Nat → Prop} {p : Program I ε α}
    (h : Safe E C Q p s f n) :
    Safe E C (fun r s f' n' => Q r s f' n' ∧ (f = true → f' = true) ∧ n ≤ n') p s f n := by
  induction p generalizing s f n with
  | ok a => exact fun s' hb => ⟨(h s' hb).1, (h s' hb).2, id, Nat.le_refl n⟩
  | err e => exact fun s' hb => ⟨(h s' hb).1, (h s' hb).2, id, Nat.le_refl n⟩
  | call c next ih =>
      intro s' hb
      obtain ⟨hC, hrun, hfail⟩ := h s' hb
      refine ⟨hC, (ih _ hrun).mono ?_, fun reply hr hf hh => (ih reply (hfail reply hr hf hh)).mono ?_⟩
      · exact fun r s f' n' hQ => ⟨hQ.1, hQ.2.1, Nat.le_of_succ_le hQ.2.2⟩
      · exact fun r s f' n' hQ => ⟨hQ.1, fun _ => hQ.2.1 rfl, Nat.le_of_succ_le hQ.2.2⟩

theorem Safe.seq {Q : Except ε α → σ → Bool → Nat → Prop} {R : Except ε β → σ → Bool → Nat → Prop}
    {p : Program I ε α} {g : α → Program I ε β} (h : Safe E C Q p s f n)
    (hok : ∀ a s f' n', Q (.ok a) s f' n' → (f = true → f' = true) → n ≤ n' → Safe E C R (g a) s f' n')
    (herr : ∀ e s f n, Q (.error e) s f n → R (.error e) s f n) :
    Safe E C R (p >>= g) s f n :=
  h.history.bind (fun a s f' n' hQ => hok a s f' n' hQ.1 hQ.2.1 hQ.2.2)
    fun e s f n hQ => herr e s f n hQ.1

-- A stable assertion that no call breaks holds throughout.
theorem Safe.of_keeps {p : Program I ε α} (hp : Keeps E.world P p) (hstable : E.Stable P)
    (hC : ∀ s, P s → C s) (hs : P s) : Safe E C (fun _ s _ _ => P s) p s f n := by
  induction p generalizing s f n with
  | ok a => exact .ok hstable hs hC fun _ h => h
  | err e => exact .err hstable hs hC fun _ h => h
  | call c next ih =>
      exact .call hstable hs hC (fun s h => ih _ (hp.2 _) (hp.1 s h))
        fun s reply h _ _ _ => ih reply (hp.2 reply) h

-- The run in which every call succeeds and nobody else acts is one of the runs.
theorem Safe.run {Q : Except ε α → σ → Bool → Nat → Prop} {p : Program I ε α}
    (h : Safe E C Q p s f n) :
    ∃ n', Q (run E.world p s).1 (run E.world p s).2 f n' := by
  induction p generalizing s n with
  | ok a => exact ⟨n, (h s .refl).2⟩
  | err e => exact ⟨n, (h s .refl).2⟩
  | call c next ih => exact ih _ (h s .refl).2.1

-- One careful turn keeps what is left of the program safe.
theorem Safe.advance {Q : Except ε α → σ → Bool → Nat → Prop} {x : Execution I σ ε α} {turn : Turn}
    (hcareful : Careful E x turn) (h : Safe E C Q x.program x.state x.failed x.calls) :
    let y := Program.advance E x turn
    Safe E C Q y.program y.state y.failed y.calls := by
  obtain ⟨p, s, f, n⟩ := x
  cases turn with
  | interfere =>
      have hfirst : ∀ s', E.Between (E.others s) s' → E.Between s s' :=
        fun s' hb => .head ⟨hcareful, rfl⟩ hb
      cases p with
      | ok a => exact fun s' hb => h s' (hfirst s' hb)
      | err e => exact fun s' hb => h s' (hfirst s' hb)
      | call c next => exact fun s' hb => h s' (hfirst s' hb)
  | call =>
      cases p with
      | ok a => exact h
      | err e => exact h
      | call c next => exact (h s .refl).2.1
  | fail =>
      cases p with
      | ok a => exact h
      | err e => exact h
      | call c next =>
          simp only [Program.advance]
          cases hr : E.world.failed c with
          | none => exact h
          | some reply =>
              cases f with
              | true => exact h
              | false => exact (h s .refl).2.2 reply hr rfl (hcareful rfl)

theorem Safe.of_careful {Q : Except ε α → σ → Bool → Nat → Prop} {x : Execution I σ ε α}
    {turns : List Turn} (hcareful : Run.Each (Program.advance E) (Careful E) x turns)
    (h : Safe E C Q x.program x.state x.failed x.calls) :
    let y := Run.run (Program.advance E) x turns
    Safe E C Q y.program y.state y.failed y.calls :=
  Run.invariant_of_each (P := fun y : Execution I σ ε α => Safe E C Q y.program y.state y.failed y.calls)
    (fun _ _ hturn hx => hx.advance hturn) hcareful h

theorem Safe.of_returned {Q : Except ε α → σ → Bool → Nat → Prop} {x : Execution I σ ε α}
    (h : Safe E C Q x.program x.state x.failed x.calls) (hr : x.returned = true) :
    ∃ r, Q r x.state x.failed x.calls := by
  obtain ⟨p, s, f, n⟩ := x
  cases p with
  | ok a => exact ⟨_, (h s .refl).2⟩
  | err e => exact ⟨_, (h s .refl).2⟩
  | call c next => cases hr

end

end Program
