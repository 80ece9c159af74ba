import MeshClient.ScheduledBroadcasts.Covered

namespace MeshClient.ScheduledBroadcasts

open Run

variable {env : Platform} {rows : Rows} {s s' s'' : Scheduler}

section Events

variable {boundary : Option Int} {claimed : List (Nat × Int)} {delivered : List Delivery} {i : Nat} {p : Pending}

-- The main process or the radio settles a call; due times in the database only move to where
-- nothing is missed.
theorem Orderly.answer (h : Orderly env rows ⟨s, boundary, claimed, delivered⟩) (hp : s.pending[i]? = some p)
    {db : Rows} {answer : Answer} {claimed' : List (Nat × Int)}
    (hconfig : ∀ n, (db n).map Row.config = (s.db n).map Row.config)
    (hkeeps : ({ p with answer := some answer } : Pending).KeepsConfig rows) (honce : claimed'.Nodup)
    (hsub : ∀ e ∈ claimed, e ∈ claimed') (hspent : ∀ e ∈ claimed', ∃ v, db.due e.1 = some (some v) ∧ e.2 < v)
    (hgranted : ∀ e ∈ ({ p with answer := some answer } : Pending).granted, e ∈ claimed' ∧
      e ∉ delivered.map Delivery.occurrence ∧ ∀ b ∈ boundary, b < e.2)
    (hcovered : s.started = true → s.enabled = true → ∀ b ∈ boundary, ∀ n due, db.due n = some (some due) → due ≤ b →
      s.db.due n = some (some due) ∧ (p.claim = some (n, due) → ¬p.await.skips b n)) :
    Orderly env rows ⟨{ s with db }.answer i p answer, boundary, claimed', delivered⟩ := by
  have hmem : p ∈ s.pending := List.mem_of_getElem? hp
  have hsplit : ∀ q ∈ s.pending.set i { p with answer := some answer },
      q ∈ s.pending ∨ q = { p with answer := some answer } := fun q hq => List.mem_or_eq_of_mem_set hq
  refine ⟨Eq.trans (holders_answer hp _) h.single, ⟨h.tidy.seen, fun q hq => ?_, fun n => ?_, h.tidy.slots,
    fun q hq => ?_, honce, hspent, h.tidy.fired, fun d hd => ?_, fun q hq e he => ?_⟩, ?_⟩
  · rcases hsplit q hq with hq | rfl
    · exact h.tidy.sound q hq
    · exact h.tidy.sound p hmem
  · exact (hconfig n).trans (h.tidy.db n)
  · rcases hsplit q hq with hq | rfl
    · exact h.tidy.answers q hq
    · exact hkeeps
  · exact (h.tidy.past d hd).imp_left (hsub _)
  · rcases hsplit q hq with hq | rfl
    · exact (h.tidy.granted q hq e he).imp_left (hsub e)
    · exact hgranted e he
  · intro hstarted henabled b hb n hn huser due hdue hpast
    obtain ⟨hsame, hskips⟩ := hcovered hstarted henabled b hb n due hdue hpast
    refine (h.covered hstarted henabled b hb n hn huser due hsame hpast).imp_right fun hrest => hrest.imp_left ?_
    rintro ⟨q, hq, hadvances⟩
    obtain ⟨j, hj⟩ := List.mem_iff_getElem?.mp hq
    by_cases hij : j = i
    · subst hij
      obtain rfl : q = p := Option.some.inj (hj.symm.trans hp)
      have hself : ({ q with answer := some answer } : Pending) ∈ s.pending.set j { q with answer := some answer } :=
        List.mem_set (List.getElem?_eq_some_iff.mp hp).1 _
      refine ⟨_, hself, .inr (hadvances.resolve_left ?_)⟩
      rintro ⟨hclaim, hskip⟩
      exact hskips hclaim hskip
    · refine ⟨q, List.mem_iff_getElem?.mpr ⟨j, ?_⟩, hadvances⟩
      change (s.pending.set i { p with answer := some answer })[j]? = some q
      rwa [List.getElem?_set_ne fun he => hij he.symm]

-- An answer that changes no due time.
theorem Orderly.settle (h : Orderly env rows ⟨s, boundary, claimed, delivered⟩) (hp : s.pending[i]? = some p)
    {db : Rows} {answer : Answer} (hconfig : ∀ n, (db n).map Row.config = (s.db n).map Row.config)
    (hdue : db.due = s.db.due) (hkeeps : ({ p with answer := some answer } : Pending).KeepsConfig rows)
    (hgranted : ({ p with answer := some answer } : Pending).granted = none)
    (hskips : ∀ e ∈ p.claim, ∀ b ∈ boundary, p.await.skips b e.1 → s.db.due e.1 ≠ some (some e.2)) :
    Orderly env rows ⟨{ s with db }.answer i p answer, boundary, claimed, delivered⟩ := by
  refine h.answer hp hconfig hkeeps h.tidy.once (fun _ he => he) (fun e he => ?_) (fun e he => ?_)
    fun _ _ b hb n due hn _ => ?_
  · rw [hdue]
    exact h.tidy.spent e he
  · rw [hgranted] at he
    cases he
  · rw [hdue] at hn
    exact ⟨hn, fun hclaim hskip => hskips _ hclaim b hb hskip hn⟩

theorem config_setResult (slotCount : Nat) (db : Rows) (now : Int) (slot : Nat) (lastAttemptAt : Int)
    (lastResult : LastResult) (n : Nat) :
    ((Call.handle slotCount db now (.setScheduledBroadcastResult slot lastAttemptAt lastResult)).1 n).map Row.config =
      (db n).map Row.config := by
  simp only [Call.handle]
  cases hrow : db slot with
  | none => rfl
  | some row =>
      dsimp only
      unfold Rows.put
      rw [Function.update_apply]
      split_ifs with hn
      · rw [hn, hrow]
        rfl
      · rfl

theorem config_nextDueAt {db : Rows} {slot : Nat} {row : Row} (hrow : db slot = some row) (nextDueAt : Option Int)
    (updatedAt : Int) (n : Nat) :
    ((db.put slot { row with nextDueAt, updatedAt }) n).map Row.config = (db n).map Row.config := by
  unfold Rows.put
  rw [Function.update_apply]
  split_ifs with hn
  · rw [hn, hrow]
    rfl
  · rfl

theorem spent_later (h : Tidy env rows ⟨s, boundary, claimed, delivered⟩) {slot : Nat} {due : Int}
    (hdue : s.db.due slot = some (some due)) : (slot, due) ∉ claimed := by
  intro hmem
  obtain ⟨v, hv, hlater⟩ := h.spent _ hmem
  obtain rfl : v = due := Option.some.inj (Option.some.inj (hv.symm.trans hdue))
  exact absurd hlater (lt_irrefl v)

-- A granted claim moves the slot on, for good.
theorem spent_claim (h : Tidy env rows ⟨s, boundary, claimed, delivered⟩) {slot : Nat} {due next updatedAt : Int}
    {row : Row} (hdue : s.db.due slot = some (some due)) (hlater : due < next) :
    ∀ e ∈ claimed ++ [(slot, due)], ∃ v,
      (s.db.put slot { row with nextDueAt := some next, updatedAt }).due e.1 = some (some v) ∧ e.2 < v := by
  intro e he
  rw [Rows.due_put]
  rcases List.mem_append.mp he with he | he
  · obtain ⟨v, hv, hbefore⟩ := h.spent e he
    split_ifs with hslot
    · rw [hslot, hdue] at hv
      obtain rfl := Option.some.inj (Option.some.inj hv)
      exact ⟨next, rfl, hbefore.trans hlater⟩
    · exact ⟨v, hv, hbefore⟩
  · obtain rfl := List.mem_singleton.mp he
    rw [if_pos rfl]
    exact ⟨next, rfl, hlater⟩

theorem handle_eq {await : Await} {call : Call} (hp : s.pending[i]? = some { await, call := some call })
    (hdelivery : ({ await, call := some call } : Pending).isDelivery = false) (now : Int) :
    s.handle env i now = ({ s with db := (call.handle env.slotCount s.db now).1 } : Scheduler).answer i
      { await, call := some call } (call.handle env.slotCount s.db now).2 := by
  unfold Scheduler.handle
  rw [hp]
  dsimp only
  rw [if_neg (by simp [hdelivery])]

theorem granting_eq (hp : s.pending[i]? = some p) :
    s.granting i = p.claim.filter fun e => s.db.due e.1 == some (some e.2) := by
  unfold Scheduler.granting
  rw [hp]
  rfl

-- The step that handles a call which is not granted as a claim.
theorem watch_handled {await : Await} {call : Call} (hp : s.pending[i]? = some { await, call := some call })
    (hdelivery : ({ await, call := some call } : Pending).isDelivery = false) (now : Int)
    (hgranting : s.granting i = none) :
    (⟨s, boundary, claimed, delivered⟩ : Watch).step env (.handled i now) =
      ⟨({ s with db := (call.handle env.slotCount s.db now).1 } : Scheduler).answer i
        { await, call := some call } (call.handle env.slotCount s.db now).2, boundary, claimed, delivered⟩ := by
  unfold Watch.step
  dsimp only [Scheduler.step]
  rw [hgranting, handle_eq hp hdelivery, Option.toList_none, List.append_nil]
  rfl

theorem Orderly.handledFill (h : Orderly env rows ⟨s, boundary, claimed, delivered⟩) {pass : Pass} {slot : Nat}
    {next now : Int} (hp : s.pending[i]? = some
      { await := .filled pass slot, call := some (.saveScheduledBroadcast slot { nextDueAt := some (some next) }) })
    (hslot : (rows slot).isSome) (hbound : ∀ b ∈ boundary, b < next)
    (hspent : ∀ e ∈ claimed, e.1 = slot → e.2 < next) :
    Orderly env rows ((⟨s, boundary, claimed, delivered⟩ : Watch).step env (.handled i now)) := by
  rw [watch_handled hp rfl now (by rw [granting_eq hp]; rfl)]
  obtain ⟨user, huser⟩ := Option.isSome_iff_exists.mp hslot
  obtain ⟨old, hold, _⟩ := Option.map_eq_some_iff.mp
    ((h.tidy.db slot).trans (congrArg (Option.map Row.config) huser))
  rcases handle_save env.slotCount s.db now slot { nextDueAt := some (some next) } with hrejected | ⟨row, hrow, hmerge⟩
  · rw [hrejected]
    refine h.settle hp (fun _ => rfl) rfl (fun _ _ row _ hanswer => ?_) rfl (fun e he => ?_)
    · cases hanswer
    · cases he
  · rw [hold, mergeInput_nextDueAt] at hmerge
    obtain rfl := Except.ok.inj hmerge
    rw [hrow]
    refine h.answer hp (config_nextDueAt hold _ _) (fun _ m row hawait hanswer => ?_) h.tidy.once (fun _ he => he)
      (fun e he => ?_) (fun e he => ?_) fun _ _ b hb n due hn hpast => ?_
    · obtain ⟨rfl, rfl⟩ := Await.filled.inj hawait
      obtain rfl := Answer.row.inj (Option.some.inj hanswer)
      have hconfig := isSome_of_config hold (h.tidy.db slot)
      exact hconfig
    · obtain ⟨v, hv, hlater⟩ := h.tidy.spent e he
      dsimp only
      rw [Rows.due_put]
      split_ifs with hsame
      · exact ⟨next, rfl, hspent e he hsame⟩
      · exact ⟨v, hv, hlater⟩
    · cases he
    · dsimp only at hn
      rw [Rows.due_put] at hn
      split_ifs at hn with hsame
      · obtain rfl := Option.some.inj (Option.some.inj hn)
        exact absurd (hbound b hb) (not_lt.mpr hpast)
      · exact ⟨hn, fun hclaim => by cases hclaim⟩

theorem Orderly.handledClaim (h : Orderly env rows ⟨s, boundary, claimed, delivered⟩) {await : Await} {slot : Nat}
    {due next claimedAt now : Int}
    (hp : s.pending[i]? = some { await, call := some (.claimScheduledBroadcastDue slot due next claimedAt) })
    (hlater : due < next) (hawait : (∃ pass, await = .skipped pass slot next) ∨
      ∃ run row, await = .claimed run slot row next ∧ row.nextDueAt = some due)
    (hnext : s.db.due slot = some (some due) → ∀ b ∈ boundary, b < next)
    (hdue : s.db.due slot = some (some due) → (∃ run row, await = .claimed run slot row next) →
      ∀ b ∈ boundary, b < due) :
    Orderly env rows ((⟨s, boundary, claimed, delivered⟩ : Watch).step env (.handled i now)) := by
  have hkeeps : ∀ answer, ({ ({ await, call := some (.claimScheduledBroadcastDue slot due next claimedAt) } : Pending)
      with answer := some answer } : Pending).KeepsConfig rows := by
    intro answer pass m row hfilled
    rcases hawait with ⟨_, rfl⟩ | ⟨_, _, rfl, _⟩ <;> cases hfilled
  have hgranting := granting_eq hp
  rcases handle_claim env.slotCount s.db now slot due next claimedAt with
    ⟨hlost, hother⟩ | ⟨row, hrow, hrowDue, hclaimed⟩
  · have hnone : s.granting i = none := by
      rw [hgranting]
      simpa [Pending.claim, Option.filter] using hother
    rw [watch_handled hp rfl now hnone, hlost]
    refine h.settle hp (fun _ => rfl) rfl (hkeeps _) ?_ fun e he b _ _ => ?_
    · rcases hawait with ⟨_, rfl⟩ | ⟨_, _, rfl, _⟩ <;> rfl
    · obtain rfl := Option.some.inj he
      exact hother
  · have htable : s.db.due slot = some (some due) := by
      rw [Rows.due, hrow]
      exact congrArg some hrowDue
    have hsome : s.granting i = some (slot, due) := by
      rw [hgranting]
      simp [Pending.claim, Option.filter, htable]
    have hstep : (⟨s, boundary, claimed, delivered⟩ : Watch).step env (.handled i now) =
        ⟨({ s with db := s.db.put slot { row with nextDueAt := some next, updatedAt := claimedAt } } : Scheduler).answer
          i { await, call := some (.claimScheduledBroadcastDue slot due next claimedAt) } (.claimed true), boundary,
          claimed ++ [(slot, due)], delivered⟩ := by
      unfold Watch.step
      dsimp only [Scheduler.step]
      rw [hsome, handle_eq hp rfl, hclaimed]
      rfl
    have hfresh := spent_later h.tidy htable
    rw [hstep]
    refine h.answer hp (config_nextDueAt hrow _ _) (hkeeps _) ?_ (fun _ he => List.mem_append_left _ he)
      (spent_claim h.tidy htable hlater) (fun e he => ?_) fun _ _ b hb n past hn hpast => ?_
    · refine List.nodup_append.mpr ⟨h.tidy.once, List.nodup_singleton _, fun a ha c hc => ?_⟩
      rintro rfl
      obtain rfl := List.mem_singleton.mp hc
      exact hfresh ha
    · rcases hawait with ⟨_, rfl⟩ | ⟨run, held, rfl, hheld⟩
      · cases he
      · obtain rfl : (slot, due) = e := by
          unfold Pending.granted at he
          dsimp only at he
          rw [hheld] at he
          exact Option.some.inj he
        refine ⟨List.mem_append_right _ (List.mem_singleton_self _), fun hmem => ?_, hdue htable ⟨run, held, rfl⟩⟩
        obtain ⟨d, hd, hd'⟩ := List.mem_map.mp hmem
        exact hfresh (hd' ▸ (h.tidy.past d hd).1)
    · rw [Rows.due_put] at hn
      split_ifs at hn with hsame
      · obtain rfl := Option.some.inj (Option.some.inj hn)
        exact absurd (hnext htable b hb) (not_lt.mpr hpast)
      · refine ⟨hn, fun hclaim => ?_⟩
        exact absurd (congrArg Prod.fst (Option.some.inj hclaim)).symm hsame

theorem Orderly.handled (h : Orderly env rows ⟨s, boundary, claimed, delivered⟩) {now : Int}
    (htimely : Watch.Timely env ⟨s, boundary, claimed, delivered⟩ (.handled i now)) :
    Orderly env rows ((⟨s, boundary, claimed, delivered⟩ : Watch).step env (.handled i now)) := by
  have hsame : s.granting i = none → s.handle env i now = s →
      Orderly env rows ((⟨s, boundary, claimed, delivered⟩ : Watch).step env (.handled i now)) := by
    intro hgranting hhandle
    unfold Watch.step
    dsimp only [Scheduler.step]
    rw [hgranting, hhandle, Option.toList_none, List.append_nil]
    exact h
  cases hp : s.pending[i]? with
  | none => exact hsame (by simp [Scheduler.granting, hp]) (by simp [Scheduler.handle, hp])
  | some p =>
      have hmem := List.mem_of_getElem? hp
      have hsound := h.tidy.sound p hmem
      have hkept := htimely p hp
      obtain ⟨await, call, answer⟩ := p
      cases call with
      | none => exact hsame (by simp [Scheduler.granting, hp, Pending.claim]) (by simp [Scheduler.handle, hp])
      | some call =>
          cases answer with
          | some answer =>
              refine hsame ?_ (by simp [Scheduler.handle, hp])
              cases call <;> simp [Scheduler.granting, hp, Pending.claim]
          | none =>
              have hhandles := hkept rfl
              obtain ⟨hshape, _⟩ := hsound
              cases await with
              | filled pass slot =>
                  obtain ⟨⟨next, hcall, _⟩, hslot⟩ := hshape
                  obtain rfl := Option.some.inj hcall
                  obtain ⟨hbound, hspent⟩ := hhandles.1 (slot, next) rfl
                  exact h.handledFill hp hslot hbound hspent
              | skipped pass slot next =>
                  obtain ⟨due, hcall, hlater⟩ := hshape
                  obtain rfl := Option.some.inj hcall
                  refine h.handledClaim hp hlater (.inl ⟨pass, rfl⟩)
                    (fun hdue b hb => (hhandles.2 (slot, due) rfl hdue b hb).1 next rfl) fun _ hclaims => ?_
                  obtain ⟨_, _, hclaims⟩ := hclaims
                  cases hclaims
              | missed pass slot next =>
                  obtain ⟨claimedAt, result, hcall⟩ := hshape
                  obtain rfl := Option.some.inj hcall
                  rw [watch_handled hp rfl now (by rw [granting_eq hp]; rfl)]
                  refine h.settle hp (config_setResult _ _ _ _ _ _) (handle_setResult _ _ _ _ _ _).1
                    (fun _ _ _ hawait => ?_) ?_ fun e he => ?_
                  · cases hawait
                  · rfl
                  · cases he
              | normalized caller => cases hshape
              | claimed run slot row next =>
                  obtain ⟨hrange, henabled, hconfig, due, claimedAt, hrow, hlater, hcall⟩ := hshape
                  obtain rfl := Option.some.inj hcall
                  have hpast : s.db.due slot = some (some due) → ∀ b ∈ boundary, b < due := by
                    intro hdue b hb
                    by_contra hearly
                    obtain ⟨hstarted, hon, howed, hfree⟩ := (hhandles.2 (slot, due) rfl hdue b hb).2 rfl (not_lt.mp hearly)
                    have huser : (rows slot).any (·.enabled) = true := by
                      obtain ⟨user, huser, hsame⟩ := Option.map_eq_some_iff.mp hconfig
                      rw [huser]
                      exact (congrArg Prod.snd hsame).trans henabled
                    rcases h.covered hstarted hon b hb slot hrange huser due hdue (not_lt.mp hearly) with
                      hreconcile | ⟨q, hq, hadvances⟩ | ⟨pass, hpass, _⟩
                    · exact absurd (hreconcile.symm.trans howed) (by decide)
                    · exact hfree q hq hadvances
                    · cases hpass
                  exact h.handledClaim hp hlater (.inr ⟨run, row, rfl, hrow⟩)
                    (fun hdue b hb => (hpast hdue b hb).trans hlater) fun hdue _ => hpast hdue
              | delivered owner slot nextDueAt =>
                  obtain ⟨⟨row, hcall⟩, _⟩ := hshape
                  obtain rfl := Option.some.inj hcall
                  refine hsame ?_ ?_
                  · rw [granting_eq hp]
                    rfl
                  · simp [Scheduler.handle, hp, Pending.isDelivery]
              | recorded owner slot patch =>
                  obtain ⟨⟨claimedAt, result, hcall⟩, _⟩ := hshape
                  obtain rfl := Option.some.inj hcall
                  rw [watch_handled hp rfl now (by rw [granting_eq hp]; rfl)]
                  refine h.settle hp (config_setResult _ _ _ _ _ _) (handle_setResult _ _ _ _ _ _).1
                    (fun _ _ _ hawait => ?_) ?_ fun e he => ?_
                  · cases hawait
                  · rfl
                  · cases he
              | saved slot => exact absurd hshape id

end Events

section Events

variable {boundary : Option Int} {claimed : List (Nat × Int)} {delivered : List Delivery} {i : Nat} {p : Pending}

theorem Orderly.rejected (h : Orderly env rows ⟨s, boundary, claimed, delivered⟩)
    (htimely : Watch.Timely env ⟨s, boundary, claimed, delivered⟩ (.rejected i)) :
    Orderly env rows ((⟨s, boundary, claimed, delivered⟩ : Watch).step env (.rejected i)) := by
  change Orderly env rows ⟨s.step env (.rejected i), boundary, claimed, delivered⟩
  simp only [Scheduler.step]
  cases hp : s.pending[i]? with
  | none => exact h
  | some p =>
      dsimp only
      split_ifs
      · exact h
      · refine h.settle hp (fun _ => rfl) rfl (fun _ _ _ _ hanswer => ?_) ?_ (htimely p hp)
        · cases hanswer
        · obtain ⟨await, call, _⟩ := p
          cases await <;> rfl

theorem Orderly.delivers (h : Orderly env rows ⟨s, boundary, claimed, delivered⟩) (outcome : Option RunOutcome) :
    Orderly env rows ((⟨s, boundary, claimed, delivered⟩ : Watch).step env (.delivered i outcome)) := by
  change Orderly env rows ⟨s.step env (.delivered i outcome), boundary, claimed, delivered⟩
  simp only [Scheduler.step]
  cases hp : s.pending[i]? with
  | none => exact h
  | some p =>
      dsimp only
      split_ifs with hskip
      · exact h
      · have hdelivery : p.isDelivery = true := by simpa using (not_or.mp hskip).2
        have hclaim : p.claim = none := by
          unfold Pending.isDelivery at hdelivery
          unfold Pending.claim
          split at hdelivery
          · rename_i hcall
            rw [hcall]
          · cases hdelivery
        refine h.settle hp (fun _ => rfl) rfl (fun _ _ _ _ hanswer => ?_) ?_ fun e he => ?_
        · cases hanswer
        · obtain ⟨await, call, _⟩ := p
          cases await <;> rfl
        · rw [hclaim] at he
          cases he

-- Where a wait is over, nobody else holds the run.
theorem not_granted_erase (h : s.Single) (hp : s.pending[i]? = some p) (hholds : p.await.holdsRun = true) :
    ∀ q ∈ s.pending.eraseIdx i, q.granted = none := by
  intro q hq
  have herase := holders_erase hp
  rw [h, hholds] at herase
  have hzero : ({ s with pending := s.pending.eraseIdx i } : Scheduler).holders = 0 := by
    have hbound := Bool.toNat_le s.running
    change s.running.toNat = 1 + _ at herase
    omega
  have hfree := List.countP_eq_zero.mp hzero q hq
  obtain ⟨await, call, answer⟩ := q
  cases await with
  | claimed run slot row next => exact absurd rfl hfree
  | _ => rfl

-- A granted claim becomes a delivery.
theorem Tidy.fire (h : Tidy env rows ⟨s, boundary, claimed, delivered⟩) (hsingle : s.Single)
    (hp : s.pending[i]? = some p) {e : Nat × Int} (hgrant : p.granted = some e) :
    Tidy env rows ⟨{ s with pending := s.pending.eraseIdx i }, boundary, claimed,
      delivered ++ ((p.granted).map fun e => (⟨e.1, e.2, boundary⟩ : Delivery)).toList⟩ := by
  obtain ⟨hclaimed, hnew, hpast⟩ := h.granted p (List.mem_of_getElem? hp) e hgrant
  have hholds : p.await.holdsRun = true := by
    obtain ⟨await, call, answer⟩ := p
    cases await with
    | claimed run slot row next => rfl
    | _ => cases hgrant
  have hnone := not_granted_erase hsingle hp hholds
  have herased := h.erase i
  rw [hgrant]
  refine ⟨herased.seen, herased.sound, herased.db, herased.slots, herased.answers, herased.once, herased.spent, ?_,
    fun d hd => ?_, fun q hq f hf => ?_⟩
  · rw [List.map_append]
    refine List.nodup_append.mpr ⟨h.fired, List.nodup_singleton _, fun a ha c hc => ?_⟩
    rintro rfl
    obtain rfl := List.mem_singleton.mp hc
    exact hnew ha
  · rcases List.mem_append.mp hd with hd | hd
    · exact h.past d hd
    · obtain rfl := List.mem_singleton.mp hd
      exact ⟨hclaimed, hpast⟩
  · rw [hnone q hq] at hf
    cases hf

theorem Orderly.answered (h : Orderly env rows ⟨s, boundary, claimed, delivered⟩) {now : Int}
    (htimely : Watch.Timely env ⟨s, boundary, claimed, delivered⟩ (.answered i now)) :
    Orderly env rows ((⟨s, boundary, claimed, delivered⟩ : Watch).step env (.answered i now)) := by
  have hsame : (s.pending[i]?.bind Pending.granted) = none → s.step env (.answered i now) = s →
      Orderly env rows ((⟨s, boundary, claimed, delivered⟩ : Watch).step env (.answered i now)) := by
    intro hgranted hstep
    unfold Watch.step
    dsimp only
    rw [hgranted, hstep, Option.map_none, Option.toList_none, List.append_nil]
    exact h
  cases hp : s.pending[i]? with
  | none => exact hsame (by rw [hp]; rfl) (by simp [Scheduler.step, hp])
  | some p =>
      have hmem := List.mem_of_getElem? hp
      cases hanswer : p.answer with
      | none =>
          refine hsame ?_ (by simp [Scheduler.step, hp, hanswer])
          rw [hp]
          unfold Pending.granted Option.bind
          dsimp only
          rw [hanswer]
          cases p.await <;> rfl
      | some answer =>
          set fresh : List Delivery :=
            ((p.granted).map fun e => (⟨e.1, e.2, boundary⟩ : Delivery)).toList with hfresh
          have hstep : (⟨s, boundary, claimed, delivered⟩ : Watch).step env (.answered i now) =
              ⟨({ s with pending := s.pending.eraseIdx i } : Scheduler).resume env now p.await answer, boundary, claimed,
                delivered ++ fresh⟩ := by
            unfold Watch.step
            simp only [Scheduler.step]
            rw [hp, Option.bind_some]
            simp only [hanswer]
            rfl
          have herased : Tidy env rows ⟨{ s with pending := s.pending.eraseIdx i }, boundary, claimed,
              delivered ++ fresh⟩ := by
            cases hgrant : p.granted with
            | none =>
                have hnil : fresh = [] := by
                  rw [hfresh, hgrant]
                  rfl
                rw [hnil, List.append_nil]
                exact h.tidy.erase i
            | some e => exact h.tidy.fire h.single hp hgrant
          have hend : p.mayEnd = true → s.reconcilePending = true → (∀ b ∈ boundary, b ≤ now) ∧
              s.Knows env (p.await.memory s.slots) now := htimely p hp
          have hsound := h.tidy.sound p hmem
          have hkeeps := h.tidy.answers p hmem
          obtain ⟨table, htable, hcalls⟩ := @resume_calls env rows { s with pending := s.pending.eraseIdx i }
            h.tidy.slots p hsound hkeeps answer hanswer now
          rw [hstep]
          refine ⟨?_, (herased.slots' htable).calls hcalls, fun hstarted henabled b hb => ?_⟩
          · have hsingle := @Scheduler.Single.step env s h.single (.answered i now)
            simp only [Scheduler.step] at hsingle
            rw [hp] at hsingle
            simp only [hanswer] at hsingle
            exact hsingle
          · have hcovered := covered_erase (h.covered (hcalls.started.symm.trans hstarted)
              (hcalls.enabled.symm.trans henabled) b hb) hp (by rw [hanswer]; rfl)
            refine covered_resume hcovered h.tidy.seen h.tidy.db h.tidy.slots hsound hkeeps hanswer fun hmay howed => ?_
            exact ⟨(hend hmay howed).1 b hb, (hend hmay howed).2⟩

end Events

section Events

variable {boundary boundary' : Option Int} {claimed : List (Nat × Int)} {delivered : List Delivery}

-- The scheduler goes on by itself.
theorem Orderly.calls (h : Orderly env rows ⟨s, boundary, claimed, delivered⟩) (hc : Calls env rows s s')
    (hsingle : s'.Single) (hcovered : s.started = true → s.enabled = true → ∀ b ∈ boundary,
      s.Covered env rows none b → s'.Covered env rows none b) :
    Orderly env rows ⟨s', boundary, claimed, delivered⟩ :=
  ⟨hsingle, h.tidy.calls hc, fun hstarted henabled b hb =>
    hcovered (hc.started ▸ hstarted) (hc.enabled ▸ henabled) b hb
      (h.covered (hc.started ▸ hstarted) (hc.enabled ▸ henabled) b hb)⟩

-- At a new boundary no granted claim of a tick is on its way.
theorem Tidy.bound (h : Tidy env rows ⟨s, boundary, claimed, delivered⟩) (hnone : ∀ p ∈ s.pending, p.granted = none)
    (boundary' : Option Int) : Tidy env rows ⟨s, boundary', claimed, delivered⟩ := by
  refine ⟨h.seen, h.sound, h.db, h.slots, h.answers, h.once, h.spent, h.fired, h.past, fun p hp e he => ?_⟩
  rw [hnone p hp] at he
  cases he

theorem Tidy.flags (h : Tidy env rows ⟨s, boundary, claimed, delivered⟩) (hdb : s'.db = s.db) (hslots : s'.slots = s.slots)
    (hpending : s'.pending = s.pending)
    (hseen : s'.started = true → s'.enabled = true → s'.lastEnabled = true) :
    Tidy env rows ⟨s', boundary, claimed, delivered⟩ := by
  refine ⟨hseen, ?_, ?_, ?_, ?_, h.once, ?_, h.fired, h.past, ?_⟩
  · rw [hpending]
    exact h.sound
  · rw [hdb]
    exact h.db
  · rw [hslots]
    exact h.slots
  · rw [hpending]
    exact h.answers
  · rw [hdb]
    exact h.spent
  · rw [hpending]
    exact h.granted

theorem Orderly.booted (h : Orderly env rows ⟨s, boundary, claimed, delivered⟩) {now : Int}
    (htimely : Watch.Timely env ⟨s, boundary, claimed, delivered⟩ (.booted now)) :
    Orderly env rows ((⟨s, boundary, claimed, delivered⟩ : Watch).step env (.booted now)) := by
  change Orderly env rows ⟨s.step env (.booted now), if s.started then boundary else some now, claimed, delivered⟩
  have hsingle := @Scheduler.Single.step env s h.single (.booted now)
  simp only [Scheduler.step] at hsingle ⊢
  split_ifs at hsingle ⊢ with hstarted
  · exact h
  · obtain ⟨hnone, hknows⟩ := htimely (by simpa using hstarted)
    have hopened : Tidy env rows ⟨{ s with started := true, lastEnabled := s.enabled }, some now, claimed, delivered⟩ :=
      (h.tidy.bound hnone (some now)).flags rfl rfl rfl fun _ henabled => henabled
    unfold Scheduler.start at hsingle ⊢
    dsimp only at hsingle ⊢
    split_ifs at hsingle ⊢ with henabled
    · have hcalls : Calls env rows { s with started := true, lastEnabled := s.enabled }
          (Scheduler.normalizeSlots env { s with started := true, lastEnabled := s.enabled } .skipMissed .start now) :=
        calls_normalizeSlots hopened.slots _ _ now
      refine ⟨hsingle, hopened.calls hcalls, fun _ _ b hb => ?_⟩
      obtain rfl := Option.some.inj hb
      have hopen : Scheduler.Knows env { s with started := true, lastEnabled := s.enabled } s.slots.due now :=
        hknows henabled
      exact hopen.covered hopened.db hopened.slots le_rfl .start
    · have harm : Calls env rows { s with started := true, lastEnabled := s.enabled }
          (Scheduler.arm env { s with started := true, lastEnabled := s.enabled } now) := calls_arm now
      refine ⟨hsingle, (hopened.calls harm).flags rfl rfl rfl fun _ hon => ?_, fun _ hon => ?_⟩
      · exact absurd (harm.enabled.symm.trans hon) henabled
      · exact absurd (harm.enabled.symm.trans hon) henabled

-- The switch goes on: a pass starts, or the run in progress owes one.
theorem Tidy.turnedOn {now : Int} (h : Tidy env rows ⟨s, some now, claimed, delivered⟩)
    (hsingle : (if s.subscribed then Scheduler.refresh env { s with enabled := true } now
      else { s with enabled := true }).Single)
    (hmust : s.started = true → s.subscribed = true ∧ s.lastEnabled = false ∧
      (s.running = false → s.Knows env s.slots.due now)) :
    Orderly env rows ⟨if s.subscribed then Scheduler.refresh env { s with enabled := true } now
      else { s with enabled := true }, some now, claimed, delivered⟩ := by
  by_cases hstarted : s.started = true
  · obtain ⟨hsubscribed, hlast, hknows⟩ := hmust hstarted
    rw [if_pos hsubscribed] at hsingle ⊢
    have hseen : Tidy env rows ⟨{ s with enabled := true, lastEnabled := true }, some now, claimed, delivered⟩ :=
      h.flags rfl rfl rfl fun _ _ => rfl
    have htarget : Scheduler.refresh env { s with enabled := true } now =
        if s.running then
          ({ s with enabled := true, lastEnabled := true, reconcilePending := true } : Scheduler).arm env now
        else ({ s with enabled := true, lastEnabled := true } : Scheduler).normalizeSlots env .skipMissed .refresh
          now := by
      unfold Scheduler.refresh
      cases hrunning : s.running <;> simp [hstarted, hlast]
    rw [htarget] at hsingle ⊢
    split_ifs at hsingle ⊢ with hrunning
    · have howed : Tidy env rows
          ⟨{ s with enabled := true, lastEnabled := true, reconcilePending := true }, some now, claimed, delivered⟩ :=
        h.flags rfl rfl rfl fun _ _ => rfl
      refine ⟨hsingle, howed.calls (calls_arm now), fun _ _ b _ => ?_⟩
      exact fun n _ _ due _ _ => .inl (arm_reconcile now)
    · refine ⟨hsingle, hseen.calls (calls_normalizeSlots hseen.slots _ _ now), fun _ _ b hb => ?_⟩
      obtain rfl := Option.some.inj hb
      have hopen : Scheduler.Knows env { s with enabled := true, lastEnabled := true } s.slots.due now :=
        hknows (by simpa using hrunning)
      exact hopen.covered hseen.db hseen.slots le_rfl .refresh
  · have hsame : (if s.subscribed then Scheduler.refresh env { s with enabled := true } now
        else { s with enabled := true }) = { s with enabled := true } := by
      unfold Scheduler.refresh
      simp [hstarted]
    rw [hsame] at hsingle ⊢
    refine ⟨hsingle, h.flags rfl rfl rfl fun hon => ?_, fun hon => ?_⟩
    · exact absurd hon hstarted
    · exact absurd hon hstarted

theorem Orderly.settingChanged (h : Orderly env rows ⟨s, boundary, claimed, delivered⟩) {enabled : Bool} {now : Int}
    (htimely : Watch.Timely env ⟨s, boundary, claimed, delivered⟩ (.settingChanged enabled now)) :
    Orderly env rows ((⟨s, boundary, claimed, delivered⟩ : Watch).step env (.settingChanged enabled now)) := by
  change Orderly env rows ⟨s.step env (.settingChanged enabled now),
    if enabled && !s.enabled then some now else boundary, claimed, delivered⟩
  have hsingle := @Scheduler.Single.step env s h.single (.settingChanged enabled now)
  simp only [Scheduler.step] at hsingle ⊢
  cases enabled with
  | false =>
      have hoff : Tidy env rows ⟨{ s with enabled := false }, boundary, claimed, delivered⟩ :=
        h.tidy.flags rfl rfl rfl fun _ hon => absurd hon (by simp)
      have hcalls : Calls env rows { s with enabled := false }
          (if s.subscribed then Scheduler.refresh env { s with enabled := false } now else { s with enabled := false }) := by
        split_ifs
        · exact calls_refresh hoff.slots now
        · exact .refl _
      refine ⟨hsingle, hoff.calls hcalls, fun _ hon => ?_⟩
      exact absurd (hcalls.enabled.symm.trans hon) (by simp)
  | true =>
      cases hon : s.enabled with
      | true =>
          have hsame : Orderly env rows ⟨{ s with enabled := true }, boundary, claimed, delivered⟩ :=
            h.calls (.of_eq rfl rfl rfl hon.symm (fun _ hlast => hlast) rfl) h.single fun _ _ _ _ hcovered => hcovered
          refine hsame.calls ?_ hsingle fun _ _ b _ hcovered => ?_
          · split_ifs
            · exact calls_refresh hsame.tidy.slots now
            · exact .refl _
          · split_ifs
            · exact (calls_refresh hsame.tidy.slots now).covered (refresh_reconcile now) hcovered
            · exact hcovered
      | false =>
          obtain ⟨hnone, hmust⟩ := htimely rfl hon
          exact (h.tidy.bound hnone (some now)).turnedOn hsingle hmust

theorem Orderly.powerResumed (h : Orderly env rows ⟨s, boundary, claimed, delivered⟩) {now : Int}
    (htimely : Watch.Timely env ⟨s, boundary, claimed, delivered⟩ (.powerResumed now)) :
    Orderly env rows ((⟨s, boundary, claimed, delivered⟩ : Watch).step env (.powerResumed now)) := by
  change Orderly env rows ⟨s.step env (.powerResumed now), some now, claimed, delivered⟩
  obtain ⟨hnone, hmust⟩ := htimely
  have hbound := h.tidy.bound hnone (some now)
  have hsingle := @Scheduler.Single.step env s h.single (.powerResumed now)
  simp only [Scheduler.step] at hsingle ⊢
  split_ifs at hsingle ⊢ with hsubscribed
  · unfold Scheduler.onPowerResume at hsingle ⊢
    dsimp only at hsingle ⊢
    split_ifs at hsingle ⊢ with hstarted hrunning henabled
    · refine ⟨hsingle, hbound.flags rfl rfl rfl h.tidy.seen, fun _ _ b _ => ?_⟩
      exact fun n _ _ due _ _ => .inl rfl
    · have hresumed : Tidy env rows
          ⟨{ s with resumeEpoch := s.resumeEpoch + 1, running := true }, some now, claimed, delivered⟩ :=
        hbound.flags rfl rfl rfl h.tidy.seen
      refine ⟨hsingle, hresumed.calls (calls_normalizeSlots hresumed.slots _ _ now), fun _ _ b hb => ?_⟩
      obtain rfl := Option.some.inj hb
      have hopen : Scheduler.Knows env { s with resumeEpoch := s.resumeEpoch + 1, running := true } s.slots.due now :=
        (hmust (by simpa using hstarted)).2 (by simpa using hrunning) henabled
      exact hopen.covered hresumed.db hresumed.slots le_rfl .onPowerResume
    · have hresumed : Tidy env rows ⟨{ s with resumeEpoch := s.resumeEpoch + 1 }, some now, claimed, delivered⟩ :=
        hbound.flags rfl rfl rfl h.tidy.seen
      have hcalls : Calls env rows { s with resumeEpoch := s.resumeEpoch + 1 }
          (Scheduler.arm env { s with resumeEpoch := s.resumeEpoch + 1 } now) := calls_arm now
      refine ⟨hsingle, hresumed.calls hcalls, fun _ hon => ?_⟩
      exact absurd (hcalls.enabled.symm.trans hon) henabled
    · exact ⟨hsingle, hbound, fun hon => absurd hon (by simpa using hstarted)⟩
  · refine ⟨h.single, hbound, fun hstarted => ?_⟩
    exact absurd (hmust hstarted).1 hsubscribed

theorem Orderly.ticks (h : Orderly env rows ⟨s, boundary, claimed, delivered⟩) {now : Int}
    (hready : s.reconcilePending = true → (∀ b ∈ boundary, b ≤ now) ∧ s.Knows env s.slots.due now) :
    Orderly env rows ⟨s.tick env now, boundary, claimed, delivered⟩ := by
  refine h.calls (calls_tick h.tidy.slots now) (tick_single h.single now) fun _ _ b hb hcovered => ?_
  exact covered_tick hcovered h.tidy.db h.tidy.slots fun howed => ⟨(hready howed).1 b hb, (hready howed).2⟩

theorem Orderly.sendNow (h : Orderly env rows ⟨s, boundary, claimed, delivered⟩) (slot : Nat) :
    Orderly env rows ((⟨s, boundary, claimed, delivered⟩ : Watch).step env (.sendNow slot)) := by
  change Orderly env rows ⟨s.step env (.sendNow slot), boundary, claimed, delivered⟩
  have hsingle := @Scheduler.Single.step env s h.single (.sendNow slot)
  simp only [Scheduler.step] at hsingle ⊢
  unfold Scheduler.sendNow at hsingle ⊢
  cases hfind : (s.getSlots env).find? fun e => e.1 == slot with
  | none => exact h
  | some e =>
      obtain ⟨found, row⟩ := e
      rw [hfind] at hsingle
      dsimp only at hsingle ⊢
      split_ifs at hsingle ⊢
      · exact h
      · have hslot := (mem_getSlots' (List.mem_of_find?_eq_some hfind)).2
        have hfound : found = slot := by simpa using List.find?_some hfind
        have hsome : (rows slot).isSome := isSome_of_map_eq_some (isSome_of_config (hfound ▸ hslot) (h.tidy.slots slot))
        have hcalls : Calls env rows s (({ s with running := true } : Scheduler).deliver .sendNow slot row row.nextDueAt) := by
          refine Calls.after (calls_request ⟨⟨⟨row, rfl⟩, hsome⟩, fun pass hpass => ?_⟩) rfl rfl rfl rfl
            (fun _ h => h) rfl
          cases hpass
        refine h.calls hcalls hsingle fun _ _ b _ hcovered => ?_
        exact hcovered.mono rfl id fun p hp => List.mem_append_left _ hp

theorem Orderly.step {w : Watch} (h : Orderly env rows w) (event : Event) (htimely : w.Timely env event) :
    Orderly env rows (w.step env event) := by
  obtain ⟨s, boundary, claimed, delivered⟩ := w
  cases event with
  | booted now => exact h.booted htimely
  | settingChanged enabled now => exact h.settingChanged htimely
  | powerResumed now => exact h.powerResumed htimely
  | timerFired now =>
      change Orderly env rows ⟨s.step env (.timerFired now), boundary, claimed, delivered⟩
      simp only [Scheduler.step]
      split_ifs
      · have hfired : Orderly env rows ⟨{ s with timer := none }, boundary, claimed, delivered⟩ :=
          h.calls (.of_eq rfl rfl rfl rfl (fun _ h => h) rfl) h.single fun _ _ _ _ hcovered => hcovered
        exact hfired.ticks htimely
      · exact h
  | intervalFired now =>
      change Orderly env rows ⟨s.step env (.intervalFired now), boundary, claimed, delivered⟩
      simp only [Scheduler.step]
      split_ifs
      · exact h.ticks htimely
      · exact h
  | sendNow slot => exact h.sendNow slot
  | save slot input => exact absurd htimely id
  | handled i now => exact h.handled htimely
  | rejected i => exact h.rejected htimely
  | delivered i outcome => exact h.delivers outcome
  | answered i now => exact h.answered htimely

end Events

theorem hydrated_orderly (rows : Rows) (enabled : Bool) : Orderly env rows (.hydrated rows enabled) := by
  refine ⟨rfl, ⟨fun hstarted => ?_, by simp [Watch.hydrated, Scheduler.hydrated], fun _ => rfl, fun _ => rfl,
    by simp [Watch.hydrated, Scheduler.hydrated], List.nodup_nil, by simp [Watch.hydrated], List.nodup_nil,
    by simp [Watch.hydrated], by simp [Watch.hydrated, Scheduler.hydrated]⟩, fun hstarted => ?_⟩
  · cases hstarted
  · cases hstarted

-- No two deliveries overlap; every due time is claimed and delivered at most once; and no timer
-- delivers what was due at or before the last boundary.
structure Watch.Exact (w : Watch) : Prop where
  alone : (w.scheduler.pending.countP Pending.isDelivery) ≤ 1
  claimedOnce : w.claimed.Nodup
  deliveredOnce : (w.delivered.map Delivery.occurrence).Nodup
  deliveredClaimed : ∀ d ∈ w.delivered, d.occurrence ∈ w.claimed
  late : ∀ d ∈ w.delivered, ∀ b ∈ d.boundary, b < d.due

theorem Orderly.exact {w : Watch} (h : Orderly env rows w) : w.Exact := by
  refine ⟨?_, h.tidy.once, h.tidy.fired, fun d hd => (h.tidy.past d hd).1, fun d hd => (h.tidy.past d hd).2⟩
  have hle : w.scheduler.pending.countP Pending.isDelivery ≤ w.scheduler.holders := by
    refine List.countP_mono_left fun p hp hdelivery => ?_
    obtain ⟨hshape, _⟩ := h.tidy.sound p hp
    obtain ⟨await, call, answer⟩ := p
    cases await with
    | filled pass slot =>
        obtain ⟨⟨next, hcall, _⟩, _⟩ := hshape
        obtain rfl : call = _ := hcall
        cases hdelivery
    | skipped pass slot next =>
        obtain ⟨due, hcall, _⟩ := hshape
        obtain rfl : call = _ := hcall
        cases hdelivery
    | missed pass slot next =>
        obtain ⟨_, _, hcall⟩ := hshape
        obtain rfl : call = _ := hcall
        cases hdelivery
    | normalized caller =>
        obtain rfl : call = none := hshape
        cases hdelivery
    | claimed run slot row next => rfl
    | delivered owner slot nextDueAt => rfl
    | recorded owner slot patch => rfl
    | saved slot => exact absurd hshape id
  refine hle.trans ?_
  rw [h.single]
  exact Bool.toNat_le _

-- In every run whose steps are timely nothing missed is replayed and nothing is sent twice.
theorem missed_never_replayed (rows : Rows) (enabled : Bool) (events : List Event)
    (h : Each (Watch.step env) (Watch.Timely env) (.hydrated rows enabled) events) :
    (run (Watch.step env) (.hydrated rows enabled) events).Exact :=
  Orderly.exact (invariant_of_each (P := Orderly env rows) (fun _ event htimely horderly => horderly.step event htimely) h
    (hydrated_orderly rows enabled))

section Decide

instance (pass : Pass) (bound : Int) (slot : Nat) (due : Int) : Decidable (pass.advances env bound slot due) :=
  inferInstanceAs (Decidable (pass.mode = .skipMissed ∧ bound ≤ pass.now ∧ ∃ e ∈ pass.rest, e.1 = slot ∧
    e.2.nextDueAt = some due ∧ (env.time.advancePastDue e.2.toRule due pass.now).isSome))

instance Await.skips.decidable (bound : Int) (slot : Nat) : (await : Await) → Decidable (await.skips bound slot)
  | .skipped _ n next => inferInstanceAs (Decidable (n = slot ∧ bound < next))
  | .filled _ _ => .isFalse id
  | .missed _ _ _ => .isFalse id
  | .normalized _ => .isFalse id
  | .claimed _ _ _ _ => .isFalse id
  | .delivered _ _ _ => .isFalse id
  | .recorded _ _ _ => .isFalse id
  | .saved _ => .isFalse id

instance (p : Pending) (bound : Int) (slot : Nat) (due : Int) : Decidable (p.advances env bound slot due) :=
  inferInstanceAs (Decidable ((p.claim = some (slot, due) ∧ p.await.skips bound slot) ∨
    ∃ pass ∈ p.await.pass, pass.advances env bound slot due))

instance (s : Scheduler) (memory : Nat → Option (Option Int)) (now : Int) : Decidable (s.Knows env memory now) :=
  inferInstanceAs (Decidable (∀ n ∈ List.range' 1 env.slotCount, ∀ row ∈ s.db n, row.enabled = true →
    ∀ due ∈ row.nextDueAt, due ≤ now →
      memory n = some (some due) ∧ (env.time.advancePastDue row.toRule due now).isSome))

instance (w : Watch) (memory : Nat → Option (Option Int)) (now : Int) : Decidable (w.Ready env memory now) :=
  inferInstanceAs (Decidable (w.scheduler.reconcilePending = true →
    (∀ b ∈ w.boundary, b ≤ now) ∧ w.scheduler.Knows env memory now))

instance (w : Watch) (p : Pending) : Decidable (w.Handles env p) :=
  inferInstanceAs (Decidable ((∀ e ∈ p.fill, (∀ b ∈ w.boundary, b < e.2) ∧
    ∀ c ∈ w.claimed, c.1 = e.1 → c.2 < e.2) ∧
    ∀ e ∈ p.claim, w.scheduler.db.due e.1 = some (some e.2) → ∀ b ∈ w.boundary,
      (∀ next ∈ p.await.skipTo, b < next) ∧ (p.await.fires = true → e.2 ≤ b →
        w.scheduler.started = true ∧ w.scheduler.enabled = true ∧ w.scheduler.reconcilePending = false ∧
          ∀ q ∈ w.scheduler.pending, ¬q.advances env b e.1 e.2)))

instance (w : Watch) : Decidable w.NoGrant :=
  inferInstanceAs (Decidable (∀ p ∈ w.scheduler.pending, p.granted = none))

instance Watch.Timely.decidable (w : Watch) : (event : Event) → Decidable (w.Timely env event)
  | .booted now => inferInstanceAs (Decidable (w.scheduler.started = false →
      w.NoGrant ∧ (w.scheduler.enabled = true → w.scheduler.Knows env w.scheduler.slots.due now)))
  | .settingChanged enabled now => inferInstanceAs (Decidable (enabled = true → w.scheduler.enabled = false →
      w.NoGrant ∧ (w.scheduler.started = true → w.scheduler.subscribed = true ∧ w.scheduler.lastEnabled = false ∧
        (w.scheduler.running = false → w.scheduler.Knows env w.scheduler.slots.due now))))
  | .powerResumed now => inferInstanceAs (Decidable (w.NoGrant ∧ (w.scheduler.started = true →
      w.scheduler.subscribed = true ∧ (w.scheduler.running = false → w.scheduler.enabled = true →
        w.scheduler.Knows env w.scheduler.slots.due now))))
  | .timerFired now => inferInstanceAs (Decidable (w.Ready env w.scheduler.slots.due now))
  | .intervalFired now => inferInstanceAs (Decidable (w.Ready env w.scheduler.slots.due now))
  | .sendNow _ => inferInstanceAs (Decidable True)
  | .save _ _ => inferInstanceAs (Decidable False)
  | .handled i _ => inferInstanceAs (Decidable (∀ p ∈ w.scheduler.pending[i]?, p.answer = none → w.Handles env p))
  | .rejected i => inferInstanceAs (Decidable (∀ p ∈ w.scheduler.pending[i]?, ∀ e ∈ p.claim, ∀ b ∈ w.boundary,
      p.await.skips b e.1 → w.scheduler.db.due e.1 ≠ some (some e.2)))
  | .delivered _ _ => inferInstanceAs (Decidable True)
  | .answered i now => inferInstanceAs (Decidable (∀ p ∈ w.scheduler.pending[i]?, p.mayEnd = true →
      w.Ready env (p.await.memory w.scheduler.slots) now))

end Decide

-- Slot 1 goes out every day at nine, slot 2 ten minutes later.
def twoDaily : Rows := fun slot =>
  if slot = 1 then
    some { interval := .daily, timeOfDayMin := 540, enabled := true, nextDueAt := some 32400000, updatedAt := 0 }
  else if slot = 2 then
    some { interval := .daily, timeOfDayMin := 550, enabled := true, nextDueAt := some 33000000, updatedAt := 0 }
  else none

-- The computer sleeps through both times; slot 1 is next delivered a day later.
theorem missed_never_replayed_sleep :
    (run (Watch.step utcPlatform) (.hydrated twoDaily true)
      [.booted 0, .answered 0 0, .powerResumed 36000000, .handled 0 36000000, .answered 0 36000000,
        .handled 0 36000000, .answered 0 36000000, .handled 0 36000000, .answered 0 36000000, .handled 0 36000000,
        .answered 0 36000000, .answered 0 36000000, .timerFired 118800000, .handled 0 118800000,
        .answered 0 118800000]).Exact :=
  missed_never_replayed twoDaily true _ (by decide)

-- The switch is off while slot 2 comes due, and turned on again before the delivery of slot 1
-- has ended: the run goes on to slot 2 before the pass it owes.
theorem switch_on_during_delivery_replays :
    ¬(run (Watch.step utcPlatform) (.hydrated twoDaily true)
      [.booted 0, .answered 0 0, .timerFired 32400000, .handled 0 32400000, .answered 0 32400000,
        .settingChanged false 32700000, .settingChanged true 33600000, .delivered 0 (some .sent),
        .answered 0 34200000, .handled 0 34200000, .answered 0 34200000, .handled 0 34200000,
        .answered 0 34200000]).Exact := by
  intro h
  have hlate := h.late ⟨2, 33000000, some 33600000⟩ (by decide) 33600000 rfl
  exact absurd hlate (by decide)

end MeshClient.ScheduledBroadcasts
