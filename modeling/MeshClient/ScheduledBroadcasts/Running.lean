import MeshClient.ScheduledBroadcasts.Scheduler
import MeshClient.Lib.Run

namespace MeshClient.ScheduledBroadcasts

def Caller.holdsRun : Caller → Bool
  | .start => false
  | .refresh => false
  | .finishRun => true
  | .onPowerResume => true

-- The waits of the one who has set the `running` flag.
def Await.holdsRun : Await → Bool
  | .filled pass _ => pass.caller.holdsRun
  | .skipped pass _ _ => pass.caller.holdsRun
  | .missed pass _ _ => pass.caller.holdsRun
  | .normalized caller => caller.holdsRun
  | .claimed _ _ _ _ => true
  | .delivered _ _ _ => true
  | .recorded _ _ _ => true
  | .saved _ => false

def Scheduler.holders (s : Scheduler) : Nat := s.pending.countP fun p => p.await.holdsRun

-- The flag is set exactly while one run waits for something.
def Scheduler.Single (s : Scheduler) : Prop := s.holders = s.running.toNat

variable {env : Platform} {s : Scheduler} {i : Nat} {p : Pending}

theorem holders_erase (hp : s.pending[i]? = some p) :
    s.holders = p.await.holdsRun.toNat + ({ s with pending := s.pending.eraseIdx i } : Scheduler).holders := by
  obtain ⟨hi, rfl⟩ := List.getElem?_eq_some_iff.mp hp
  have hcount := (List.getElem_cons_eraseIdx_perm hi).countP_eq fun p => p.await.holdsRun
  rw [List.countP_cons] at hcount
  unfold Scheduler.holders
  rw [← hcount]
  cases s.pending[i].await.holdsRun <;> simp [Nat.add_comm]

theorem holders_answer (hp : s.pending[i]? = some p) (answer : Answer) : (s.answer i p answer).holders = s.holders := by
  have hmap : (s.pending.set i { p with answer := some answer }).map (·.await) = s.pending.map (·.await) := by
    rw [List.map_set]
    refine List.ext_getElem? fun j => ?_
    rw [List.getElem?_set]
    split_ifs with hij hlt
    · rw [← hij, List.getElem?_map, hp]
      rfl
    · rw [← hij, List.getElem?_eq_none (by simpa using hlt)]
    · rfl
  have hcount : ∀ l : List Pending, (l.countP fun p => p.await.holdsRun) = (l.map (·.await)).countP Await.holdsRun :=
    fun l => by rw [List.countP_map]; rfl
  unfold Scheduler.holders Scheduler.answer
  rw [hcount, hcount, hmap]

theorem holders_request (await : Await) (call : Call) :
    (s.request await call).holders = s.holders + await.holdsRun.toNat := by
  unfold Scheduler.holders Scheduler.request
  rw [List.countP_append, List.countP_singleton]
  cases await.holdsRun <;> rfl

theorem arm_steady (now : Int) : (s.arm env now).running = s.running ∧ (s.arm env now).holders = s.holders := by
  unfold Scheduler.arm
  split_ifs <;> exact ⟨rfl, rfl⟩

theorem normalizeFrom_steady (mode : Mode) (caller : Caller) (now : Int) (rows : List (Nat × Row)) :
    (s.normalizeFrom env mode caller now rows).running = s.running ∧
      (s.normalizeFrom env mode caller now rows).holders = s.holders + caller.holdsRun.toNat := by
  induction rows with
  | nil =>
      refine ⟨rfl, ?_⟩
      unfold Scheduler.normalizeFrom Scheduler.holders
      rw [List.countP_append, List.countP_singleton]
      cases hcaller : caller.holdsRun <;> simp [Await.holdsRun, hcaller]
  | cons e rest ih =>
      obtain ⟨slot, row⟩ := e
      unfold Scheduler.normalizeFrom
      cases row.nextDueAt with
      | none =>
          dsimp only
          cases env.time.computeNextDue row.toRule now with
          | none => exact ih
          | some next => exact ⟨rfl, holders_request _ _⟩
      | some due =>
          dsimp only
          split_ifs
          · exact ih
          · cases env.time.advancePastDue row.toRule due now with
            | none => exact ih
            | some next => exact ⟨rfl, holders_request _ _⟩

theorem refresh_steady (now : Int) :
    (s.refresh env now).running = s.running ∧ (s.refresh env now).holders = s.holders := by
  unfold Scheduler.refresh
  dsimp only
  split_ifs
  · exact normalizeFrom_steady _ _ _ _
  · exact normalizeFrom_steady _ _ _ _
  · exact arm_steady now
  · exact arm_steady now
  · exact ⟨rfl, rfl⟩

theorem setSlot_steady (slot : Nat) (row : Row) (now : Int) :
    (s.setSlot env slot row now).running = s.running ∧ (s.setSlot env slot row now).holders = s.holders := by
  unfold Scheduler.setSlot
  dsimp only
  split_ifs
  · exact refresh_steady now
  · exact ⟨rfl, rfl⟩

theorem applyRuntimeState_steady (slot : Nat) (patch : RuntimePatch) (now : Int) :
    (s.applyRuntimeState env slot patch now).running = s.running ∧
      (s.applyRuntimeState env slot patch now).holders = s.holders := by
  unfold Scheduler.applyRuntimeState
  split
  · exact ⟨rfl, rfl⟩
  · exact setSlot_steady slot _ now

-- A run that waits for nothing goes on to its next claim or ends.
theorem fireDue_single {finish : Scheduler → Scheduler} (hfinish : ∀ t, t.holders = 0 → (finish t).Single)
    (hrunning : s.running = true) (hholders : s.holders = 0) (run : TickRun) (now : Int) :
    (s.fireDue env finish run now).Single := by
  have hfrom : ∀ (rows : List (Int × Nat × Row)) (run : TickRun), (s.fireFrom env finish now run rows).Single := by
    intro rows
    induction rows with
    | nil => exact fun _ => hfinish s hholders
    | cons e rest ih =>
        intro run
        obtain ⟨due, slot, row⟩ := e
        unfold Scheduler.fireFrom
        dsimp only
        cases env.time.computeNextDue row.toRule (max now due) with
        | none => exact ih _
        | some next =>
            unfold Scheduler.Single
            rw [holders_request, hholders]
            exact congrArg Bool.toNat hrunning.symm
  unfold Scheduler.fireDue
  split_ifs
  · exact hfinish s hholders
  · exact hfrom _ run

theorem tickWith_single {finish : Scheduler → Scheduler} (hfinish : ∀ t, t.holders = 0 → (finish t).Single)
    (h : s.Single) (now : Int) : (s.tickWith env finish now).Single := by
  unfold Scheduler.tickWith
  split_ifs with hstarted henabled hrunning
  · exact h
  · refine fireDue_single hfinish rfl ?_ _ now
    refine Eq.trans h ?_
    simpa using hrunning
  · obtain ⟨hsame, hholders⟩ := @arm_steady env s now
    unfold Scheduler.Single
    rw [hsame, hholders]
    exact h
  · exact h

theorem arm_single (h : s.Single) (now : Int) : (s.arm env now).Single := by
  obtain ⟨hsame, hholders⟩ := @arm_steady env s now
  unfold Scheduler.Single
  rw [hsame, hholders]
  exact h

theorem normalizeFrom_single {caller : Caller} (h : s.holders + caller.holdsRun.toNat = s.running.toNat)
    (mode : Mode) (now : Int) (rows : List (Nat × Row)) : (s.normalizeFrom env mode caller now rows).Single := by
  obtain ⟨hsame, hholders⟩ := @normalizeFrom_steady env s mode caller now rows
  unfold Scheduler.Single
  rw [hsame, hholders]
  exact h

theorem finishRun_single (hholders : s.holders = 0) (now : Int) : (s.finishRun env now).Single := by
  have hcleared : ({ s with running := false, reconcilePending := false, tickPending := false } : Scheduler).Single :=
    hholders
  unfold Scheduler.finishRun
  dsimp only
  split_ifs
  · exact normalizeFrom_single (congrArg (· + 1) hholders) _ now _
  · refine tickWith_single (fun t ht => ?_) (arm_single hcleared now) now
    have hended : ({ t with running := false } : Scheduler).Single := ht
    exact arm_single hended now
  · exact arm_single hcleared now

theorem tick_single (h : s.Single) (now : Int) : (s.tick env now).Single :=
  tickWith_single (fun _ ht => finishRun_single ht now) h now

theorem setSlot_holders {await : Await} (h : s.holders + await.holdsRun.toNat = s.running.toNat) (slot : Nat)
    (row : Row) (now : Int) : (s.setSlot env slot row now).holders + await.holdsRun.toNat =
      (s.setSlot env slot row now).running.toNat := by
  obtain ⟨hsame, hholders⟩ := @setSlot_steady env s slot row now
  rw [hsame, hholders]
  exact h

theorem applyRuntimeState_holders {await : Await} (h : s.holders + await.holdsRun.toNat = s.running.toNat)
    (slot : Nat) (patch : RuntimePatch) (now : Int) :
    (s.applyRuntimeState env slot patch now).holders + await.holdsRun.toNat =
      (s.applyRuntimeState env slot patch now).running.toNat := by
  obtain ⟨hsame, hholders⟩ := @applyRuntimeState_steady env s slot patch now
  rw [hsame, hholders]
  exact h

theorem request_single {await : Await} (h : s.holders + await.holdsRun.toNat = s.running.toNat) (call : Call) :
    (s.request await call).Single :=
  (holders_request await call).trans h

-- The answer comes to the one who holds the run, or to one who does not hold it.
theorem resume_single {await : Await} (h : s.holders + await.holdsRun.toNat = s.running.toNat) (answer : Answer)
    (now : Int) : (s.resume env now await answer).Single := by
  have hfire : ∀ t : Scheduler, t.holders + 1 = t.running.toNat → ∀ run,
      (t.fireDue env (fun last => last.finishRun env now) run now).Single := by
    intro t ht run
    have hrunning : t.running = true := by
      cases hoff : t.running with
      | false =>
          rw [hoff] at ht
          cases ht
      | true => rfl
    rw [hrunning] at ht
    exact fireDue_single (fun t ht => finishRun_single ht now) hrunning (Nat.succ.inj ht) run now
  cases await with
  | filled pass slot =>
      cases answer with
      | row row => exact normalizeFrom_single (setSlot_holders h slot row now) _ _ _
      | _ => exact normalizeFrom_single h _ _ _
  | skipped pass slot next =>
      cases answer with
      | claimed claimed =>
          cases claimed with
          | true =>
              refine request_single ?_ _
              exact h
          | false => exact normalizeFrom_single h _ _ _
      | _ => exact normalizeFrom_single h _ _ _
  | missed pass slot next =>
      cases answer with
      | done => exact normalizeFrom_single (applyRuntimeState_holders h slot _ now) _ _ _
      | _ => exact normalizeFrom_single h _ _ _
  | normalized caller =>
      have hended : caller.holdsRun = true → ({ s with running := false } : Scheduler).Single := by
        intro hholds
        change s.holders + caller.holdsRun.toNat = s.running.toNat at h
        rw [hholds] at h
        cases hrunning : s.running with
        | false =>
            rw [hrunning] at h
            cases h
        | true =>
            rw [hrunning] at h
            exact Nat.succ.inj h
      cases caller with
      | start => exact arm_single h now
      | refresh => exact arm_single h now
      | finishRun => exact arm_single (hended rfl) now
      | onPowerResume => exact arm_single (hended rfl) now
  | claimed run slot row next =>
      cases answer with
      | claimed claimed =>
          cases claimed with
          | true =>
              refine request_single ?_ _
              exact applyRuntimeState_holders h slot _ now
          | false => exact hfire s h run
      | _ => exact hfire s h run
  | delivered owner slot nextDueAt =>
      refine request_single ?_ _
      exact h
  | recorded owner slot patch =>
      have happlied := @applyRuntimeState_holders env s _ h slot patch now
      cases owner with
      | tick run => exact hfire _ happlied run
      | sendNow =>
          have hzero : (s.applyRuntimeState env slot patch now).holders = 0 := by
            have hbound := Bool.toNat_le (s.applyRuntimeState env slot patch now).running
            change _ + 1 = _ at happlied
            omega
          exact finishRun_single hzero now
  | saved slot =>
      cases answer with
      | row row => exact setSlot_holders h slot row now
      | _ => exact h

theorem Scheduler.Single.step (h : s.Single) (event : Event) : (s.step env event).Single := by
  cases event with
  | booted now =>
      simp only [Scheduler.step]
      split_ifs
      · exact h
      · unfold Scheduler.start
        dsimp only
        have hopened : ({ s with started := true, lastEnabled := s.enabled } : Scheduler).Single := h
        split_ifs
        · exact @normalizeFrom_single env _ .start hopened _ now _
        · exact arm_single hopened now
  | settingChanged enabled now =>
      simp only [Scheduler.step]
      split_ifs
      · obtain ⟨hsame, hholders⟩ := @refresh_steady env { s with enabled } now
        unfold Scheduler.Single
        rw [hsame, hholders]
        exact h
      · exact h
  | powerResumed now =>
      simp only [Scheduler.step]
      split_ifs
      · unfold Scheduler.onPowerResume
        dsimp only
        split_ifs with hstarted hrunning henabled
        · exact h
        · refine normalizeFrom_single ?_ _ now _
          have hoff : s.running = false := by simpa using hrunning
          have hzero : s.holders = 0 := by
            rw [h, hoff]
            rfl
          exact congrArg (· + 1) hzero
        · have hresumed : ({ s with resumeEpoch := s.resumeEpoch + 1 } : Scheduler).Single := h
          exact arm_single hresumed now
        · exact h
      · exact h
  | timerFired now =>
      simp only [Scheduler.step]
      split_ifs
      · have hfired : ({ s with timer := none } : Scheduler).Single := h
        exact tick_single hfired now
      · exact h
  | intervalFired now =>
      simp only [Scheduler.step]
      split_ifs
      · exact tick_single h now
      · exact h
  | sendNow slot =>
      simp only [Scheduler.step]
      unfold Scheduler.sendNow
      split
      · exact h
      · split_ifs with hrunning
        · exact h
        · have hoff : s.running = false := by simpa using hrunning
          have hzero : s.holders = 0 := by
            rw [h, hoff]
            rfl
          exact request_single (congrArg (· + 1) hzero) _
  | save slot input =>
      refine request_single ?_ _
      exact h
  | handled i now =>
      simp only [Scheduler.step, Scheduler.handle]
      split
      · exact h
      · rename_i p hp
        split
        · exact h
        · split_ifs
          · exact h
          · exact Eq.trans (holders_answer hp _) h
  | rejected i =>
      simp only [Scheduler.step]
      split
      · exact h
      · rename_i p hp
        split_ifs
        · exact h
        · exact Eq.trans (holders_answer hp _) h
  | delivered i outcome =>
      simp only [Scheduler.step]
      split
      · exact h
      · rename_i p hp
        split_ifs
        · exact h
        · exact Eq.trans (holders_answer hp _) h
  | answered i now =>
      simp only [Scheduler.step]
      split
      · exact h
      · rename_i p hp
        split
        · exact h
        · refine resume_single ?_ _ now
          have herase := holders_erase hp
          rw [h] at herase
          exact (Nat.add_comm _ _).trans herase.symm

end MeshClient.ScheduledBroadcasts
