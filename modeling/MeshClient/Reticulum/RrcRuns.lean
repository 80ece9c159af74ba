import MeshClient.Reticulum.RrcIntent

namespace MeshClient.Reticulum

open Run RrcSession

variable {rt : RrcRuntime} {s t : RrcSession} {e : RrcEvent} {n : Text}

-- The session is active on a link only, a connect job runs only without one, and an intent
-- to reconnect has one of the two.
structure LoopInv (s : RrcSession) : Prop where
  active : s.status = .Active → s.link = true
  noLink : s.connectJob.isSome = true → s.link = false
  reply : ∀ job, s.connectJob = some job → job.reply = false → s.reconnectIntent.isSome = true
  waiting : s.running = true → s.reconnectIntent.isSome = true → s.link = false → s.connectJob.isSome = true

theorem LoopInv.of_same (h : LoopInv s) (hsame : SameLoop s t) : LoopInv t := by
  obtain ⟨hstatus, _, hlink, hintent, hjob, hrun⟩ := hsame
  exact ⟨by rw [hstatus, hlink]; exact h.active, by rw [hjob, hlink]; exact h.noLink,
    by rw [hjob, hintent]; exact h.reply, by rw [hrun, hintent, hlink, hjob]; exact h.waiting⟩

theorem loopInv_scheduleReconnect (hstatus : s.status ≠ .Active) (hlink : s.link = false)
    (hintent : s.reconnectIntent.isSome = true) : LoopInv s.scheduleReconnect := by
  obtain ⟨intent, hintent'⟩ := Option.isSome_iff_exists.mp hintent
  unfold scheduleReconnect
  rw [hintent']
  exact ⟨fun h => absurd h hstatus, fun _ => hlink, fun _ _ _ => rfl, fun _ _ _ => rfl⟩

theorem loopInv_linkCloses (h : LoopInv s) (hlink : s.link = true) (reason : Text) : LoopInv (s.linkCloses reason) := by
  have hjob : s.connectJob = none := by
    cases hjob : s.connectJob with
    | none => rfl
    | some job => exact absurd (hlink.symm.trans (h.noLink (by rw [hjob]; rfl))) (by simp)
  cases hintent : s.reconnectIntent.isSome with
  | true =>
      simp only [linkCloses, hjob, hintent, Option.isNone_none, if_true]
      exact loopInv_scheduleReconnect (by simp) rfl hintent
  | false =>
      simp only [linkCloses, hjob, hintent, Option.isNone_none, if_true, Bool.false_eq_true, if_false]
      exact ⟨by simp, by simp, by simp, by simp [hintent]⟩

theorem loopInv_jobFails (h : LoopInv s) {job : ConnectJob} (hjob : s.connectJob = some job) (reason : Text) :
    LoopInv (s.jobFails job reason) := by
  have hlink : s.link = false := h.noLink (by rw [hjob]; rfl)
  cases hreply : job.reply with
  | true =>
      simp only [jobFails, hreply, Bool.true_eq_false, false_and, if_false, Bool.not_true]
      exact ⟨by simp, by simp, by simp, by simp⟩
  | false =>
      have hintent := h.reply job hjob hreply
      simp only [jobFails, hreply, hintent, true_and, if_true]
      exact loopInv_scheduleReconnect (by simp) hlink hintent

theorem loopInv_jobWelcomed (job : ConnectJob) (limits : RrcWelcomeLimits) (wire : Text → Option String) :
    LoopInv (s.jobWelcomed rt job limits wire) := by
  obtain ⟨_, _, _, hsame, _⟩ := rejoinAll_spec rt wire { s with
    connectJob := none
    status := .Active
    limits
    lastError := none
    link := true
    reconnectIntent := some ⟨job.destHash, job.nickname⟩
    backoffMs := RECONNECT_BASE_MS } (rt.iter s.desiredRooms)
  exact LoopInv.of_same ⟨fun _ => rfl, by simp, by simp, by simp⟩ hsame

theorem loopInv_data (h : LoopInv s) (hlink : s.link = true) (frame : Frame)
    (wire : Text → Option String) : LoopInv (s.data rt frame wire) := by
  obtain ⟨_, _, _, hsame, _⟩ := rejoinAll_spec rt wire { s with
    toRrcSessionInner := { handleInbound rt s.toRrcSessionInner frame with pendingRejoins := [] } }
    (handleInbound rt s.toRrcSessionInner frame).pendingRejoins
  have hmid : LoopInv { s with
      toRrcSessionInner := { handleInbound rt s.toRrcSessionInner frame with pendingRejoins := [] } } :=
    ⟨fun _ => hlink, h.noLink, h.reply, h.waiting⟩
  exact hmid.of_same hsame

theorem loopInv_step (h : LoopInv s) (hrooms : RoomsInv rt s) : LoopInv (s.step rt e) := by
  by_cases hgo : s.running = false
  · rw [step_of_stopped _ _ hgo]
    exact h
  · have hrun : s.running = true := by simpa using hgo
    cases e with
    | connect destHash nickname =>
        have hstep : s.step rt (.connect destHash nickname) = s.connect destHash nickname := if_neg hgo
        rw [hstep]
        exact ⟨by simp [RrcSession.connect], by simp [RrcSession.connect], by simp [RrcSession.connect],
          by simp [RrcSession.connect]⟩
    | disconnect =>
        have hstep : s.step rt .disconnect = s.disconnect := if_neg hgo
        rw [hstep]
        exact ⟨by simp [RrcSession.disconnect], by simp [RrcSession.disconnect], by simp [RrcSession.disconnect],
          by simp [RrcSession.disconnect]⟩
    | join room key wire =>
        have hstep : s.step rt (.join room key wire) = s.join rt room key wire := if_neg hgo
        rw [hstep, RrcSession.join]
        split
        · refine ⟨?_, h.noLink, h.reply, h.waiting⟩
          simp only [(rememberDesiredRoom_same rt s.toRrcSessionInner room key).2]
          exact h.active
        · exact h
    | part room wire =>
        have hstep : s.step rt (.part room wire) = s.part rt room wire := if_neg hgo
        rw [hstep, RrcSession.part]
        split
        · exact ⟨h.active, h.noLink, h.reply, h.waiting⟩
        · exact h
    | setNickname nickname =>
        have hstep : s.step rt (.setNickname nickname) = s.setNickname nickname := if_neg hgo
        rw [hstep]
        simp only [setNickname]
        split_ifs
        · exact h
        · exact h
        · exact ⟨h.active, h.noLink, fun job hjob hreply => by simpa using h.reply job hjob hreply,
            fun hrun hintent => h.waiting hrun (by simpa using hintent)⟩
    | jobStarts =>
        cases hjob : s.connectJob with
        | none => rwa [show s.step rt .jobStarts = s by simp [step, hrun, hjob]]
        | some job =>
            have hlink := h.noLink (by rw [hjob]; rfl)
            by_cases hphase : job.phase = .delayed
            · simp only [step, hrun, hjob, hphase, if_true, Bool.true_eq_false, if_false]
              exact ⟨by simp, fun _ => hlink, fun job' hjob' hreply => h.reply job hjob (by
                obtain rfl := Option.some.inj hjob'
                exact hreply), fun _ _ _ => rfl⟩
            · rwa [show s.step rt .jobStarts = s by simp [step, hrun, hjob, hphase]]
    | jobOpens =>
        cases hjob : s.connectJob with
        | none => rwa [show s.step rt .jobOpens = s by simp [step, hrun, hjob]]
        | some job =>
            have hlink := h.noLink (by rw [hjob]; rfl)
            by_cases hphase : job.phase = .opening
            · simp only [step, hrun, hjob, hphase, if_true, Bool.true_eq_false, if_false]
              exact ⟨by simp, fun _ => hlink, fun job' hjob' hreply => h.reply job hjob (by
                obtain rfl := Option.some.inj hjob'
                exact hreply), fun _ _ _ => rfl⟩
            · rwa [show s.step rt .jobOpens = s by simp [step, hrun, hjob, hphase]]
    | jobWelcomed limits wire =>
        cases hjob : s.connectJob with
        | none => rwa [show s.step rt (.jobWelcomed limits wire) = s by simp [step, hrun, hjob]]
        | some job =>
            by_cases hphase : job.phase = .awaiting
            · rw [show s.step rt (.jobWelcomed limits wire) = s.jobWelcomed rt job limits wire by
                simp [step, hrun, hjob, hphase]]
              exact loopInv_jobWelcomed job limits wire
            · rwa [show s.step rt (.jobWelcomed limits wire) = s by simp [step, hrun, hjob, hphase]]
    | jobFails reason =>
        cases hjob : s.connectJob with
        | none => rwa [show s.step rt (.jobFails reason) = s by simp [step, hrun, hjob]]
        | some job =>
            by_cases hphase : job.phase = .delayed
            · rwa [show s.step rt (.jobFails reason) = s by simp [step, hrun, hjob, hphase]]
            · rw [show s.step rt (.jobFails reason) = s.jobFails job reason by simp [step, hrun, hjob, hphase]]
              exact loopInv_jobFails h hjob reason
    | data frame wire =>
        cases hlink : s.link with
        | false => rwa [show s.step rt (.data frame wire) = s by simp [step, hrun, hlink]]
        | true =>
            rw [show s.step rt (.data frame wire) = s.data rt frame wire by simp [step, hrun, hlink]]
            exact loopInv_data h hlink frame wire
    | linkCloses reason =>
        cases hlink : s.link with
        | false => rwa [show s.step rt (.linkCloses reason) = s by simp [step, hrun, hlink]]
        | true =>
            rw [show s.step rt (.linkCloses reason) = s.linkCloses reason by simp [step, hrun, hlink]]
            exact loopInv_linkCloses h hlink reason
    | linkEnds =>
        cases hlink : s.link with
        | false => rwa [show s.step rt .linkEnds = s by simp [step, hrun, hlink]]
        | true =>
            rw [show s.step rt .linkEnds = s.linkCloses "link_ended".toList by simp [step, hrun, hlink]]
            exact loopInv_linkCloses h hlink _

-- The loop of a hub as it starts.
def sessionOf (identityHash : Text) : RrcSession := { identityHash }

theorem run_invariants (rt : RrcRuntime) (identityHash : Text) (events : List RrcEvent) :
    RoomsInv rt (run (step rt) (sessionOf identityHash) events) ∧
      LoopInv (run (step rt) (sessionOf identityHash) events) := by
  refine invariant_run (P := fun s => RoomsInv rt s ∧ LoopInv s) ?_ ⟨⟨by simp [sessionOf], rfl⟩, ?_⟩ events
  · rintro s e ⟨hrooms, hloop⟩
    exact ⟨roomsInv_step hrooms, loopInv_step hloop hrooms⟩
  · exact ⟨by simp [sessionOf], by simp [sessionOf], by simp [sessionOf], by simp [sessionOf]⟩

-- A room that the user has parted, and that neither the user nor the hub has joined us to
-- since, is not joined by itself.
def PartedStaysParted (rt : RrcRuntime) : Prop :=
  ∀ (hash : Text) (before later : List RrcEvent) (e last : RrcEvent) (n : Text),
    parts rt n (run (step rt) (sessionOf hash) before) e = true →
    Each (step rt) (fun s e => joins rt n s e = false ∧ reportsJoined rt n s e = false)
      (run (step rt) (sessionOf hash) (before ++ [e])) later →
    ∀ r ∈ newRejoins rt (run (step rt) (sessionOf hash) (before ++ e :: later)) last, normalizeRoom rt r.room ≠ n

-- A room joined with a key is only rejoined with that key, and rejoined on every reconnect.
def KeyIsKept (rt : RrcRuntime) : Prop :=
  ∀ (hash : Text) (before later : List RrcEvent) (e last : RrcEvent) (n k : Text), n ≠ [] →
    joins rt n (run (step rt) (sessionOf hash) before) e = true → joinKey e = some k →
    Each (step rt) (fun s e => keepsKey rt n k s e = true) (run (step rt) (sessionOf hash) (before ++ [e])) later →
    (∀ r ∈ newRejoins rt (run (step rt) (sessionOf hash) (before ++ e :: later)) last,
      normalizeRoom rt r.room = n → r.key = some k) ∧
    (welcomed (run (step rt) (sessionOf hash) (before ++ e :: later)) last = true →
      ∃ r ∈ newRejoins rt (run (step rt) (sessionOf hash) (before ++ e :: later)) last, r.room = n ∧ r.key = some k)

def ActiveOnLink (rt : RrcRuntime) : Prop :=
  ∀ (hash : Text) (events : List RrcEvent), (run (step rt) (sessionOf hash) events).status = .Active →
    (run (step rt) (sessionOf hash) events).link = true

-- Without a link an intent to reconnect has its one connect job, with a link there is none.
def OneConnectJob (rt : RrcRuntime) : Prop :=
  ∀ (hash : Text) (events : List RrcEvent),
    let s := run (step rt) (sessionOf hash) events
    s.connectJob.toList.length ≤ 1 ∧ (s.link = true → s.connectJob = none) ∧
      (s.running = true → s.reconnectIntent.isSome = true → s.link = false → s.connectJob.toList.length = 1)

theorem parted_step (h : parts rt n s e = true) : (s.step rt e).desiredRooms.get? n = none := by
  cases e with
  | part room wire =>
      simp only [parts, Bool.and_eq_true, decide_eq_true_eq] at h
      obtain ⟨⟨hrun, rfl⟩, hsend⟩ := h
      have hstep : s.step rt (.part room wire) = s.part rt room wire := if_neg (by simp [hrun])
      rw [hstep, RrcSession.part]
      cases hresult : sendRoomControl s.link s.toRrcSessionInner room .PART none wire with
      | ok env => exact (s.desiredRooms.get?_erase _ _).trans (if_pos rfl)
      | error err =>
          rw [hresult] at hsend
          exact absurd hsend (by simp [Except.isOk, Except.toBool])
  | _ => exact absurd h (by simp [parts])

theorem joined_step {k : Text} (hn : n ≠ []) (h : joins rt n s e = true) (hkey : joinKey e = some k) :
    (s.step rt e).desiredRooms.get? n = some (some k) := by
  cases e with
  | join room key wire =>
      simp only [joins, Bool.and_eq_true, decide_eq_true_eq] at h
      obtain ⟨⟨hrun, rfl⟩, hsend⟩ := h
      have hstep : s.step rt (.join room key wire) = s.join rt room key wire := if_neg (by simp [hrun])
      rw [hstep, RrcSession.join]
      cases hresult : sendRoomControl s.link s.toRrcSessionInner room .JOIN key wire with
      | ok env =>
          refine (get?_rememberDesiredRoom rt s.toRrcSessionInner room key _).trans ?_
          rw [if_pos ⟨rfl, hn⟩, show trimmedKey key = some k from hkey]
          rfl
      | error err =>
          rw [hresult] at hsend
          exact absurd hsend (by simp [Except.isOk, Except.toBool])
  | _ => exact absurd h (by simp [joins])

theorem partedStaysParted (rt : RrcRuntime) : PartedStaysParted rt := by
  intro hash before later e last n hparts hlater r hr
  have hstart : RoomsInv rt (run (step rt) (sessionOf hash) (before ++ [e])) ∧
      (run (step rt) (sessionOf hash) (before ++ [e])).desiredRooms.get? n = none := by
    refine ⟨(run_invariants rt hash _).1, ?_⟩
    rw [run_concat]
    exact parted_step hparts
  have hend := invariant_of_each (P := fun s => RoomsInv rt s ∧ s.desiredRooms.get? n = none) (by
    rintro s e ⟨hjoins, hreports⟩ ⟨hinv, hnone⟩
    exact ⟨roomsInv_step hinv, unwanted_step hinv hnone hjoins hreports⟩) hlater hstart
  rw [← run_append, List.append_assoc, List.singleton_append] at hend
  rintro rfl
  exact absurd (hend.2.symm.trans (newRejoins_desired hend.1 hr)) (by simp)

theorem keyIsKept (rt : RrcRuntime) : KeyIsKept rt := by
  intro hash before later e last n k hn hjoins hkey hlater
  have hstart : RoomsInv rt (run (step rt) (sessionOf hash) (before ++ [e])) ∧
      (run (step rt) (sessionOf hash) (before ++ [e])).desiredRooms.get? n = some (some k) := by
    refine ⟨(run_invariants rt hash _).1, ?_⟩
    rw [run_concat]
    exact joined_step hn hjoins hkey
  have hend := invariant_of_each (P := fun s => RoomsInv rt s ∧ s.desiredRooms.get? n = some (some k)) (by
    rintro s e hkeeps ⟨hinv, hwanted⟩
    exact ⟨roomsInv_step hinv, key_step hinv hwanted hkeeps⟩) hlater hstart
  rw [← run_append, List.append_assoc, List.singleton_append] at hend
  constructor
  · intro r hr hroom
    have hdesired := newRejoins_desired hend.1 hr
    rw [hroom, hend.2] at hdesired
    exact (Option.some.inj hdesired).symm
  · exact fun hwelcomed => exists_newRejoin hwelcomed hend.2

theorem activeOnLink (rt : RrcRuntime) : ActiveOnLink rt :=
  fun hash events => (run_invariants rt hash events).2.active

theorem oneConnectJob (rt : RrcRuntime) : OneConnectJob rt := by
  intro hash events s
  have hloop : LoopInv s := (run_invariants rt hash events).2
  refine ⟨?_, fun hlink => ?_, fun hrun hintent hlink => ?_⟩
  · cases s.connectJob <;> simp
  · cases hjob : s.connectJob with
    | none => rfl
    | some job => exact absurd (hlink.symm.trans (hloop.noLink (by rw [hjob]; rfl))) (by simp)
  · obtain ⟨job, hjob⟩ := Option.isSome_iff_exists.mp (hloop.waiting hrun hintent hlink)
    rw [hjob]
    rfl

theorem room_intent_respected (rt : RrcRuntime) :
    PartedStaysParted rt ∧ KeyIsKept rt ∧ ActiveOnLink rt ∧ OneConnectJob rt :=
  ⟨partedStaysParted rt, keyIsKept rt, activeOnLink rt, oneConnectJob rt⟩

-- Texts in lower case, hash maps in the order of insertion.
def plainRuntime : RrcRuntime where
  toLowercase := id
  iter := fun m => m.entries
  normalize_idem := fun s => Trim.trim_trim s
  iter_perm := fun m => List.Perm.refl m.entries

-- The hub's answer to a JOIN comes in behind the PART and the next reconnect joins again; a
-- rejoin that the link drops is not tried again on the reconnect after it.
theorem late_answer_and_lost_rejoin : (¬ ∀ (rt : RrcRuntime) (hash : Text) (before later : List RrcEvent)
    (e last : RrcEvent) (n : Text), parts rt n (run (step rt) (sessionOf hash) before) e = true →
    Each (step rt) (fun s e => joins rt n s e = false) (run (step rt) (sessionOf hash) (before ++ [e])) later →
    ∀ r ∈ newRejoins rt (run (step rt) (sessionOf hash) (before ++ e :: later)) last, normalizeRoom rt r.room ≠ n) ∧
    ¬ ∀ (rt : RrcRuntime) (hash : Text) (before later : List RrcEvent) (e last : RrcEvent) (n k : Text), n ≠ [] →
      joins rt n (run (step rt) (sessionOf hash) before) e = true → joinKey e = some k →
      Each (step rt) (fun s e => parts rt n s e = false ∧ renews e = false ∧ joins rt n s e = false)
        (run (step rt) (sessionOf hash) (before ++ [e])) later →
      welcomed (run (step rt) (sessionOf hash) (before ++ e :: later)) last = true →
      ∃ r ∈ newRejoins rt (run (step rt) (sessionOf hash) (before ++ e :: later)) last, r.room = n ∧ r.key = some k := by
  constructor
  · intro h
    have hrejoins := h plainRuntime "00".toList
      [.connect "aa".toList "ann".toList, .jobStarts, .jobOpens, .jobWelcomed {} fun _ => none,
        .join "#lobby".toList none none]
      [.data (.JOINED (some "#lobby".toList) [] none) fun _ => none, .linkCloses "timeout".toList, .jobStarts, .jobOpens]
      (.part "#lobby".toList none) (.jobWelcomed {} fun _ => none) "#lobby".toList (by decide)
      (by decide)
    exact absurd hrejoins (by decide)
  · intro h
    have hrejoins := h plainRuntime "00".toList
      [.connect "aa".toList "ann".toList, .jobStarts, .jobOpens, .jobWelcomed {} fun _ => none]
      [.linkCloses "timeout".toList, .jobStarts, .jobOpens, .jobWelcomed {} fun _ => some "link closed",
        .linkCloses "timeout".toList, .jobStarts, .jobOpens]
      (.join "#lobby".toList (some "pass".toList) none) (.jobWelcomed {} fun _ => none) "#lobby".toList "pass".toList
      (by decide) (by decide) (by decide) (by decide) (by decide)
    exact absurd hrejoins (by decide)

end MeshClient.Reticulum
