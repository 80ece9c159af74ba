import MeshClient.Reticulum.RrcSession

namespace MeshClient.Reticulum

open Run RrcSession

variable {rt : RrcRuntime} {s : RrcSession} {g : RrcSessionInner} {e : RrcEvent} {n room : Text}
  {wire : Text → Option String} {rooms : List (Text × Option Text)}

-- The automatic JOINs of one turn of the loop.
def newRejoins (rt : RrcRuntime) (s : RrcSession) (e : RrcEvent) : List Rejoin :=
  (s.step rt e).rejoins.drop s.rejoins.length

-- The user's JOIN of the room, that was put on the link.
def joins (rt : RrcRuntime) (n : Text) (s : RrcSession) : RrcEvent → Bool
  | .join room key wire =>
      s.running && normalizeRoom rt room = n && (sendRoomControl s.link s.toRrcSessionInner room .JOIN key wire).isOk
  | _ => false

def parts (rt : RrcRuntime) (n : Text) (s : RrcSession) : RrcEvent → Bool
  | .part room wire =>
      s.running && normalizeRoom rt room = n && (sendRoomControl s.link s.toRrcSessionInner room .PART none wire).isOk
  | _ => false

-- The hub says that we are in the room.
def reportsJoined (rt : RrcRuntime) (n : Text) (s : RrcSession) : RrcEvent → Bool
  | .data (.JOINED room _ _) _ => s.running && s.link && normalizeRoom rt (room.getD []) = n
  | _ => false

def renews : RrcEvent → Bool
  | .connect _ _ | .disconnect => true
  | _ => false

def joinKey : RrcEvent → Option Text
  | .join _ key _ => trimmedKey key
  | _ => none

def rejoinFails (rt : RrcRuntime) (n : Text) (s : RrcSession) (e : RrcEvent) : Bool :=
  (newRejoins rt s e).any fun r => normalizeRoom rt r.room = n && !r.result.isOk

-- A reconnect comes through.
def welcomed (s : RrcSession) : RrcEvent → Bool
  | .jobWelcomed _ _ => s.running && s.connectJob.any fun job => job.phase = .awaiting
  | _ => false

theorem normalizeRoom_normalizeRoom (rt : RrcRuntime) (room : Text) :
    normalizeRoom rt (normalizeRoom rt room) = normalizeRoom rt room := rt.normalize_idem room

-- What rejoining leaves alone.
structure SameLoop (s t : RrcSession) : Prop where
  status : t.status = s.status
  pendingRejoins : t.pendingRejoins = s.pendingRejoins
  link : t.link = s.link
  reconnectIntent : t.reconnectIntent = s.reconnectIntent
  connectJob : t.connectJob = s.connectJob
  running : t.running = s.running

theorem SameLoop.refl (s : RrcSession) : SameLoop s s := ⟨rfl, rfl, rfl, rfl, rfl, rfl⟩

theorem SameLoop.trans {s t u : RrcSession} (h : SameLoop s t) (h' : SameLoop t u) : SameLoop s u :=
  ⟨h'.status.trans h.status, h'.pendingRejoins.trans h.pendingRejoins, h'.link.trans h.link,
    h'.reconnectIntent.trans h.reconnectIntent, h'.connectJob.trans h.connectJob, h'.running.trans h.running⟩

theorem rejoin_spec (rt : RrcRuntime) (wire : Text → Option String) (s : RrcSession) (r : Text × Option Text) :
    ∃ result, (s.rejoin rt wire r).rejoins = s.rejoins ++ [⟨r.1, r.2, result⟩] ∧ SameLoop s (s.rejoin rt wire r) ∧
      (s.rejoin rt wire r).desiredRooms =
        if result.isOk then s.desiredRooms else s.desiredRooms.erase (normalizeRoom rt r.1) := by
  refine ⟨sendRoomControl s.link s.toRrcSessionInner r.1 .JOIN r.2 (wire r.1), ?_⟩
  unfold rejoin
  cases hresult : sendRoomControl s.link s.toRrcSessionInner r.1 .JOIN r.2 (wire r.1) with
  | ok env => exact ⟨rfl, ⟨rfl, rfl, rfl, rfl, rfl, rfl⟩, rfl⟩
  | error err => exact ⟨rfl, ⟨rfl, rfl, rfl, rfl, rfl, rfl⟩, rfl⟩

-- Every room is asked for once, with its key, and only a failure drops it.
theorem rejoinAll_spec (rt : RrcRuntime) (wire : Text → Option String) (s : RrcSession)
    (rooms : List (Text × Option Text)) :
    ∃ news : List Rejoin, (s.rejoinAll rt wire rooms).rejoins = s.rejoins ++ news ∧
      news.map (fun r => (r.room, r.key)) = rooms ∧ SameLoop s (s.rejoinAll rt wire rooms) ∧
      ∀ n, (s.rejoinAll rt wire rooms).desiredRooms.get? n =
        if news.any fun r => normalizeRoom rt r.room = n && !r.result.isOk then none else s.desiredRooms.get? n := by
  induction rooms generalizing s with
  | nil => exact ⟨[], (List.append_nil _).symm, rfl, SameLoop.refl s, fun n => rfl⟩
  | cons r rest ih =>
      obtain ⟨result, hlog, hsame, hdesired⟩ := rejoin_spec rt wire s r
      obtain ⟨news, hlogs, hnews, hsames, hrest⟩ := ih (s.rejoin rt wire r)
      refine ⟨⟨r.1, r.2, result⟩ :: news, ?_, ?_, hsame.trans hsames, fun n => ?_⟩
      · rw [rejoinAll, List.foldl_cons]
        rw [rejoinAll] at hlogs
        rw [hlogs, hlog, List.append_assoc, List.singleton_append]
      · rw [List.map_cons, hnews]
      · have hall := hrest n
        rw [rejoinAll, List.foldl_cons]
        rw [rejoinAll] at hall
        rw [hall, hdesired, List.any_cons]
        by_cases hn : normalizeRoom rt r.1 = n
        · cases hok : result.isOk with
          | true => simp [hok]
          | false => simp [hok, hn, OrderedMap.get?_erase]
        · cases hok : result.isOk with
          | true => simp [hok]
          | false => simp [hok, hn, OrderedMap.get?_erase, Ne.symm hn]

-- A turn that has nothing to do with the rooms.
structure Quiet (rt : RrcRuntime) (s : RrcSession) (e : RrcEvent) : Prop where
  desiredRooms : (s.step rt e).desiredRooms = s.desiredRooms
  pendingRejoins : (s.step rt e).pendingRejoins = s.pendingRejoins
  rejoins : (s.step rt e).rejoins = s.rejoins
  welcomed : welcomed s e = false

theorem scheduleReconnect_rooms (s : RrcSession) :
    s.scheduleReconnect.desiredRooms = s.desiredRooms ∧ s.scheduleReconnect.pendingRejoins = s.pendingRejoins ∧
      s.scheduleReconnect.rejoins = s.rejoins := by
  unfold scheduleReconnect
  split
  · exact ⟨rfl, rfl, rfl⟩
  · exact ⟨rfl, rfl, rfl⟩

theorem jobFails_rooms (s : RrcSession) (job : ConnectJob) (reason : Text) :
    (s.jobFails job reason).desiredRooms = s.desiredRooms ∧ (s.jobFails job reason).pendingRejoins = s.pendingRejoins ∧
      (s.jobFails job reason).rejoins = s.rejoins := by
  simp only [jobFails]
  split_ifs
  · exact scheduleReconnect_rooms _
  · exact ⟨rfl, rfl, rfl⟩

theorem linkCloses_rooms (s : RrcSession) (reason : Text) :
    (s.linkCloses reason).desiredRooms = s.desiredRooms ∧ (s.linkCloses reason).pendingRejoins = s.pendingRejoins ∧
      (s.linkCloses reason).rejoins = s.rejoins := by
  simp only [linkCloses]
  split_ifs
  · exact scheduleReconnect_rooms _
  · exact ⟨rfl, rfl, rfl⟩
  · exact ⟨rfl, rfl, rfl⟩

theorem step_of_stopped (rt : RrcRuntime) (e : RrcEvent) (h : s.running = false) : s.step rt e = s := if_pos h

theorem quiet_of_stopped (h : s.running = false) : Quiet rt s e := by
  have hstep := step_of_stopped rt e h
  refine ⟨by rw [hstep], by rw [hstep], by rw [hstep], ?_⟩
  cases e with
  | jobWelcomed limits wire => simp [welcomed, h]
  | _ => rfl

-- What a turn can do to the rooms.
theorem step_cases (rt : RrcRuntime) (s : RrcSession) (e : RrcEvent) :
    Quiet rt s e ∨
    (renews e = true ∧ (s.step rt e).desiredRooms = ∅ ∧ (s.step rt e).pendingRejoins = [] ∧
      (s.step rt e).rejoins = s.rejoins) ∨
    (∃ room key wire, e = .join room key wire ∧ joins rt (normalizeRoom rt room) s e = true ∧
      s.step rt e = { s with toRrcSessionInner := s.toRrcSessionInner.rememberDesiredRoom rt room key }) ∨
    (∃ room wire, e = .part room wire ∧ parts rt (normalizeRoom rt room) s e = true ∧
      s.step rt e = { s with
        desiredRooms := s.desiredRooms.erase (normalizeRoom rt room)
        rooms := s.rooms.erase (normalizeRoom rt room) }) ∨
    (∃ limits wire job, e = .jobWelcomed limits wire ∧ s.connectJob = some job ∧
      s.step rt e = s.jobWelcomed rt job limits wire) ∨
    ∃ frame wire, e = .data frame wire ∧ s.running = true ∧ s.link = true ∧ s.step rt e = s.data rt frame wire := by
  by_cases hgo : s.running = false
  · exact .inl (quiet_of_stopped hgo)
  · have hrun : s.running = true := by simpa using hgo
    cases e with
    | connect destHash nickname =>
        have hstep : s.step rt (.connect destHash nickname) = s.connect destHash nickname := if_neg hgo
        exact .inr (.inl ⟨rfl, by rw [hstep]; rfl, by rw [hstep]; rfl, by rw [hstep]; rfl⟩)
    | disconnect =>
        have hstep : s.step rt .disconnect = s.disconnect := if_neg hgo
        exact .inr (.inl ⟨rfl, by rw [hstep]; rfl, by rw [hstep]; rfl, by rw [hstep]; rfl⟩)
    | join room key wire =>
        have hstep : s.step rt (.join room key wire) = s.join rt room key wire := if_neg hgo
        cases hsend : sendRoomControl s.link s.toRrcSessionInner room .JOIN key wire with
        | ok env =>
            refine .inr (.inr (.inl ⟨room, key, wire, rfl, ?_, ?_⟩))
            · simp [joins, hrun, hsend, Except.isOk, Except.toBool]
            · rw [hstep, RrcSession.join, hsend]
        | error err =>
            have hsame : s.step rt (.join room key wire) = s := by rw [hstep, RrcSession.join, hsend]
            exact .inl ⟨by rw [hsame], by rw [hsame], by rw [hsame], rfl⟩
    | part room wire =>
        have hstep : s.step rt (.part room wire) = s.part rt room wire := if_neg hgo
        cases hsend : sendRoomControl s.link s.toRrcSessionInner room .PART none wire with
        | ok env =>
            refine .inr (.inr (.inr (.inl ⟨room, wire, rfl, ?_, ?_⟩)))
            · simp [parts, hrun, hsend, Except.isOk, Except.toBool]
            · rw [hstep, RrcSession.part, hsend]
        | error err =>
            have hsame : s.step rt (.part room wire) = s := by rw [hstep, RrcSession.part, hsend]
            exact .inl ⟨by rw [hsame], by rw [hsame], by rw [hsame], rfl⟩
    | setNickname nickname =>
        have hstep : s.step rt (.setNickname nickname) = s.setNickname nickname := if_neg hgo
        refine .inl ⟨?_, ?_, ?_, rfl⟩
        · rw [hstep]
          simp only [setNickname]
          split_ifs <;> rfl
        · rw [hstep]
          simp only [setNickname]
          split_ifs <;> rfl
        · rw [hstep]
          simp only [setNickname]
          split_ifs <;> rfl
    | jobStarts =>
        cases hjob : s.connectJob with
        | none =>
            have hsame : s.step rt .jobStarts = s := by simp [step, hrun, hjob]
            exact .inl ⟨by rw [hsame], by rw [hsame], by rw [hsame], rfl⟩
        | some job =>
            by_cases hphase : job.phase = .delayed
            · exact .inl ⟨by simp [step, hrun, hjob, hphase], by simp [step, hrun, hjob, hphase],
                by simp [step, hrun, hjob, hphase], rfl⟩
            · exact .inl ⟨by simp [step, hrun, hjob, hphase], by simp [step, hrun, hjob, hphase],
                by simp [step, hrun, hjob, hphase], rfl⟩
    | jobOpens =>
        cases hjob : s.connectJob with
        | none =>
            have hsame : s.step rt .jobOpens = s := by simp [step, hrun, hjob]
            exact .inl ⟨by rw [hsame], by rw [hsame], by rw [hsame], rfl⟩
        | some job =>
            by_cases hphase : job.phase = .opening
            · exact .inl ⟨by simp [step, hrun, hjob, hphase], by simp [step, hrun, hjob, hphase],
                by simp [step, hrun, hjob, hphase], rfl⟩
            · exact .inl ⟨by simp [step, hrun, hjob, hphase], by simp [step, hrun, hjob, hphase],
                by simp [step, hrun, hjob, hphase], rfl⟩
    | jobWelcomed limits wire =>
        cases hjob : s.connectJob with
        | none =>
            have hsame : s.step rt (.jobWelcomed limits wire) = s := by simp [step, hrun, hjob]
            exact .inl ⟨by rw [hsame], by rw [hsame], by rw [hsame], by simp [welcomed, hjob]⟩
        | some job =>
            by_cases hphase : job.phase = .awaiting
            · exact .inr (.inr (.inr (.inr (.inl ⟨limits, wire, job, rfl, rfl, by simp [step, hrun, hjob, hphase]⟩))))
            · have hsame : s.step rt (.jobWelcomed limits wire) = s := by simp [step, hrun, hjob, hphase]
              exact .inl ⟨by rw [hsame], by rw [hsame], by rw [hsame], by simp [welcomed, hjob, hphase]⟩
    | jobFails reason =>
        cases hjob : s.connectJob with
        | none =>
            have hsame : s.step rt (.jobFails reason) = s := by simp [step, hrun, hjob]
            exact .inl ⟨by rw [hsame], by rw [hsame], by rw [hsame], rfl⟩
        | some job =>
            by_cases hphase : job.phase = .delayed
            · have hsame : s.step rt (.jobFails reason) = s := by simp [step, hrun, hjob, hphase]
              exact .inl ⟨by rw [hsame], by rw [hsame], by rw [hsame], rfl⟩
            · have hstep : s.step rt (.jobFails reason) = s.jobFails job reason := by simp [step, hrun, hjob, hphase]
              obtain ⟨hdesired, hpending, hrejoins⟩ := jobFails_rooms s job reason
              exact .inl ⟨hstep ▸ hdesired, hstep ▸ hpending, hstep ▸ hrejoins, rfl⟩
    | data frame wire =>
        cases hlink : s.link with
        | false =>
            have hsame : s.step rt (.data frame wire) = s := by simp [step, hrun, hlink]
            exact .inl ⟨by rw [hsame], by rw [hsame], by rw [hsame], rfl⟩
        | true =>
            exact .inr (.inr (.inr (.inr (.inr ⟨frame, wire, rfl, hrun, rfl, by simp [step, hrun, hlink]⟩))))
    | linkCloses reason =>
        cases hlink : s.link with
        | false =>
            have hsame : s.step rt (.linkCloses reason) = s := by simp [step, hrun, hlink]
            exact .inl ⟨by rw [hsame], by rw [hsame], by rw [hsame], rfl⟩
        | true =>
            have hstep : s.step rt (.linkCloses reason) = s.linkCloses reason := by simp [step, hrun, hlink]
            obtain ⟨hdesired, hpending, hrejoins⟩ := linkCloses_rooms s reason
            exact .inl ⟨hstep ▸ hdesired, hstep ▸ hpending, hstep ▸ hrejoins, rfl⟩
    | linkEnds =>
        cases hlink : s.link with
        | false =>
            have hsame : s.step rt .linkEnds = s := by simp [step, hrun, hlink]
            exact .inl ⟨by rw [hsame], by rw [hsame], by rw [hsame], rfl⟩
        | true =>
            have hstep : s.step rt .linkEnds = s.linkCloses "link_ended".toList := by simp [step, hrun, hlink]
            obtain ⟨hdesired, hpending, hrejoins⟩ := linkCloses_rooms s "link_ended".toList
            exact .inl ⟨hstep ▸ hdesired, hstep ▸ hpending, hstep ▸ hrejoins, rfl⟩

theorem get?_rememberDesiredRoom (rt : RrcRuntime) (g : RrcSessionInner) (room : Text) (key : Option Text) (m : Text) :
    (g.rememberDesiredRoom rt room key).desiredRooms.get? m =
      if m = normalizeRoom rt room ∧ m ≠ [] then some ((trimmedKey key).or (g.desiredRooms.get? m).join)
      else g.desiredRooms.get? m := by
  by_cases hempty : normalizeRoom rt room = []
  · have hsame : g.rememberDesiredRoom rt room key = g := if_pos hempty
    rw [hsame, if_neg]
    rintro ⟨heq, hne⟩
    exact hne (heq.trans hempty)
  by_cases hm : m = normalizeRoom rt room
  · have hpos : m = normalizeRoom rt room ∧ m ≠ [] := ⟨hm, hm ▸ hempty⟩
    rw [if_pos hpos]
    subst hm
    cases hold : g.desiredRooms.get? (normalizeRoom rt room) with
    | none => simp [RrcSessionInner.rememberDesiredRoom, hempty, hold]
    | some old =>
        cases hkey : trimmedKey key with
        | none => simp [RrcSessionInner.rememberDesiredRoom, hempty, hold, hkey]
        | some k => simp [RrcSessionInner.rememberDesiredRoom, hempty, hold, hkey]
  · rw [if_neg fun hand => hm hand.1]
    cases hold : g.desiredRooms.get? (normalizeRoom rt room) with
    | none => simp [RrcSessionInner.rememberDesiredRoom, hempty, hold, OrderedMap.get?_set_of_ne _ _ hm]
    | some old =>
        cases hkey : trimmedKey key with
        | none => simp [RrcSessionInner.rememberDesiredRoom, hempty, hold, hkey]
        | some k => simp [RrcSessionInner.rememberDesiredRoom, hempty, hold, hkey, OrderedMap.get?_set_of_ne _ _ hm]

theorem applyJoinedToRoom_same (g : RrcSessionInner) (key room : Text) (incoming : List Member) :
    (applyJoinedToRoom g key room incoming).desiredRooms = g.desiredRooms ∧
      (applyJoinedToRoom g key room incoming).pendingRejoins = g.pendingRejoins ∧
      (applyJoinedToRoom g key room incoming).status = g.status := by
  unfold applyJoinedToRoom
  split
  · simp only
    split
    · exact ⟨rfl, rfl, rfl⟩
    · exact ⟨rfl, rfl, rfl⟩
    · exact ⟨rfl, rfl, rfl⟩
  · exact ⟨rfl, rfl, rfl⟩

theorem rememberDesiredRoom_same (rt : RrcRuntime) (g : RrcSessionInner) (room : Text) (key : Option Text) :
    (g.rememberDesiredRoom rt room key).pendingRejoins = g.pendingRejoins ∧
      (g.rememberDesiredRoom rt room key).status = g.status := by
  simp only [RrcSessionInner.rememberDesiredRoom]
  split_ifs
  · exact ⟨rfl, rfl⟩
  · split
    · exact ⟨rfl, rfl⟩
    · exact ⟨rfl, rfl⟩
  · split
    · exact ⟨rfl, rfl⟩
    · exact ⟨rfl, rfl⟩

-- The room that a frame reports us to be in.
def joinedRoom (rt : RrcRuntime) : Frame → Option Text
  | .JOINED room _ _ => some (normalizeRoom rt (room.getD []))
  | _ => none

theorem inbound_joined (rt : RrcRuntime) (g : RrcSessionInner) (room : Option Text) (members : List Member)
    (nick : Option Text) :
    (∀ m, (handleInbound rt g (.JOINED room members nick)).desiredRooms.get? m =
      if m = normalizeRoom rt (room.getD []) ∧ m ≠ [] then some (g.desiredRooms.get? m).join
      else g.desiredRooms.get? m) ∧
    (handleInbound rt g (.JOINED room members nick)).pendingRejoins = g.pendingRejoins ∧
    (handleInbound rt g (.JOINED room members nick)).status = g.status := by
  obtain ⟨hdesired, hpending, hstatus⟩ := applyJoinedToRoom_same g (normalizeRoom rt (room.getD [])) (room.getD [])
    (applyAdvisoryNick members nick)
  obtain ⟨hpending', hstatus'⟩ := rememberDesiredRoom_same rt (applyJoinedToRoom g (normalizeRoom rt (room.getD []))
    (room.getD []) (applyAdvisoryNick members nick)) (room.getD []) none
  refine ⟨fun m => ?_, hpending'.trans hpending, hstatus'.trans hstatus⟩
  have hget := get?_rememberDesiredRoom rt (applyJoinedToRoom g (normalizeRoom rt (room.getD [])) (room.getD [])
    (applyAdvisoryNick members nick)) (room.getD []) none m
  rw [hdesired] at hget
  exact hget

-- A PARTED of ours queues the room again where it is still wanted.
theorem inbound_parted (rt : RrcRuntime) {g : RrcSessionInner} (hpending : g.pendingRejoins = [])
    (room : Option Text) (peers : List Member) (nick : Option Text) :
    (handleInbound rt g (.PARTED room peers nick)).desiredRooms = g.desiredRooms ∧
    (handleInbound rt g (.PARTED room peers nick)).status = g.status ∧
    ∀ p ∈ (handleInbound rt g (.PARTED room peers nick)).pendingRejoins,
      g.desiredRooms.get? (normalizeRoom rt p.1) = some p.2 := by
  simp only [handleInbound]
  split_ifs
  · cases hwanted : g.desiredRooms.get? (normalizeRoom rt (room.getD [])) with
    | none => exact ⟨rfl, rfl, by simp [hpending]⟩
    | some joinKey =>
        simp only [RrcSessionInner.queuePendingRejoin, hpending, List.any_nil, List.nil_append, Bool.false_eq_true,
          if_false, List.mem_singleton, forall_eq]
        exact ⟨trivial, trivial, hwanted⟩
  · split
    · exact ⟨rfl, rfl, by simp [hpending]⟩
    · exact ⟨rfl, rfl, by simp [hpending]⟩

theorem inbound_status (rt : RrcRuntime) {g : RrcSessionInner} (hpending : g.pendingRejoins = []) (frame : Frame) :
    (handleInbound rt g frame).status = g.status ∨ (handleInbound rt g frame).status = .Active := by
  cases frame with
  | WELCOME limits => exact .inr rfl
  | JOINED room members nick => exact .inl (inbound_joined rt g room members nick).2.2
  | PARTED room peers nick => exact .inl (inbound_parted rt hpending room peers nick).2.1
  | ERROR message => exact .inl rfl
  | other => exact .inl rfl

theorem inbound_desired (rt : RrcRuntime) {g : RrcSessionInner} (hpending : g.pendingRejoins = []) (frame : Frame)
    (m : Text) : (handleInbound rt g frame).desiredRooms.get? m =
      if joinedRoom rt frame = some m ∧ m ≠ [] then some (g.desiredRooms.get? m).join else g.desiredRooms.get? m := by
  cases frame with
  | WELCOME limits => simp [handleInbound, joinedRoom]
  | JOINED room members nick =>
      rw [(inbound_joined rt g room members nick).1 m]
      simp only [joinedRoom, Option.some.injEq, eq_comm]
  | PARTED room peers nick =>
      rw [(inbound_parted rt hpending room peers nick).1]
      simp [joinedRoom]
  | ERROR message => simp [handleInbound, joinedRoom]
  | other => simp [handleInbound, joinedRoom]

theorem inbound_pending (rt : RrcRuntime) {g : RrcSessionInner} (hpending : g.pendingRejoins = []) (frame : Frame) :
    ∀ p ∈ (handleInbound rt g frame).pendingRejoins, g.desiredRooms.get? (normalizeRoom rt p.1) = some p.2 := by
  cases frame with
  | WELCOME limits => simp [handleInbound, hpending]
  | JOINED room members nick => simp [(inbound_joined rt g room members nick).2.1, hpending]
  | PARTED room peers nick => exact (inbound_parted rt hpending room peers nick).2.2
  | ERROR message => simp [handleInbound, hpending]
  | other => simp [handleInbound, hpending]

-- The desired rooms are kept under their normalized names, and nothing waits between turns.
structure RoomsInv (rt : RrcRuntime) (s : RrcSession) : Prop where
  normal : ∀ m key, s.desiredRooms.get? m = some key → normalizeRoom rt m = m
  pending : s.pendingRejoins = []

-- What a turn of the loop does to the desired rooms, and which it joins by itself.
theorem welcomed_spec (rt : RrcRuntime) (wire : Text → Option String) (limits : RrcWelcomeLimits) (job : ConnectJob) (s : RrcSession) :
    ∃ news : List Rejoin, (s.jobWelcomed rt job limits wire).rejoins = s.rejoins ++ news ∧
      news.map (fun r => (r.room, r.key)) = rt.iter s.desiredRooms ∧
      (s.jobWelcomed rt job limits wire).pendingRejoins = s.pendingRejoins ∧
      ∀ m, (s.jobWelcomed rt job limits wire).desiredRooms.get? m =
        if news.any fun r => normalizeRoom rt r.room = m && !r.result.isOk then none else s.desiredRooms.get? m := by
  obtain ⟨news, hlog, hnews, hsame, hdesired⟩ := rejoinAll_spec rt wire { s with
    connectJob := none
    status := .Active
    limits
    lastError := none
    link := true
    reconnectIntent := some ⟨job.destHash, job.nickname⟩
    backoffMs := RECONNECT_BASE_MS } (rt.iter s.desiredRooms)
  exact ⟨news, hlog, hnews, hsame.pendingRejoins, hdesired⟩

theorem data_spec (rt : RrcRuntime) (wire : Text → Option String) (frame : Frame) (s : RrcSession) (hpending : s.pendingRejoins = []) :
    ∃ news : List Rejoin, (s.data rt frame wire).rejoins = s.rejoins ++ news ∧
      (∀ r ∈ news, s.desiredRooms.get? (normalizeRoom rt r.room) = some r.key) ∧
      (s.data rt frame wire).pendingRejoins = [] ∧
      ∀ m, (s.data rt frame wire).desiredRooms.get? m =
        if news.any fun r => normalizeRoom rt r.room = m && !r.result.isOk then none
        else if joinedRoom rt frame = some m ∧ m ≠ [] then some (s.desiredRooms.get? m).join
        else s.desiredRooms.get? m := by
  obtain ⟨news, hlog, hnews, hsame, hdesired⟩ := rejoinAll_spec rt wire { s with
    toRrcSessionInner := { handleInbound rt s.toRrcSessionInner frame with pendingRejoins := [] } }
    (handleInbound rt s.toRrcSessionInner frame).pendingRejoins
  refine ⟨news, hlog, fun r hr => ?_, hsame.pendingRejoins, fun m => ?_⟩
  · have hmem : (r.room, r.key) ∈ (handleInbound rt s.toRrcSessionInner frame).pendingRejoins :=
      hnews ▸ List.mem_map_of_mem (f := fun r : Rejoin => (r.room, r.key)) hr
    exact inbound_pending rt hpending frame _ hmem
  · exact (hdesired m).trans (by rw [inbound_desired rt hpending frame m])

theorem newRejoins_of_append {news : List Rejoin} (h : (s.step rt e).rejoins = s.rejoins ++ news) :
    newRejoins rt s e = news := by
  rw [newRejoins, h, List.drop_left]

theorem newRejoins_of_same (h : (s.step rt e).rejoins = s.rejoins) : newRejoins rt s e = [] := by
  rw [newRejoins, h, List.drop_length]

theorem get?_of_mem_iter {m : OrderedMap Text (Option Text)} {p : Text × Option Text} (h : p ∈ rt.iter m) :
    m.get? p.1 = some p.2 :=
  (m.mem_entries_iff p.1 p.2).mp ((rt.iter_perm m).mem_iff.mp h)

-- An automatic JOIN is for a room that was wanted before the turn, with its key.
theorem newRejoins_desired (hinv : RoomsInv rt s) {r : Rejoin} (hr : r ∈ newRejoins rt s e) :
    s.desiredRooms.get? (normalizeRoom rt r.room) = some r.key := by
  obtain h | ⟨_, _, _, h⟩ | ⟨room, key, wire, rfl, _, h⟩ | ⟨room, wire, rfl, _, h⟩ | ⟨limits, wire, job, rfl, _, h⟩ |
    ⟨frame, wire, rfl, _, _, h⟩ := step_cases rt s e
  · rw [newRejoins_of_same h.rejoins] at hr
    exact absurd hr List.not_mem_nil
  · rw [newRejoins_of_same h] at hr
    exact absurd hr List.not_mem_nil
  · rw [newRejoins_of_same (by rw [h])] at hr
    exact absurd hr List.not_mem_nil
  · rw [newRejoins_of_same (by rw [h])] at hr
    exact absurd hr List.not_mem_nil
  · obtain ⟨news, hlog, hnews, _, _⟩ := welcomed_spec rt wire limits job s
    rw [newRejoins_of_append (h ▸ hlog)] at hr
    have hget := get?_of_mem_iter (hnews ▸ List.mem_map_of_mem (f := fun r : Rejoin => (r.room, r.key)) hr)
    rw [hinv.normal _ _ hget]
    exact hget
  · obtain ⟨news, hlog, hnews, _, _⟩ := data_spec rt wire frame s hinv.pending
    rw [newRejoins_of_append (h ▸ hlog)] at hr
    exact hnews r hr

-- A reconnect asks for every room that is wanted.
theorem exists_newRejoin {key : Option Text} (hwelcomed : welcomed s e = true) (hwanted : s.desiredRooms.get? n = some key) :
    ∃ r ∈ newRejoins rt s e, r.room = n ∧ r.key = key := by
  obtain h | ⟨hrenews, _⟩ | ⟨room, key, wire, rfl, _⟩ | ⟨room, wire, rfl, _⟩ | ⟨limits, wire, job, rfl, _, h⟩ |
    ⟨frame, wire, rfl, _⟩ := step_cases rt s e
  · exact absurd (hwelcomed.symm.trans h.welcomed) (by simp)
  · cases e with
    | jobWelcomed limits wire => exact absurd hrenews (by simp [renews])
    | _ => exact absurd hwelcomed (by simp [MeshClient.Reticulum.welcomed])
  · exact absurd hwelcomed (by simp [welcomed])
  · exact absurd hwelcomed (by simp [welcomed])
  · obtain ⟨news, hlog, hnews, _, _⟩ := welcomed_spec rt wire limits job s
    rw [newRejoins_of_append (h ▸ hlog)]
    have hmem : (n, key) ∈ news.map fun r => (r.room, r.key) := by
      rw [hnews]
      exact (rt.iter_perm _).mem_iff.mpr ((s.desiredRooms.mem_entries_iff n key).mpr hwanted)
    obtain ⟨r, hr, heq⟩ := List.mem_map.mp hmem
    exact ⟨r, hr, (Prod.mk.inj heq).1, (Prod.mk.inj heq).2⟩
  · exact absurd hwelcomed (by simp [welcomed])

theorem joinedRoom_eq_some {frame : Frame} (h : joinedRoom rt frame = some n) (hrun : s.running = true)
    (hlink : s.link = true) : reportsJoined rt n s (.data frame wire) = true := by
  cases frame with
  | JOINED room members nick =>
      have hn : normalizeRoom rt (room.getD []) = n := Option.some.inj h
      simp [reportsJoined, hrun, hlink, hn]
  | _ => exact absurd h (by simp [joinedRoom])

theorem roomsInv_step (hinv : RoomsInv rt s) : RoomsInv rt (s.step rt e) := by
  obtain h | ⟨_, hdesired, hpending, _⟩ | ⟨room, key, wire, rfl, _, h⟩ | ⟨room, wire, rfl, _, h⟩ |
    ⟨limits, wire, job, rfl, _, h⟩ | ⟨frame, wire, rfl, _, _, h⟩ := step_cases rt s e
  · exact ⟨by rw [h.desiredRooms]; exact hinv.normal, h.pendingRejoins.trans hinv.pending⟩
  · exact ⟨by rw [hdesired]; simp, hpending⟩
  · rw [h]
    refine ⟨fun m key' hm => ?_, (rememberDesiredRoom_same rt s.toRrcSessionInner room key).1.trans hinv.pending⟩
    rw [get?_rememberDesiredRoom] at hm
    split_ifs at hm with hroom
    · rw [hroom.1, normalizeRoom_normalizeRoom]
    · exact hinv.normal m key' hm
  · rw [h]
    refine ⟨fun m key' hm => ?_, hinv.pending⟩
    rw [OrderedMap.get?_erase] at hm
    split_ifs at hm
    exact hinv.normal m key' hm
  · obtain ⟨news, _, _, hpending, hdesired⟩ := welcomed_spec rt wire limits job s
    rw [h]
    refine ⟨fun m key' hm => ?_, hpending.trans hinv.pending⟩
    rw [hdesired] at hm
    split_ifs at hm
    exact hinv.normal m key' hm
  · obtain ⟨news, _, _, hpending, hdesired⟩ := data_spec rt wire frame s hinv.pending
    rw [h]
    refine ⟨fun m key' hm => ?_, hpending⟩
    rw [hdesired] at hm
    split_ifs at hm with _ hjoined
    · cases frame with
      | JOINED room members nick =>
          have hn : normalizeRoom rt (room.getD []) = m := Option.some.inj hjoined.1
          rw [← hn, normalizeRoom_normalizeRoom]
      | _ => exact absurd hjoined.1 (by simp [joinedRoom])
    · exact hinv.normal m key' hm

-- A room that is not wanted stays so until the user joins it or the hub says that we have.
theorem unwanted_step (hinv : RoomsInv rt s) (hnone : s.desiredRooms.get? n = none) (hjoins : joins rt n s e = false)
    (hreports : reportsJoined rt n s e = false) : (s.step rt e).desiredRooms.get? n = none := by
  obtain h | ⟨_, hdesired, _⟩ | ⟨room, key, wire, rfl, hjoin, h⟩ | ⟨room, wire, rfl, _, h⟩ |
    ⟨limits, wire, job, rfl, _, h⟩ | ⟨frame, wire, rfl, hrun, hlink, h⟩ := step_cases rt s e
  · rw [h.desiredRooms]
    exact hnone
  · rw [hdesired]
    rfl
  · rw [h]
    refine (get?_rememberDesiredRoom rt s.toRrcSessionInner room key n).trans ?_
    rw [if_neg, hnone]
    rintro ⟨rfl, _⟩
    exact absurd (hjoin.symm.trans hjoins) (by simp)
  · rw [h]
    refine (s.desiredRooms.get?_erase (normalizeRoom rt room) n).trans ?_
    rw [hnone, ite_self]
  · obtain ⟨news, _, _, _, hdesired⟩ := welcomed_spec rt wire limits job s
    rw [h, hdesired, hnone, ite_self]
  · obtain ⟨news, _, _, _, hdesired⟩ := data_spec rt wire frame s hinv.pending
    rw [h, hdesired, hnone]
    rw [if_neg (c := joinedRoom rt frame = some n ∧ n ≠ []), ite_self]
    rintro ⟨hjoined, _⟩
    exact absurd ((joinedRoom_eq_some hjoined hrun hlink).symm.trans hreports) (by simp)

-- A key is kept until the room is parted, joined with another key, lost with a failed
-- rejoin, or a new session begins.
def keepsKey (rt : RrcRuntime) (n k : Text) (s : RrcSession) (e : RrcEvent) : Bool :=
  !parts rt n s e && !renews e && !rejoinFails rt n s e && (!joins rt n s e || (joinKey e).all (· = k))

theorem key_step (hinv : RoomsInv rt s) {k : Text} (hkey : s.desiredRooms.get? n = some (some k))
    (hkeeps : keepsKey rt n k s e = true) : (s.step rt e).desiredRooms.get? n = some (some k) := by
  simp only [keepsKey, Bool.and_eq_true, Bool.not_eq_true', Bool.or_eq_true] at hkeeps
  obtain ⟨⟨⟨hparts, hrenews⟩, hfails⟩, hjoins⟩ := hkeeps
  rw [rejoinFails] at hfails
  obtain h | ⟨hrenewed, _⟩ | ⟨room, key, wire, rfl, hjoin, h⟩ | ⟨room, wire, rfl, hpart, h⟩ |
    ⟨limits, wire, job, rfl, _, h⟩ | ⟨frame, wire, rfl, hrun, hlink, h⟩ := step_cases rt s e
  · rw [h.desiredRooms]
    exact hkey
  · exact absurd (hrenewed.symm.trans hrenews) (by simp)
  · rw [h]
    refine (get?_rememberDesiredRoom rt s.toRrcSessionInner room key n).trans ?_
    rw [hkey]
    split_ifs with hroom
    · rw [hroom.1] at hjoins
      obtain hjoins | hjoins := hjoins
      · exact absurd (hjoin.symm.trans hjoins) (by simp)
      · cases hnew : trimmedKey key with
        | none => simp
        | some k' =>
            have hk : k' = k := by simpa [joinKey, hnew] using hjoins
            simp [hk]
    · rfl
  · rw [h]
    refine (s.desiredRooms.get?_erase (normalizeRoom rt room) n).trans ?_
    rw [if_neg, hkey]
    rintro rfl
    exact absurd (hpart.symm.trans hparts) (by simp)
  · obtain ⟨news, hlog, _, _, hdesired⟩ := welcomed_spec rt wire limits job s
    rw [newRejoins_of_append (h ▸ hlog)] at hfails
    rw [h, hdesired, hfails, if_neg Bool.false_ne_true, hkey]
  · obtain ⟨news, hlog, _, _, hdesired⟩ := data_spec rt wire frame s hinv.pending
    rw [newRejoins_of_append (h ▸ hlog)] at hfails
    rw [h, hdesired, hfails, if_neg Bool.false_ne_true, hkey]
    split_ifs <;> rfl

end MeshClient.Reticulum
