import MeshClient.Lib.Run
import MeshClient.Reticulum.ConfigFile

namespace MeshClient.Reticulum

open Run

-- Lower-casing of texts, and the order in which a hash map is walked through.
structure RrcRuntime where
  toLowercase : Text → Text
  iter : OrderedMap Text (Option Text) → List (Text × Option Text)
  normalize_idem : ∀ s, toLowercase (trim (toLowercase (trim s))) = toLowercase (trim s)
  iter_perm : ∀ m, (iter m).Perm m.entries

def normalizeRoom (rt : RrcRuntime) (room : Text) : Text := rt.toLowercase (trim room)

inductive RrcSessionStatus where
  | Disconnected
  | Connecting
  | AwaitingWelcome
  | Active
  | Reconnecting
deriving DecidableEq

def RrcSessionStatus.asStr : RrcSessionStatus → String
  | .Disconnected => "disconnected"
  | .Connecting => "connecting"
  | .AwaitingWelcome => "awaiting_welcome"
  | .Active => "active"
  | .Reconnecting => "reconnecting"

abbrev Member := Text × Option Text

structure RrcRoomState where
  name : Text
  members : List Member
deriving DecidableEq

structure RrcWelcomeLimits where
  maxNickBytes : Option Nat := none
  maxMsgBodyBytes : Option Nat := none
deriving DecidableEq

structure RrcSessionInner where
  status : RrcSessionStatus := .Disconnected
  nickname : Option Text := none
  rooms : OrderedMap Text RrcRoomState := ∅
  desiredRooms : OrderedMap Text (Option Text) := ∅
  pendingRejoins : List (Text × Option Text) := []
  lastError : Option Text := none
  identityHash : Text := []
  limits : RrcWelcomeLimits := {}
deriving DecidableEq

def trimmedKey (key : Option Text) : Option Text := (key.map trim).filter (· ≠ [])

namespace RrcSessionInner

def rememberDesiredRoom (rt : RrcRuntime) (g : RrcSessionInner) (room : Text) (key : Option Text) :
    RrcSessionInner :=
  let norm := normalizeRoom rt room
  if norm = [] then g
  else
    match g.desiredRooms.get? norm with
    | some _ => if (trimmedKey key).isSome then { g with desiredRooms := g.desiredRooms.set norm (trimmedKey key) } else g
    | none => { g with desiredRooms := g.desiredRooms.set norm (trimmedKey key) }

def queuePendingRejoin (rt : RrcRuntime) (g : RrcSessionInner) (room : Text) (joinKey : Option Text) :
    RrcSessionInner :=
  let key := normalizeRoom rt room
  if g.pendingRejoins.any fun p => normalizeRoom rt p.1 = key then g
  else { g with pendingRejoins := g.pendingRejoins ++ [(room, joinKey)] }

end RrcSessionInner

inductive RoomControl where
  | JOIN
  | PART
deriving DecidableEq

structure RoomEnvelope where
  msgType : RoomControl
  roomName : Option Text
  body : Option Text
  nickname : Option Text
deriving DecidableEq

-- `str::len`
def byteLength (s : Text) : Nat := (s.map Char.utf8Size).sum

-- `wire` is what encoding the envelope or handing it to the link fails with.
def sendRoomControl (link : Bool) (g : RrcSessionInner) (room : Text) (msgType : RoomControl) (body : Option Text)
    (wire : Option String) : Except String RoomEnvelope :=
  if link = false then .error "not connected to an RRC hub"
  else if g.status ≠ .Active ∧ g.status ≠ .AwaitingWelcome then
    .error ("rrc session not active (" ++ g.status.asStr ++ ")")
  else
    match body, g.limits.maxMsgBodyBytes with
    | some b, some max =>
        if byteLength b > max then .error ("message exceeds hub limit (" ++ toString max ++ " bytes)")
        else wire.elim (.ok ⟨msgType, some (trim room) |>.filter (· ≠ []), body, g.nickname⟩) .error
    | _, _ => wire.elim (.ok ⟨msgType, some (trim room) |>.filter (· ≠ []), body, g.nickname⟩) .error

-- What a frame of the hub says once its envelope and its body are decoded.
inductive Frame where
  | WELCOME (limits : RrcWelcomeLimits)
  | JOINED (room : Option Text) (members : List Member) (nick : Option Text)
  | PARTED (room : Option Text) (peers : List Member) (nick : Option Text)
  | ERROR (message : Option Text)
  | other
deriving DecidableEq

def eqIgnoreAsciiCase (a b : Text) : Bool := a.map Char.toLower = b.map Char.toLower

def isBlank (nick : Option Text) : Bool := nick.all fun n => trim n = []

def applyAdvisoryNick (members : List Member) (nick : Option Text) : List Member :=
  match (nick.map trim).filter (· ≠ []), members with
  | some n, [(h, known)] => if isBlank known then [(h, some n)] else members
  | _, _ => members

def setNick (h : Text) (n : Option Text) : List Member → List Member
  | [] => []
  | m :: rest => if eqIgnoreAsciiCase m.1 h then (m.1, n) :: rest else m :: setNick h n rest

def applyJoinedToRoom (g : RrcSessionInner) (key room : Text) (incoming : List Member) : RrcSessionInner :=
  match g.rooms.get? key with
  | some state =>
      let name := if room = [] then state.name else room
      match incoming with
      | [] => g
      | [(h, n)] =>
          let members :=
            if state.members.any fun m => eqIgnoreAsciiCase m.1 h then
              if isBlank n then state.members else setNick h n state.members
            else state.members ++ [(h, n)]
          { g with rooms := g.rooms.set key ⟨name, members⟩ }
      | _ => { g with rooms := g.rooms.set key ⟨name, incoming⟩ }
  | none => { g with rooms := g.rooms.set key ⟨if room = [] then key else room, incoming⟩ }

def partedConcernsSelf (peers : List Member) (nick : Option Text) (ourHash : Text) (ourNick : Option Text) : Bool :=
  if peers ≠ [] then peers.any fun p => eqIgnoreAsciiCase p.1 ourHash
  else
    match (nick.map trim).filter (· ≠ []) with
    | some n => ourNick.any fun o => eqIgnoreAsciiCase (trim o) n
    | none => true

def removePeers (members peers : List Member) (nick : Option Text) : List Member :=
  if peers ≠ [] then members.filter fun m => !peers.any fun p => eqIgnoreAsciiCase m.1 p.1
  else
    match nick with
    | some n => members.filter fun m => !m.2.any fun known => eqIgnoreAsciiCase (trim known) (trim n)
    | none => members

def handleInbound (rt : RrcRuntime) (g : RrcSessionInner) : Frame → RrcSessionInner
  | .WELCOME limits => { g with limits, status := .Active }
  | .JOINED room members nick =>
      let room := room.getD []
      let g := applyJoinedToRoom g (normalizeRoom rt room) room (applyAdvisoryNick members nick)
      g.rememberDesiredRoom rt room none
  | .PARTED room peers nick =>
      let room := room.getD []
      let key := normalizeRoom rt room
      if partedConcernsSelf peers nick g.identityHash g.nickname then
        let g := { g with rooms := g.rooms.erase key }
        match g.desiredRooms.get? key with
        | some joinKey => g.queuePendingRejoin rt room joinKey
        | none => g
      else
        match g.rooms.get? key with
        | some state =>
            let members := removePeers state.members (applyAdvisoryNick peers nick) nick
            { g with rooms := g.rooms.set key { state with members } }
        | none => g
  | .ERROR message => { g with lastError := some (message.getD "hub error".toList) }
  | .other => g

-- The delay, the opening of the link and the wait for the hub's welcome.
inductive JobPhase where
  | delayed
  | opening
  | awaiting
deriving DecidableEq

structure ConnectJob where
  reply : Bool
  destHash : Text
  nickname : Text
  delayMs : Nat
  phase : JobPhase := .delayed
deriving DecidableEq

structure ReconnectIntent where
  destHash : Text
  nickname : Text
deriving DecidableEq

-- An automatic JOIN: what was asked for and what became of it.
structure Rejoin where
  room : Text
  key : Option Text
  result : Except String RoomEnvelope
deriving DecidableEq

def RECONNECT_BASE_MS : Nat := 2000
def RECONNECT_MAX_MS : Nat := 30000

-- `rejoins` is a log that the code does not keep.
structure RrcSession extends RrcSessionInner where
  link : Bool := false
  reconnectIntent : Option ReconnectIntent := none
  backoffMs : Nat := RECONNECT_BASE_MS
  connectJob : Option ConnectJob := none
  running : Bool := true
  rejoins : List Rejoin := []
deriving DecidableEq

-- What happens to the loop. A failure of the link is named for the room it concerns.
inductive RrcEvent where
  | connect (destHash nickname : Text)
  | disconnect
  | join (room : Text) (key : Option Text) (wire : Option String)
  | part (room : Text) (wire : Option String)
  | setNickname (nickname : Text)
  | jobStarts
  | jobOpens
  | jobWelcomed (limits : RrcWelcomeLimits) (wire : Text → Option String)
  | jobFails (reason : Text)
  | data (frame : Frame) (wire : Text → Option String)
  | linkCloses (reason : Text)
  | linkEnds

namespace RrcSession

def handleRejoinFailure (rt : RrcRuntime) (s : RrcSession) (room : Text) : RrcSession :=
  { s with
    desiredRooms := s.desiredRooms.erase (normalizeRoom rt room)
    rooms := s.rooms.erase (normalizeRoom rt room) }

def rejoin (rt : RrcRuntime) (wire : Text → Option String) (s : RrcSession) (room : Text × Option Text) : RrcSession :=
  let result := sendRoomControl s.link s.toRrcSessionInner room.1 .JOIN room.2 (wire room.1)
  let s := { s with rejoins := s.rejoins ++ [⟨room.1, room.2, result⟩] }
  match result with
  | .ok _ => s
  | .error _ => s.handleRejoinFailure rt room.1

def rejoinAll (rt : RrcRuntime) (wire : Text → Option String) (s : RrcSession) (rooms : List (Text × Option Text)) :
    RrcSession :=
  rooms.foldl (rejoin rt wire) s

def resolveReconnectNickname (g : RrcSessionInner) (intentNick : Text) : Text :=
  match (g.nickname.map trim).filter (· ≠ []) with
  | some n => n
  | none => if trim intentNick = [] then "mesh-client".toList else trim intentNick

-- A delayed connect job without a reply, where there is an intent to reconnect.
def scheduleReconnect (s : RrcSession) : RrcSession :=
  match s.reconnectIntent with
  | some intent =>
      { s with
        backoffMs := min (s.backoffMs * 2) RECONNECT_MAX_MS
        connectJob := some
          { reply := false
            destHash := intent.destHash
            nickname := resolveReconnectNickname s.toRrcSessionInner intent.nickname
            delayMs := s.backoffMs } }
  | none => s

def connect (s : RrcSession) (destHash nickname : Text) : RrcSession :=
  { s with
    link := false
    reconnectIntent := none
    backoffMs := RECONNECT_BASE_MS
    status := .Connecting
    nickname := some nickname
    rooms := ∅
    desiredRooms := ∅
    pendingRejoins := []
    lastError := none
    limits := {}
    connectJob := some { reply := true, destHash, nickname, delayMs := 0 } }

def disconnect (s : RrcSession) : RrcSession :=
  { s with
    connectJob := none
    reconnectIntent := none
    backoffMs := RECONNECT_BASE_MS
    link := false
    status := .Disconnected
    rooms := ∅
    desiredRooms := ∅
    pendingRejoins := []
    limits := {}
    running := false }

def join (rt : RrcRuntime) (s : RrcSession) (room : Text) (key : Option Text) (wire : Option String) : RrcSession :=
  match sendRoomControl s.link s.toRrcSessionInner room .JOIN key wire with
  | .ok _ => { s with toRrcSessionInner := s.toRrcSessionInner.rememberDesiredRoom rt room key }
  | .error _ => s

def part (rt : RrcRuntime) (s : RrcSession) (room : Text) (wire : Option String) : RrcSession :=
  match sendRoomControl s.link s.toRrcSessionInner room .PART none wire with
  | .ok _ =>
      { s with
        desiredRooms := s.desiredRooms.erase (normalizeRoom rt room)
        rooms := s.rooms.erase (normalizeRoom rt room) }
  | .error _ => s

def setNickname (s : RrcSession) (nickname : Text) : RrcSession :=
  let nick := trim nickname
  if nick = [] then s
  else if s.limits.maxNickBytes.any fun max => byteLength nick > max then s
  else
    { s with
      nickname := some nick
      reconnectIntent := s.reconnectIntent.map fun intent => { intent with nickname := nick } }

def jobWelcomed (rt : RrcRuntime) (s : RrcSession) (job : ConnectJob) (limits : RrcWelcomeLimits)
    (wire : Text → Option String) : RrcSession :=
  let s := { s with
    connectJob := none
    status := .Active
    limits
    lastError := none
    link := true
    reconnectIntent := some ⟨job.destHash, job.nickname⟩
    backoffMs := RECONNECT_BASE_MS }
  s.rejoinAll rt wire (rt.iter s.desiredRooms)

def jobFails (s : RrcSession) (job : ConnectJob) (reason : Text) : RrcSession :=
  let s := { s with connectJob := none, lastError := some reason }
  if job.reply = false ∧ s.reconnectIntent.isSome then scheduleReconnect { s with status := .Reconnecting }
  else { s with status := .Disconnected, running := !job.reply }

def data (rt : RrcRuntime) (s : RrcSession) (frame : Frame) (wire : Text → Option String) : RrcSession :=
  let s := { s with toRrcSessionInner := handleInbound rt s.toRrcSessionInner frame }
  let rejoins := s.pendingRejoins
  ({ s with pendingRejoins := [] }).rejoinAll rt wire rejoins

def linkCloses (s : RrcSession) (reason : Text) : RrcSession :=
  let s := { s with link := false, lastError := some reason }
  if s.connectJob.isNone then
    if s.reconnectIntent.isSome then scheduleReconnect { s with status := .Reconnecting }
    else { s with status := .Disconnected, rooms := ∅ }
  else s

-- One turn of the loop. The job moves on while the loop waits; a frame or the end of the
-- link comes where there is a link.
def step (rt : RrcRuntime) (s : RrcSession) (event : RrcEvent) : RrcSession :=
  if s.running = false then s
  else
    match event, s.connectJob with
    | .connect destHash nickname, _ => s.connect destHash nickname
    | .disconnect, _ => s.disconnect
    | .join room key wire, _ => s.join rt room key wire
    | .part room wire, _ => s.part rt room wire
    | .setNickname nickname, _ => s.setNickname nickname
    | .jobStarts, some job =>
        if job.phase = .delayed then
          { s with
            status := .Connecting
            connectJob := some { job with phase := .opening } }
        else s
    | .jobOpens, some job =>
        if job.phase = .opening then
          { s with
            status := .AwaitingWelcome
            connectJob := some { job with phase := .awaiting } }
        else s
    | .jobWelcomed limits wire, some job => if job.phase = .awaiting then s.jobWelcomed rt job limits wire else s
    | .jobFails reason, some job => if job.phase = .delayed then s else s.jobFails job reason
    | .data frame wire, _ => if s.link then s.data rt frame wire else s
    | .linkCloses reason, _ => if s.link then s.linkCloses reason else s
    | .linkEnds, _ => if s.link then s.linkCloses "link_ended".toList else s
    | _, none => s

end RrcSession

end MeshClient.Reticulum
