import MeshClient.Js.Units
import MeshClient.Lib.Utf8Stream

namespace MeshClient.Meshtastic.RemoteShell

open Js

inductive RemoteShellOp where
  | open_
  | input
  | resize
  | close
  | ping
  | ack
  | openOk
  | output
  | closed
  | error
  | pong
  | unset
deriving DecidableEq, Repr

structure RemoteShellFrame where
  op : RemoteShellOp
  sessionId : ℕ
  seq : ℕ := 0
  ackSeq : ℕ := 0
  payload : List UInt8 := []
  cols : ℕ := 0
  rows : ℕ := 0
  flags : ℕ := 0
deriving DecidableEq, Repr

def REMOTE_SHELL_MAX_PAYLOAD_BYTES : ℕ := 180
def REMOTE_SHELL_MAX_OUTPUT_CHARS : ℕ := 64 * 1024
def REMOTE_ERROR_DETAIL_MAX : ℕ := 160

-- `current` is kept as its code points.
def chunkFrom (chunks : List (List UInt8)) (current : List Units) (currentBytes : ℕ) : List Units → List (List UInt8)
  | [] => if current ≠ [] then chunks ++ [textEncode current.flatten] else chunks
  | ch :: rest =>
      let size := (textEncode ch).length
      if REMOTE_SHELL_MAX_PAYLOAD_BYTES < currentBytes + size then
        chunkFrom (chunks ++ [textEncode current.flatten]) [ch] size rest
      else chunkFrom chunks (current ++ [ch]) (currentBytes + size) rest

def chunkRemoteShellInput (text : Units) : List (List UInt8) := chunkFrom [] [] 0 (codePoints text)

def ESC : UInt16 := 0x1B
def BEL : UInt16 := 0x07
def NEWLINE : UInt16 := 0x0A

-- What stands behind the text of an OSC sequence and its terminator, if it has one.
def afterOsc (text : Units) : Units :=
  match text.dropWhile fun u => u ≠ BEL && u ≠ ESC with
  | [] => []
  | u :: rest =>
      if u = BEL then rest
      else if rest.head? = some 0x5C then rest.drop 1
      else u :: rest

theorem length_afterOsc (text : Units) : (afterOsc text).length ≤ text.length := by
  have hle : (text.dropWhile fun u => u ≠ BEL && u ≠ ESC).length ≤ text.length :=
    (List.dropWhile_sublist _).length_le
  unfold afterOsc
  split
  · exact Nat.zero_le _
  · next u rest heq =>
      rw [heq, List.length_cons] at hle
      split_ifs
      · omega
      · rw [List.length_drop]
        omega
      · rw [List.length_cons]
        omega

-- `ANSI_OSC`
def stripOsc : Units → Units
  | [] => []
  | u :: rest =>
      if u = ESC ∧ rest.head? = some 0x5D then stripOsc (afterOsc (rest.drop 1)) else u :: stripOsc rest
termination_by text => text.length
decreasing_by
  · have hle := length_afterOsc (rest.drop 1)
    rw [List.length_drop] at hle
    rw [List.length_cons]
    omega
  · rw [List.length_cons]
    omega

-- What stands behind a CSI sequence whose parameters begin here.
def afterCsi (text : Units) : Option Units :=
  match (text.dropWhile fun u => 0x30 ≤ u && u ≤ 0x3F).dropWhile fun u => 0x20 ≤ u && u ≤ 0x2F with
  | [] => none
  | u :: rest => if 0x40 ≤ u && u ≤ 0x7E then some rest else none

theorem length_afterCsi {text rest : Units} (h : afterCsi text = some rest) : rest.length ≤ text.length := by
  have hle : ((text.dropWhile fun u => 0x30 ≤ u && u ≤ 0x3F).dropWhile fun u => 0x20 ≤ u && u ≤ 0x2F).length
      ≤ text.length := ((List.dropWhile_sublist _).trans (List.dropWhile_sublist _)).length_le
  unfold afterCsi at h
  split at h
  · cases h
  · next u back heq =>
      rw [heq, List.length_cons] at hle
      split_ifs at h
      rw [← Option.some.inj h]
      omega

-- `ANSI_CSI`
def stripCsi : Units → Units
  | [] => []
  | u :: rest =>
      if u = ESC ∧ rest.head? = some 0x5B then
        match _h : afterCsi (rest.drop 1) with
        | some back => stripCsi back
        | none => u :: stripCsi rest
      else u :: stripCsi rest
termination_by text => text.length
decreasing_by
  · have hle := length_afterCsi _h
    rw [List.length_drop] at hle
    rw [List.length_cons]
    omega
  all_goals
    rw [List.length_cons]
    omega

-- `text.replace(/\r\n/g, '\n').replace(/\r/g, '\n')`
def normalizeNewlines : Units → Units
  | [] => []
  | u :: rest =>
      if u = 0x0D then
        if rest.head? = some NEWLINE then normalizeNewlines rest else NEWLINE :: normalizeNewlines rest
      else u :: normalizeNewlines rest

-- `CONTROL_CHARS`
def isControl (u : UInt16) : Bool := u ≤ 0x08 || (0x0B ≤ u && u ≤ 0x1F) || u = 0x7F

def sanitizeRemoteShellOutput (text : Units) : Units :=
  (normalizeNewlines (stripCsi (stripOsc text))).filter (!isControl ·)

def appendBoundedOutput (current chunk : Units) (max : ℕ) : Units × Bool :=
  let joined := current ++ chunk
  if joined.length ≤ max then (joined, false)
  else
    let cut := joined.length - max
    let line := ((joined.drop cut).takeWhile (· ≠ NEWLINE)).length
    let cut := if cut + line < joined.length ∧ line < 512 then cut + line + 1 else cut
    (joined.drop cut, true)

inductive RemoteShellPhase where
  | idle
  | opening
  | open_
  | closed
  | error
deriving DecidableEq, Repr

inductive RemoteShellErrorCode where
  | openTimeout
  | idleTimeout
  | sendFailed
  | remoteError
  | noRadio
deriving DecidableEq, Repr

structure RemoteShellState where
  phase : RemoteShellPhase := .idle
  identityId : Option String := none
  nodeNum : Option ℚ := none
  sessionId : ℕ := 0
  output : Units := []
  outputTruncated : Bool := false
  gapCount : ℕ := 0
  openedAt : Option ℕ := none
  errorCode : Option RemoteShellErrorCode := none
  errorDetail : Option Units := none
deriving DecidableEq

-- A call of the sender.
structure Sent where
  identityId : String
  destNodeNum : ℚ
  frame : RemoteShellFrame
deriving DecidableEq

-- A chain of INPUT sends. `done` keeps what became of its frames: the call, or none for want of a session.
structure SendChain where
  waiting : List RemoteShellFrame := []
  inFlight : Option RemoteShellFrame := none
  done : List (RemoteShellFrame × Option Sent) := []
deriving DecidableEq

-- The module's variables beside the store. A new session leaves the old chain to itself.
structure Shell where
  store : RemoteShellState := {}
  txSeq : ℕ := 0
  lastRxSeq : ℕ := 0
  openTimer : Bool := false
  idleTimer : Bool := false
  ackTimer : Option ℕ := none
  decoder : Utf8.Decoder := {}
  sendChain : SendChain := {}
  oldChains : List SendChain := []
  opens : List ℕ := []
  sent : List Sent := []
deriving DecidableEq

namespace Shell

def live (shell : Shell) : Bool := decide (shell.store.phase = .opening) || decide (shell.store.phase = .open_)

def clearTimers (shell : Shell) : Shell := { shell with openTimer := false, idleTimer := false, ackTimer := none }

def fail (shell : Shell) (code : RemoteShellErrorCode) (detail : Option Units) : Shell :=
  { shell.clearTimers with
    store := { shell.store with phase := .error, errorCode := some code, errorDetail := detail, openedAt := none } }

def armIdleTimer (shell : Shell) : Shell := { shell with idleTimer := true }

def nextFrame (shell : Shell) (op : RemoteShellOp) (sessionId : ℕ) : Shell × RemoteShellFrame :=
  ({ shell with txSeq := shell.txSeq + 1 }, { op, sessionId, seq := shell.txSeq + 1, ackSeq := shell.lastRxSeq })

-- `none` when there is no session to send in.
def address (shell : Shell) (frame : RemoteShellFrame) : Option Sent :=
  shell.store.identityId.bind fun identityId =>
    shell.store.nodeNum.map fun nodeNum => { identityId, destNodeNum := nodeNum, frame }

def send (shell : Shell) (frame : RemoteShellFrame) : Shell :=
  { shell with sent := shell.sent ++ (shell.address frame).toList }

-- The session id is the caller's random draw.
def openRemoteShell (shell : Shell) (nodeNum : ℚ) (cols rows : ℕ) (identity : Option String) (sessionId : ℕ) : Shell :=
  if shell.live then shell
  else
    let fresh : Shell :=
      { shell.clearTimers with
        store := {}
        txSeq := 0
        lastRxSeq := 0
        decoder := {}
        sendChain := {}
        oldChains := shell.oldChains ++ [shell.sendChain] }
    if identity = none ∨ nodeNum.den ≠ 1 ∨ nodeNum ≤ 0 then
      { fresh with store := { phase := .error, errorCode := some .noRadio, nodeNum := some nodeNum } }
    else
      let opening : Shell :=
        { fresh with
          store := { phase := .opening, identityId := identity, nodeNum := some nodeNum, sessionId }
          openTimer := true
          opens := shell.opens ++ [sessionId] }
      let (opening, frame) := opening.nextFrame .open_ sessionId
      opening.send { frame with cols, rows }

def inputFrames (shell : Shell) : List (List UInt8) → Shell
  | [] => shell
  | payload :: rest =>
      let (shell, frame) := shell.nextFrame .input shell.store.sessionId
      let frame := { frame with payload }
      inputFrames { shell with sendChain := { shell.sendChain with waiting := shell.sendChain.waiting ++ [frame] } } rest

def sendRemoteShellInput (shell : Shell) (text : Units) : Shell :=
  if shell.store.phase ≠ .open_ ∨ text = [] then shell
  else shell.armIdleTimer.inputFrames (chunkRemoteShellInput text)

def resizeRemoteShell (shell : Shell) (cols rows : ℕ) : Shell :=
  if shell.store.phase ≠ .open_ then shell
  else
    let (shell, frame) := shell.nextFrame .resize shell.store.sessionId
    shell.send { frame with cols, rows }

def closeRemoteShell (shell : Shell) (idle : Bool) : Shell :=
  if shell.live then
    let (shell, frame) := shell.clearTimers.nextFrame .close shell.store.sessionId
    let shell := shell.send frame
    if idle then shell.fail .idleTimeout none
    else { shell with store := { shell.store with phase := .closed, openedAt := none } }
  else shell

def abandonRemoteShellForIdentity (shell : Shell) (identityId : String) : Shell :=
  if shell.store.identityId ≠ some identityId then shell else { shell.clearTimers with store := {} }

def scheduleAck (shell : Shell) (sessionId : ℕ) : Shell :=
  if shell.ackTimer ≠ none then shell else { shell with ackTimer := some sessionId }

def appendRemoteShellOutput (shell : Shell) (rawChunk : List Char) : Shell :=
  let chunk := sanitizeRemoteShellOutput ((rawChunk.flatMap charCodes).map UInt16.ofNat)
  if chunk = [] then shell
  else
    let next := appendBoundedOutput shell.store.output chunk REMOTE_SHELL_MAX_OUTPUT_CHARS
    { shell with
      store := { shell.store with output := next.1, outputTruncated := shell.store.outputTruncated || next.2 } }

-- The session is evidently live.
def opened (shell : Shell) (now : ℕ) : Shell :=
  { shell with openTimer := false, store := { shell.store with phase := .open_, openedAt := some now } }

def handleOutput (shell : Shell) (now : ℕ) (frame : RemoteShellFrame) : Shell :=
  let sessionId := shell.store.sessionId
  let shell := if shell.store.phase = .opening then shell.opened now else shell
  if frame.seq ≠ 0 ∧ frame.seq ≤ shell.lastRxSeq then shell
  else
    let shell :=
      if frame.seq ≠ 0 then
        { shell with
          store := { shell.store with
            gapCount :=
              if shell.lastRxSeq ≠ 0 ∧ shell.lastRxSeq + 1 < frame.seq then
                shell.store.gapCount + (frame.seq - shell.lastRxSeq - 1)
              else shell.store.gapCount }
          lastRxSeq := frame.seq }
      else shell
    let text := shell.decoder.decode frame.payload
    (({ shell with decoder := text.2 }.appendRemoteShellOutput text.1).armIdleTimer).scheduleAck sessionId

def sanitizeDetail (detail : Units) : Units :=
  trimUnits (detail.map fun u => if (0x20 ≤ u && u ≤ 0x7E) || 0xA0 ≤ u then u else 0x20)

def handleError (shell : Shell) (frame : RemoteShellFrame) : Shell :=
  let detail := (units (Utf8.textDecode frame.payload)).take REMOTE_ERROR_DETAIL_MAX
  if shell.store.phase = .opening then shell.fail .remoteError (some (sanitizeDetail detail))
  else
    { shell with
      store := { shell.store with errorCode := some .remoteError, errorDetail := some (sanitizeDetail detail) } }

-- A frame of the session that is open.
def isOwn (shell : Shell) (identityId : String) (sender : ℚ) (frame : RemoteShellFrame) : Bool :=
  shell.live && decide (shell.store.identityId = some identityId) && decide (shell.store.nodeNum = some sender) &&
    decide (shell.store.sessionId = frame.sessionId)

def handleRemoteShellFrame (shell : Shell) (now : ℕ) (identityId : String) (sender : ℚ) (frame : RemoteShellFrame) :
    Shell :=
  if shell.isOwn identityId sender frame then
    match frame.op with
    | .openOk => if shell.store.phase = .opening then (shell.opened now).armIdleTimer else shell
    | .output => shell.handleOutput now frame
    | .closed =>
        { shell.clearTimers with store := { shell.store with phase := .closed, openedAt := none } }
    | .error => shell.handleError frame
    | _ => shell
  else shell

def clearRemoteShellOutput (shell : Shell) : Shell :=
  { shell with store := { shell.store with output := [], outputTruncated := false } }

-- The callbacks of the three timers, when they are armed.
def openTimeout (shell : Shell) : Shell :=
  if shell.openTimer then
    let shell := { shell with openTimer := false }
    if shell.store.phase = .opening then shell.fail .openTimeout none else shell
  else shell

def idleTimeout (shell : Shell) : Shell :=
  if shell.idleTimer then { shell with idleTimer := false }.closeRemoteShell true else shell

def ackTimeout (shell : Shell) : Shell :=
  match shell.ackTimer with
  | none => shell
  | some sessionId =>
      let shell := { shell with ackTimer := none }
      if shell.store.sessionId ≠ sessionId ∨ shell.store.phase ≠ .open_ then shell
      else shell.send { op := .ack, sessionId, ackSeq := shell.lastRxSeq }

-- The `catch` of a send: the text of the error.
def sendFailed (shell : Shell) (sessionId : ℕ) (error : Units) : Shell :=
  if shell.store.sessionId = sessionId then shell.fail .sendFailed (some (error.take REMOTE_ERROR_DETAIL_MAX)) else shell

def openSettles (shell : Shell) (i : ℕ) (error : Option Units) : Shell :=
  match shell.opens[i]? with
  | none => shell
  | some sessionId =>
      let shell := { shell with opens := shell.opens.eraseIdx i }
      match error with
      | none => shell
      | some error => shell.sendFailed sessionId error

-- The chains, the ones of earlier sessions first.
def chain? (shell : Shell) (i : ℕ) : Option SendChain := (shell.oldChains ++ [shell.sendChain])[i]?

def setChain (shell : Shell) (i : ℕ) (chain : SendChain) : Shell :=
  if i < shell.oldChains.length then { shell with oldChains := shell.oldChains.set i chain }
  else { shell with sendChain := chain }

-- The next send of a chain is called.
def chainTurn (shell : Shell) (i : ℕ) : Shell :=
  match shell.chain? i with
  | none => shell
  | some chain =>
      match chain.inFlight, chain.waiting with
      | none, frame :: rest =>
          let call := shell.address frame
          let chain := { chain with waiting := rest, done := chain.done ++ [(frame, call)] }
          if call = none then (shell.setChain i chain).sendFailed frame.sessionId (units "no session")
          else (shell.setChain i { chain with inFlight := some frame }).send frame
      | _, _ => shell

def chainSettles (shell : Shell) (i : ℕ) (error : Option Units) : Shell :=
  match shell.chain? i with
  | none => shell
  | some chain =>
      match chain.inFlight with
      | none => shell
      | some frame =>
          let shell := shell.setChain i { chain with inFlight := none }
          match error with
          | none => shell
          | some error => shell.sendFailed frame.sessionId error

end Shell

inductive Event where
  | opens (nodeNum : ℚ) (cols rows : ℕ) (identity : Option String) (sessionId : ℕ)
  | input (text : Units)
  | resize (cols rows : ℕ)
  | close
  | clear
  | abandon (identityId : String)
  | frame (now : ℕ) (identityId : String) (sender : ℚ) (frame : RemoteShellFrame)
  | openTimeout
  | idleTimeout
  | ackTimeout
  | openSettles (i : ℕ) (error : Option Units)
  | chainTurn (i : ℕ)
  | chainSettles (i : ℕ) (error : Option Units)

def step (shell : Shell) : Event → Shell
  | .opens nodeNum cols rows identity sessionId => shell.openRemoteShell nodeNum cols rows identity sessionId
  | .input text => shell.sendRemoteShellInput text
  | .resize cols rows => shell.resizeRemoteShell cols rows
  | .close => shell.closeRemoteShell false
  | .clear => shell.clearRemoteShellOutput
  | .abandon identityId => shell.abandonRemoteShellForIdentity identityId
  | .frame now identityId sender frame => shell.handleRemoteShellFrame now identityId sender frame
  | .openTimeout => shell.openTimeout
  | .idleTimeout => shell.idleTimeout
  | .ackTimeout => shell.ackTimeout
  | .openSettles i error => shell.openSettles i error
  | .chainTurn i => shell.chainTurn i
  | .chainSettles i error => shell.chainSettles i error

end MeshClient.Meshtastic.RemoteShell
