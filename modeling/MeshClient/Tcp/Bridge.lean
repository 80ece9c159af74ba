import MeshClient.Lib.Trace

namespace MeshClient.Tcp

abbrev Bytes := List UInt8

def TCP_BRIDGE_WRITE_MAX_BYTES : Nat := 256 * 1024

def TCP_BRIDGE_DATA_MAX_BYTES : Nat := TCP_BRIDGE_WRITE_MAX_BYTES

inductive TcpBridgeWriteMissing where
  | reject
  | noSocket
deriving DecidableEq, Repr

inductive BridgeError where
  | invalidPort
  | invalidHost (message : String)
  | connectionTimeout
  | closedBeforeConnect
  | socketError (message : String)
  | oversizedPayload
  | invalidBytes
  | noActiveSocket
deriving DecidableEq, Repr

-- `validateHost` gives the message of the error it throws.
structure TcpBridgeDeps where
  writeMissing : TcpBridgeWriteMissing
  validateHost : String → Option String

-- One socket with the promise and the timer of its connect call; `connected`, `timedOut` and
-- `closed` tell what has happened to it.
structure Socket where
  settled : Bool := false
  timerSet : Bool := true
  destroyed : Bool := false
  writableEnded : Bool := false
  connected : Bool := false
  timedOut : Bool := false
  closed : Bool := false
deriving DecidableEq, Repr

-- Sockets are numbered in the order they are made; `mainWindow` tells whether there is a window
-- to send to.
structure TcpBridge where
  activeSocket : Option Nat := none
  sockets : List Socket := []
  mainWindow : Bool := true
deriving DecidableEq, Repr

-- A port or byte is a JavaScript number, `none` where it is not finite.
inductive Event where
  | connect (host : String) (port : Option ℚ)
  | write (bytes : List (Option ℚ))
  | disconnect
  | destroyForQuit
  | connected (i : Nat)
  | data (i : Nat) (chunk : Bytes)
  | ended (i : Nat)
  | error (i : Nat) (message : String)
  | close (i : Nat)
  | timeout (i : Nat)
  | window (present : Bool)

-- What is seen of a run; messages to the renderer name the socket they stem from.
inductive Mark where
  | settled (i : Nat) (result : Except BridgeError Unit)
  | refused (error : BridgeError)
  | tcpData (i : Nat) (chunk : Bytes)
  | tcpDisconnected (i : Nat)
  | written (i : Nat) (bytes : List (Option ℚ))
  | noSocket
  | writeRejected (error : BridgeError)

namespace TcpBridge

def update (b : TcpBridge) (i : Nat) (f : Socket → Socket) : TcpBridge :=
  { b with sockets := b.sockets.modify i f }

-- `destroy` of the socket that was active.
def release (b : TcpBridge) (i : Nat) : TcpBridge :=
  { b.update i (fun socket => { socket with destroyed := true }) with activeSocket := none }

def dropActive (b : TcpBridge) : TcpBridge :=
  match b.activeSocket with
  | some i => b.release i
  | none => b

-- The promise of the connect call: the first call of resolve or reject settles it.
def settle (b : TcpBridge) (i : Nat) (socket : Socket) (result : Except BridgeError Unit) : TcpBridge × List Mark :=
  if socket.settled then (b, []) else (b.update i (fun socket => { socket with settled := true }), [.settled i result])

def isInteger (n : Option ℚ) : Bool := n.any fun q => q.den = 1

def connect (deps : TcpBridgeDeps) (b : TcpBridge) (host : String) (port : Option ℚ) : TcpBridge × List Mark :=
  if !isInteger port ∨ (port.getD 0) < 1 ∨ (port.getD 0) > 65535 then (b, [.refused .invalidPort])
  else
    match deps.validateHost host with
    | some message => (b, [.refused (.invalidHost message)])
    | none =>
        let b := b.dropActive
        ({ b with sockets := b.sockets ++ [{}], activeSocket := some b.sockets.length }, [])

def onTimeout (b : TcpBridge) (i : Nat) (socket : Socket) : TcpBridge × List Mark :=
  let b := b.update i fun socket => { socket with timerSet := false, timedOut := true }
  if socket.settled then (b, [])
  else
    let b := if b.activeSocket = some i then { b with activeSocket := none } else b
    (b.update i (fun socket => { socket with destroyed := true })).settle i socket (.error .connectionTimeout)

def onConnected (b : TcpBridge) (i : Nat) (socket : Socket) : TcpBridge × List Mark :=
  (b.update i fun socket => { socket with timerSet := false, connected := true }).settle i socket (.ok ())

def onData (b : TcpBridge) (i : Nat) (chunk : Bytes) : TcpBridge × List Mark :=
  if chunk.length > TCP_BRIDGE_DATA_MAX_BYTES then
    (b.update i fun socket => { socket with destroyed := true }, [])
  else (b, if b.mainWindow then [.tcpData i chunk] else [])

def onClose (b : TcpBridge) (i : Nat) (socket : Socket) : TcpBridge × List Mark :=
  let b := b.update i fun socket => { socket with timerSet := false, destroyed := true, closed := true }
  if b.activeSocket = some i then
    let (b, marks) := ({ b with activeSocket := none }).settle i socket (.error .closedBeforeConnect)
    (b, (if b.mainWindow then [.tcpDisconnected i] else []) ++ marks)
  else b.settle i socket (.error .closedBeforeConnect)

def onError (b : TcpBridge) (i : Nat) (socket : Socket) (message : String) : TcpBridge × List Mark :=
  (b.update i fun socket => { socket with timerSet := false }).settle i socket (.error (.socketError message))

def isByte (n : Option ℚ) : Bool := isInteger n && 0 ≤ n.getD 0 && n.getD 0 ≤ 255

def write (deps : TcpBridgeDeps) (b : TcpBridge) (bytes : List (Option ℚ)) : List Mark :=
  if bytes.length > TCP_BRIDGE_WRITE_MAX_BYTES then [.writeRejected .oversizedPayload]
  else if ¬ bytes.all isByte then [.writeRejected .invalidBytes]
  else
    match b.activeSocket with
    | none => if deps.writeMissing = .noSocket then [.noSocket] else [.writeRejected .noActiveSocket]
    | some i =>
        if deps.writeMissing = .noSocket ∧ (b.sockets[i]?).any (fun sock => sock.destroyed || sock.writableEnded) then
          [.noSocket]
        else [.written i bytes]

-- A socket that has closed emits nothing more, and its timer fires only while it is set.
def live (b : TcpBridge) (i : Nat) (f : Socket → TcpBridge × List Mark) : TcpBridge × List Mark :=
  match b.sockets[i]? with
  | some socket => if socket.closed then (b, []) else f socket
  | none => (b, [])

def handle (deps : TcpBridgeDeps) (b : TcpBridge) : Event → TcpBridge × List Mark
  | .connect host port => b.connect deps host port
  | .write bytes => (b, b.write deps bytes)
  | .disconnect => (b.dropActive, [])
  | .destroyForQuit => (b.dropActive, [])
  | .connected i => b.live i (b.onConnected i)
  | .data i chunk => b.live i fun _ => b.onData i chunk
  | .ended i => b.live i fun _ => (b.update i fun socket => { socket with writableEnded := true }, [])
  | .error i message => b.live i fun socket => b.onError i socket message
  | .close i => b.live i (b.onClose i)
  | .timeout i => b.live i fun socket => if socket.timerSet then b.onTimeout i socket else (b, [])
  | .window present => ({ b with mainWindow := present }, [])

def step (deps : TcpBridgeDeps) (b : TcpBridge) (e : Event) : TcpBridge := (b.handle deps e).1

def marks (deps : TcpBridgeDeps) (b : TcpBridge) (e : Event) : List Mark := (b.handle deps e).2

end TcpBridge

end MeshClient.Tcp
