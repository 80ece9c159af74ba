import MeshClient.Lib.OrderedMap
import MeshClient.Lib.Trace
import MeshClient.Meshcore.CliSecrets

namespace MeshClient.Meshcore.Cli

open Js

def MAX_RETRIES : Nat := 5

def REPEATER_CLI_BASE_TIMEOUT_MS : Nat := 30000

def REPEATER_CLI_PER_HOP_TIMEOUT_MS : Nat := 2000

def REPEATER_CLI_MAX_TIMEOUT_MS : Nat := 120000

structure ServiceOptions where
  maxRetries : Nat := MAX_RETRIES
  baseTimeoutMs : Nat := REPEATER_CLI_BASE_TIMEOUT_MS
  perHopTimeoutMs : Nat := REPEATER_CLI_PER_HOP_TIMEOUT_MS
  maxTimeoutMs : Nat := REPEATER_CLI_MAX_TIMEOUT_MS

-- `redactMeshcoreCliSecretsInText` is what the history shows of an ordinary reply.
structure Env where
  options : ServiceOptions
  redactMeshcoreCliSecretsInText : Text → Text

inductive CliError where
  | timedOut (timeoutMs : Nat)
  | cancelled
  | other (message : Text)
deriving DecidableEq, Repr

-- A command with its promise; `timer` is when its timer is due while it is set.
structure PendingCommand where
  command : Text
  token : Text
  sentAt : Nat
  timeoutMs : Nat
  senderNodeId : Nat
  retryCount : Nat := 0
  maxRetries : Nat
  timer : Option Nat
deriving DecidableEq, Repr

structure SettledCliReply where
  senderNodeId : Nat
  body : Text
deriving DecidableEq, Repr

-- Commands are numbered as they are registered; the map keeps their numbers.
structure Service where
  nextToken : Nat := 0
  pendingCommands : OrderedMap Text Nat := ∅
  sensitiveTokens : List Text := []
  settled : OrderedMap Text SettledCliReply := ∅
  commands : List PendingCommand := []
  now : Nat := 0

structure RegisterOptions where
  token : Option Text := none
  timeoutMs : Option Nat := none
  maxRetries : Option Nat := none
  senderNodeId : Option Nat := none

inductive MeshcoreCliIngestResult where
  | resolved (nodeId : Nat) (historyText : Text)
  | duplicate
  | unmatched (historyText : Text)
deriving DecidableEq, Repr

inductive Mark where
  | settled (i : Nat) (outcome : Except CliError Text)
  | ingested (result : MeshcoreCliIngestResult)

inductive Event where
  | generateToken
  | register (command : Text) (pathLength : Nat) (options : RegisterOptions)
  | ingest (rawResponse : Text) (senderId : Option Nat)
  | extend (token : Text) (newTimeoutMs : Nat)
  | restart (token : Text) (timeoutMs : Nat)
  | handleError (token : Text) (error : Text)
  | rejectPending (token : Text) (error : Text)
  | clear
  | fires (i : Nat)
  | wait (ms : Nat)

def hexDigit (n : Nat) : Char := if n < 10 then Char.ofNat ('0'.toNat + n) else Char.ofNat ('A'.toNat + (n - 10))

def isHexDigit (c : Char) : Bool := isDigit c || ('a' ≤ c && c ≤ 'f') || ('A' ≤ c && c ≤ 'F')

-- Two digits of a number below 256.
def tokenOf (n : Nat) : Text := [hexDigit (n / 16), hexDigit (n % 16)]

def parseResponseToken (response : Text) : Option Text × Text :=
  match response with
  | a :: b :: '|' :: body => if isHexDigit a && isHexDigit b then (some [a.toUpper, b.toUpper], body) else (none, response)
  | _ => (none, response)

def calculateRepeaterCliTimeout (hopCount messageSize : Nat) (options : ServiceOptions) : Nat :=
  min (max (options.baseTimeoutMs + hopCount * options.perHopTimeoutMs + messageSize / 100 * 100) options.baseTimeoutMs)
    options.maxTimeoutMs

def senderMatches (expectedSenderNodeId : Nat) (senderId : Option Nat) : Bool :=
  senderId.getD 0 = 0 || expectedSenderNodeId = 0 || senderId = some expectedSenderNodeId

namespace Service

def nextTokenOf (s : Service) (options : RegisterOptions) : Text := options.token.getD (tokenOf s.nextToken)

def generateToken (s : Service) : Service := { s with nextToken := (s.nextToken + 1) % 256 }

-- `redactMeshcoreCliSecrets(command) !== command`
def isSensitive (command : Text) : Bool := redactMeshcoreCliSecrets command != command

def registerPendingCommand (env : Env) (s : Service) (command : Text) (pathLength : Nat) (options : RegisterOptions) :
    Service :=
  let token := s.nextTokenOf options
  let s := if options.token.isNone then s.generateToken else s
  let timeoutMs := options.timeoutMs.getD
    (calculateRepeaterCliTimeout pathLength (command.flatMap charCodes).length env.options)
  { s with
    settled := s.settled.erase token
    sensitiveTokens :=
      if isSensitive command then token :: s.sensitiveTokens else s.sensitiveTokens.filter (· ≠ token)
    pendingCommands := s.pendingCommands.set token s.commands.length
    commands := s.commands ++ [{ command, token, sentAt := s.now, timeoutMs
                                 senderNodeId := options.senderNodeId.getD 0
                                 maxRetries := options.maxRetries.getD env.options.maxRetries
                                 timer := some (s.now + timeoutMs) }] }

def update (s : Service) (i : Nat) (f : PendingCommand → PendingCommand) : Service :=
  { s with commands := s.commands.modify i f }

-- The command that waits for a reply under the token, with its number.
def pending (s : Service) (token : Text) : Option (Nat × PendingCommand) :=
  (s.pendingCommands.get? token).bind fun i => (s.commands[i]?).map fun c => (i, c)

-- `clearTimeout` and `delete`
def drop (s : Service) (token : Text) (i : Nat) : Service :=
  { s.update i (fun c => { c with timer := none }) with pendingCommands := s.pendingCommands.erase token }

def extendPendingTimeout (s : Service) (token : Text) (newTimeoutMs : Nat) : Service :=
  match s.pending token with
  | none => s
  | some (i, pending) =>
      if newTimeoutMs ≤ pending.timeoutMs then s
      else
        s.update i fun c =>
          { c with timeoutMs := newTimeoutMs, timer := some (s.now + (newTimeoutMs - (s.now - c.sentAt))) }

def restartPendingTimeoutFromNow (s : Service) (token : Text) (timeoutMs : Nat) : Service :=
  match s.pending token with
  | none => s
  | some (i, _) => s.update i fun c => { c with sentAt := s.now, timeoutMs, timer := some (s.now + timeoutMs) }

def startsWithPasswordNow (body : Text) : Bool := (stripWord (text "password now:") (trimChars body)).isSome

def redactResponseForHistory (env : Env) (s : Service) (rawResponse : Text) : Text :=
  let (token, body) := parseResponseToken rawResponse
  if token.any s.sensitiveTokens.contains || startsWithPasswordNow body then MESHCORE_CLI_REDACTED
  else env.redactMeshcoreCliSecretsInText body

-- The command that a reply answers.
def answered (s : Service) (token : Text) (senderId : Option Nat) : Option (Nat × PendingCommand) :=
  (s.pending token).filter fun p => senderMatches p.2.senderNodeId senderId

-- The reply of a token whose command was resolved before.
def isDuplicate (s : Service) (token body : Text) (senderId : Option Nat) : Bool :=
  (s.settled.get? token).any fun prior => prior.body = body && senderMatches prior.senderNodeId senderId

def ingestResponse (env : Env) (s : Service) (rawResponse : Text) (senderId : Option Nat) : Service × List Mark :=
  let (token, body) := parseResponseToken rawResponse
  let historyText := s.redactResponseForHistory env rawResponse
  match token with
  | none => (s, [.ingested (.unmatched historyText)])
  | some token =>
      match s.answered token senderId with
      | some (i, pending) =>
          ({ s.drop token i with settled := s.settled.set token ⟨pending.senderNodeId, body⟩ },
            [.settled i (.ok body), .ingested (.resolved pending.senderNodeId historyText)])
      | none => (s, [.ingested (if s.isDuplicate token body senderId then .duplicate else .unmatched historyText)])

def handleError (s : Service) (token : Text) (error : Text) : Service × List Mark :=
  match s.pending token with
  | none => (s, [])
  | some (i, pending) =>
      let s := s.update i fun c => { c with retryCount := c.retryCount + 1 }
      if pending.retryCount + 1 ≥ pending.maxRetries then (s.drop token i, [.settled i (.error (.other error))])
      else (s, [])

def rejectPending (s : Service) (token : Text) (error : Text) : Service × List Mark :=
  match s.pending token with
  | none => (s, [])
  | some (i, _) => (s.drop token i, [.settled i (.error (.other error))])

def clear (s : Service) : Service × List Mark :=
  ({ s with
      commands := s.commands.mapIdx fun i c => if i ∈ s.pendingCommands.values then { c with timer := none } else c
      pendingCommands := ∅
      settled := ∅ },
    s.pendingCommands.values.map fun i => .settled i (.error .cancelled))

-- The callback of a command's timer, which deletes whatever waits under its token.
def fires (s : Service) (i : Nat) : Service × List Mark :=
  match s.commands[i]? with
  | none => (s, [])
  | some c =>
      if c.timer.any (· ≤ s.now) then
        let s' := s.update i fun c => { c with timer := none }
        if (s.pendingCommands.get? c.token).isSome then
          ({ s' with pendingCommands := s.pendingCommands.erase c.token }, [.settled i (.error (.timedOut c.timeoutMs))])
        else (s', [])
      else (s, [])

def handle (env : Env) (s : Service) : Event → Service × List Mark
  | .generateToken => (s.generateToken, [])
  | .register command pathLength options => (s.registerPendingCommand env command pathLength options, [])
  | .ingest rawResponse senderId => s.ingestResponse env rawResponse senderId
  | .extend token newTimeoutMs => (s.extendPendingTimeout token newTimeoutMs, [])
  | .restart token timeoutMs => (s.restartPendingTimeoutFromNow token timeoutMs, [])
  | .handleError token error => s.handleError token error
  | .rejectPending token error => s.rejectPending token error
  | .clear => s.clear
  | .fires i => s.fires i
  | .wait ms => ({ s with now := s.now + ms }, [])

def step (env : Env) (s : Service) (e : Event) : Service := (s.handle env e).1

def marks (env : Env) (s : Service) (e : Event) : List Mark := (s.handle env e).2

end Service

end MeshClient.Meshcore.Cli
