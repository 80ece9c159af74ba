import MeshClient.Ai.SummaryPrompt
import MeshClient.Lib.StableSort

namespace MeshClient.Ai

open Js

-- What a caller may leave out has a default of the packing.
structure PartialPromptContext where
  conversationLabel : Option Units := none
  protocol : Option Units := none
  surface : Option Units := none
  locale : Option Units := none
  mode : Option AiSummaryPassMode := none
  digests : Option Bool := none
deriving DecidableEq, Repr

def PartialPromptContext.frame (context : PartialPromptContext) : AiSummaryPromptContext where
  conversationLabel := context.conversationLabel.getD []
  protocol := context.protocol.getD []
  surface := context.surface.getD []
  locale := context.locale.getD (units "en")
  mode := context.mode
  digests := context.digests

structure Cost where
  bytes : ℤ
  chars : ℤ
deriving DecidableEq, Repr

structure Packer where
  chunks : List (List AiSummaryMessage) := []
  current : List AiSummaryMessage := []
  bytes : ℤ
  chars : ℤ := 0
deriving DecidableEq, Repr

-- The binary search for the longest piece that fits.
def longest (fitting : ℕ → Except String Bool) (low high : ℕ) : Except String ℕ :=
  if low < high then
    let length := (low + high + 1) / 2
    (fitting length).bind fun ok => if ok then longest fitting length high else longest fitting low (length - 1)
  else .ok low
termination_by high - low

section
variable (format : DateTimeFormat) (frame : AiSummaryPromptContext) (empty : AiSummaryPrompt) (budget : PromptBudget)

def framingBytes : ℕ := utf8Length (empty.system ++ empty.user)

def cost (message : AiSummaryMessage) : Except String Cost :=
  (buildAiSummaryPrompt format frame [message] none none).map fun prompt =>
    { bytes := utf8Length (prompt.system ++ prompt.user) - framingBytes empty + 1
      chars := prompt.user.length - empty.user.length + 1 }

def fits (size : Cost) : Bool :=
  decide (size.bytes + framingBytes empty ≤ budget.maxPromptBytes) && decide (size.chars ≤ budget.maxChars)

def append (packer : Packer) (message : AiSummaryMessage) : Except String Packer :=
  (cost format frame empty message).map fun size =>
    if packer.current ≠ [] ∧ (AI_MAX_MESSAGES ≤ packer.current.length ∨
        budget.maxPromptBytes < packer.bytes + size.bytes ∨ budget.maxChars < packer.chars + size.chars) then
      { chunks := packer.chunks ++ [packer.current]
        current := [message]
        bytes := framingBytes empty + size.bytes
        chars := size.chars }
    else
      { packer with
        current := packer.current ++ [message]
        bytes := packer.bytes + size.bytes
        chars := packer.chars + size.chars }

def piece (message : AiSummaryMessage) (body : List Units) (start length : ℕ) : AiSummaryMessage :=
  { message with body := ((body.drop start).take length).flatten }

-- The pieces of a message that is too long, cut between code points.
def appendPieces (message : AiSummaryMessage) (body : List Units) (packer : Packer) (start : ℕ) : Except String Packer :=
  if start < body.length then
    (longest (fun length => (cost format frame empty (piece message body start length)).map (fits empty budget)) 0
        (min (min (body.length - start) budget.maxChars) budget.maxPromptBytes)).bind fun low =>
      if low = 0 then .error "tooLarge"
      else (append format frame empty budget packer (piece message body start low)).bind fun packer =>
        appendPieces message body packer (start + low)
  else .ok packer
termination_by body.length - start

def packMessage (packer : Packer) (message : AiSummaryMessage) : Except String Packer :=
  (cost format frame empty message).bind fun size =>
    if fits empty budget size then append format frame empty budget packer message
    else
      (appendPieces format frame empty budget message (codePoints message.body) packer 0).bind fun packer =>
        if codePoints message.body = [] then .error "tooLarge" else .ok packer

end

def packAiSummaryChunks (format : DateTimeFormat) (messages : List AiSummaryMessage) (engine : AiEngine)
    (context : PartialPromptContext) : Except String (List (List AiSummaryMessage)) :=
  if messages = [] then .ok []
  else
    let budget := aiSummaryPromptBudget engine
    (buildAiSummaryPrompt format context.frame [] none none).bind fun empty =>
      if budget.maxPromptBytes ≤ framingBytes empty then .error "tooLarge"
      else
        ((inTime messages).foldlM (packMessage format context.frame empty budget) { bytes := framingBytes empty }).map
          fun packer => if packer.current ≠ [] then packer.chunks ++ [packer.current] else packer.chunks

def digestMessage (body : Units) (index : ℕ) : AiSummaryMessage where
  at_ := index + 1
  sender := units "Part " ++ units (toString (index + 1))
  body := body

def packAiDigestChunks (format : DateTimeFormat) (digests : List Units) (engine : AiEngine)
    (context : PartialPromptContext) : Except String (List (List AiSummaryMessage)) :=
  packAiSummaryChunks format (digests.mapIdx fun index body => digestMessage body index) engine
    { context with mode := some .reduce }

def needsMultiPass (format : DateTimeFormat) (messages : List AiSummaryMessage) (engine : AiEngine) : Except String Bool :=
  (packAiSummaryChunks format messages engine { }).map fun chunks => decide (1 < chunks.length)

end MeshClient.Ai
