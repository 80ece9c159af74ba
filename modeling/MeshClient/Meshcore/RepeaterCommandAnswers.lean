import MeshClient.Meshcore.RepeaterCommandRuns

namespace MeshClient.Meshcore.Cli

open Js Run Trace

namespace Service

variable (env : Env) {s : Service}

theorem sound_run (h : Sound s) {events : List Event} (hclean : Each (step env) Clean s events) :
    Sound (run (step env) s events) :=
  @invariant_of_each _ _ (step env) Sound Clean (fun _ _ hc hs => (step_good hs hc).1) _ _ hclean h

-- Of every command that a run registers, either the timer is set at its end or the run has
-- settled it once.
theorem balanced_run (h : Sound s) {events : List Event} (hclean : Each (step env) Clean s events) :
    ∀ i, ((run (step env) s events).known i).toNat + (s.live i).toNat =
      (s.known i).toNat + ((run (step env) s events).live i).toNat +
        (trace (step env) (marks env) s events).countP (isSettled i) := by
  induction events generalizing s with
  | nil => intro i; simp [trace]
  | cons e rest ih =>
      intro i
      obtain ⟨hsound, hbalanced⟩ := @step_good env s h e hclean.1
      have hstep := hbalanced i
      have hrest := ih hsound hclean.2 i
      rw [run_cons, trace, List.countP_append]
      omega

-- The commands as they were registered, with their tokens.
def registered (s : Service) : List (Text × Text) := s.commands.map fun c => (c.token, c.command)

-- The last command that was registered under the token.
def lastCommand (s : Service) (token : Text) : Option Text :=
  ((s.registered.filter fun r => r.1 = token).getLast?).map Prod.snd

-- The tokens whose last command holds a secret are remembered.
def Guarded (s : Service) : Prop :=
  ∀ token command, s.lastCommand token = some command → isSensitive command = true → token ∈ s.sensitiveTokens

theorem registered_update (i : Nat) (f : PendingCommand → PendingCommand)
    (hf : ∀ c, (f c).token = c.token ∧ (f c).command = c.command) : (s.update i f).registered = s.registered := by
  unfold registered update
  apply List.ext_getElem?
  intro j
  rw [List.getElem?_map, List.getElem?_map, List.getElem?_modify]
  cases s.commands[j]? with
  | none => rfl
  | some c => by_cases hij : i = j <;> simp [hij, hf c]

theorem guarded_congr {s' : Service} (h : Guarded s) (hregistered : s'.registered = s.registered)
    (htokens : s'.sensitiveTokens = s.sensitiveTokens) : Guarded s' := by
  unfold Guarded lastCommand
  rw [hregistered, htokens]
  exact h

theorem registered_drop (token : Text) (i : Nat) : (s.drop token i).registered = s.registered :=
  registered_update i _ fun _ => ⟨rfl, rfl⟩

theorem registered_clear : s.clear.1.registered = s.registered := by
  unfold registered clear
  apply List.ext_getElem?
  intro j
  rw [List.getElem?_map, List.getElem?_map, List.getElem?_mapIdx]
  cases s.commands[j]? with
  | none => rfl
  | some c => by_cases hmem : j ∈ s.pendingCommands.values <;> simp [hmem]

theorem guarded_register (h : Guarded s) (command : Text) (pathLength : Nat) (options : RegisterOptions) :
    Guarded (s.registerPendingCommand env command pathLength options) := by
  have hregistered : (s.registerPendingCommand env command pathLength options).registered =
      s.registered ++ [(s.nextTokenOf options, command)] := by
    unfold registerPendingCommand registered generateToken
    dsimp only
    split_ifs <;> simp
  have htokens : (s.registerPendingCommand env command pathLength options).sensitiveTokens =
      if isSensitive command then s.nextTokenOf options :: s.sensitiveTokens
      else s.sensitiveTokens.filter (· ≠ s.nextTokenOf options) := by
    unfold registerPendingCommand generateToken
    dsimp only
    split_ifs <;> rfl
  intro token last hlast hsensitive
  unfold lastCommand at hlast
  rw [hregistered, List.filter_append] at hlast
  rw [htokens]
  by_cases heq : s.nextTokenOf options = token
  · have hself : last = command := by simpa [heq] using hlast.symm
    rw [← hself, if_pos hsensitive, heq]
    exact List.mem_cons_self
  · have hold : s.lastCommand token = some last := by simpa [heq, lastCommand] using hlast
    have hmem := h token last hold hsensitive
    split_ifs
    · exact List.mem_cons_of_mem _ hmem
    · exact List.mem_filter.mpr ⟨hmem, by simpa using Ne.symm heq⟩

theorem guarded_step (h : Guarded s) (e : Event) : Guarded (s.step env e) := by
  cases e with
  | generateToken => exact guarded_congr h rfl rfl
  | register command pathLength options => exact guarded_register env h command pathLength options
  | ingest rawResponse senderId =>
      simp only [step, handle, ingestResponse]
      rcases parseResponseToken rawResponse with ⟨_ | token, body⟩
      · exact h
      · dsimp only
        rcases hp : s.answered token senderId with _ | ⟨i, pending⟩
        · exact h
        · exact guarded_congr h (registered_drop token i) rfl
  | extend token newTimeoutMs =>
      simp only [step, handle, extendPendingTimeout]
      rcases hp : s.pending token with _ | ⟨i, pending⟩
      · exact h
      · dsimp only
        split_ifs
        · exact h
        · exact guarded_congr h (registered_update i _ fun _ => ⟨rfl, rfl⟩) rfl
  | restart token timeoutMs =>
      simp only [step, handle, restartPendingTimeoutFromNow]
      rcases hp : s.pending token with _ | ⟨i, pending⟩
      · exact h
      · exact guarded_congr h (registered_update i _ fun _ => ⟨rfl, rfl⟩) rfl
  | handleError token error =>
      simp only [step, handle, handleError]
      rcases hp : s.pending token with _ | ⟨i, pending⟩
      · exact h
      · dsimp only
        split_ifs
        · exact guarded_congr h ((registered_drop token i).trans (registered_update i _ fun _ => ⟨rfl, rfl⟩)) rfl
        · exact guarded_congr h (registered_update i _ fun _ => ⟨rfl, rfl⟩) rfl
  | rejectPending token error =>
      simp only [step, handle, rejectPending]
      rcases hp : s.pending token with _ | ⟨i, pending⟩
      · exact h
      · exact guarded_congr h (registered_drop token i) rfl
  | clear => exact guarded_congr h registered_clear rfl
  | fires i =>
      simp only [step, handle, fires]
      cases s.commands[i]? with
      | none => exact h
      | some c =>
          dsimp only
          split_ifs
          · exact guarded_congr h (registered_update i _ fun _ => ⟨rfl, rfl⟩) rfl
          · exact guarded_congr h (registered_update i _ fun _ => ⟨rfl, rfl⟩) rfl
          · exact h
  | wait ms => exact guarded_congr h rfl rfl

def historyTextOf : MeshcoreCliIngestResult → Option Text
  | .resolved _ historyText => some historyText
  | .duplicate => none
  | .unmatched historyText => some historyText

def isResolved : Mark → Bool
  | .settled _ (.ok _) => true
  | _ => false

-- Every command is answered once and by its own reply. A command that is registered without a
-- node has node 0 and takes the reply of any.
structure AnsweredOnce (events : List Event) : Prop where
  settles : ∀ i, (run (step env) {} events).known i = true → (run (step env) {} events).live i = false →
    (trace (step env) (marks env) {} events).countP (isSettled i) = 1
  settles_once : ∀ i, (trace (step env) (marks env) {} events).countP (isSettled i) ≤ 1
  own_reply : Each (step env) (fun s e => ∀ i body, .settled i (.ok body) ∈ s.marks env e →
    ∃ rawResponse senderId c, e = .ingest rawResponse senderId ∧ s.commands[i]? = some c ∧
      parseResponseToken rawResponse = (some c.token, body) ∧
      (senderId.getD 0 = 0 ∨ c.senderNodeId = 0 ∨ senderId = some c.senderNodeId)) {} events
  one_command : Each (step env) (fun s e => (s.marks env e).countP isResolved ≤ 1) {} events
  redacted : Each (step env) (fun s e => ∀ rawResponse senderId token body command result,
    e = .ingest rawResponse senderId → parseResponseToken rawResponse = (some token, body) →
    s.lastCommand token = some command → isSensitive command = true → .ingested result ∈ s.marks env e →
    historyTextOf result = none ∨ historyTextOf result = some MESHCORE_CLI_REDACTED) {} events

-- A promise is resolved by a reply only.
theorem of_resolved {e : Event} {m : Mark} (hm : m ∈ s.marks env e) (hresolved : isResolved m = true) :
    ∃ rawResponse senderId, e = .ingest rawResponse senderId := by
  unfold marks at hm
  cases e with
  | ingest rawResponse senderId => exact ⟨rawResponse, senderId, rfl⟩
  | handleError token error =>
      simp only [handle, handleError] at hm
      rcases hp : s.pending token with _ | ⟨i, pending⟩ <;> simp only [hp] at hm
      · simp at hm
      · split_ifs at hm
        · obtain rfl := List.mem_singleton.mp hm
          cases hresolved
        · simp at hm
  | rejectPending token error =>
      simp only [handle, rejectPending] at hm
      rcases hp : s.pending token with _ | ⟨i, pending⟩ <;> simp only [hp] at hm
      · simp at hm
      · obtain rfl := List.mem_singleton.mp hm
        cases hresolved
  | clear =>
      obtain ⟨i, -, rfl⟩ := List.mem_map.mp hm
      cases hresolved
  | fires i =>
      simp only [handle, fires] at hm
      cases hc : s.commands[i]? <;> simp only [hc] at hm
      · simp at hm
      · split_ifs at hm
        · obtain rfl := List.mem_singleton.mp hm
          cases hresolved
        · simp at hm
        · simp at hm
  | _ => simp [handle] at hm

-- What a reply leaves behind: at most one settlement, and what the history shows.
theorem marks_ingest (h : Sound s) (rawResponse : Text) (senderId : Option Nat) :
    (∃ i c body, s.commands[i]? = some c ∧ parseResponseToken rawResponse = (some c.token, body) ∧
      senderMatches c.senderNodeId senderId = true ∧
      s.marks env (.ingest rawResponse senderId) =
        [.settled i (.ok body), .ingested (.resolved c.senderNodeId (s.redactResponseForHistory env rawResponse))]) ∨
    ∃ result, s.marks env (.ingest rawResponse senderId) = [.ingested result] ∧
      (historyTextOf result = none ∨ historyTextOf result = some (s.redactResponseForHistory env rawResponse)) := by
  simp only [marks, handle, ingestResponse]
  rcases hparse : parseResponseToken rawResponse with ⟨_ | token, body⟩
  · exact .inr ⟨_, rfl, .inr rfl⟩
  · dsimp only
    rcases hp : s.answered token senderId with _ | ⟨i, c⟩
    · right
      refine ⟨_, rfl, ?_⟩
      split_ifs
      · exact .inl rfl
      · exact .inr rfl
    · obtain ⟨hpending, hmatches⟩ := Option.filter_eq_some_iff.mp hp
      obtain ⟨-, hc, rfl, -⟩ := of_pending h hpending
      exact .inl ⟨i, c, body, hc, rfl, hmatches, rfl⟩

theorem redactResponseForHistory_of_sensitive {rawResponse token body : Text}
    (hparse : parseResponseToken rawResponse = (some token, body)) (hmem : token ∈ s.sensitiveTokens) :
    s.redactResponseForHistory env rawResponse = MESHCORE_CLI_REDACTED := by
  unfold redactResponseForHistory
  rw [hparse]
  simp [hmem]

theorem own_reply_step (h : Sound s) (e : Event) (i : Nat) (body : Text) (hm : .settled i (.ok body) ∈ s.marks env e) :
    ∃ rawResponse senderId c, e = .ingest rawResponse senderId ∧ s.commands[i]? = some c ∧
      parseResponseToken rawResponse = (some c.token, body) ∧
      (senderId.getD 0 = 0 ∨ c.senderNodeId = 0 ∨ senderId = some c.senderNodeId) := by
  obtain ⟨rawResponse, senderId, rfl⟩ := of_resolved env hm rfl
  refine ⟨rawResponse, senderId, ?_⟩
  rcases marks_ingest env h rawResponse senderId with ⟨j, c, body', hc, hparse, hmatches, heq⟩ | ⟨result, heq, -⟩
  · rw [heq] at hm
    obtain ⟨rfl, rfl⟩ : i = j ∧ body = body' := by simpa using hm
    refine ⟨c, rfl, hc, hparse, ?_⟩
    simpa [senderMatches, or_assoc] using hmatches
  · rw [heq] at hm
    simp at hm

theorem one_command_step (h : Sound s) (e : Event) : (s.marks env e).countP isResolved ≤ 1 := by
  by_cases hany : ∃ m ∈ s.marks env e, isResolved m = true
  · obtain ⟨m, hm, hresolved⟩ := hany
    obtain ⟨rawResponse, senderId, rfl⟩ := of_resolved env hm hresolved
    rcases marks_ingest env h rawResponse senderId with ⟨j, c, body, -, -, -, heq⟩ | ⟨result, heq, -⟩
    · rw [heq]
      exact le_of_eq rfl
    · rw [heq]
      exact Nat.zero_le 1
  · push Not at hany
    rw [List.countP_eq_zero.mpr hany]
    exact Nat.zero_le 1

theorem redacted_step (h : Sound s) (hguarded : Guarded s) {rawResponse token body command : Text} {senderId : Option Nat}
    {result : MeshcoreCliIngestResult} (hparse : parseResponseToken rawResponse = (some token, body))
    (hlast : s.lastCommand token = some command) (hsensitive : isSensitive command = true)
    (hm : .ingested result ∈ s.marks env (.ingest rawResponse senderId)) :
    historyTextOf result = none ∨ historyTextOf result = some MESHCORE_CLI_REDACTED := by
  have hredacted := redactResponseForHistory_of_sensitive env hparse (hguarded token command hlast hsensitive)
  rcases marks_ingest env h rawResponse senderId with ⟨j, c, body', -, -, -, heq⟩ | ⟨result', heq, hhistory⟩
  · rw [heq] at hm
    obtain rfl : result = .resolved c.senderNodeId (s.redactResponseForHistory env rawResponse) := by simpa using hm
    exact .inr (congrArg some hredacted)
  · rw [heq] at hm
    obtain rfl : result = result' := by simpa using hm
    rwa [hredacted] at hhistory

-- Where no token is used again while a command waits under it, every command is answered once.
theorem answered_once {events : List Event} (h : Each (step env) Clean {} events) : AnsweredOnce env events := by
  have hbalanced := balanced_run env sound_start h
  have heach : ∀ {Q : Service → Event → Prop}, (∀ s e, Sound s → Guarded s → Q s e) → Each (step env) Q {} events :=
    fun hq => @Each.of_invariant _ _ (step env) (fun s => Sound s ∧ Guarded s) Clean _
      (fun s e hs hc => ⟨⟨(step_good hs.1 hc).1, guarded_step env hs.2 e⟩, hq s e hs.1 hs.2⟩) _ _ h
      ⟨sound_start, by simp [Guarded, lastCommand, registered]⟩
  refine ⟨?_, ?_, ?_, ?_, ?_⟩
  · intro i hknown hlive
    have hi := hbalanced i
    rw [hknown, hlive] at hi
    simpa [known, live] using hi.symm
  · intro i
    have hi := hbalanced i
    have hle := Bool.toNat_le ((run (step env) {} events).known i)
    simp only [known, live] at hi hle
    simp at hi
    omega
  · exact heach fun s e hs _ => own_reply_step env hs e
  · exact heach fun s e hs _ => one_command_step env hs e
  · apply heach
    rintro s e hs hguarded rawResponse senderId token body command result rfl hparse hlast hsensitive hm
    exact redacted_step env hs hguarded hparse hlast hsensitive hm

def plainEnv : Env where
  options := {}
  redactMeshcoreCliSecretsInText := fun body => body

-- Two commands to one repeater; the second holds a secret, is answered and answered again.
def twoCommands : List Event :=
  [.register (text "ver") 1 { senderNodeId := some 7 }, .register (text "set pin 1234") 1 { senderNodeId := some 7 },
    .ingest (text "00|v1.9") none, .restart (text "01") 30000, .ingest (text "01|> 1234") (some 7),
    .ingest (text "01|> 1234") (some 7), .ingest (text "01|> late") (some 7)]

theorem twoCommands_answered : AnsweredOnce plainEnv twoCommands :=
  answered_once plainEnv (by
    simp only [twoCommands, Each, Clean]
    decide)

-- The token comes round while its first command still waits.
def comesRound : List Event :=
  .register (text "ver") 1 { timeoutMs := some 30000 } :: List.replicate 255 .generateToken ++
    [.register (text "clock") 1 { timeoutMs := some 30000 }, .wait 30000, .fires 0, .fires 1]

theorem comesRound_unanswered : ¬ AnsweredOnce plainEnv comesRound := by
  intro h
  have hcount := h.settles 1 (by decide +kernel) (by decide +kernel)
  revert hcount
  decide +kernel

end Service

end MeshClient.Meshcore.Cli
