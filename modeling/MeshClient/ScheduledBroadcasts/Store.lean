import MeshClient.ScheduledBroadcasts.Recurrence

namespace MeshClient.ScheduledBroadcasts

def SCHEDULED_BROADCAST_TEXT_MAX : Nat := 2000
def SCHEDULED_BROADCAST_LABEL_MAX : Nat := 48

inductive RunOutcome where
  | sent
  | partly
  | failed
  | skipped
  | missed
deriving DecidableEq

structure LastResult where
  time : Int
  outcome : RunOutcome
deriving DecidableEq

-- A row without its slot number, which is the key it is stored under.
structure Row extends Rule where
  label : String := ""
  text : String := ""
  enabled : Bool := false
  nextDueAt : Option Int := none
  lastAttemptAt : Option Int := none
  lastResult : Option LastResult := none
  updatedAt : Int
deriving DecidableEq

-- `none` stands for `undefined`, `some none` for `null`.
structure Input where
  label : Option String := none
  text : Option String := none
  enabled : Option Bool := none
  interval : Option Interval := none
  timeOfDayMin : Option Int := none
  weekday : Option (Option Int) := none
  dayOfMonth : Option (Option Int) := none
  anchorYmd : Option (Option String) := none
  nextDueAt : Option (Option Int) := none
  lastAttemptAt : Option (Option Int) := none
  lastResult : Option (Option LastResult) := none
deriving DecidableEq

-- One step of `mergeInput`: an undefined field stays, a bad one throws with the field's name.
def mergeField {α : Type} (existing : α) (given : Option α) (valid : α → Bool) (field : String) :
    Except String α :=
  match given with
  | none => .ok existing
  | some value => if valid value then .ok value else .error field

def textUpTo (limit : Nat) (text : String) : Bool := decide ((Js.codeUnits text).length ≤ limit)

def between (low high value : Int) : Bool := decide (low ≤ value ∧ value ≤ high)

def mergeInput (existing : Option Row) (input : Input) (now : Int) : Except String Row := do
  let next := existing.getD { interval := .weekly, timeOfDayMin := 540, updatedAt := now }
  let label ← mergeField next.label input.label (textUpTo SCHEDULED_BROADCAST_LABEL_MAX) "label"
  let text ← mergeField next.text input.text (textUpTo SCHEDULED_BROADCAST_TEXT_MAX) "text"
  let enabled ← mergeField next.enabled input.enabled (fun _ => true) "enabled"
  let interval ← mergeField next.interval input.interval (fun _ => true) "interval"
  let timeOfDayMin ← mergeField next.timeOfDayMin input.timeOfDayMin (between 0 1439) "timeOfDayMin"
  let weekday ← mergeField next.weekday input.weekday (·.all (between 0 6)) "weekday"
  let dayOfMonth ← mergeField next.dayOfMonth input.dayOfMonth (·.all (between 1 31)) "dayOfMonth"
  let anchorYmd ← mergeField next.anchorYmd input.anchorYmd (·.all fun ymd => (ymdDigits ymd).isSome) "anchorYmd"
  let nextDueAt ← mergeField next.nextDueAt input.nextDueAt (fun _ => true) "nextDueAt"
  let lastAttemptAt ← mergeField next.lastAttemptAt input.lastAttemptAt (fun _ => true) "lastAttemptAt"
  let lastResult ← mergeField next.lastResult input.lastResult (fun _ => true) "lastResult"
  return {
    interval := interval, timeOfDayMin := timeOfDayMin, weekday := weekday, dayOfMonth := dayOfMonth
    anchorYmd := anchorYmd, label := label, text := text, enabled := enabled, nextDueAt := nextDueAt
    lastAttemptAt := lastAttemptAt, lastResult := lastResult, updatedAt := now }

-- Rows by slot number: the table `scheduled_broadcasts`, and the renderer's `slots`.
abbrev Rows := Nat → Option Row

def Rows.due (rows : Rows) (slot : Nat) : Option (Option Int) := (rows slot).map (·.nextDueAt)

def Rows.put (rows : Rows) (slot : Nat) (row : Row) : Rows := Function.update rows slot (some row)

-- The requests the renderer makes: the handlers of the main process, and a delivery.
inductive Call where
  | saveScheduledBroadcast (slot : Nat) (input : Input)
  | claimScheduledBroadcastDue (slot : Nat) (expected next claimedAt : Int)
  | setScheduledBroadcastResult (slot : Nat) (lastAttemptAt : Int) (lastResult : LastResult)
  | deliver (slot : Nat) (row : Row)
deriving DecidableEq

inductive Answer where
  | row (row : Row)
  | claimed (claimed : Bool)
  | done
  -- `none` where the delivery throws.
  | delivered (outcome : Option RunOutcome)
  | rejected
deriving DecidableEq

-- What a handler does to the table and answers. A delivery is not one of them.
def Call.handle (slotCount : Nat) (db : Rows) (now : Int) : Call → Rows × Answer
  | .saveScheduledBroadcast slot input =>
      if slot < 1 ∨ slot > slotCount then (db, .rejected)
      else
        match mergeInput (db slot) input now with
        | .error _ => (db, .rejected)
        | .ok row => (db.put slot row, .row row)
  | .claimScheduledBroadcastDue slot expected next claimedAt =>
      match db slot with
      | none => (db, .claimed false)
      | some row =>
          if row.nextDueAt = some expected then
            (db.put slot { row with nextDueAt := some next, updatedAt := claimedAt }, .claimed true)
          else (db, .claimed false)
  | .setScheduledBroadcastResult slot lastAttemptAt lastResult =>
      match db slot with
      | none => (db, .done)
      | some row =>
          (db.put slot { row with
            lastAttemptAt := some lastAttemptAt, lastResult := some lastResult, updatedAt := now }, .done)
  | .deliver _ _ => (db, .rejected)

theorem Rows.due_put (rows : Rows) (slot : Nat) (row : Row) (n : Nat) :
    (rows.put slot row).due n = if n = slot then some row.nextDueAt else rows.due n := by
  unfold Rows.due Rows.put
  rw [Function.update_apply]
  split_ifs <;> rfl

theorem handle_save (slotCount : Nat) (db : Rows) (now : Int) (slot : Nat) (input : Input) :
    Call.handle slotCount db now (.saveScheduledBroadcast slot input) = (db, .rejected) ∨
      ∃ row, Call.handle slotCount db now (.saveScheduledBroadcast slot input) = (db.put slot row, .row row) ∧
        mergeInput (db slot) input now = .ok row := by
  simp only [Call.handle]
  split_ifs
  · exact .inl rfl
  · cases hmerge : mergeInput (db slot) input now with
    | error field => exact .inl rfl
    | ok row => exact .inr ⟨row, rfl, rfl⟩

theorem handle_claim (slotCount : Nat) (db : Rows) (now : Int) (slot : Nat) (expected next claimedAt : Int) :
    (Call.handle slotCount db now (.claimScheduledBroadcastDue slot expected next claimedAt) = (db, .claimed false) ∧
      db.due slot ≠ some (some expected)) ∨
      ∃ row, db slot = some row ∧ row.nextDueAt = some expected ∧
        Call.handle slotCount db now (.claimScheduledBroadcastDue slot expected next claimedAt) =
          (db.put slot { row with nextDueAt := some next, updatedAt := claimedAt }, .claimed true) := by
  simp only [Call.handle, Rows.due]
  cases hrow : db slot with
  | none => exact .inl ⟨rfl, by simp⟩
  | some row =>
      dsimp only
      split_ifs with hdue
      · exact .inr ⟨row, rfl, hdue, rfl⟩
      · exact .inl ⟨rfl, by simpa using hdue⟩

theorem handle_setResult (slotCount : Nat) (db : Rows) (now : Int) (slot : Nat) (lastAttemptAt : Int)
    (lastResult : LastResult) :
    (Call.handle slotCount db now (.setScheduledBroadcastResult slot lastAttemptAt lastResult)).1.due = db.due ∧
      (Call.handle slotCount db now (.setScheduledBroadcastResult slot lastAttemptAt lastResult)).2 = .done := by
  simp only [Call.handle]
  cases hrow : db slot with
  | none => exact ⟨rfl, rfl⟩
  | some row =>
      refine ⟨funext fun n => ?_, rfl⟩
      rw [Rows.due_put]
      split_ifs with hn
      · rw [hn, Rows.due, hrow]
        rfl
      · rfl

theorem mergeField_undefined {α : Type} (existing : α) (valid : α → Bool) (field : String) :
    mergeField existing none valid field = .ok existing := rfl

-- A save that names only the due time changes nothing else.
theorem mergeInput_nextDueAt (row : Row) (nextDueAt : Option Int) (now : Int) :
    mergeInput (some row) { nextDueAt := some nextDueAt } now =
      .ok { row with nextDueAt, updatedAt := now } := rfl

end MeshClient.ScheduledBroadcasts
