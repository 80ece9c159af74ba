import MeshClient.Lib.OrderedMap

namespace MeshClient.Meshcore

inductive RelayCoverageMode where
  | confirmed
  | binaryHeard
  | predicted
deriving DecidableEq, Repr

inductive CoverageProtocol where
  | meshcore
  | meshtastic
  | reticulum
deriving DecidableEq, Repr

structure HeardRepeater where
  nodeId : Int
  name : Option String
  snr : Option ℚ
  rssi : Option ℚ
deriving DecidableEq

structure RelayCoverage where
  protocol : CoverageProtocol
  mode : RelayCoverageMode
  heardRepeaters : Option (List HeardRepeater)
  -- Heard, timed out, or still pending.
  broadcastHeard : Option (Option Bool)
  predictedRelayHops : Option Nat
  predictedFirstHop : Option String
  updatedAt : Int
deriving DecidableEq

structure RelayCoveragePatch where
  protocol : CoverageProtocol
  mode : RelayCoverageMode
  heardRepeaters : Option (List HeardRepeater) := none
  broadcastHeard : Option (Option Bool) := none
  predictedRelayHops : Option Nat := none
  predictedFirstHop : Option String := none

abbrev Coverage := OrderedMap String RelayCoverage

def relayCoverageKey (identityId messageId : String) : String := identityId ++ ":" ++ messageId

def RELAY_COVERAGE_SOFT_CAP : Nat := 256

def oldestFirst (entries : List (String × RelayCoverage)) : List (String × RelayCoverage) :=
  entries.insertionSort fun a b => a.2.updatedAt ≤ b.2.updatedAt

def droppedKeys (coverage : Coverage) (keepKey : String) (softCap : Nat) : List String :=
  (((oldestFirst coverage.entries).map Prod.fst).filter fun k => k ≠ keepKey).take (coverage.size - softCap)

def pruneOldestCoverageEntries (coverage : Coverage) (keepKey : String) (softCap : Nat) : Coverage :=
  if coverage.size ≤ softCap then coverage
  else coverage.filter fun k _ => k ∉ droppedKeys coverage keepKey softCap

-- Under another mode or protocol nothing of the old entry is kept.
def patchedEntry (prev : Option RelayCoverage) (patch : RelayCoveragePatch) (now : Int) : RelayCoverage :=
  let base := prev.filter fun prev => prev.protocol = patch.protocol && prev.mode = patch.mode
  { protocol := patch.protocol
    mode := patch.mode
    heardRepeaters := patch.heardRepeaters.or (base.bind (·.heardRepeaters))
    broadcastHeard := patch.broadcastHeard.or (base.bind (·.broadcastHeard))
    predictedRelayHops := patch.predictedRelayHops.or (base.bind (·.predictedRelayHops))
    predictedFirstHop := patch.predictedFirstHop.or (base.bind (·.predictedFirstHop))
    updatedAt := now }

namespace Coverage

def coverageFor (coverage : Coverage) (identityId messageId : String) : Option RelayCoverage :=
  coverage.get? (relayCoverageKey identityId messageId)

def setPatch (coverage : Coverage) (identityId messageId : String) (patch : RelayCoveragePatch) (now : Int) :
    Coverage :=
  let k := relayCoverageKey identityId messageId
  pruneOldestCoverageEntries (coverage.set k (patchedEntry (coverage.get? k) patch now)) k
    RELAY_COVERAGE_SOFT_CAP

def remove (coverage : Coverage) (identityId messageId : String) : Coverage :=
  coverage.filter fun key _ => key ≠ relayCoverageKey identityId messageId

-- The repeaters that the entry under a key credits.
def heardAt (coverage : Coverage) (key : String) : List HeardRepeater :=
  ((coverage.get? key).bind (·.heardRepeaters)).getD []

theorem heardAt_filter_subset (coverage : Coverage) (p : String → RelayCoverage → Bool) (key : String) :
    heardAt (coverage.filter p) key ⊆ coverage.heardAt key := by
  rw [heardAt, OrderedMap.get?_filter, heardAt]
  cases coverage.get? key with
  | none => simp
  | some entry =>
      by_cases hp : p key entry = true
      · simp [Option.filter, hp]
      · simp [Option.filter, hp]

theorem heardAt_prune_subset (coverage : Coverage) (keepKey key : String) (softCap : Nat) :
    heardAt (pruneOldestCoverageEntries coverage keepKey softCap) key ⊆ coverage.heardAt key := by
  unfold pruneOldestCoverageEntries
  by_cases hsize : coverage.size ≤ softCap
  · rw [if_pos hsize]
    exact List.Subset.refl _
  · rw [if_neg hsize]
    exact heardAt_filter_subset coverage _ key

theorem heardAt_remove_subset (coverage : Coverage) (identityId messageId key : String) :
    heardAt (coverage.remove identityId messageId) key ⊆ coverage.heardAt key :=
  heardAt_filter_subset coverage _ key

-- A patch with repeaters of its own changes the repeaters under its own key only.
theorem heardAt_setPatch {coverage : Coverage} {identityId messageId key : String} {patch : RelayCoveragePatch}
    {now : Int} {heard : List HeardRepeater} (hpatch : patch.heardRepeaters = some heard) {r : HeardRepeater}
    (h : r ∈ heardAt (coverage.setPatch identityId messageId patch now) key) :
    r ∈ coverage.heardAt key ∨ key = relayCoverageKey identityId messageId ∧ r ∈ heard := by
  have hset := heardAt_prune_subset _ _ _ _ h
  by_cases hkey : key = relayCoverageKey identityId messageId
  · rw [heardAt, hkey, OrderedMap.get?_set_self] at hset
    simp only [patchedEntry, hpatch, Option.some_or, Option.bind_some, Option.getD_some] at hset
    exact .inr ⟨hkey, hset⟩
  · rw [heardAt, OrderedMap.get?_set_of_ne _ _ hkey] at hset
    exact .inl hset

end Coverage

end MeshClient.Meshcore
