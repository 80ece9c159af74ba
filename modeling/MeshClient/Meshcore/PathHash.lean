import MeshClient.Lib.OrderedMap
import MeshClient.Lib.Freshest

namespace MeshClient.Meshcore

open Freshest

abbrev Bytes := List UInt8

structure NodeHashCandidate where
  node_id : Int
  last_heard : ℚ
deriving DecidableEq

abbrev PubKeys := OrderedMap Int Bytes

-- ToUint32, which the shift operators apply to their operand.
def toUint32 (n : Int) : UInt32 := UInt32.ofNat (n % 2 ^ 32).toNat

def meshcoreNodeHash (nodeId : Int) : UInt8 :=
  let n := toUint32 nodeId
  (n >>> 24).toUInt8 ^^^ (n >>> 16).toUInt8 ^^^ (n >>> 8).toUInt8 ^^^ n.toUInt8

def matchesByFold (hash : UInt8) (node : NodeHashCandidate) : Bool := meshcoreNodeHash node.node_id = hash

def resolveNodeId (hash : UInt8) (knownNodes : List NodeHashCandidate) : Option Int :=
  (freshest (·.last_heard) (knownNodes.filter (matchesByFold hash))).map (·.node_id)

def prefixMatches (pubKey segment : Bytes) : Bool :=
  segment ≠ [] && segment.length ≤ pubKey.length && pubKey.take segment.length = segment

def hopSegments (size : Nat) : Nat → Bytes → List Bytes
  | 0, _ => []
  | n + 1, bytes => bytes.take size :: hopSegments size n (bytes.drop size)

-- The loop runs while a whole segment is left, so a rest shorter than one is dropped.
def meshcoreSplitPathHashSegments (pathBytes : Bytes) (hashSizeBytes : Nat) : List Bytes :=
  if pathBytes = [] ∨ hashSizeBytes = 0 then []
  else hopSegments hashSizeBytes (pathBytes.length / hashSizeBytes) pathBytes

def pubKeyOf (pubKeyByNodeId : Option PubKeys) (node : NodeHashCandidate) : Option Bytes :=
  pubKeyByNodeId.bind (·.get? node.node_id)

def matchesPrefix (pubKeyByNodeId : Option PubKeys) (prefixBytes : Bytes) (node : NodeHashCandidate) : Bool :=
  match pubKeyOf pubKeyByNodeId node with
  | some pubKey => pubKey.length ≥ prefixBytes.length && prefixMatches pubKey prefixBytes
  | none => false

def meshcoreResolveNodeFromPathPrefix (prefixBytes : Bytes) (candidates : List NodeHashCandidate)
    (pubKeyByNodeId : Option PubKeys) : Option Int :=
  match prefixBytes with
  | [] => none
  | [hash] => resolveNodeId hash candidates
  | _ =>
      (freshest (·.last_heard) (candidates.filter (matchesPrefix pubKeyByNodeId prefixBytes))).map
        (·.node_id)

-- The first byte of the node's key where one is known, its folded id otherwise.
def matchesByKey (pubKeyByNodeId : Option PubKeys) (hash : UInt8) (node : NodeHashCandidate) : Bool :=
  match pubKeyOf pubKeyByNodeId node with
  | some (first :: _) => first = hash
  | _ => matchesByFold hash node

def listMeshcorePathPrefixMatches (prefixBytes : Bytes) (candidates : List NodeHashCandidate)
    (pubKeyByNodeId : Option PubKeys) : List Int :=
  match prefixBytes with
  | [] => []
  | [hash] =>
      (newestFirst (·.last_heard) (candidates.filter (matchesByKey pubKeyByNodeId hash))).map (·.node_id)
  | _ =>
      (newestFirst (·.last_heard) (candidates.filter fun node =>
        match pubKeyOf pubKeyByNodeId node with
        | some pubKey => prefixMatches pubKey prefixBytes
        | none => false)).map (·.node_id)

theorem hopSegments_length (size n : Nat) (bytes : Bytes) : (hopSegments size n bytes).length = n := by
  induction n generalizing bytes with
  | zero => rfl
  | succ n ih => simp [hopSegments, ih]

theorem hopSegments_flatten (size n : Nat) (bytes : Bytes) :
    (hopSegments size n bytes).flatten = bytes.take (n * size) := by
  induction n generalizing bytes with
  | zero => simp [hopSegments]
  | succ n ih =>
      have hlen : (n + 1) * size = size + n * size := by ring
      rw [hopSegments, List.flatten_cons, ih, hlen, List.take_add]

-- A path of whole segments is cut into exactly these.
theorem split_of_length {bytes : Bytes} {size hops : Nat} (hsize : 0 < size)
    (hlen : hops * size = bytes.length) :
    (meshcoreSplitPathHashSegments bytes size).length = hops ∧
    (meshcoreSplitPathHashSegments bytes size).flatten = bytes := by
  unfold meshcoreSplitPathHashSegments
  by_cases hbytes : bytes = []
  · have hhops : hops = 0 := by
      rw [hbytes, List.length_nil, Nat.mul_eq_zero] at hlen
      omega
    simp [hbytes, hhops]
  · have hdiv : bytes.length / size = hops := by
      rw [← hlen]
      exact Nat.mul_div_cancel hops hsize
    rw [if_neg (by simp [hbytes]; omega), hdiv]
    refine ⟨hopSegments_length size hops bytes, ?_⟩
    rw [hopSegments_flatten, hlen, List.take_length]

theorem prefixMatches_length {pubKey segment : Bytes} (h : prefixMatches pubKey segment = true) :
    segment.length ≤ pubKey.length := by
  simp only [prefixMatches, Bool.and_eq_true, decide_eq_true_eq] at h
  exact h.1.2

-- The length is checked twice on one side and once on the other.
theorem matchesPrefix_eq (keys : Option PubKeys) (prefixBytes : Bytes) (node : NodeHashCandidate) :
    matchesPrefix keys prefixBytes node =
      match pubKeyOf keys node with
      | some pubKey => prefixMatches pubKey prefixBytes
      | none => false := by
  unfold matchesPrefix
  cases pubKeyOf keys node with
  | none => rfl
  | some pubKey =>
      cases hm : prefixMatches pubKey prefixBytes with
      | false => simp [hm]
      | true => simp [hm, prefixMatches_length hm]

theorem head_listMatches_single (hash : UInt8) (candidates : List NodeHashCandidate)
    (keys : Option PubKeys) :
    (listMeshcorePathPrefixMatches [hash] candidates keys).head? =
      (freshest (·.last_heard) (candidates.filter (matchesByKey keys hash))).map (·.node_id) := by
  rw [freshest_eq_head_newestFirst, listMeshcorePathPrefixMatches, List.head?_map]

-- Longer segments are only ever compared with known keys, by both.
theorem resolvers_agree_of_length {prefixBytes : Bytes} (candidates : List NodeHashCandidate)
    (keys : Option PubKeys) (h : prefixBytes.length ≠ 1) :
    meshcoreResolveNodeFromPathPrefix prefixBytes candidates keys =
      (listMeshcorePathPrefixMatches prefixBytes candidates keys).head? := by
  cases prefixBytes with
  | nil => rfl
  | cons a rest =>
      cases rest with
      | nil => exact absurd rfl h
      | cons b rest =>
          simp only [meshcoreResolveNodeFromPathPrefix, listMeshcorePathPrefixMatches, List.head?_map]
          rw [freshest_eq_head_newestFirst]
          congr 3
          apply List.filter_congr
          intro node _
          exact matchesPrefix_eq keys _ node

theorem matchesByFold_congr {hash : UInt8} {a b : NodeHashCandidate} (h : a.node_id = b.node_id) :
    matchesByFold hash a = matchesByFold hash b := by simp [matchesByFold, h]

theorem matchesByKey_congr {keys : Option PubKeys} {hash : UInt8} {a b : NodeHashCandidate}
    (h : a.node_id = b.node_id) : matchesByKey keys hash a = matchesByKey keys hash b := by
  simp [matchesByKey, pubKeyOf, h, matchesByFold_congr h]

-- Whatever matches by one of the rules is no fresher than a node that matches by both.
def FreshestMatchesBoth (keys : Option PubKeys) (hash : UInt8) (candidates : List NodeHashCandidate) :
    Prop :=
  ∀ node ∈ candidates, matchesByFold hash node ∨ matchesByKey keys hash node →
    ∃ other ∈ candidates, matchesByFold hash other ∧ matchesByKey keys hash other ∧
      node.last_heard ≤ other.last_heard

instance (keys : Option PubKeys) (hash : UInt8) (candidates : List NodeHashCandidate) :
    Decidable (FreshestMatchesBoth keys hash candidates) :=
  inferInstanceAs (Decidable (∀ node ∈ candidates, _ → ∃ other ∈ candidates, _ ∧ _ ∧ _))

section

variable {keys : Option PubKeys} {hash : UInt8} {candidates : List NodeHashCandidate}

-- Both loops end with a node the other would have taken, so they end with the same time.
theorem freshestMatchesBoth_of_agree
    (h : (freshest (·.last_heard) (candidates.filter (matchesByFold hash))).map (·.node_id) =
      (freshest (·.last_heard) (candidates.filter (matchesByKey keys hash))).map (·.node_id)) :
    FreshestMatchesBoth keys hash candidates := by
  intro node hnode hmatch
  cases hfold : freshest (·.last_heard) (candidates.filter (matchesByFold hash)) with
  | none =>
      rw [hfold, Option.map_none, eq_comm, Option.map_eq_none_iff] at h
      have h₁ := List.filter_eq_nil_iff.mp ((freshest_eq_none_iff _ _).mp hfold) node hnode
      have h₂ := List.filter_eq_nil_iff.mp ((freshest_eq_none_iff _ _).mp h) node hnode
      exact absurd hmatch (by simp [h₁, h₂])
  | some a =>
      rw [hfold, Option.map_some, eq_comm, Option.map_eq_some_iff] at h
      obtain ⟨b, hkey, hid⟩ := h
      obtain ⟨ha, hamax⟩ := freshest_spec hfold
      obtain ⟨hb, hbmax⟩ := freshest_spec hkey
      rw [List.mem_filter] at ha hb
      have hab : matchesByKey keys hash a = true := (matchesByKey_congr hid.symm).trans hb.2
      have hba : matchesByFold hash b = true := (matchesByFold_congr hid).trans ha.2
      have hble : b.last_heard ≤ a.last_heard := hamax b (List.mem_filter.mpr ⟨hb.1, hba⟩)
      refine ⟨a, ha.1, ha.2, hab, ?_⟩
      rcases hmatch with hm | hm
      · exact hamax node (List.mem_filter.mpr ⟨hnode, hm⟩)
      · exact (hbmax node (List.mem_filter.mpr ⟨hnode, hm⟩)).trans hble

-- One node is at least as fresh as all others on either side.
theorem agree_of_freshestMatchesBoth
    (hdistinct : candidates.Pairwise fun a b => a.last_heard ≠ b.last_heard)
    (h : FreshestMatchesBoth keys hash candidates) :
    freshest (·.last_heard) (candidates.filter (matchesByFold hash)) =
      freshest (·.last_heard) (candidates.filter (matchesByKey keys hash)) := by
  have heq : ∀ a ∈ candidates, ∀ b ∈ candidates, a.last_heard = b.last_heard → a = b := by
    intro a ha b hb heq
    by_contra hne
    have hsymm : Std.Symm fun a b : NodeHashCandidate => a.last_heard ≠ b.last_heard :=
      ⟨fun _ _ => Ne.symm⟩
    exact hdistinct.forall ha hb hne heq
  have hfilter : ∀ p : NodeHashCandidate → Bool, ∀ a ∈ candidates.filter p, ∀ b ∈ candidates.filter p,
      a.last_heard = b.last_heard → a = b := fun p a ha b hb =>
    heq a (List.mem_of_mem_filter ha) b (List.mem_of_mem_filter hb)
  cases hfold : freshest (·.last_heard) (candidates.filter (matchesByFold hash)) with
  | none =>
      have hnil := List.filter_eq_nil_iff.mp ((freshest_eq_none_iff _ _).mp hfold)
      symm
      rw [freshest_eq_none_iff, List.filter_eq_nil_iff]
      intro node hnode hm
      obtain ⟨other, hother, hmatch, _⟩ := h node hnode (Or.inr hm)
      exact hnil other hother hmatch
  | some a =>
      obtain ⟨ha, hamax⟩ := freshest_spec hfold
      obtain ⟨hamem, hamatch⟩ := List.mem_filter.mp ha
      obtain ⟨b, hb, hbfold, hbkey, hab⟩ := h a hamem (Or.inl hamatch)
      have hba : b.last_heard ≤ a.last_heard := hamax b (List.mem_filter.mpr ⟨hb, hbfold⟩)
      obtain rfl : a = b := heq a hamem b hb (le_antisymm hab hba)
      symm
      rw [freshest_eq_some_iff (hfilter (matchesByKey keys hash))]
      refine ⟨List.mem_filter.mpr ⟨hb, hbkey⟩, ?_⟩
      intro node hnode
      obtain ⟨hnode, hm⟩ := List.mem_filter.mp hnode
      obtain ⟨other, hother, hofold, _, hle⟩ := h node hnode (Or.inr hm)
      exact hle.trans (hamax other (List.mem_filter.mpr ⟨hother, hofold⟩))

end

-- The two resolvers name one node unless the segment is a single byte and the freshest of
-- the nodes that match it by the folded id or by the key does not match it both ways.
theorem resolvers_agree_iff (segment : Bytes) (candidates : List NodeHashCandidate)
    (keys : Option PubKeys)
    (hdistinct : candidates.Pairwise fun a b => a.last_heard ≠ b.last_heard) :
    meshcoreResolveNodeFromPathPrefix segment candidates keys =
        (listMeshcorePathPrefixMatches segment candidates keys).head? ↔
      ∀ hash, segment = [hash] → FreshestMatchesBoth keys hash candidates := by
  by_cases hlen : segment.length = 1
  · obtain ⟨hash, rfl⟩ := List.length_eq_one_iff.mp hlen
    rw [head_listMatches_single]
    constructor
    · intro h hash' heq
      obtain rfl : hash = hash' := by simpa using heq
      exact freshestMatchesBoth_of_agree h
    · intro h
      have hsame := agree_of_freshestMatchesBoth hdistinct (h hash rfl)
      simp only [meshcoreResolveNodeFromPathPrefix, resolveNodeId, hsame]
  · refine iff_of_true (resolvers_agree_of_length candidates keys hlen) ?_
    intro hash heq
    exact absurd (congrArg List.length heq) hlen

-- A known key whose first byte is not the folded id: the list finds the node by its key,
-- the resolver finds nobody.
theorem resolvers_disagree_on_known_key :
    let node : NodeHashCandidate := ⟨0x01020304, 100⟩
    let keys : PubKeys := OrderedMap.set ∅ 0x01020304 [0xaa, 0xbb]
    meshcoreResolveNodeFromPathPrefix [0xaa] [node] (some keys) = none ∧
    listMeshcorePathPrefixMatches [0xaa] [node] (some keys) = [0x01020304] := by
  decide

theorem resolvers_agree_without_keys :
    meshcoreResolveNodeFromPathPrefix [0x04] [⟨0x01020304, 100⟩, ⟨0x04, 200⟩] none =
      (listMeshcorePathPrefixMatches [0x04] [⟨0x01020304, 100⟩, ⟨0x04, 200⟩] none).head? :=
  (resolvers_agree_iff [0x04] [⟨0x01020304, 100⟩, ⟨0x04, 200⟩] none (by decide)).mpr (by
    intro hash heq
    obtain rfl : 0x04 = hash := by simpa using heq
    decide)

end MeshClient.Meshcore
