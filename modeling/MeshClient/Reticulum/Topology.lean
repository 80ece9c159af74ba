import MeshClient.Lib.OrderedMap

namespace MeshClient.Reticulum.Topology

def SELF_ID : String := "self"

structure PeerRow where
  destinationHash : String
  displayName : Option String := none
  hops : Option (Fin 256) := none
  lastSeen : Option ℕ := none
  interface : Option String := none
  pathHash : Option String := none
  viaHash : Option String := none
  publicKey : Option String := none
deriving DecidableEq

structure TopologyEdge where
  source : String
  target : String
deriving DecidableEq

def PeerRow.via (peer : PeerRow) : Option String := peer.viaHash.filter (· ≠ "")

-- `entry(key).or_insert(value)`
def orInsert (peers : OrderedMap String PeerRow) (key : String) (value : PeerRow) : OrderedMap String PeerRow :=
  if (peers.get? key).isSome then peers else peers.set key value

-- The set of keys that the code keeps beside the edges holds exactly their ends.
def pushEdge (edges : List TopologyEdge) (edge : TopologyEdge) : List TopologyEdge :=
  if edge ∈ edges then edges else edges ++ [edge]

def relayRow (via : String) (peer : PeerRow) : PeerRow where
  destinationHash := via
  hops := peer.hops.map fun h => ⟨h.val - 1, by omega⟩
  lastSeen := peer.lastSeen
  interface := peer.interface

structure Graph where
  peerByHash : OrderedMap String PeerRow := ∅
  edges : List TopologyEdge := []

def addPeer (peers : OrderedMap String PeerRow) (peer : PeerRow) : OrderedMap String PeerRow :=
  if peer.destinationHash = "" then peers else orInsert peers peer.destinationHash peer

def addEdge (g : Graph) (peer : PeerRow) : Graph :=
  if peer.destinationHash = "" then g
  else
    { peerByHash :=
        match peer.via with
        | some via => orInsert g.peerByHash via (relayRow via peer)
        | none => g.peerByHash
      edges := pushEdge g.edges ⟨peer.via.getD SELF_ID, peer.destinationHash⟩ }

def inferSelfToViaEdges (edges : List TopologyEdge) : List TopologyEdge :=
  let hasIncoming := edges.map TopologyEdge.target
  let nonSelfSources := ((edges.map TopologyEdge.source).filter (· ≠ SELF_ID)).dedup
  (nonSelfSources.filter (· ∉ hasIncoming)).foldl (fun edges via => pushEdge edges ⟨SELF_ID, via⟩) edges

def buildGraph (peers : List PeerRow) : Graph := peers.foldl addEdge { peerByHash := peers.foldl addPeer ∅ }

def nodeBefore (a b : PeerRow) : Bool := a.destinationHash ≤ b.destinationHash

def edgeBefore (a b : TopologyEdge) : Bool := a.source < b.source || (a.source = b.source && a.target ≤ b.target)

def buildTopology (peers : List PeerRow) : List PeerRow × List TopologyEdge :=
  let g := buildGraph peers
  (g.peerByHash.values.mergeSort nodeBefore, (inferSelfToViaEdges g.edges).mergeSort edgeBefore)

variable {peers peers' : List PeerRow} {g : Graph} {edges : List TopologyEdge} {edge : TopologyEdge} {hash : String}

theorem mem_pushEdge {other : TopologyEdge} : other ∈ pushEdge edges edge ↔ other ∈ edges ∨ other = edge := by
  unfold pushEdge
  split_ifs with h
  · refine ⟨.inl, fun hor => hor.elim id ?_⟩
    rintro rfl
    exact h
  · rw [List.mem_append, List.mem_singleton]

theorem nodup_pushEdge (h : edges.Nodup) : (pushEdge edges edge).Nodup := by
  unfold pushEdge
  split_ifs with hmem
  · exact h
  · rw [List.nodup_append]
    refine ⟨h, List.nodup_singleton _, ?_⟩
    intro a ha b hb heq
    rw [List.mem_singleton] at hb
    exact hmem (by rwa [← hb, ← heq])

theorem mem_keys_orInsert {rows : OrderedMap String PeerRow} {key : String} {row : PeerRow} :
    hash ∈ (orInsert rows key row).keys ↔ hash ∈ rows.keys ∨ hash = key := by
  unfold orInsert
  split_ifs with h
  · refine ⟨.inl, fun hor => hor.elim id ?_⟩
    rintro rfl
    rw [Option.isSome_iff_exists] at h
    exact (OrderedMap.mem_keys_iff rows hash).mpr h
  · rw [OrderedMap.mem_keys_set, or_comm]

-- Every row stands under its own hash.
def OwnKeys (rows : OrderedMap String PeerRow) : Prop := ∀ entry ∈ rows.entries, entry.2.destinationHash = entry.1

theorem OwnKeys.orInsert {rows : OrderedMap String PeerRow} {row : PeerRow} (h : OwnKeys rows) (hrow : row.destinationHash = hash) :
    OwnKeys (orInsert rows hash row) := by
  unfold Topology.orInsert
  split_ifs with hthere
  · exact h
  · have hnew : hash ∉ rows.keys := by
      rw [← OrderedMap.get?_eq_none_iff]
      simpa using hthere
    intro entry hentry
    rw [OrderedMap.entries_set_of_notMem rows row hnew, List.mem_append, List.mem_singleton] at hentry
    obtain hold | rfl := hentry
    · exact h entry hold
    · exact hrow

theorem nodeHashes_eq {rows : OrderedMap String PeerRow} (h : OwnKeys rows) :
    rows.values.map PeerRow.destinationHash = rows.keys := by
  rw [OrderedMap.values, OrderedMap.keys, List.map_map]
  exact List.map_congr_left h

-- The edge that a row brings.
def rowEdge (peer : PeerRow) : TopologyEdge := ⟨peer.via.getD SELF_ID, peer.destinationHash⟩

def Named (peers : List PeerRow) : Prop := ∀ peer ∈ peers, peer.destinationHash ≠ "" ∧ peer.destinationHash ≠ SELF_ID

theorem addPeer_run (hnamed : Named peers) (rows : OrderedMap String PeerRow) (hown : OwnKeys rows) :
    OwnKeys (peers.foldl addPeer rows) ∧
      ∀ hash, hash ∈ (peers.foldl addPeer rows).keys ↔ hash ∈ rows.keys ∨ ∃ peer ∈ peers, peer.destinationHash = hash := by
  induction peers generalizing rows with
  | nil => exact ⟨hown, fun hash => by simp⟩
  | cons peer rest ih =>
      have hadd : addPeer rows peer = orInsert rows peer.destinationHash peer := if_neg (hnamed peer List.mem_cons_self).1
      obtain ⟨hkeys, hmem⟩ := ih (fun p hp => hnamed p (List.mem_cons_of_mem _ hp)) (addPeer rows peer) (by
        rw [hadd]
        exact hown.orInsert rfl)
      refine ⟨hkeys, fun hash => ?_⟩
      rw [List.foldl_cons, hmem, hadd, mem_keys_orInsert, List.exists_mem_cons_iff, or_assoc, @eq_comm _ hash]

-- What adding rows to a graph leaves: the edges of the rows, once each, and the relays they name.
structure Adds (peers : List PeerRow) (before after : Graph) : Prop where
  own : OwnKeys before.peerByHash → OwnKeys after.peerByHash
  node : ∀ hash, hash ∈ after.peerByHash.keys ↔ hash ∈ before.peerByHash.keys ∨ ∃ peer ∈ peers, peer.via = some hash
  edge : ∀ edge, edge ∈ after.edges ↔ edge ∈ before.edges ∨ ∃ peer ∈ peers, rowEdge peer = edge
  nodup : before.edges.Nodup → after.edges.Nodup

theorem adds_addEdge {peer : PeerRow} (hpeer : peer.destinationHash ≠ "") : Adds [peer] g (addEdge g peer) := by
  have hadd : addEdge g peer = { peerByHash := _, edges := pushEdge g.edges (rowEdge peer) } := if_neg hpeer
  rw [hadd]
  refine ⟨?_, ?_, ?_, nodup_pushEdge⟩
  · intro hown
    cases peer.via with
    | none => exact hown
    | some via => exact hown.orInsert rfl
  · intro hash
    cases hvia : peer.via with
    | none => simp [hvia]
    | some via => simp [hvia, mem_keys_orInsert, eq_comm]
  · intro edge
    rw [mem_pushEdge]
    simp [eq_comm]

theorem adds_run (hnamed : Named peers) (g : Graph) : Adds peers g (peers.foldl addEdge g) := by
  induction peers generalizing g with
  | nil => exact ⟨id, by simp, by simp, id⟩
  | cons peer rest ih =>
      have hfirst := @adds_addEdge g peer (hnamed peer List.mem_cons_self).1
      have hrest := ih (fun p hp => hnamed p (List.mem_cons_of_mem _ hp)) (addEdge g peer)
      refine ⟨hrest.own ∘ hfirst.own, fun hash => ?_, fun edge => ?_, hrest.nodup ∘ hfirst.nodup⟩
      · rw [List.foldl_cons, hrest.node, hfirst.node, or_assoc]
        simp
      · rw [List.foldl_cons, hrest.edge, hfirst.edge, or_assoc]
        simp

theorem infer_run (vias : List String) (edges : List TopologyEdge) :
    (∀ edge, edge ∈ vias.foldl (fun edges via => pushEdge edges ⟨SELF_ID, via⟩) edges ↔
      edge ∈ edges ∨ ∃ via ∈ vias, edge = ⟨SELF_ID, via⟩) ∧
      (edges.Nodup → (vias.foldl (fun edges via => pushEdge edges ⟨SELF_ID, via⟩) edges).Nodup) := by
  induction vias generalizing edges with
  | nil => exact ⟨by simp, id⟩
  | cons via vias ih =>
      obtain ⟨hmem, hnodup⟩ := ih (pushEdge edges ⟨SELF_ID, via⟩)
      refine ⟨fun edge => ?_, fun h => hnodup (nodup_pushEdge h)⟩
      rw [List.foldl_cons, hmem, mem_pushEdge, or_assoc, List.exists_mem_cons_iff]

-- The sources without an edge to them get one from the own node.
theorem mem_infer : edge ∈ inferSelfToViaEdges edges ↔ edge ∈ edges ∨
    edge.source = SELF_ID ∧ (∃ e ∈ edges, e.source = edge.target ∧ edge.target ≠ SELF_ID) ∧ ∀ e ∈ edges, e.target ≠ edge.target := by
  rw [inferSelfToViaEdges, (infer_run _ edges).1]
  refine or_congr_right ?_
  simp only [List.mem_filter, List.mem_dedup, List.mem_map, decide_eq_true_eq, not_exists, not_and]
  constructor
  · intro ⟨via, ⟨⟨⟨e, he, hsource⟩, hself⟩, hincoming⟩, heq⟩
    rw [heq]
    exact ⟨rfl, ⟨e, he, hsource, hself⟩, hincoming⟩
  · intro ⟨hsource, ⟨e, he, htarget, hself⟩, hincoming⟩
    refine ⟨edge.target, ⟨⟨⟨e, he, htarget⟩, hself⟩, hincoming⟩, ?_⟩
    rw [← hsource]

def nodeHashes (peers : List PeerRow) : List String := (buildTopology peers).1.map PeerRow.destinationHash

def topologyEdges (peers : List PeerRow) : List TopologyEdge := (buildTopology peers).2

theorem buildGraph_adds (hnamed : Named peers) : OwnKeys (buildGraph peers).peerByHash ∧
    (∀ hash, hash ∈ (buildGraph peers).peerByHash.keys ↔
      (∃ peer ∈ peers, peer.destinationHash = hash) ∨ ∃ peer ∈ peers, peer.via = some hash) ∧
    (∀ edge, edge ∈ (buildGraph peers).edges ↔ ∃ peer ∈ peers, rowEdge peer = edge) ∧ (buildGraph peers).edges.Nodup := by
  have hempty : OwnKeys (∅ : OrderedMap String PeerRow) := fun entry hentry => by cases hentry
  obtain ⟨hown, hkeys⟩ := addPeer_run hnamed ∅ hempty
  have hadds := adds_run hnamed { peerByHash := peers.foldl addPeer ∅ }
  refine ⟨hadds.own hown, fun hash => ?_, fun edge => ?_, hadds.nodup List.nodup_nil⟩
  · have hnone : hash ∉ (∅ : OrderedMap String PeerRow).keys := List.not_mem_nil
    rw [buildGraph, hadds.node, hkeys, or_iff_right hnone]
  · have hnone : edge ∉ ([] : List TopologyEdge) := List.not_mem_nil
    rw [buildGraph, hadds.edge, or_iff_right hnone]

theorem nodeHashes_perm (hnamed : Named peers) : (nodeHashes peers).Perm (buildGraph peers).peerByHash.keys := by
  rw [← nodeHashes_eq (buildGraph_adds hnamed).1]
  exact (List.mergeSort_perm _ _).map _

theorem mem_nodeHashes (hnamed : Named peers) : hash ∈ nodeHashes peers ↔
    (∃ peer ∈ peers, peer.destinationHash = hash) ∨ ∃ peer ∈ peers, peer.via = some hash := by
  rw [(nodeHashes_perm hnamed).mem_iff, (buildGraph_adds hnamed).2.1]

theorem mem_topologyEdges (hnamed : Named peers) : edge ∈ topologyEdges peers ↔ (∃ peer ∈ peers, rowEdge peer = edge) ∨
    edge.source = SELF_ID ∧ edge.target ≠ SELF_ID ∧ (∃ peer ∈ peers, peer.via = some edge.target) ∧
      ∀ peer ∈ peers, peer.destinationHash ≠ edge.target := by
  obtain ⟨_, _, hedge, _⟩ := buildGraph_adds hnamed
  have hsort : edge ∈ topologyEdges peers ↔ edge ∈ inferSelfToViaEdges (buildGraph peers).edges := (List.mergeSort_perm _ _).mem_iff
  rw [hsort, mem_infer, hedge]
  refine or_congr_right (and_congr_right fun _ => ?_)
  constructor
  · intro ⟨⟨e, he, hsource, hself⟩, hincoming⟩
    obtain ⟨peer, hpeer, rfl⟩ := (hedge e).mp he
    refine ⟨hself, ⟨peer, hpeer, ?_⟩, fun other hother => hincoming _ ((hedge _).mpr ⟨other, hother, rfl⟩)⟩
    cases hvia : peer.via with
    | none =>
        rw [rowEdge, hvia] at hsource
        exact absurd hsource.symm hself
    | some via =>
        rw [rowEdge, hvia] at hsource
        exact congrArg some hsource
  · intro ⟨hself, ⟨peer, hpeer, hvia⟩, hrows⟩
    refine ⟨⟨rowEdge peer, (hedge _).mpr ⟨peer, hpeer, rfl⟩, by rw [rowEdge, hvia]; rfl, hself⟩, ?_⟩
    intro e he
    obtain ⟨other, hother, rfl⟩ := (hedge e).mp he
    exact hrows other hother

theorem nodup_topologyEdges (hnamed : Named peers) : (topologyEdges peers).Nodup :=
  (List.mergeSort_perm _ _).nodup_iff.mpr ((infer_run _ _).2 (buildGraph_adds hnamed).2.2.2)

def Reachable (peers : List PeerRow) (hash : String) : Prop :=
  Relation.ReflTransGen (fun source target => ⟨source, target⟩ ∈ topologyEdges peers) SELF_ID hash

-- Hashes with rows that only lead to each other.
def Circle (peers : List PeerRow) (hashes : Set String) : Prop :=
  ∀ hash ∈ hashes, (∃ peer ∈ peers, peer.destinationHash = hash) ∧
    ∀ peer ∈ peers, peer.destinationHash = hash → ∃ via ∈ hashes, peer.via = some via

-- No edge leads into a circle.
theorem not_reachable_of_circle (hnamed : Named peers) {hashes : Set String} (hcircle : Circle peers hashes) (hash : String)
    (hreach : Reachable peers hash) : hash ∉ hashes := by
  induction hreach with
  | refl =>
      intro hself
      obtain ⟨⟨peer, hpeer, heq⟩, _⟩ := hcircle SELF_ID hself
      exact (hnamed peer hpeer).2 heq
  | @tail source target _ hedge ih =>
      intro htarget
      obtain ⟨⟨row, hrow, hhash⟩, hvias⟩ := hcircle target htarget
      obtain ⟨peer, hpeer, heq⟩ | ⟨_, _, _, hnone⟩ := (mem_topologyEdges hnamed).mp hedge
      · obtain ⟨via, hvia, hnext⟩ := hvias peer hpeer (congrArg TopologyEdge.target heq)
        have hsource : via = source := by
          have hends := congrArg TopologyEdge.source heq
          rwa [rowEdge, hnext] at hends
        exact ih (hsource ▸ hvia)
      · exact hnone row hrow hhash

-- What is not reached lies in a circle.
theorem circle_of_not_reachable (hnamed : Named peers) :
    Circle peers {hash | hash ∈ nodeHashes peers ∧ ¬ Reachable peers hash} := by
  intro hash ⟨hnode, hreach⟩
  have hlink : (⟨SELF_ID, hash⟩ : TopologyEdge) ∉ topologyEdges peers := fun hedge => hreach (.single hedge)
  rw [mem_topologyEdges hnamed, not_or] at hlink
  obtain ⟨hrows, hinfer⟩ := hlink
  constructor
  · by_contra hnone
    have hvia : ∃ peer ∈ peers, peer.via = some hash := ((mem_nodeHashes hnamed).mp hnode).resolve_left hnone
    refine hinfer ⟨rfl, ?_, hvia, fun peer hpeer heq => hnone ⟨peer, hpeer, heq⟩⟩
    intro hself
    have hselfReach : Reachable peers SELF_ID := .refl
    exact hreach ((show hash = SELF_ID from hself) ▸ hselfReach)
  · intro peer hpeer hhash
    cases hvia : peer.via with
    | none => exact (hrows ⟨peer, hpeer, by rw [rowEdge, hvia, hhash]; rfl⟩).elim
    | some via =>
        refine ⟨via, ⟨(mem_nodeHashes hnamed).mpr (.inr ⟨peer, hpeer, hvia⟩), fun hreachVia => ?_⟩, rfl⟩
        have hedge : (⟨via, hash⟩ : TopologyEdge) ∈ topologyEdges peers :=
          (mem_topologyEdges hnamed).mpr (.inl ⟨peer, hpeer, by rw [rowEdge, hvia, hhash]; rfl⟩)
        exact hreach (hreachVia.tail hedge)

structure ClosedGraph (peers : List PeerRow) : Prop where
  nodup : (nodeHashes peers).Nodup
  node : ∀ hash, hash ∈ nodeHashes peers ↔ (∃ peer ∈ peers, peer.destinationHash = hash) ∨ ∃ peer ∈ peers, peer.via = some hash
  ends : ∀ edge ∈ topologyEdges peers, edge.target ∈ nodeHashes peers ∧ (edge.source = SELF_ID ∨ edge.source ∈ nodeHashes peers)
  once : (topologyEdges peers).Nodup
  vias : ∀ peer ∈ peers, ∀ via, peer.via = some via → ⟨via, peer.destinationHash⟩ ∈ topologyEdges peers

theorem closedGraph (hnamed : Named peers) : ClosedGraph peers where
  nodup := (nodeHashes_perm hnamed).nodup_iff.mpr (OrderedMap.keys_nodup _)
  node _ := mem_nodeHashes hnamed
  ends := by
    intro edge hedge
    rw [mem_nodeHashes hnamed, mem_nodeHashes hnamed]
    obtain ⟨peer, hpeer, rfl⟩ | ⟨hsource, _, hvia, _⟩ := (mem_topologyEdges hnamed).mp hedge
    · refine ⟨.inl ⟨peer, hpeer, rfl⟩, ?_⟩
      cases hvia : peer.via with
      | none => exact .inl (by rw [rowEdge, hvia]; rfl)
      | some via => exact .inr (.inr ⟨peer, hpeer, by rw [rowEdge, hvia]; rfl⟩)
    · exact ⟨.inr hvia, .inl hsource⟩
  once := nodup_topologyEdges hnamed
  vias := by
    intro peer hpeer via hvia
    exact (mem_topologyEdges hnamed).mpr (.inl ⟨peer, hpeer, by rw [rowEdge, hvia]; rfl⟩)

theorem topology_closed_and_connected (peers : List PeerRow) (hnamed : Named peers) :
    ClosedGraph peers ∧
    (∀ hash ∈ nodeHashes peers, Reachable peers hash ↔ ¬ ∃ hashes, hash ∈ hashes ∧ Circle peers hashes) ∧
    ∀ peers', peers.Perm peers' →
      (∀ hash, hash ∈ nodeHashes peers' ↔ hash ∈ nodeHashes peers) ∧ ∀ edge, edge ∈ topologyEdges peers' ↔ edge ∈ topologyEdges peers := by
  refine ⟨closedGraph hnamed, ?_, ?_⟩
  · intro hash hnode
    constructor
    · intro hreach ⟨hashes, hmem, hcircle⟩
      exact not_reachable_of_circle hnamed hcircle hash hreach hmem
    · intro hnone
      by_contra hreach
      exact hnone ⟨{node | node ∈ nodeHashes peers ∧ ¬ Reachable peers node}, ⟨hnode, hreach⟩, circle_of_not_reachable hnamed⟩
  · intro peers' hperm
    have hnamed' : Named peers' := fun peer hpeer => hnamed peer (hperm.mem_iff.mpr hpeer)
    constructor
    · intro hash
      rw [mem_nodeHashes hnamed, mem_nodeHashes hnamed']
      simp only [hperm.mem_iff]
    · intro edge
      rw [mem_topologyEdges hnamed, mem_topologyEdges hnamed']
      simp only [hperm.mem_iff]

def hubAndLeaf : List PeerRow := [{ destinationHash := "leaf", viaHash := some "hub" }]

theorem hub_and_leaf_connected : Named hubAndLeaf ∧ ClosedGraph hubAndLeaf := by
  have hnamed : Named hubAndLeaf := by
    intro peer hpeer
    obtain rfl := List.mem_singleton.mp hpeer
    exact ⟨by decide, by decide⟩
  exact ⟨hnamed, (topology_closed_and_connected hubAndLeaf hnamed).1⟩

-- Two rows, each of which is behind the other.
def loopRows : List PeerRow := [{ destinationHash := "a", viaHash := some "b" }, { destinationHash := "b", viaHash := some "a" }]

theorem loop_is_not_reached : ¬ ∀ peers, Named peers → ∀ hash ∈ nodeHashes peers, Reachable peers hash := by
  intro hall
  have hnamed : Named loopRows := by
    intro peer hpeer
    rw [loopRows, List.mem_cons, List.mem_singleton] at hpeer
    obtain rfl | rfl := hpeer
    · exact ⟨by decide, by decide⟩
    · exact ⟨by decide, by decide⟩
  have hcircle : Circle loopRows {"a", "b"} := by
    intro hash hmem
    obtain rfl | rfl := hmem
    · refine ⟨⟨_, List.mem_cons_self, rfl⟩, ?_⟩
      intro peer hpeer hhash
      rw [loopRows, List.mem_cons, List.mem_singleton] at hpeer
      obtain rfl | rfl := hpeer
      · exact ⟨"b", .inr rfl, by decide⟩
      · exact absurd hhash (by decide)
    · refine ⟨⟨_, List.mem_cons_of_mem _ List.mem_cons_self, rfl⟩, ?_⟩
      intro peer hpeer hhash
      rw [loopRows, List.mem_cons, List.mem_singleton] at hpeer
      obtain rfl | rfl := hpeer
      · exact absurd hhash (by decide)
      · exact ⟨"a", .inl rfl, by decide⟩
  have hnode : "a" ∈ nodeHashes loopRows := (mem_nodeHashes hnamed).mpr (.inl ⟨_, List.mem_cons_self, rfl⟩)
  exact not_reachable_of_circle hnamed hcircle "a" (hall loopRows hnamed "a" hnode) (.inl rfl)

end MeshClient.Reticulum.Topology
