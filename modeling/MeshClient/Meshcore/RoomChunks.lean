import MeshClient.Js.Number
import MeshClient.Lib.Cuts
import MeshClient.Messages.ChatMessage

namespace MeshClient.Meshcore

open Js Messages

structure RoomChunk where
  index : Nat
  total : Nat
  body : String
deriving DecidableEq

-- `/^\[(\d+)\/(\d+)\]\s/`: the two runs of digits and the text after the match.
def roomChunkPrefix (payload : String) : Option (List Char × List Char × String) :=
  match payload.toList with
  | '[' :: cs =>
      match cs.dropWhile isDigit with
      | '/' :: rest =>
          match rest.dropWhile isDigit with
          | ']' :: c :: body =>
              if cs.takeWhile isDigit = [] ∨ rest.takeWhile isDigit = [] ∨ isSpace c = false then none
              else some (cs.takeWhile isDigit, rest.takeWhile isDigit, String.ofList body)
          | _ => none
      | _ => none
  | _ => none

def parseRoomChunkPrefix (payload : String) : Option RoomChunk :=
  match roomChunkPrefix payload with
  | none => none
  | some (indexDigits, totalDigits, body) =>
      match finiteNumber indexDigits, finiteNumber totalDigits with
      | some index, some total =>
          if index < 1 ∨ total < 1 ∨ total < index then none else some ⟨index, total, body⟩
      | _, _ => none

-- The post being put together, the number of its chunks and, after the first chunk, the index of the last.
structure PendingPost where
  post : ChatMessage
  total : Nat
  received : Nat

def flushPending (pending : Option PendingPost) : List ChatMessage := pending.toList.map (·.post)

def breaksPending (msg : ChatMessage) (chunk : RoomChunk) (pending : PendingPost) : Bool :=
  pending.post.sender_id ≠ msg.sender_id || pending.post.roomServerId ≠ msg.roomServerId ||
    chunk.total ≠ pending.total || chunk.index ≠ pending.received + 1

def extendPending (msg : ChatMessage) (chunk : RoomChunk) : Option PendingPost → PendingPost
  | none => ⟨{ msg with payload := chunk.body }, chunk.total, 1⟩
  | some pending =>
      ⟨{ pending.post with payload := pending.post.payload ++ chunk.body, timestamp := msg.timestamp },
        pending.total, chunk.index⟩

def mergeStep (s : List ChatMessage × Option PendingPost) (msg : ChatMessage) :
    List ChatMessage × Option PendingPost :=
  match parseRoomChunkPrefix msg.payload with
  | none => (s.1 ++ flushPending s.2 ++ [msg], none)
  | some chunk =>
      let broken := s.2.any (breaksPending msg chunk)
      let out := if broken then s.1 ++ flushPending s.2 else s.1
      let pending := extendPending msg chunk (if broken then none else s.2)
      if chunk.index = chunk.total then (out ++ [pending.post], none) else (out, some pending)

def mergeDisplayedRoomPostChunks (posts : List ChatMessage) : List ChatMessage :=
  let (out, pending) := posts.foldl mergeStep ([], none)
  out ++ flushPending pending

-- The message is appended to the post being put together.
def joinsPending (pending : Option PendingPost) (msg : ChatMessage) : Bool :=
  match parseRoomChunkPrefix msg.payload with
  | none => false
  | some chunk => pending.any fun p => !breaksPending msg chunk p

def nextPending (pending : Option PendingPost) (msg : ChatMessage) : Option PendingPost :=
  (mergeStep ([], pending) msg).2

-- The posts that each displayed post is made of.
def mergedGroups (posts : List ChatMessage) : List (List ChatMessage) :=
  Cuts.groups (Cuts.marks joinsPending nextPending none posts)

def chunkBody (msg : ChatMessage) : String :=
  match parseRoomChunkPrefix msg.payload with
  | none => msg.payload
  | some chunk => chunk.body

-- The one post that is shown for a group.
def mergedPost (first : ChatMessage) (rest : List ChatMessage) : ChatMessage :=
  { first with
    payload := (first :: rest).foldl (· ++ chunkBody ·) ""
    timestamp := (rest.getLast?.getD first).timestamp }

def displayedPost : List ChatMessage → Option ChatMessage
  | [] => none
  | first :: rest => some (mergedPost first rest)

def sameSeries (p q : ChatMessage) (a b : RoomChunk) : Bool :=
  p.sender_id = q.sender_id && p.roomServerId = q.roomServerId && a.total = b.total

def continues (p q : ChatMessage) : Bool :=
  match parseRoomChunkPrefix p.payload, parseRoomChunkPrefix q.payload with
  | some a, some b => sameSeries p q a b && b.index = a.index + 1
  | _, _ => false

-- The partition of the posts into the longest groups in which each post continues the one before it.
structure ContinuationGroups (posts : List ChatMessage) (groups : List (List ChatMessage)) : Prop where
  inOrder : posts = groups.flatten
  nonempty : [] ∉ groups
  consecutive : ∀ g ∈ groups, g.IsChain fun p q => continues p q
  maximal : groups.IsChain fun g g' => ∃ hg hg', continues (g.getLast hg) (g'.head hg') = false

-- The chunk `p` begins a run in the middle of its series, and `q` is its continuation or has the index
-- that would follow on the first chunk.
def Misread (before : Option ChatMessage) (p q : ChatMessage) : Prop :=
  ∃ a b, parseRoomChunkPrefix p.payload = some a ∧ parseRoomChunkPrefix q.payload = some b ∧
    sameSeries p q a b = true ∧ before.any (continues · p) = false ∧ 2 ≤ a.index ∧ a.index < a.total ∧
    (b.index = 2 ∨ b.index = a.index + 1)

theorem continuationGroups_iff {posts : List ChatMessage} {groups : List (List ChatMessage)} :
    ContinuationGroups posts groups ↔ groups = posts.splitBy continues := by
  rw [eq_comm, List.splitBy_eq_iff]
  exact ⟨fun h => ⟨h.1, h.2, h.3, h.4⟩, fun h => ⟨h.1, h.2.1, h.2.2.1, h.2.2.2⟩⟩

theorem parseRoomChunkPrefix_bounds {payload : String} {chunk : RoomChunk}
    (h : parseRoomChunkPrefix payload = some chunk) : 1 ≤ chunk.index ∧ chunk.index ≤ chunk.total := by
  unfold parseRoomChunkPrefix at h
  split at h
  · cases h
  · split at h
    · rename_i index total _ _
      by_cases hbad : index < 1 ∨ total < 1 ∨ total < index
      · rw [if_pos hbad] at h
        cases h
      · rw [if_neg hbad] at h
        cases h
        dsimp only
        omega
    · cases h

-- What the loop knows after a chunk `p`: nothing where the chunk was the last of its series, else its
-- series and the index it goes by, which for the first chunk of a run is always 1.
def Follows (before : Option ChatMessage) (p : ChatMessage) (pending : Option PendingPost) : Prop :=
  match parseRoomChunkPrefix p.payload with
  | none => pending = none
  | some a =>
      if a.index = a.total then pending = none
      else ∃ post : ChatMessage, post.sender_id = p.sender_id ∧ post.roomServerId = p.roomServerId ∧
        pending = some ⟨post, a.total, if before.any (continues · p) then a.index else 1⟩

theorem not_breaksPending {p q post : ChatMessage} {a b : RoomChunk} {received : Nat}
    (hsender : post.sender_id = p.sender_id) (hroom : post.roomServerId = p.roomServerId) :
    (!breaksPending q b ⟨post, a.total, received⟩) = (sameSeries p q a b && b.index = received + 1) := by
  simp only [breaksPending, sameSeries, hsender, hroom, ne_eq, decide_not, Bool.not_or, Bool.not_not,
    eq_comm (a := b.total)]

theorem joinsPending_iff {before : Option ChatMessage} {p q : ChatMessage} {pending : Option PendingPost}
    (h : Follows before p pending) :
    joinsPending pending q = continues p q ↔ ¬Misread before p q := by
  unfold Follows at h
  unfold joinsPending continues Misread
  cases hp : parseRoomChunkPrefix p.payload with
  | none =>
      simp only [hp] at h
      subst h
      cases parseRoomChunkPrefix q.payload <;> simp
  | some a =>
      simp only [hp] at h
      have ha := parseRoomChunkPrefix_bounds hp
      cases hq : parseRoomChunkPrefix q.payload with
      | none => simp
      | some b =>
          have hb := parseRoomChunkPrefix_bounds hq
          by_cases hlast : a.index = a.total
          · rw [if_pos hlast] at h
            subst h
            by_cases hseries : sameSeries p q a b = true
            · have htotal : a.total = b.total := by
                simp only [sameSeries, Bool.and_eq_true, decide_eq_true_eq] at hseries
                exact hseries.2
              have hnext : b.index ≠ a.index + 1 := by omega
              have hnot : ¬a.index < a.total := by omega
              simp [hnext, hnot]
            · simp [hseries]
          · rw [if_neg hlast] at h
            obtain ⟨post, hsender, hroom, rfl⟩ := h
            simp only [Option.any_some, not_breaksPending hsender hroom, Option.some_inj]
            cases hseries : sameSeries p q a b with
            | false => simp [hseries]
            | true =>
                cases hbefore : before.any (continues · p) with
                | true => simp
                | false =>
                    have hmid : a.index < a.total := by omega
                    by_cases htwo : b.index = 2
                    · by_cases hnext : b.index = a.index + 1
                      · have hfirst : ¬2 ≤ a.index := by omega
                        simp [htwo, hseries, hfirst]
                        omega
                      · have hlater : 2 ≤ a.index := by omega
                        simp [htwo, hseries, hlater, hmid]
                        omega
                    · by_cases hnext : b.index = a.index + 1
                      · have hlater : 2 ≤ a.index := by omega
                        simp [hnext, hseries, hlater, hmid]
                        omega
                      · simp [htwo, hnext]

theorem nextPending_follows {before : Option ChatMessage} {q : ChatMessage} {pending : Option PendingPost}
    (h : joinsPending pending q = before.any (continues · q)) : Follows before q (nextPending pending q) := by
  unfold joinsPending at h
  unfold Follows nextPending mergeStep
  cases hq : parseRoomChunkPrefix q.payload with
  | none => rfl
  | some b =>
      simp only [hq] at h ⊢
      by_cases hlast : b.index = b.total
      · rw [if_pos hlast, if_pos hlast]
      · rw [if_neg hlast, if_neg hlast, ← h]
        cases pending with
        | none => exact ⟨{ q with payload := b.body }, rfl, rfl, rfl⟩
        | some p =>
            cases hbroken : breaksPending q b p with
            | true => exact ⟨{ q with payload := b.body }, rfl, rfl, by simp [extendPending, hbroken]⟩
            | false =>
                have hsame := hbroken
                simp only [breaksPending, Bool.or_eq_false_iff, decide_eq_false_iff_not, ne_eq, not_not] at hsame
                obtain ⟨⟨⟨hsender, hroom⟩, htotal⟩, -⟩ := hsame
                refine ⟨{ p.post with payload := p.post.payload ++ b.body, timestamp := q.timestamp },
                  hsender, hroom, ?_⟩
                simp [extendPending, hbroken, htotal]

-- No chunk among the posts is misread.
def NoneMisread : Option ChatMessage → List ChatMessage → Prop
  | before, p :: q :: rest => ¬Misread before p q ∧ NoneMisread (some p) (q :: rest)
  | _, _ => True

theorem getLast?_cons_or {α : Type*} (x : α) (front : List α) (before : Option α) :
    (x :: front).getLast?.or before = front.getLast?.or (some x) := by
  rw [List.getLast?_cons]
  cases front.getLast? <;> rfl

theorem noneMisread_iff {before : Option ChatMessage} {posts : List ChatMessage} :
    NoneMisread before posts ↔ ∀ front p q rest, posts = front ++ p :: q :: rest →
      ¬Misread (front.getLast?.or before) p q := by
  induction posts generalizing before with
  | nil =>
      refine iff_of_true trivial fun front p q rest h => ?_
      simp at h
  | cons x xs ih =>
      cases xs with
      | nil =>
          refine iff_of_true trivial fun front p q rest h => ?_
          have hlen := congrArg List.length h
          simp at hlen
          omega
      | cons y ys =>
          rw [NoneMisread, ih]
          constructor
          · rintro ⟨hfirst, hrest⟩ front p q rest h
            cases front with
            | nil =>
                obtain ⟨rfl, htail⟩ := List.cons.inj h
                obtain ⟨rfl, -⟩ := List.cons.inj htail
                exact hfirst
            | cons z front =>
                obtain ⟨rfl, htail⟩ := List.cons.inj h
                rw [getLast?_cons_or]
                exact hrest front p q rest htail
          · intro h
            refine ⟨h [] x y ys rfl, fun front p q rest htail => ?_⟩
            rw [← getLast?_cons_or]
            exact h (x :: front) p q rest (by rw [htail]; rfl)

-- The loop joins the posts that continue each other as long as it misreads no chunk.
theorem marks_eq_iff {before : Option ChatMessage} {p : ChatMessage} {pending : Option PendingPost}
    {posts : List ChatMessage} (h : Follows before p pending) :
    Cuts.marks joinsPending nextPending pending posts = Cuts.pairMarks continues (some p) posts ↔
      NoneMisread before (p :: posts) := by
  induction posts generalizing before p pending with
  | nil => exact iff_of_true rfl trivial
  | cons q posts ih =>
      have hq := @joinsPending_iff before p q pending h
      rw [NoneMisread, Cuts.marks, Cuts.pairMarks, Cuts.marks, ← Cuts.pairMarks, List.cons.injEq, Prod.mk.injEq,
        ← hq]
      refine ⟨fun heq => ?_, fun hnone => ?_⟩
      · have hjoin := heq.1.1
        exact ⟨hjoin, (ih (nextPending_follows hjoin)).mp heq.2⟩
      · exact ⟨⟨hnone.1, rfl⟩, (ih (nextPending_follows hnone.1)).mpr hnone.2⟩

theorem mergedGroups_iff (posts : List ChatMessage) :
    ContinuationGroups posts (mergedGroups posts) ↔ NoneMisread none posts := by
  rw [continuationGroups_iff, Cuts.splitBy_eq_groups, mergedGroups, Cuts.pairMarks]
  cases posts with
  | nil => exact iff_of_true rfl trivial
  | cons p posts =>
      rw [Cuts.groups_eq_iff, ← Cuts.pairMarks]
      apply marks_eq_iff
      apply nextPending_follows
      unfold joinsPending
      split <;> rfl

theorem bodies_concat (first : ChatMessage) (rest : List ChatMessage) (x : ChatMessage) :
    mergedPost first (rest ++ [x]) =
      { mergedPost first rest with
        payload := (mergedPost first rest).payload ++ chunkBody x, timestamp := x.timestamp } := by
  simp [mergedPost]

-- The state of the loop when the posts of the finished groups are `out`: the post of the last group is
-- either written or still being put together.
def mergeState (out : List ChatMessage) (shown : ChatMessage) (pending : Option PendingPost) :
    List ChatMessage × Option PendingPost :=
  (if pending = none then out ++ [shown] else out, pending)

theorem mergeState_flushed {out : List ChatMessage} {shown : ChatMessage} {pending : Option PendingPost}
    (h : ∀ p ∈ pending, p.post = shown) :
    (mergeState out shown pending).1 ++ flushPending (mergeState out shown pending).2 = out ++ [shown] := by
  cases pending with
  | none => simp [mergeState, flushPending]
  | some p => simp [mergeState, flushPending, h p rfl]

theorem nextPending_eq {q : ChatMessage} {b : RoomChunk} {pending : Option PendingPost}
    (hq : parseRoomChunkPrefix q.payload = some b) : nextPending pending q =
      if b.index = b.total then none
      else some (extendPending q b (if pending.any (breaksPending q b) then none else pending)) := by
  simp only [nextPending, mergeStep, hq]
  split <;> rfl

theorem mergeStep_joins {first q : ChatMessage} {rest out : List ChatMessage} {pending : Option PendingPost}
    (h : ∀ p ∈ pending, p.post = mergedPost first rest) (hj : joinsPending pending q = true) :
    mergeStep (mergeState out (mergedPost first rest) pending) q =
        mergeState out (mergedPost first (rest ++ [q])) (nextPending pending q) ∧
      ∀ p ∈ nextPending pending q, p.post = mergedPost first (rest ++ [q]) := by
  unfold joinsPending at hj
  cases hq : parseRoomChunkPrefix q.payload with
  | none =>
      rw [hq] at hj
      cases hj
  | some b =>
      cases pending with
      | none =>
          rw [hq] at hj
          cases hj
      | some p =>
          simp only [hq, Option.any_some, Bool.not_eq_true'] at hj
          have hpost : (extendPending q b (some p)).post = mergedPost first (rest ++ [q]) := by
            rw [bodies_concat, ← h p rfl]
            simp [extendPending, chunkBody, hq]
          rw [nextPending_eq hq]
          simp only [mergeStep, hq, mergeState, Option.any_some, hj, Bool.false_eq_true, if_false]
          by_cases hlast : b.index = b.total
          · simp [hlast, hpost]
          · simp [hlast, hpost]

theorem mergeStep_starts {q : ChatMessage} {done : List ChatMessage} {s : List ChatMessage × Option PendingPost}
    (hdone : s.1 ++ flushPending s.2 = done) (hj : joinsPending s.2 q = false) :
    mergeStep s q = mergeState done (mergedPost q []) (nextPending s.2 q) ∧
      ∀ p ∈ nextPending s.2 q, p.post = mergedPost q [] := by
  obtain ⟨out, pending⟩ := s
  unfold joinsPending at hj
  cases hq : parseRoomChunkPrefix q.payload with
  | none =>
      have hshown : mergedPost q [] = q := by simp [mergedPost, chunkBody, hq]
      have hnext : nextPending pending q = none := by simp only [nextPending, mergeStep, hq]
      rw [hnext, hshown]
      refine ⟨?_, fun p hp => by cases hp⟩
      simp only [mergeStep, hq, hdone]
      rfl
  | some b =>
      have hpost : (extendPending q b none).post = mergedPost q [] := by
        simp [extendPending, mergedPost, chunkBody, hq]
      have hstart : (if pending.any (breaksPending q b) = true then none else pending) = none ∧
          (if pending.any (breaksPending q b) = true then out ++ flushPending pending else out) = done := by
        cases pending with
        | none =>
            rw [← hdone]
            simp [flushPending]
        | some p =>
            simp only [hq, Option.any_some, Bool.not_eq_false'] at hj
            rw [← hdone]
            simp [hj]
      rw [nextPending_eq hq, hstart.1]
      simp only [mergeStep, hq, hstart.1, hstart.2]
      by_cases hlast : b.index = b.total
      · simp [hlast, hpost, mergeState]
      · simp [hlast, hpost, mergeState]

-- What the loop writes from a state on is the posts of the groups that it forms.
theorem foldl_mergeStep {first : ChatMessage} {rest posts out : List ChatMessage}
    {pending : Option PendingPost} (h : ∀ p ∈ pending, p.post = mergedPost first rest) :
    (posts.foldl mergeStep (mergeState out (mergedPost first rest) pending)).1 ++
        flushPending (posts.foldl mergeStep (mergeState out (mergedPost first rest) pending)).2 =
      out ++ (Cuts.cut (first :: rest) (Cuts.marks joinsPending nextPending pending posts)).filterMap
        displayedPost := by
  induction posts generalizing first rest out pending with
  | nil =>
      rw [List.foldl_nil, mergeState_flushed h]
      rfl
  | cons q posts ih =>
      rw [List.foldl_cons, Cuts.marks]
      cases hj : joinsPending pending q with
      | true =>
          obtain ⟨hstep, hpending⟩ := @mergeStep_joins first q rest out pending h hj
          rw [hstep, ih hpending]
          rfl
      | false =>
          obtain ⟨hstep, hpending⟩ := mergeStep_starts (@mergeState_flushed out _ pending h) hj
          rw [hstep]
          refine (ih hpending).trans ?_
          rw [List.append_assoc]
          rfl

theorem mergeDisplayedRoomPostChunks_eq (posts : List ChatMessage) :
    mergeDisplayedRoomPostChunks posts = (mergedGroups posts).filterMap displayedPost := by
  cases posts with
  | nil => rfl
  | cons q posts =>
      have hj : joinsPending none q = false := by
        unfold joinsPending
        split <;> rfl
      obtain ⟨hstep, hpending⟩ := @mergeStep_starts q [] ([], none) rfl hj
      rw [mergeDisplayedRoomPostChunks, List.foldl_cons, hstep]
      exact foldl_mergeStep hpending

-- Each displayed post is made of the posts of one group, and the groups are the longest runs of
-- continuations exactly when no run that begins in the middle of a series is misread.
theorem merged_groups_are_continuations_iff (posts : List ChatMessage) :
    mergeDisplayedRoomPostChunks posts = (mergedGroups posts).filterMap displayedPost ∧
    (ContinuationGroups posts (mergedGroups posts) ↔
      ∀ front p q rest, posts = front ++ p :: q :: rest → ¬Misread front.getLast? p q) := by
  refine ⟨mergeDisplayedRoomPostChunks_eq posts, ?_⟩
  rw [mergedGroups_iff, noneMisread_iff]
  simp only [Option.or_none]

def roomPost (payload : String) : ChatMessage where
  sender_id := 0x42
  sender_name := "Me"
  payload := payload
  channel := -2
  timestamp := 1
  roomServerId := some 0xac200e59

-- Chunk 2 is appended after chunk 3.
theorem out_of_order_chunks_are_merged :
    ¬∀ posts, ∃ groups, ContinuationGroups posts groups ∧
      mergeDisplayedRoomPostChunks posts = groups.filterMap displayedPost := by
  intro h
  obtain ⟨groups, hgroups, hmerged⟩ := h [roomPost "[3/5] c", roomPost "[2/5] b"]
  rw [continuationGroups_iff.mp hgroups] at hmerged
  revert hmerged
  decide

end MeshClient.Meshcore
