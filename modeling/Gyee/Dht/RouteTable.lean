import Gyee.Dht.Log2Dist

/-! # The route table: lookup and insertion

A route table holds buckets of peers, each entry storing the peer's hash and its log-distance to the
local node. `rt.update(bn, dist)` looks the peer up with `rt.find(id, dist)`, which only searches
bucket `dist`; a peer it does not find is appended to the *tail* bucket whatever its distance, and
an overflowing tail is handed to `split`.

Three things of the code decide what `update` does:

* `find`'s loop statement `el.Next()` throws its result away, so the loop never leaves the front
  element: it answers at once when the bucket is empty or its front is the peer, and runs forever
  otherwise (`find_diverges`);
* `split` asserts `el.Value.(rutMgrBucketNode)`, the struct, on values `update` pushed as
  `*rutMgrBucketNode`, so it panics on its first element;
* `update` on a table without buckets writes `rt.bucketTab[0]` of an empty slice and panics.

The main results: `update_returns_cases` (a returning update leaves the table as it was or appends
the peer to the tail bucket), `update_keeps_wellFormed_or_appends_below_tail` (so it keeps the
table well-formed unless the peer's distance is below the tail index),
`update_appends_below_tail` (where it does not) and `find_not_total` (a lookup that never
returns). -/

namespace Gyee.Dht.RouteTable

open Gyee Gyee.Dht.Log2Dist

/-- `DhtErrno`, the DHT's result codes. -/
inductive DhtErrno where
  | none | parameter | scheduler | notFound | resource | mismatched | duplicated | route | timeout
  | natMapping | internal | unknown
  deriving DecidableEq, Repr

/-- `rutMgrBucketSize`. -/
def rutMgrBucketSize : Nat := 32

/-- `rutMgrMaxLatency`: sixty seconds, in nanoseconds. -/
def rutMgrMaxLatency : Int := 60 * 1000000000

/-- `rutMgrBucketNode`. -/
structure RutMgrBucketNode where
  node : Node
  hash : Hash
  dist : Nat
  deriving DecidableEq

/-- `rutMgrPeerMetric`: latency samples and their average, in nanoseconds. -/
structure RutMgrPeerMetric where
  peerId : NodeID
  ltnSamples : List Int
  ewma : Int
  deriving DecidableEq

/-- `rutMgrRouteTable`. -/
structure RutMgrRouteTable where
  shaLocal : Hash
  bucketSize : Nat
  bucketTab : List (List RutMgrBucketNode)
  metricTab : GoMap NodeID RutMgrPeerMetric
  maxLatency : Int

namespace RutMgrRouteTable

variable (rt : RutMgrRouteTable)

/-- Bucket `i`, empty when out of range. -/
def bucket (i : Nat) : List RutMgrBucketNode := rt.bucketTab.getD i []

/-- The index of the tail bucket. -/
def tailIdx : Nat := rt.bucketTab.length - 1

/-- The table with bucket `i` replaced. -/
def setBucket (i : Nat) (b : List RutMgrBucketNode) : RutMgrRouteTable :=
  { rt with bucketTab := rt.bucketTab.set i b }

@[simp] theorem setBucket_bucketTab_length (i : Nat) (b : List RutMgrBucketNode) :
    (rt.setBucket i b).bucketTab.length = rt.bucketTab.length := by simp [setBucket]

@[simp] theorem setBucket_shaLocal (i : Nat) (b : List RutMgrBucketNode) :
    (rt.setBucket i b).shaLocal = rt.shaLocal := rfl

@[simp] theorem setBucket_bucketSize (i : Nat) (b : List RutMgrBucketNode) :
    (rt.setBucket i b).bucketSize = rt.bucketSize := rfl

@[simp] theorem setBucket_tailIdx (i : Nat) (b : List RutMgrBucketNode) :
    (rt.setBucket i b).tailIdx = rt.tailIdx := by simp [tailIdx]

theorem bucket_setBucket (i j : Nat) (b : List RutMgrBucketNode) (hi : i < rt.bucketTab.length) :
    (rt.setBucket i b).bucket j = if j = i then b else rt.bucket j := by
  simp only [bucket, setBucket, List.getD_eq_getElem?_getD, List.getElem?_set]
  by_cases h : j = i
  · subst h; simp [hi]
  · simp [h, Ne.symm h]

theorem setBucket_bucket_self (i : Nat) : rt.setBucket i (rt.bucket i) = rt := by
  suffices h : rt.bucketTab.set i (rt.bucket i) = rt.bucketTab by simp [setBucket, h]
  rcases Nat.lt_or_ge i rt.bucketTab.length with hi | hi
  · simp only [bucket, List.getD_eq_getElem?_getD, List.getElem?_eq_getElem hi, Option.getD_some]
    refine List.ext_getElem (by simp) fun j _ _ => ?_
    rw [List.getElem_set]
    split_ifs with hj
    · subst hj; rfl
    · rfl
  · exact List.set_eq_of_length_le hi

/-- `rutMgrMetricSample`: a new peer gets its sample as its average, a known one keeps its average
(`rutMgrMetricUpdate` does nothing). -/
def rutMgrMetricSample (id : NodeID) (latency : Int) : RutMgrRouteTable :=
  match rt.metricTab.get? id with
  | some m => { rt with metricTab := rt.metricTab.set id { m with ltnSamples := m.ltnSamples ++ [latency] } }
  | none => { rt with metricTab := rt.metricTab.set id ⟨id, [latency], latency⟩ }

/-- `rutMgrMetricGetEWMA`. -/
def rutMgrMetricGetEWMA (id : NodeID) : DhtErrno × Int :=
  match rt.metricTab.get? id with
  | some m => (.none, m.ewma)
  | none => (.notFound, -1)

/-! ### Lookup -/

/-- The loop of `find` from the element `el` (an index into the bucket and its entry, `none` for
`nil`): the post statement `el.Next()` discards its result, so the next iteration is at `el` again.
Each iteration takes one unit of `fuel`. -/
def findLoop (id : NodeID) : Nat → Option (Nat × RutMgrBucketNode) → Run (DhtErrno × Option Nat)
  | 0, _ => .running
  | _ + 1, none => .ret (.notFound, none)
  | fuel + 1, some (i, e) =>
    if e.node.ID = id then .ret (.none, some i) else findLoop id fuel (some (i, e))

/-- `rt.find(id, dist)`: the element found, as its index in bucket `dist`. -/
def find (id : NodeID) (dist : Nat) (fuel : Nat) : Run (DhtErrno × Option Nat) :=
  if rt.bucketTab.length ≤ dist then .ret (.notFound, none)
  else findLoop id fuel ((rt.bucket dist).head?.map ((0, ·)))

theorem findLoop_stuck (id : NodeID) (e : RutMgrBucketNode) (he : e.node.ID ≠ id) :
    ∀ fuel i, findLoop id fuel (some (i, e)) = .running
  | 0, _ => rfl
  | fuel + 1, i => by simp only [findLoop, he, if_false]; exact findLoop_stuck id e he fuel i

/-- **`find` never returns** when bucket `dist` exists and its front entry is another peer. -/
theorem find_diverges (id : NodeID) (dist : Nat) (e : RutMgrBucketNode)
    (rest : List RutMgrBucketNode) (hd : dist < rt.bucketTab.length) (hb : rt.bucket dist = e :: rest)
    (he : e.node.ID ≠ id) (fuel : Nat) : rt.find id dist fuel = .running := by
  simp only [find, Nat.not_le.mpr hd, if_false, hb, List.head?_cons, Option.map_some']
  exact findLoop_stuck id e he fuel 0

/-- What a returning `find` answers: the front entry of bucket `dist`, when it is the peer. -/
theorem find_ret (id : NodeID) (dist fuel : Nat) (r : DhtErrno × Option Nat)
    (h : rt.find id dist fuel = .ret r) :
    r = (.notFound, none) ∨ (r = (.none, some 0) ∧ ∃ e rest, rt.bucket dist = e :: rest ∧ e.node.ID = id) := by
  unfold find at h
  split_ifs at h
  · exact .inl (Run.ret.inj h).symm
  · cases hb : rt.bucket dist with
    | nil => rw [hb] at h; cases fuel <;> simp_all [findLoop]
    | cons e rest =>
      rw [hb] at h
      by_cases he : e.node.ID = id
      · cases fuel with
        | zero => simp [findLoop] at h
        | succ n => simp only [List.head?_cons, Option.map_some', findLoop, he, if_true] at h
                    exact .inr ⟨(Run.ret.inj h).symm, e, rest, rfl, he⟩
      · simp [findLoop_stuck id e he] at h

theorem find_zero (id : NodeID) (dist : Nat) (hd : dist < rt.bucketTab.length) :
    rt.find id dist 0 = .running := by
  simp [find, Nat.not_le.mpr hd, findLoop]

/-! ### Insertion -/

/-- `MoveToFront` of the element at index `i` of a bucket. -/
def moveToFront (b : List RutMgrBucketNode) (i : Nat) : List RutMgrBucketNode :=
  match b[i]? with
  | some e => e :: b.eraseIdx i
  | none => b

theorem moveToFront_zero (b : List RutMgrBucketNode) : moveToFront b 0 = b := by
  cases b <;> simp [moveToFront]

/-- `rt.split(li, dist)`, called with the tail bucket `li`. Past its two checks, its loop asserts
`el.Value.(rutMgrBucketNode)`, the struct, on the first element; the buckets hold the
`*rutMgrBucketNode` pointers `update` pushed, so the assertion panics. -/
def split (li : List RutMgrBucketNode) (dist : Nat) : Run (DhtErrno × RutMgrRouteTable) :=
  if (rt.bucketTab.length : Int) - 1 ≠ dist then .ret (.parameter, rt)
  else if li.length = 0 then .ret (.parameter, rt)
  else .panic

/-- `rt.update(bn, dist)`, with `fuel` iterations for the loop of `find`. -/
def update (bn : RutMgrBucketNode) (dist : Nat) (fuel : Nat) : Run (DhtErrno × RutMgrRouteTable) :=
  if rt.bucketTab.length = 0 then .panic
  else
    let tail := rt.bucketTab.length - 1
    match rt.find bn.node.ID dist fuel with
    | .panic => .panic
    | .running => .running
    | .ret (eno, el) =>
      match eno, el with
      | .none, some i => .ret (.none, rt.setBucket dist (moveToFront (rt.bucket dist) i))
      | _, _ =>
        match rt.rutMgrMetricGetEWMA bn.node.ID with
        | (.none, ewma) =>
          if ewma > rt.maxLatency then .ret (.none, rt)
          else
            let tailBucket := rt.bucket tail ++ [bn]
            let rt' := rt.setBucket tail tailBucket
            if tailBucket.length > rt.bucketSize then rt'.split tailBucket tail
            else .ret (.none, rt')
        | (eno, _) => .ret (eno, rt)

theorem update_zero (bn : RutMgrBucketNode) (dist : Nat) (hd : dist < rt.bucketTab.length) :
    rt.update bn dist 0 = .running := by
  have h0 : rt.bucketTab.length ≠ 0 := by omega
  simp [update, rt.find_zero _ _ hd, h0]

/-- The table with `bn` appended to its tail bucket. -/
def appendTail (bn : RutMgrBucketNode) : RutMgrRouteTable :=
  rt.setBucket rt.tailIdx (rt.bucket rt.tailIdx ++ [bn])

/-- `split` of a non-empty tail bucket panics. -/
theorem split_tail (li : List RutMgrBucketNode) (hl : li ≠ []) (h0 : 0 < rt.bucketTab.length) :
    rt.split li rt.tailIdx = .panic := by
  have hne : li.length ≠ 0 := by simpa using hl
  simp only [split, tailIdx, hne, if_false]
  rw [if_neg (by omega)]

/-- **A returning update** leaves the table as it was, or appends `bn` to the tail bucket without
making it overflow. -/
theorem update_returns_cases (bn : RutMgrBucketNode) (dist fuel : Nat) (r : DhtErrno × RutMgrRouteTable)
    (h : rt.update bn dist fuel = .ret r) :
    r.2 = rt ∨ (r.2 = rt.appendTail bn ∧ (rt.bucket rt.tailIdx).length + 1 ≤ rt.bucketSize) := by
  unfold update at h
  split_ifs at h with h0
  cases hf : rt.find bn.node.ID dist fuel with
  | panic => simp [hf] at h
  | running => simp [hf] at h
  | ret fr =>
    rw [hf] at h
    rcases find_ret rt _ _ _ _ hf with rfl | ⟨rfl, e, rest, hb, -⟩
    · cases hm : rt.rutMgrMetricGetEWMA bn.node.ID with
      | mk eno ewma =>
        simp only [hm] at h
        cases eno
        all_goals try exact .inl (by rw [← (Run.ret.inj h)])
        dsimp only at h
        split_ifs at h with hl hs
        · exact .inl (by rw [← (Run.ret.inj h)])
        · have hsplit := split_tail (rt.setBucket rt.tailIdx (rt.bucket rt.tailIdx ++ [bn]))
            (rt.bucket rt.tailIdx ++ [bn]) (by simp) (by simpa using Nat.pos_of_ne_zero h0)
          rw [setBucket_tailIdx] at hsplit
          unfold tailIdx at hsplit
          rw [hsplit] at h; cases h
        · refine .inr ⟨by rw [← (Run.ret.inj h)]; rfl, ?_⟩
          simp only [List.length_append, List.length_singleton, gt_iff_lt, not_lt] at hs
          exact hs
    · simp only [moveToFront_zero] at h
      refine .inl ?_
      rw [← (Run.ret.inj h)]
      exact setBucket_bucket_self rt dist

/-! ### Well-formed tables -/

/-- The entry stores its peer's hash and the peer's log-distance to the local node. -/
def EntryOk (e : RutMgrBucketNode) : Prop :=
  e.hash = rutMgrNodeId2Hash e.node.ID ∧ e.dist = rutMgrLog2Dist rt.shaLocal e.hash

/-- **A well-formed table**: buckets `b_0 … b_t`, every entry storing its hash and distance, every
entry of a non-tail bucket `b_i` at distance `i`, every entry of the tail at distance `t` or more,
and no bucket above `bucketSize`. -/
structure WellFormed : Prop where
  nonempty : 0 < rt.bucketTab.length
  entry : ∀ i e, e ∈ rt.bucket i → rt.EntryOk e
  nonTail : ∀ i e, i < rt.tailIdx → e ∈ rt.bucket i → e.dist = i
  tail : ∀ e, e ∈ rt.bucket rt.tailIdx → rt.tailIdx ≤ e.dist
  size : ∀ i, (rt.bucket i).length ≤ rt.bucketSize

/-- All entries of the table, bucket by bucket. -/
def entries : List RutMgrBucketNode := rt.bucketTab.flatten

/-- No node identity is stored in two entries. -/
def NoDupIds : Prop := (rt.entries.map (·.node.ID)).Nodup

instance : Decidable rt.NoDupIds := inferInstanceAs (Decidable (List.Nodup _))

theorem flatMap_range_getD {α : Type} :
    ∀ l : List (List α), (List.range l.length).flatMap (fun i => l.getD i []) = l.flatten
  | [] => rfl
  | b :: l => by
    rw [List.length_cons, List.range_succ_eq_map, List.flatMap_cons, List.flatMap_map]
    simp only [Function.comp_def, Nat.succ_eq_add_one, List.getD_cons_succ, List.getD_cons_zero,
      flatMap_range_getD l, List.flatten_cons]

/-- The buckets, read in index order, are the entries. -/
theorem flatMap_bucket_range : (List.range rt.bucketTab.length).flatMap rt.bucket = rt.entries :=
  flatMap_range_getD rt.bucketTab

theorem bucket_appendTail (bn : RutMgrBucketNode) (h0 : 0 < rt.bucketTab.length) (i : Nat) :
    (rt.appendTail bn).bucket i = if i = rt.tailIdx then rt.bucket rt.tailIdx ++ [bn] else rt.bucket i :=
  rt.bucket_setBucket _ _ _ (by unfold tailIdx; omega)

@[simp] theorem appendTail_tailIdx (bn : RutMgrBucketNode) : (rt.appendTail bn).tailIdx = rt.tailIdx :=
  rt.setBucket_tailIdx _ _

theorem wellFormed_appendTail {rt : RutMgrRouteTable} {bn : RutMgrBucketNode} (hwf : rt.WellFormed)
    (hbn : rt.EntryOk bn) (hd : rt.tailIdx ≤ bn.dist)
    (hs : (rt.bucket rt.tailIdx).length + 1 ≤ rt.bucketSize) : (rt.appendTail bn).WellFormed := by
  have hb := rt.bucket_appendTail bn hwf.nonempty
  refine ⟨by simpa [appendTail] using hwf.nonempty, fun i e he => ?_, fun i e hi he => ?_,
    fun e he => ?_, fun i => ?_⟩
  · rw [hb] at he
    split_ifs at he
    · rcases List.mem_append.mp he with he | he
      · exact hwf.entry _ e he
      · rw [List.mem_singleton.mp he]; exact hbn
    · exact hwf.entry i e he
  · rw [appendTail_tailIdx] at hi
    rw [hb, if_neg (by omega)] at he
    exact hwf.nonTail i e hi he
  · rw [appendTail_tailIdx] at he ⊢
    rw [hb, if_pos rfl] at he
    rcases List.mem_append.mp he with he | he
    · exact hwf.tail e he
    · rw [List.mem_singleton.mp he]; exact hd
  · rw [hb]
    split_ifs
    · simpa using hs
    · exact hwf.size i

/-- **A returning update keeps the table well-formed**, unless the peer is new and its distance is
below the tail index: it is then appended to the tail bucket all the same. -/
theorem update_keeps_wellFormed_or_appends_below_tail (bn : RutMgrBucketNode) (fuel : Nat)
    (r : DhtErrno × RutMgrRouteTable) (hwf : rt.WellFormed) (hbn : rt.EntryOk bn)
    (h : rt.update bn bn.dist fuel = .ret r) :
    r.2.WellFormed ∨ (bn.dist < rt.tailIdx ∧ r.2 = rt.appendTail bn) := by
  rcases rt.update_returns_cases bn bn.dist fuel r h with h1 | ⟨h1, hs⟩
  · exact .inl (h1 ▸ hwf)
  · by_cases hd : bn.dist < rt.tailIdx
    · exact .inr ⟨hd, h1⟩
    · exact .inl (h1 ▸ wellFormed_appendTail hwf hbn (by omega) hs)

/-! ### A peer reported again -/

/-- Looking a peer up in an empty bucket, or past the last one, answers `NotFound`. -/
theorem find_of_bucket_nil (id : NodeID) (dist fuel : Nat) (hb : rt.bucket dist = []) :
    rt.find id dist (fuel + 1) = .ret (.notFound, none) := by
  unfold find
  split_ifs
  · rfl
  · rw [hb]; rfl

/-- **A peer that `find` does not see is appended to the tail**, whatever its distance and whether
the tail already holds it: its own bucket is empty, its latency average is in bounds and the tail
has room. -/
theorem update_of_bucket_nil (bn : RutMgrBucketNode) (dist fuel : Nat) (m : RutMgrPeerMetric)
    (h0 : 0 < rt.bucketTab.length) (hb : rt.bucket dist = [])
    (hm : rt.metricTab.get? bn.node.ID = some m) (hl : m.ewma ≤ rt.maxLatency)
    (hs : (rt.bucket rt.tailIdx).length + 1 ≤ rt.bucketSize) :
    rt.update bn dist (fuel + 1) = .ret (.none, rt.appendTail bn) := by
  have hewma : rt.rutMgrMetricGetEWMA bn.node.ID = (.none, m.ewma) := by
    simp [rutMgrMetricGetEWMA, hm]
  have hsize : ¬ rt.bucketSize < (rt.bucket rt.tailIdx ++ [bn]).length := by simp; omega
  simp only [update, Nat.pos_iff_ne_zero.mp h0, if_false, rt.find_of_bucket_nil _ _ _ hb, hewma,
    gt_iff_lt, not_lt.mpr hl]
  unfold tailIdx at hsize
  simp only [hsize, if_false]
  rfl

end RutMgrRouteTable

/-! ### A peer below the tail -/

open RutMgrRouteTable

/-- A table of `n` empty buckets around the local hash `sha`, with the latency records `metric`. -/
def emptyTable (sha : Hash) (n : Nat) (metric : GoMap NodeID RutMgrPeerMetric) : RutMgrRouteTable :=
  ⟨sha, rutMgrBucketSize, List.replicate n [], metric, rutMgrMaxLatency⟩

section EmptyTable

variable (sha : Hash) (n : Nat) (metric : GoMap NodeID RutMgrPeerMetric)

@[simp] theorem emptyTable_bucket (i : Nat) : (emptyTable sha n metric).bucket i = [] := by
  simp only [bucket, emptyTable, List.getD_eq_getElem?_getD, List.getElem?_replicate]
  split_ifs <;> rfl

@[simp] theorem emptyTable_length : (emptyTable sha n metric).bucketTab.length = n := by
  simp [emptyTable]

theorem emptyTable_wellFormed : (emptyTable sha (n + 1) metric).WellFormed where
  nonempty := by simp
  entry i e he := by simp at he
  nonTail i e _ he := by simp at he
  tail e he := by simp at he
  size i := by simp

/-- In a table of empty buckets, a new peer whose latency average is in bounds is appended to the
tail bucket. -/
theorem update_emptyTable (bn : RutMgrBucketNode) (m : RutMgrPeerMetric) (fuel : Nat)
    (hm : metric.get? bn.node.ID = some m) (hl : m.ewma ≤ rutMgrMaxLatency) :
    (emptyTable sha (n + 1) metric).update bn bn.dist (fuel + 1) =
      .ret (.none, (emptyTable sha (n + 1) metric).appendTail bn) :=
  update_of_bucket_nil _ bn bn.dist fuel m (by simp) (by simp) hm hl
    (by simp only [emptyTable_bucket]; exact (by decide : 0 + 1 ≤ rutMgrBucketSize))

theorem appendTail_emptyTable_not_wellFormed (bn : RutMgrBucketNode) (hd : bn.dist < n) :
    ¬ ((emptyTable sha (n + 1) metric).appendTail bn).WellFormed := fun h => by
  have ht : (emptyTable sha (n + 1) metric).tailIdx = n := by simp [tailIdx]
  have := h.tail bn (by
    rw [appendTail_tailIdx, bucket_appendTail _ _ (by simp), if_pos rfl]
    simp)
  rw [appendTail_tailIdx, ht] at this
  omega

end EmptyTable

/-- The bucket node `updateReq` builds for a peer stores its hash and distance. -/
theorem entryOk_node (rt : RutMgrRouteTable) (id : NodeID) :
    rt.EntryOk ⟨Node.ofId id, rutMgrNodeId2Hash id, rutMgrLog2Dist rt.shaLocal (rutMgrNodeId2Hash id)⟩ :=
  ⟨rfl, rfl⟩

/-- The local node of the example. -/
def localId : NodeID := Bytes.fill 64 0

/-- The peer of the example. -/
def peerId : NodeID := Bytes.fill 64 1

/-- The peer's bucket node, as `updateReq` builds it. -/
def peerNode : RutMgrBucketNode :=
  ⟨Node.ofId peerId, rutMgrNodeId2Hash peerId,
    rutMgrLog2Dist (rutMgrNodeId2Hash localId) (rutMgrNodeId2Hash peerId)⟩

/-- The latency record of the peer: one sample of no delay. -/
def peerMetric : GoMap NodeID RutMgrPeerMetric := (∅ : GoMap NodeID RutMgrPeerMetric).set peerId ⟨peerId, [0], 0⟩

/-- One empty bucket more than the peer's distance, so that the peer's bucket is not the tail. -/
def belowTailTable : RutMgrRouteTable :=
  emptyTable (rutMgrNodeId2Hash localId) (peerNode.dist + 1 + 1) peerMetric

theorem peerMetric_get : peerMetric.get? peerNode.node.ID = some ⟨peerId, [0], 0⟩ := by
  simp only [peerMetric, peerNode, Node.ofId, GoMap.get?_set, ite_true]

theorem peerNode_entryOk : belowTailTable.EntryOk peerNode := entryOk_node belowTailTable peerId

/-- **`update` does not keep a table well-formed.** A new peer whose distance is below the tail index
is appended to the tail bucket, where every entry must be at distance `t` or more. -/
theorem update_appends_below_tail :
    ¬ ∀ (rt : RutMgrRouteTable) (bn : RutMgrBucketNode), rt.WellFormed → rt.EntryOk bn →
      rt.metricTab.contains bn.node.ID = true →
        ∃ fuel r, rt.update bn bn.dist fuel = .ret r ∧ r.2.WellFormed := fun h => by
  obtain ⟨fuel, r, hr, hwf⟩ := h belowTailTable peerNode (emptyTable_wellFormed _ _ _)
    peerNode_entryOk (by
      simp only [belowTailTable, emptyTable, GoMap.contains, peerMetric_get, Option.isSome_some])
  cases fuel with
  | zero =>
    rw [update_zero _ _ _ (by rw [belowTailTable, emptyTable_length]; omega)] at hr
    cases hr
  | succ n =>
    rw [belowTailTable, update_emptyTable _ _ _ _ _ _ peerMetric_get (by decide)] at hr
    rw [← (Run.ret.inj hr)] at hwf
    exact appendTail_emptyTable_not_wellFormed _ _ _ _ (by omega) hwf

theorem update_keeps_wellFormed_or_appends_below_tail_example :
    belowTailTable.WellFormed ∧ belowTailTable.EntryOk peerNode ∧
      belowTailTable.update peerNode peerNode.dist 1 = .ret (.none, belowTailTable.appendTail peerNode) ∧
      ((belowTailTable.appendTail peerNode).WellFormed ∨
        (peerNode.dist < belowTailTable.tailIdx ∧
          belowTailTable.appendTail peerNode = belowTailTable.appendTail peerNode)) :=
  have hu : belowTailTable.update peerNode peerNode.dist 1 =
      .ret (.none, belowTailTable.appendTail peerNode) :=
    update_emptyTable _ _ _ _ _ 0 peerMetric_get (by decide)
  ⟨emptyTable_wellFormed _ _ _, peerNode_entryOk, hu,
    update_keeps_wellFormed_or_appends_below_tail belowTailTable peerNode 1 _
      (emptyTable_wellFormed _ _ _) peerNode_entryOk hu⟩

/-! ### A lookup that never returns -/

/-- A table of one bucket, which holds the peer's entry. -/
def peerBucketTable : RutMgrRouteTable :=
  ⟨rutMgrNodeId2Hash localId, rutMgrBucketSize, [[peerNode]], peerMetric, rutMgrMaxLatency⟩

/-- **`find` does not return on every table**: looking up any identity but the peer's in the bucket
of `peerBucketTable` that holds the peer runs forever, whatever the fuel. -/
theorem find_not_total :
    ¬ ∀ (rt : RutMgrRouteTable) (id : NodeID) (dist : Nat), dist ≤ 256 →
      ∃ fuel r, rt.find id dist fuel = .ret r := fun h => by
  obtain ⟨fuel, r, hr⟩ := h peerBucketTable localId 0 (by decide)
  rw [find_diverges peerBucketTable localId 0 peerNode [] (by decide) rfl (by decide) fuel] at hr
  cases hr

end Gyee.Dht.RouteTable
