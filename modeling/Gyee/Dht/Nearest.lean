import Gyee.Dht.RouteTable
import Mathlib.Data.List.Nodup

/-! # Nearest peers of a target

`rutMgrNearest(target, size)` collects peers bucket by bucket: first bucket `dt`, the target's own
distance to the local node, then the buckets `dt + 1` up to the tail, then `dt - 1` down to `0`.
The closure `addClosest` appends a bucket's entries with their distances to the target, front to
back, and the scan stops as soon as `size` entries are collected, also in the middle of a bucket.
`rutMgrSortPeer` then reorders the two slices in place: a first pass inserts the indices into a
list ordered by distance, a second pass swaps, for each position `i`, the entries `i` and `pi`,
where `pi` is the `i`-th index of that list.

The swaps make a permutation but not a sorted list (two entries are always swapped back), and
the scan may leave out an entry closer to the target than one it took. What the function does
promise is that it returns a permutation of the first `size` entries of its scan, each with its
own distance.

The main results: `rutMgrSortPeer_perm` (the sort permutes the entries and keeps each distance
beside its entry), `sortIdx_stable` (the first pass computes the stable order by distance),
`rutMgrSortPeer_pair` (the second pass returns every two-entry input unchanged), `scan_eq` (the
scan takes a prefix of the visited buckets), `rutMgrNearest_returns_scan_prefix` and
`rutMgrNearest_closest_first` (which does not hold). -/

namespace Gyee.Dht.Nearest

open Gyee Gyee.Dht.Log2Dist Gyee.Dht.RouteTable RutMgrRouteTable

/-- `rutMgrMaxNearest`. -/
def rutMgrMaxNearest : Nat := 32

/-! ### Sorting -/

/-- The inner loop of `rutMgrSortPeer`'s first pass: index `i` of distance `d` is inserted before
the first index of `li` whose distance is larger, or pushed to the back. -/
def insertIdx (ds : List Nat) (i d : Nat) : List Nat → List Nat
  | [] => [i]
  | j :: li => if d < ds.getD j 0 then i :: j :: li else j :: insertIdx ds i d li

/-- The first pass of `rutMgrSortPeer`: the indices of `ds`, ordered by distance. -/
def sortIdx (ds : List Nat) : List Nat :=
  ds.enum.foldl (fun li (i, d) => insertIdx ds i d li) []

/-- `l[i], l[j] = l[j], l[i]`; the indices of `rutMgrSortPeer` are always in range. -/
def swap {α : Type} (l : List α) (i j : Nat) : List α :=
  match l[i]?, l[j]? with
  | some a, some b => (l.set i b).set j a
  | _, _ => l

/-- The second pass of `rutMgrSortPeer`: position `i` is swapped with the next index `pi` of the
order, in both slices. -/
def swapLoop {α : Type} : List Nat → Nat → List α → List Nat → List α × List Nat
  | [], _, ps, ds => (ps, ds)
  | pi :: li, i, ps, ds => swapLoop li (i + 1) (swap ps i pi) (swap ds i pi)

/-- `rutMgrSortPeer(ps, ds)`, returning the two slices it reorders in place. -/
def rutMgrSortPeer (ps : List RutMgrBucketNode) (ds : List Nat) : List RutMgrBucketNode × List Nat :=
  if ps = [] ∨ ds = [] then (ps, ds) else swapLoop (sortIdx ds) 0 ps ds

theorem swap_perm {α : Type} [DecidableEq α] (l : List α) (i j : Nat) : (swap l i j).Perm l := by
  unfold swap
  split
  · rename_i a b ha hb
    obtain ⟨hi, rfl⟩ := List.getElem?_eq_some_iff.mp ha
    obtain ⟨hj, rfl⟩ := List.getElem?_eq_some_iff.mp hb
    refine List.perm_iff_count.mpr fun x => ?_
    have hj' : j < (l.set i l[j]).length := by simpa using hj
    have hsj : (l.set i l[j])[j] = l[j] := by
      rw [List.getElem_set]; split_ifs with h <;> simp [h]
    rw [List.count_set _ _ _ _ hj', List.count_set _ _ _ _ hi, hsj]
    have hle : ∀ k (hk : k < l.length), (if l[k] == x then 1 else 0) ≤ l.count x := fun k hk => by
      split_ifs with h
      · exact List.count_pos_iff.mpr (by rw [← beq_iff_eq.mp h]; exact List.getElem_mem hk)
      · exact Nat.zero_le _
    have hai := hle i hi
    have haj := hle j hj
    generalize (if l[i] == x then 1 else 0) = a at *
    generalize (if l[j] == x then 1 else 0) = b at *
    omega
  · exact List.Perm.refl l

theorem map_swap {α β : Type} (f : α → β) (l : List α) (i j : Nat) :
    (swap l i j).map f = swap (l.map f) i j := by
  unfold swap
  rw [List.getElem?_map, List.getElem?_map]
  cases l[i]? <;> cases l[j]? <;> simp

theorem swapLoop_perm {α : Type} [DecidableEq α] (f : α → Nat) :
    ∀ (li : List Nat) (i : Nat) (ps : List α),
      let r := swapLoop li i ps (ps.map f)
      r.2 = r.1.map f ∧ r.1.Perm ps
  | [], _, ps => ⟨rfl, List.Perm.refl ps⟩
  | pi :: li, i, ps => by
    simp only [swapLoop, ← map_swap]
    obtain ⟨h1, h2⟩ := swapLoop_perm f li (i + 1) (swap ps i pi)
    exact ⟨h1, h2.trans (swap_perm ps i pi)⟩

/-- **`rutMgrSortPeer` permutes the peers** and keeps each distance beside its peer. -/
theorem rutMgrSortPeer_perm (f : RutMgrBucketNode → Nat) (ps : List RutMgrBucketNode) :
    (rutMgrSortPeer ps (ps.map f)).2 = (rutMgrSortPeer ps (ps.map f)).1.map f ∧
      (rutMgrSortPeer ps (ps.map f)).1.Perm ps := by
  unfold rutMgrSortPeer
  split_ifs
  · exact ⟨rfl, List.Perm.refl ps⟩
  · exact swapLoop_perm f _ 0 ps

/-- The order of `sortIdx`: by distance, and by index among equal distances. -/
def IdxBefore (ds : List Nat) (j k : Nat) : Prop :=
  ds.getD j 0 < ds.getD k 0 ∨ ds.getD j 0 = ds.getD k 0 ∧ j < k

theorem IdxBefore.trans {ds : List Nat} {j k l : Nat} (h : IdxBefore ds j k) (h' : IdxBefore ds k l) :
    IdxBefore ds j l := by
  unfold IdxBefore at *; omega

theorem insertIdx_perm (ds : List Nat) (i d : Nat) : ∀ li, (insertIdx ds i d li).Perm (i :: li)
  | [] => .refl _
  | j :: li => by
    unfold insertIdx
    split_ifs
    · exact .refl _
    · exact ((insertIdx_perm ds i d li).cons j).trans (.swap i j li)

theorem insertIdx_sorted (ds : List Nat) (i : Nat) : ∀ li : List Nat, (∀ j ∈ li, j < i) →
    li.Pairwise (IdxBefore ds) → (insertIdx ds i (ds.getD i 0) li).Pairwise (IdxBefore ds)
  | [], _, _ => List.pairwise_singleton _ i
  | j :: li, hi, hs => by
    rw [List.pairwise_cons] at hs
    unfold insertIdx
    split_ifs with hd
    · have hij : IdxBefore ds i j := .inl hd
      exact List.pairwise_cons.mpr ⟨List.forall_mem_cons.mpr ⟨hij, fun k hk => hij.trans (hs.1 k hk)⟩,
        List.pairwise_cons.mpr hs⟩
    · have hji : IdxBefore ds j i := by
        have := hi j (List.mem_cons_self j li); unfold IdxBefore; omega
      refine List.pairwise_cons.mpr ⟨fun k hk => ?_, insertIdx_sorted ds i li
        (fun k hk => hi k (List.mem_cons_of_mem j hk)) hs.2⟩
      rcases List.mem_cons.mp ((insertIdx_perm ds i _ li).mem_iff.mp hk) with rfl | hk
      · exact hji
      · exact hs.1 k hk

theorem foldl_insertIdx (ds : List Nat) : ∀ (l : List (Nat × Nat)) (li : List Nat),
    (∀ p ∈ l, p.2 = ds.getD p.1 0) → (l.map Prod.fst).Pairwise (· < ·) →
      (∀ j ∈ li, ∀ p ∈ l, j < p.1) → li.Pairwise (IdxBefore ds) →
      let r := l.foldl (fun li (i, d) => insertIdx ds i d li) li
      r.Pairwise (IdxBefore ds) ∧ r.Perm (li ++ l.map Prod.fst)
  | [], li, _, _, _, hs => ⟨hs, by simp⟩
  | (i, d) :: l, li, hd, hl, hlt, hs => by
    have hd' : d = ds.getD i 0 := hd (i, d) (List.mem_cons_self _ _)
    subst hd'
    rw [List.map_cons, List.pairwise_cons] at hl
    have ih := foldl_insertIdx ds l (insertIdx ds i (ds.getD i 0) li)
      (fun p hp => hd p (List.mem_cons_of_mem _ hp)) hl.2
      (fun j hj p hp => by
        rcases List.mem_cons.mp ((insertIdx_perm ds i _ li).mem_iff.mp hj) with rfl | hj
        · exact hl.1 p.1 (List.mem_map_of_mem _ hp)
        · exact hlt j hj p (List.mem_cons_of_mem _ hp))
      (insertIdx_sorted ds i li (fun j hj => hlt j hj _ (List.mem_cons_self _ _)) hs)
    refine ⟨ih.1, ih.2.trans ?_⟩
    exact ((insertIdx_perm ds i _ li).append_right _).trans List.perm_middle.symm

/-- **The first pass of `rutMgrSortPeer` computes the stable order**: `sortIdx ds` lists every
index of `ds` once, by distance, and by index among equal distances. -/
theorem sortIdx_stable (ds : List Nat) :
    (sortIdx ds).Pairwise (IdxBefore ds) ∧ (sortIdx ds).Perm (List.range ds.length) := by
  have hd : ∀ p ∈ ds.enum, p.2 = ds.getD p.1 0 := fun p hp => by
    rw [List.getD_eq_getElem?_getD, List.mem_enum_iff_getElem?.mp hp]
    rfl
  simpa [List.enum_map_fst] using foldl_insertIdx ds ds.enum [] hd
    (by simp [List.enum_map_fst, List.pairwise_lt_range]) (by simp) List.Pairwise.nil

/-- **The second pass undoes a transposition**: for every two entries, `rutMgrSortPeer` returns
its input unchanged, also when the second distance is the smaller. -/
theorem rutMgrSortPeer_pair (p q : RutMgrBucketNode) (d e : Nat) :
    rutMgrSortPeer [p, q] [d, e] = ([p, q], [d, e]) := by
  by_cases h : e < d <;> simp [rutMgrSortPeer, sortIdx, insertIdx, List.enum, List.enumFrom, swapLoop, swap, h]

/-! ### The scan -/

/-- The distance of an entry to the target hash `ht`, as `addClosest` computes it. -/
def distTo (ht : Hash) (p : RutMgrBucketNode) : Nat := rutMgrLog2Dist ht p.hash

/-- The closure `addClosest(bk)`, entered with fewer than `size` peers collected: it appends each
entry of the bucket and its distance to the target, and stops once `size` are collected. -/
def addClosest (ht : Hash) (size : Nat) :
    List RutMgrBucketNode → List RutMgrBucketNode × List Nat → List RutMgrBucketNode × List Nat
  | [], acc => acc
  | peer :: bk, (nearest, nearestDist) =>
    let acc := (nearest ++ [peer], nearestDist ++ [distTo ht peer])
    if size ≤ acc.1.length then acc else addClosest ht size bk acc

/-- The three loops of `rutMgrNearest` over the buckets `order`, each stopping once `size` peers
are collected. -/
def scan (rt : RutMgrRouteTable) (ht : Hash) (size : Nat) :
    List Nat → List RutMgrBucketNode × List Nat → List RutMgrBucketNode × List Nat
  | [], acc => acc
  | i :: order, acc =>
    let acc := addClosest ht size (rt.bucket i) acc
    if size ≤ acc.1.length then acc else scan rt ht size order acc

/-- The buckets in the order `rutMgrNearest` visits them: `dt`, then `dt + 1` up to the tail, then
`dt - 1` down to `0`. -/
def scanOrder (dt len : Nat) : List Nat :=
  dt :: List.range' (dt + 1) (len - (dt + 1)) ++ (List.range dt).reverse

/-- `rutMgrNearest(target, size)`: the result code, the peers and their distances. -/
def rutMgrNearest (rt : RutMgrRouteTable) (target : NodeID) (size : Int) :
    Run (DhtErrno × List RutMgrBucketNode × List Nat) :=
  let ht := rutMgrNodeId2Hash target
  let dt := rutMgrLog2Dist rt.shaLocal ht
  if size ≤ 0 ∨ size > rutMgrMaxNearest then .ret (.parameter, [], [])
  else if rt.bucketTab.length ≤ dt then .panic
  else
    let (nearest, nearestDist) := scan rt ht size.toNat (scanOrder dt rt.bucketTab.length) ([], [])
    if nearest.length > 0 then .ret (.none, rutMgrSortPeer nearest nearestDist)
    else .ret (.none, nearest, nearestDist)

/-- The entries met by a scan over `order`, front to back. -/
def scanEntries (rt : RutMgrRouteTable) (order : List Nat) : List RutMgrBucketNode :=
  order.flatMap rt.bucket

/-- `addClosest` appends the first entries of the bucket, up to `size` peers in all. -/
theorem addClosest_eq (ht : Hash) (size : Nat) :
    ∀ (bk nearest : List RutMgrBucketNode), nearest.length < size →
      let r := nearest ++ bk.take (size - nearest.length)
      addClosest ht size bk (nearest, nearest.map (distTo ht)) = (r, r.map (distTo ht))
  | [], nearest, _ => by simp [addClosest]
  | peer :: bk, nearest, hlt => by
    have hk : size - nearest.length = size - (nearest.length + 1) + 1 := by omega
    have hd : nearest.map (distTo ht) ++ [distTo ht peer] = (nearest ++ [peer]).map (distTo ht) := by
      simp
    simp only [addClosest, List.length_append, List.length_singleton, hd]
    split_ifs with hs
    · have h1 : size - nearest.length = 1 := by omega
      simp [h1]
    · rw [addClosest_eq ht size bk _ (by simpa using hs), hk]
      simp

/-- **The scan takes the first `size` entries it meets**, each with its distance to the target. -/
theorem scan_eq (rt : RutMgrRouteTable) (ht : Hash) (size : Nat) :
    ∀ (order : List Nat) (nearest : List RutMgrBucketNode), nearest.length < size →
      let r := nearest ++ (scanEntries rt order).take (size - nearest.length)
      scan rt ht size order (nearest, nearest.map (distTo ht)) = (r, r.map (distTo ht))
  | [], nearest, _ => by simp [scan, scanEntries]
  | i :: order, nearest, hlt => by
    simp only [scan, addClosest_eq ht size _ _ hlt, scanEntries, List.flatMap_cons,
      List.take_append_eq_append_take, List.length_append, List.length_take]
    split_ifs with hs
    · have h0 : size - nearest.length - (rt.bucket i).length = 0 := by omega
      simp [h0]
    · have hb : (rt.bucket i).length < size - nearest.length := by omega
      rw [scan_eq rt ht size order _ (by simp; omega), List.take_of_length_le (by omega)]
      simp only [List.append_assoc, List.length_append, scanEntries, Nat.sub_sub]

/-- The scan visits every bucket once. -/
theorem scanOrder_perm (dt len : Nat) (h : dt < len) : (scanOrder dt len).Perm (List.range len) := by
  have hr : List.range len = List.range dt ++ (dt :: List.range' (dt + 1) (len - (dt + 1))) := by
    obtain ⟨k, rfl⟩ : ∃ k, len = k + 1 + dt := ⟨len - (dt + 1), by omega⟩
    rw [show k + 1 + dt - (dt + 1) = k by omega, List.range_eq_range', List.range_eq_range',
      ← List.range'_succ, ← List.range'_append_1, Nat.zero_add]
  rw [hr]
  exact ((List.reverse_perm _).append_left _).trans List.perm_append_comm

theorem scanEntries_perm (rt : RutMgrRouteTable) (dt : Nat) (h : dt < rt.bucketTab.length) :
    (scanEntries rt (scanOrder dt rt.bucketTab.length)).Perm rt.entries := by
  rw [← rt.flatMap_bucket_range]
  exact (scanOrder_perm dt _ h).flatMap_right _

/-- A successful `rutMgrNearest` found bucket `dt` in the table, and returns the first `size`
entries of its scan in some order, each with its distance to the target. -/
theorem rutMgrNearest_ret (rt : RutMgrRouteTable) (target : NodeID) (size : Int)
    (ps : List RutMgrBucketNode) (ds : List Nat)
    (h : rutMgrNearest rt target size = .ret (.none, ps, ds)) :
    rutMgrLog2Dist rt.shaLocal (rutMgrNodeId2Hash target) < rt.bucketTab.length ∧
      ps.Perm ((scanEntries rt (scanOrder (rutMgrLog2Dist rt.shaLocal (rutMgrNodeId2Hash target))
        rt.bucketTab.length)).take size.toNat) ∧
      ds = ps.map (distTo (rutMgrNodeId2Hash target)) := by
  unfold rutMgrNearest at h
  dsimp only at h
  generalize rutMgrNodeId2Hash target = ht at h ⊢
  generalize rutMgrLog2Dist rt.shaLocal ht = dt at h ⊢
  by_cases h1 : size ≤ 0 ∨ size > rutMgrMaxNearest
  · rw [if_pos h1] at h; cases h
  by_cases h2 : rt.bucketTab.length ≤ dt
  · rw [if_neg h1, if_pos h2] at h; cases h
  have hs := scan_eq rt ht size.toNat (scanOrder dt rt.bucketTab.length) [] (by simp; omega)
  simp only [List.map_nil, List.nil_append, List.length_nil, Nat.sub_zero] at hs
  rw [if_neg h1, if_neg h2, hs] at h
  refine ⟨by omega, ?_⟩
  by_cases h3 : ((scanEntries rt (scanOrder dt rt.bucketTab.length)).take size.toNat).length > 0
  · rw [if_pos h3] at h
    obtain ⟨hd, hp⟩ := rutMgrSortPeer_perm (distTo ht)
      ((scanEntries rt (scanOrder dt rt.bucketTab.length)).take size.toNat)
    simp only [Run.ret.injEq, Prod.mk.injEq, true_and] at h
    rw [h] at hd hp
    exact ⟨hp, hd⟩
  · rw [if_neg h3] at h
    cases h
    exact ⟨List.Perm.refl _, rfl⟩

/-- **What a successful `rutMgrNearest` returns**: a permutation of the first `size` entries its
scan meets, each with its distance to the target beside it; when no identity is stored twice,
these are `min(size, N)` distinct entries of the table. -/
theorem rutMgrNearest_returns_scan_prefix (rt : RutMgrRouteTable) (target : NodeID) (size : Int)
    (ps : List RutMgrBucketNode) (ds : List Nat) (hid : rt.NoDupIds)
    (h : rutMgrNearest rt target size = .ret (.none, ps, ds)) :
    ps.Perm ((scanEntries rt (scanOrder (rutMgrLog2Dist rt.shaLocal (rutMgrNodeId2Hash target))
        rt.bucketTab.length)).take size.toNat) ∧
      ds = ps.map (distTo (rutMgrNodeId2Hash target)) ∧
      ps.length = min size.toNat rt.entries.length ∧ ps.Nodup ∧ ∀ p ∈ ps, p ∈ rt.entries := by
  obtain ⟨hdt, hp, hd⟩ := rutMgrNearest_ret rt target size ps ds h
  have he := scanEntries_perm rt _ hdt
  have hn := he.nodup_iff.mpr (List.Nodup.of_map (fun e : RutMgrBucketNode => e.node.ID) hid)
  refine ⟨hp, hd, by rw [hp.length_eq, List.length_take, he.length_eq], ?_, ?_⟩
  · exact hp.nodup_iff.mpr (hn.sublist (List.take_sublist _ _))
  · exact fun p hp' => he.subset (List.take_subset _ _ (hp.subset hp'))

/-! ### An entry in front of the target -/

/-- A table of `n` empty buckets, then a tail bucket holding `a` in front of `b`. -/
def frontTable (sha : Hash) (n : Nat) (a b : RutMgrBucketNode) : RutMgrRouteTable :=
  ⟨sha, rutMgrBucketSize, List.replicate n [] ++ [[a, b]], ∅, rutMgrMaxLatency⟩

theorem getD_replicate_nil_append {α : Type} (n i : Nat) (b : List α) :
    (List.replicate n [] ++ [b]).getD i [] = if i = n then b else [] := by
  rw [List.getD_eq_getElem?_getD, List.getElem?_append, List.length_replicate]
  split_ifs with h1 h2 h2
  · omega
  · simp [List.getElem?_replicate, h1]
  · simp [h2]
  · rw [List.getElem?_eq_none (by simp; omega)]
    rfl

section FrontTable

variable (sha : Hash) (n : Nat) (a b : RutMgrBucketNode)

theorem frontTable_bucket (i : Nat) : (frontTable sha n a b).bucket i = if i = n then [a, b] else [] :=
  getD_replicate_nil_append _ _ _

theorem frontTable_length : (frontTable sha n a b).bucketTab.length = n + 1 := by
  simp [frontTable]

theorem frontTable_entries : (frontTable sha n a b).entries = [a, b] := by
  simp [entries, frontTable]

theorem frontTable_wellFormed (ha : (frontTable sha n a b).EntryOk a)
    (hb : (frontTable sha n a b).EntryOk b) (hna : n ≤ a.dist) (hnb : n ≤ b.dist) :
    (frontTable sha n a b).WellFormed where
  nonempty := by simp [frontTable_length]
  entry i e he := by
    rw [frontTable_bucket] at he
    split_ifs at he
    · rcases List.mem_pair.mp he with rfl | rfl
      exacts [ha, hb]
    · simp at he
  nonTail i e hi he := by
    rw [frontTable_bucket, if_neg (by simp [tailIdx, frontTable_length] at hi; omega)] at he
    simp at he
  tail e he := by
    have ht : (frontTable sha n a b).tailIdx = n := by simp [tailIdx, frontTable_length]
    rw [ht, frontTable_bucket, if_pos rfl] at he
    rw [ht]
    rcases List.mem_pair.mp he with rfl | rfl
    exacts [hna, hnb]
  size i := by
    rw [frontTable_bucket]
    split_ifs <;> simp [frontTable, rutMgrBucketSize]

/-- Asked for one peer near a target of distance `n`, `rutMgrNearest` takes the front entry `a` of
bucket `n`. -/
theorem rutMgrNearest_frontTable (target : NodeID) (hn : rutMgrLog2Dist sha (rutMgrNodeId2Hash target) = n) :
    rutMgrNearest (frontTable sha n a b) target 1 =
      .ret (.none, [a], [distTo (rutMgrNodeId2Hash target) a]) := by
  have hdt : rutMgrLog2Dist (frontTable sha n a b).shaLocal (rutMgrNodeId2Hash target) = n := hn
  have htake : (scanEntries (frontTable sha n a b) (scanOrder n (n + 1))).take 1 = [a] := by
    simp only [scanEntries, scanOrder, List.cons_append, List.flatMap_cons, frontTable_bucket, if_pos]
    rfl
  have hs := scan_eq (frontTable sha n a b) (rutMgrNodeId2Hash target) 1 (scanOrder n (n + 1)) []
    (by decide)
  simp only [List.map_nil, List.nil_append, List.length_nil, Nat.sub_zero, htake] at hs
  have h1 : Int.toNat 1 = 1 := rfl
  unfold rutMgrNearest
  simp only [hdt, frontTable_length, h1, hs]
  rw [if_neg (by decide), if_neg (by omega), if_pos (by simp)]
  rfl

end FrontTable

/-- The local node's own entry, as `updateReq` would build it. -/
def localNode : RutMgrBucketNode :=
  ⟨Node.ofId localId, rutMgrNodeId2Hash localId,
    rutMgrLog2Dist (rutMgrNodeId2Hash localId) (rutMgrNodeId2Hash localId)⟩

/-- Empty buckets below the peer's distance, then a tail bucket holding the local node's entry in
front of the peer's. -/
def frontLocalTable : RutMgrRouteTable :=
  frontTable (rutMgrNodeId2Hash localId) peerNode.dist localNode peerNode

theorem localId_ne_peerId : localId ≠ peerId := by decide

set_option maxRecDepth 20000 in
/-- The digests of the two identities differ. -/
theorem localId_hash_ne : rutMgrNodeId2Hash localId ≠ rutMgrNodeId2Hash peerId := by
  unfold rutMgrNodeId2Hash
  decide

theorem frontLocalTable_wellFormed : frontLocalTable.WellFormed :=
  frontTable_wellFormed _ _ _ _ ⟨rfl, rfl⟩ ⟨rfl, rfl⟩
    ((rutMgrLog2Dist_le _ _).trans (rutMgrLog2Dist_self _).ge) le_rfl

theorem frontLocalTable_noDupIds : frontLocalTable.NoDupIds := by
  simp only [NoDupIds, frontLocalTable, frontTable_entries, List.map_cons, List.map_nil,
    List.nodup_cons, List.mem_singleton, List.not_mem_nil, not_false_eq_true, List.nodup_nil, and_true]
  exact localId_ne_peerId

theorem rutMgrNearest_frontLocalTable :
    rutMgrNearest frontLocalTable peerId 1 =
      .ret (.none, [localNode], [distTo (rutMgrNodeId2Hash peerId) localNode]) :=
  rutMgrNearest_frontTable _ _ _ _ peerId rfl

/-- **`rutMgrNearest` does not return the closest peers first**: in a well-formed table whose
tail bucket holds the local node's entry in front of a peer's, asked for one peer near that peer,
it returns the local node's entry and leaves out the peer's own, which is closer. -/
theorem rutMgrNearest_closest_first :
    ¬ ∀ (rt : RutMgrRouteTable) (target : NodeID) (size : Int) (ps : List RutMgrBucketNode)
        (ds : List Nat), rt.WellFormed → rt.NoDupIds → 1 ≤ size → size ≤ 32 →
        rutMgrNearest rt target size = .ret (.none, ps, ds) →
        ps.length = min size.toNat rt.entries.length ∧ ps.Nodup ∧ (∀ p ∈ ps, p ∈ rt.entries) ∧
        ds = ps.map (distTo (rutMgrNodeId2Hash target)) ∧ ds.Pairwise (· ≥ ·) ∧
        ∀ e ∈ rt.entries, e ∉ ps → ∀ p ∈ ps,
          distTo (rutMgrNodeId2Hash target) e ≤ distTo (rutMgrNodeId2Hash target) p := by
  intro hall
  obtain ⟨-, -, -, -, -, hfar⟩ := hall frontLocalTable peerId 1 _ _ frontLocalTable_wellFormed
    frontLocalTable_noDupIds (by decide) (by decide) rutMgrNearest_frontLocalTable
  have hne : peerNode ∉ [localNode] := fun h =>
    localId_ne_peerId (congrArg (fun e : RutMgrBucketNode => e.node.ID) (List.mem_singleton.mp h)).symm
  have hle := hfar peerNode (by simp [frontLocalTable, frontTable_entries]) hne localNode
    (List.mem_singleton_self _)
  have h256 : distTo (rutMgrNodeId2Hash peerId) peerNode = 256 := rutMgrLog2Dist_self _
  have hlt : distTo (rutMgrNodeId2Hash peerId) localNode < 256 :=
    lt_of_le_of_ne (rutMgrLog2Dist_le _ _)
      fun h => localId_hash_ne ((rutMgrLog2Dist_eq_256_iff _ _).mp h).symm
  omega

/-- `rutMgrNearest_returns_scan_prefix` on the table above. -/
theorem rutMgrNearest_returns_scan_prefix_frontLocalTable :
    frontLocalTable.NoDupIds ∧
      rutMgrNearest frontLocalTable peerId 1 =
        .ret (.none, [localNode], [distTo (rutMgrNodeId2Hash peerId) localNode]) ∧
      [localNode].Perm ((scanEntries frontLocalTable
        (scanOrder (rutMgrLog2Dist frontLocalTable.shaLocal (rutMgrNodeId2Hash peerId))
          frontLocalTable.bucketTab.length)).take (1 : Int).toNat) ∧
      [distTo (rutMgrNodeId2Hash peerId) localNode] =
        [localNode].map (distTo (rutMgrNodeId2Hash peerId)) ∧
      [localNode].length = min (1 : Int).toNat frontLocalTable.entries.length ∧ [localNode].Nodup ∧
      ∀ p ∈ [localNode], p ∈ frontLocalTable.entries :=
  ⟨frontLocalTable_noDupIds, rutMgrNearest_frontLocalTable,
    rutMgrNearest_returns_scan_prefix _ _ _ _ _ frontLocalTable_noDupIds rutMgrNearest_frontLocalTable⟩

end Gyee.Dht.Nearest
