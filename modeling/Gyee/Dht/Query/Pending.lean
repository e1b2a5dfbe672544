import Gyee.Dht.Query.Basic

/-! # The pending queue and the result list

`qryMgrQcbPutPending` walks the queue for each new node: it stops at an entry of the same node, or
inserts the node before the first entry farther than it, or pushes it to the back; then it cuts the
queue to `size`. The same-node check only sees the entries in front of the insertion point, so the
queue holds each node once only because the queue is ordered by distance and a node's distance is
a function of its identity: an entry of the same node behind the insertion point would be farther
than the node itself.

The main results: `insertPending_ok` (one insertion keeps the queue `PendingOk`),
`qryMgrQcbPutPending_ok` (so does the whole call), and `qryMgrQcbPutPending_stable`: the call cuts
to `size` the stable sort by distance of the queue followed by the batch's new nodes. The last is
proved one distance at a time: a node goes behind every entry of its distance
(`filter_insertPending`), as a stable sort keeps them (`filter_mergeSort_dist`), and two ordered
queues that agree at every distance are equal (`eq_of_filter_dist_eq`). -/

namespace Gyee.Dht.Query

open Gyee Gyee.Dht.RouteTable

/-- The node identity of a pending entry. -/
def QryPendingInfo.nodeId (x : QryPendingInfo) : NodeID := x.bn.node.ID

/-- The loop of `qcbUpdateResult`: `qri` goes before the first entry farther than it, or to the
back. -/
def insertResult (qri : QryResultInfo) : List QryResultInfo → List QryResultInfo
  | [] => [qri]
  | v :: li => if qri.dist < v.dist then qri :: v :: li else v :: insertResult qri li

/-- `qcb.qcbUpdateResult(qri)`. -/
def QryCtrlBlock.qcbUpdateResult (qcb : QryCtrlBlock) (qri : QryResultInfo) : QryCtrlBlock :=
  { qcb with qryResult := insertResult qri qcb.qryResult }

/-- The scan of `qryMgrQcbPutPending` for one node `n`. -/
def insertPending (n : QryPendingInfo) : List QryPendingInfo → List QryPendingInfo
  | [] => [n]
  | v :: li =>
    if v.nodeId = n.nodeId then v :: li
    else if n.bn.dist < v.bn.dist then n :: v :: li
    else v :: insertPending n li

/-- The loop of `qryMgrQcbPutPending` over `nodes`: a node of the history is skipped. -/
def putPendingLoop (history : GoMap NodeID QryPendingInfo) :
    List QryPendingInfo → List QryPendingInfo → List QryPendingInfo
  | li, [] => li
  | li, n :: nodes =>
    putPendingLoop history (if history.contains n.nodeId then li else insertPending n li) nodes

/-- `qcb.qryMgrQcbPutPending(nodes, size)`: the queue cut to `size` after the insertions. -/
def QryCtrlBlock.qryMgrQcbPutPending (qcb : QryCtrlBlock) (nodes : List QryPendingInfo)
    (size : Nat) : QryCtrlBlock × DhtErrno :=
  if nodes.length = 0 ∨ size = 0 then (qcb, .parameter)
  else ({ qcb with qryPending := (putPendingLoop qcb.qryHistory qcb.qryPending nodes).take size },
    .none)

/-- `qryMgrQcbPutPending` only writes the pending queue. -/
theorem QryCtrlBlock.qryMgrQcbPutPending_eq (qcb : QryCtrlBlock) (nodes : List QryPendingInfo)
    (size : Nat) : ∃ l, (qcb.qryMgrQcbPutPending nodes size).1 = { qcb with qryPending := l } := by
  unfold QryCtrlBlock.qryMgrQcbPutPending
  split_ifs
  · exact ⟨qcb.qryPending, rfl⟩
  · exact ⟨_, rfl⟩

/-- **A well-kept pending queue**: ordered by distance, each node once, no node of the history,
and every entry at the distance `distOf` gives its node. -/
structure PendingOk (distOf : NodeID → Nat) (history : GoMap NodeID QryPendingInfo)
    (li : List QryPendingInfo) : Prop where
  sorted : li.Pairwise (fun a b => a.bn.dist ≤ b.bn.dist)
  nodup : (li.map QryPendingInfo.nodeId).Nodup
  fresh : ∀ x ∈ li, history.contains x.nodeId = false
  dist : ∀ x ∈ li, x.bn.dist = distOf x.nodeId

theorem mem_insertPending (n x : QryPendingInfo) :
    ∀ li, x ∈ insertPending n li → x = n ∨ x ∈ li
  | [], h => .inl (List.mem_singleton.mp h)
  | v :: li, h => by
    unfold insertPending at h
    split_ifs at h
    · exact .inr h
    · rcases List.mem_cons.mp h with h | h
      · exact .inl h
      · exact .inr h
    · rcases List.mem_cons.mp h with h | h
      · exact .inr (h ▸ List.mem_cons_self _ _)
      · exact (mem_insertPending n x li h).imp_right (List.mem_cons_of_mem _)

theorem insertPending_sorted (n : QryPendingInfo) :
    ∀ li : List QryPendingInfo, li.Pairwise (fun a b => a.bn.dist ≤ b.bn.dist) →
      (insertPending n li).Pairwise (fun a b => a.bn.dist ≤ b.bn.dist)
  | [], _ => List.pairwise_singleton _ _
  | v :: li, h => by
    rw [List.pairwise_cons] at h
    unfold insertPending
    split_ifs with h1 h2
    · exact List.pairwise_cons.mpr h
    · refine List.pairwise_cons.mpr ⟨fun x hx => ?_, List.pairwise_cons.mpr h⟩
      rcases List.mem_cons.mp hx with rfl | hx
      · exact Nat.le_of_lt h2
      · exact Nat.le_trans (Nat.le_of_lt h2) (h.1 x hx)
    · refine List.pairwise_cons.mpr ⟨fun x hx => ?_, insertPending_sorted n li h.2⟩
      rcases mem_insertPending n x li hx with rfl | hx
      · exact Nat.le_of_not_lt h2
      · exact h.1 x hx

theorem insertPending_nodup (distOf : NodeID → Nat) (n : QryPendingInfo)
    (hn : n.bn.dist = distOf n.nodeId) :
    ∀ li : List QryPendingInfo, li.Pairwise (fun a b => a.bn.dist ≤ b.bn.dist) →
      (li.map QryPendingInfo.nodeId).Nodup → (∀ x ∈ li, x.bn.dist = distOf x.nodeId) →
      ((insertPending n li).map QryPendingInfo.nodeId).Nodup
  | [], _, _, _ => List.nodup_singleton _
  | v :: li, hs, hd, hdist => by
    rw [List.pairwise_cons] at hs
    rw [List.map_cons, List.nodup_cons] at hd
    unfold insertPending
    split_ifs with h1 h2
    · exact List.nodup_cons.mpr hd
    · refine List.nodup_cons.mpr ⟨fun hm => ?_, List.nodup_cons.mpr hd⟩
      obtain ⟨x, hx, hxn⟩ := List.mem_map.mp hm
      rcases List.mem_cons.mp hx with rfl | hx
      · exact h1 hxn
      · have := hs.1 x hx
        have := hdist x (List.mem_cons_of_mem _ hx)
        rw [hxn, ← hn] at this
        omega
    · refine List.nodup_cons.mpr ⟨fun hm => ?_,
        insertPending_nodup distOf n hn li hs.2 hd.2 fun x hx => hdist x (List.mem_cons_of_mem _ hx)⟩
      obtain ⟨x, hx, hxv⟩ := List.mem_map.mp hm
      rcases mem_insertPending n x li hx with rfl | hx
      · exact h1 hxv.symm
      · exact hd.1 (hxv ▸ List.mem_map_of_mem _ hx)

/-- **One insertion keeps the queue well kept**, for a node outside the history at the distance
`distOf` gives it. -/
theorem insertPending_ok {distOf : NodeID → Nat} {history : GoMap NodeID QryPendingInfo}
    {li : List QryPendingInfo} (h : PendingOk distOf history li) (n : QryPendingInfo)
    (hfresh : history.contains n.nodeId = false) (hn : n.bn.dist = distOf n.nodeId) :
    PendingOk distOf history (insertPending n li) where
  sorted := insertPending_sorted n li h.sorted
  nodup := insertPending_nodup distOf n hn li h.sorted h.nodup h.dist
  fresh x hx := (mem_insertPending n x li hx).elim (fun e => e ▸ hfresh) (h.fresh x)
  dist x hx := (mem_insertPending n x li hx).elim (fun e => e ▸ hn) (h.dist x)

theorem putPendingLoop_ok {distOf : NodeID → Nat} {history : GoMap NodeID QryPendingInfo} :
    ∀ (li nodes : List QryPendingInfo), PendingOk distOf history li →
      (∀ n ∈ nodes, n.bn.dist = distOf n.nodeId) →
      PendingOk distOf history (putPendingLoop history li nodes)
  | li, [], h, _ => h
  | li, n :: nodes, h, hn => by
    refine putPendingLoop_ok _ nodes ?_ fun m hm => hn m (List.mem_cons_of_mem _ hm)
    split_ifs with hc
    · exact h
    · exact insertPending_ok h n (by simpa using hc) (hn n (List.mem_cons_self _ _))

theorem PendingOk.take {distOf : NodeID → Nat} {history : GoMap NodeID QryPendingInfo}
    {li : List QryPendingInfo} (h : PendingOk distOf history li) (k : Nat) :
    PendingOk distOf history (li.take k) where
  sorted := h.sorted.sublist (List.take_sublist _ _)
  nodup := h.nodup.sublist ((List.take_sublist _ _).map _)
  fresh x hx := h.fresh x (List.mem_of_mem_take hx)
  dist x hx := h.dist x (List.mem_of_mem_take hx)

theorem PendingOk.drop {distOf : NodeID → Nat} {history : GoMap NodeID QryPendingInfo}
    {li : List QryPendingInfo} (h : PendingOk distOf history li) (k : Nat) :
    PendingOk distOf history (li.drop k) where
  sorted := h.sorted.sublist (List.drop_sublist _ _)
  nodup := h.nodup.sublist ((List.drop_sublist _ _).map _)
  fresh x hx := h.fresh x (List.mem_of_mem_drop hx)
  dist x hx := h.dist x (List.mem_of_mem_drop hx)

/-- **`qryMgrQcbPutPending` keeps the queue well kept** and no longer than `size`. -/
theorem qryMgrQcbPutPending_ok {distOf : NodeID → Nat} (qcb : QryCtrlBlock)
    (nodes : List QryPendingInfo) (size : Nat) (h : PendingOk distOf qcb.qryHistory qcb.qryPending)
    (hn : ∀ n ∈ nodes, n.bn.dist = distOf n.nodeId) :
    let r := qcb.qryMgrQcbPutPending nodes size
    PendingOk distOf r.1.qryHistory r.1.qryPending ∧
      (r.2 = .none → r.1.qryPending.length ≤ size) := by
  unfold QryCtrlBlock.qryMgrQcbPutPending
  split_ifs
  · exact ⟨h, nofun⟩
  · exact ⟨(putPendingLoop_ok _ _ h hn).take size, fun _ => List.length_take_le _ _⟩

/-! ### The queue as a stable sort -/

/-- The nodes of a batch that join the queue, as the stable-sort reading of `qryMgrQcbPutPending`
names them: each node whose identity is neither in the history nor among `seen`, the queue's
identities and those of the batch's earlier nodes. -/
def freshBatch (history : GoMap NodeID QryPendingInfo) :
    List NodeID → List QryPendingInfo → List QryPendingInfo
  | _, [] => []
  | seen, n :: batch =>
    if history.contains n.nodeId ∨ n.nodeId ∈ seen then freshBatch history (n.nodeId :: seen) batch
    else n :: freshBatch history (n.nodeId :: seen) batch

/-- The order of pending entries by distance. -/
def distLE (a b : QryPendingInfo) : Bool := a.bn.dist ≤ b.bn.dist

/-- The queue after `qryMgrQcbPutPending(batch, size)` as a stable sort: the first `size` entries
of the queue followed by its fresh batch nodes, sorted by distance with ties in that order. -/
def pendingSpec (history : GoMap NodeID QryPendingInfo) (li batch : List QryPendingInfo)
    (size : Nat) : List QryPendingInfo :=
  ((li ++ freshBatch history (li.map QryPendingInfo.nodeId) batch).mergeSort distLE).take size

theorem distLE_trans (a b c : QryPendingInfo) : distLE a b → distLE b c → distLE a c := by
  simp only [distLE, decide_eq_true_eq]
  exact Nat.le_trans

theorem distLE_total (a b : QryPendingInfo) : distLE a b || distLE b a := by
  simp only [distLE, Bool.or_eq_true, decide_eq_true_eq]
  exact Nat.le_total _ _

/-- Two queues ordered by distance are equal when they agree at every distance. -/
theorem eq_of_filter_dist_eq :
    ∀ {s t : List QryPendingInfo}, s.Pairwise (fun a b => a.bn.dist ≤ b.bn.dist) →
      t.Pairwise (fun a b => a.bn.dist ≤ b.bn.dist) →
      (∀ d, s.filter (·.bn.dist = d) = t.filter (·.bn.dist = d)) → s = t
  | [], [], _, _, _ => rfl
  | [], b :: t, _, _, h => by simpa using h b.bn.dist
  | a :: s, [], _, _, h => by simpa using h a.bn.dist
  | a :: s, b :: t, hs, ht, h => by
    rw [List.pairwise_cons] at hs ht
    have ha : a ∈ b :: t := List.mem_of_mem_filter (p := (·.bn.dist = a.bn.dist))
      (h a.bn.dist ▸ List.mem_filter.mpr ⟨List.mem_cons_self _ _, by simp⟩)
    have hb : b ∈ a :: s := List.mem_of_mem_filter (p := (·.bn.dist = b.bn.dist))
      ((h b.bn.dist).symm ▸ List.mem_filter.mpr ⟨List.mem_cons_self _ _, by simp⟩)
    have hab : a.bn.dist = b.bn.dist := by
      rcases List.mem_cons.mp ha with rfl | ha
      · rfl
      rcases List.mem_cons.mp hb with rfl | hb
      · rfl
      exact Nat.le_antisymm (hs.1 b hb) (ht.1 a ha)
    have hd := h a.bn.dist
    rw [List.filter_cons_of_pos (by simp), List.filter_cons_of_pos (by simp [hab])] at hd
    obtain ⟨rfl, -⟩ := List.cons.inj hd
    refine congrArg _ (eq_of_filter_dist_eq hs.2 ht.2 fun d => ?_)
    have hd' := h d
    simp only [List.filter_cons] at hd'
    split_ifs at hd'
    · exact (List.cons.inj hd').2
    · exact hd'

/-- The stable sort keeps the entries of each distance in their order. -/
theorem filter_mergeSort_dist (l : List QryPendingInfo) (d : Nat) :
    (l.mergeSort distLE).filter (·.bn.dist = d) = l.filter (·.bn.dist = d) := by
  have hpw : (l.filter (·.bn.dist = d)).Pairwise (fun a b => distLE a b) :=
    List.pairwise_of_forall_mem_list fun a ha b hb => by
      simp only [List.mem_filter, decide_eq_true_eq] at ha hb
      simp [distLE, ha.2, hb.2]
  have hsub := (List.sublist_mergeSort distLE_trans distLE_total hpw
    (List.filter_sublist l)).filter (·.bn.dist = d)
  rw [List.filter_filter, List.filter_congr fun _ _ => Bool.and_self _] at hsub
  exact (hsub.eq_of_length ((List.mergeSort_perm l distLE).filter _).length_eq.symm).symm

/-- A node already in a well-ordered queue stays out: its entry is in front of the insertion
point, since its distance is its node's. -/
theorem insertPending_of_mem {distOf : NodeID → Nat} (n : QryPendingInfo)
    (hn : n.bn.dist = distOf n.nodeId) :
    ∀ li : List QryPendingInfo, li.Pairwise (fun a b => a.bn.dist ≤ b.bn.dist) →
      (∀ x ∈ li, x.bn.dist = distOf x.nodeId) → n.nodeId ∈ li.map QryPendingInfo.nodeId →
      insertPending n li = li
  | [], _, _, hm => absurd hm (List.not_mem_nil _)
  | v :: li, hs, hdist, hm => by
    rw [List.pairwise_cons] at hs
    unfold insertPending
    split_ifs with h1 h2
    · rfl
    · obtain ⟨x, hx, hxn⟩ := List.mem_map.mp hm
      rcases List.mem_cons.mp hx with rfl | hx
      · exact absurd hxn h1
      · have := hs.1 x hx
        have := hdist x (List.mem_cons_of_mem _ hx)
        rw [hxn, ← hn] at this
        omega
    · rw [insertPending_of_mem n hn li hs.2 (fun x hx => hdist x (List.mem_cons_of_mem _ hx))
        ((List.mem_cons.mp (List.map_cons .. ▸ hm)).resolve_left (Ne.symm h1))]

/-- A node new to a well-ordered queue goes behind every entry of its distance. -/
theorem filter_insertPending (n : QryPendingInfo) (d : Nat) :
    ∀ li : List QryPendingInfo, li.Pairwise (fun a b => a.bn.dist ≤ b.bn.dist) →
      (∀ x ∈ li, x.nodeId ≠ n.nodeId) →
      (insertPending n li).filter (·.bn.dist = d) = (li ++ [n]).filter (·.bn.dist = d)
  | [], _, _ => rfl
  | v :: li, hs, hno => by
    rw [List.pairwise_cons] at hs
    unfold insertPending
    rw [if_neg (hno v (List.mem_cons_self _ _))]
    split_ifs with hlt
    · have hnil : (v :: li).filter (·.bn.dist = n.bn.dist) = [] :=
        List.filter_eq_nil_iff.mpr fun x hx => by
          rcases List.mem_cons.mp hx with rfl | hx
          · simpa using Nat.ne_of_gt hlt
          · simpa using Nat.ne_of_gt (Nat.lt_of_lt_of_le hlt (hs.1 x hx))
      by_cases hd : n.bn.dist = d
      · subst hd
        rw [List.filter_cons_of_pos (by simp), List.filter_append, hnil]
        simp
      · rw [List.filter_cons_of_neg (by simpa using hd), List.filter_append]
        simp [hd]
    · rw [List.cons_append, List.filter_cons, List.filter_cons,
        filter_insertPending n d li hs.2 fun x hx => hno x (List.mem_cons_of_mem _ hx)]

/-- The loop of `qryMgrQcbPutPending` agrees at every distance with the queue followed by the fresh
batch nodes, while `seen` names, up to the history, the identities the queue holds. -/
theorem filter_putPendingLoop {distOf : NodeID → Nat} {history : GoMap NodeID QryPendingInfo}
    (d : Nat) : ∀ (batch li : List QryPendingInfo) (seen : List NodeID),
      PendingOk distOf history li → (∀ n ∈ batch, n.bn.dist = distOf n.nodeId) →
      (∀ id, history.contains id = true ∨ id ∈ seen ↔
        history.contains id = true ∨ id ∈ li.map QryPendingInfo.nodeId) →
      (putPendingLoop history li batch).filter (·.bn.dist = d) =
        (li ++ freshBatch history seen batch).filter (·.bn.dist = d)
  | [], li, _, _, _, _ => by simp [putPendingLoop, freshBatch]
  | n :: batch, li, seen, h, hn, hseen => by
    have hn' := fun m (hm : m ∈ batch) => hn m (List.mem_cons_of_mem _ hm)
    have hseen' : ∀ li' : List QryPendingInfo,
        (∀ id, id ∈ li'.map QryPendingInfo.nodeId ↔
          id ∈ li.map QryPendingInfo.nodeId ∨ (id = n.nodeId ∧ history.contains id = false)) →
        ∀ id, history.contains id = true ∨ id ∈ n.nodeId :: seen ↔
          history.contains id = true ∨ id ∈ li'.map QryPendingInfo.nodeId := fun li' hli id => by
      rw [List.mem_cons, hli, ← or_assoc, or_comm (a := history.contains id = true),
        or_assoc, hseen id]
      by_cases hid : id = n.nodeId <;> by_cases hc : history.contains id <;> simp_all
    unfold putPendingLoop freshBatch
    by_cases hc : history.contains n.nodeId
    · rw [if_pos hc, if_pos (Or.inl hc)]
      exact filter_putPendingLoop d batch li _ h hn' (hseen' li fun id => by simp_all)
    by_cases hs : n.nodeId ∈ seen
    · have hm : n.nodeId ∈ li.map QryPendingInfo.nodeId :=
        ((hseen n.nodeId).mp (.inr hs)).resolve_left hc
      rw [if_neg hc, if_pos (Or.inr hs),
        insertPending_of_mem n (hn n (List.mem_cons_self _ _)) li h.sorted h.dist hm]
      exact filter_putPendingLoop d batch li _ h hn'
        (hseen' li fun id => ⟨.inl, fun h' => h'.elim (fun x => x) fun he => he.1 ▸ hm⟩)
    · have hno : ∀ x ∈ li, x.nodeId ≠ n.nodeId := fun x hx he =>
        hs ((hseen n.nodeId).mpr (.inr (he ▸ List.mem_map_of_mem _ hx)) |>.resolve_left hc)
      have hins := fun d => filter_insertPending n d li h.sorted hno
      have hmem : ∀ x, x ∈ insertPending n li ↔ x ∈ li ++ [n] := fun x => by
        have hx := congrArg (x ∈ ·) (hins x.bn.dist)
        simpa using hx
      rw [if_neg hc, if_neg (by simp [hc, hs])]
      rw [filter_putPendingLoop d batch _ _
        (insertPending_ok h n (by simpa using hc) (hn n (List.mem_cons_self _ _))) hn'
        (hseen' _ fun id => by
          simp only [List.mem_map, hmem, List.mem_append, List.mem_singleton, or_and_right, exists_or,
            exists_eq_left]
          exact or_congr_right ⟨fun he => ⟨he.symm, he ▸ Bool.eq_false_iff.mpr hc⟩, fun he => he.1.symm⟩)]
      rw [List.filter_append, hins, ← List.filter_append, List.append_assoc, List.singleton_append]

/-- **`qryMgrQcbPutPending` is a stable sort cut to `size`**: from a well-kept queue, with a
non-empty batch whose distances are those of their nodes and a positive `size`, the queue becomes
the first `size` entries of the stable sort by distance of the queue followed by the batch nodes
new to the history, the queue and the batch's earlier nodes; so it is again well kept and at most
`size` long. -/
theorem qryMgrQcbPutPending_stable {distOf : NodeID → Nat} (qcb : QryCtrlBlock)
    (nodes : List QryPendingInfo) (size : Nat) (h : PendingOk distOf qcb.qryHistory qcb.qryPending)
    (hn : ∀ n ∈ nodes, n.bn.dist = distOf n.nodeId) (hsize : 0 < size) (hne : nodes ≠ []) :
    let r := (qcb.qryMgrQcbPutPending nodes size).1
    r.qryPending = pendingSpec qcb.qryHistory qcb.qryPending nodes size ∧
      PendingOk distOf r.qryHistory r.qryPending ∧ r.qryPending.length ≤ size := by
  have hloop := putPendingLoop_ok qcb.qryPending nodes h hn
  unfold QryCtrlBlock.qryMgrQcbPutPending
  rw [if_neg (by simp [List.length_eq_zero, hne, Nat.pos_iff_ne_zero.mp hsize])]
  refine ⟨congrArg (List.take size) (eq_of_filter_dist_eq hloop.sorted ?_ fun d => ?_),
    hloop.take size, List.length_take_le _ _⟩
  · exact (List.sorted_mergeSort distLE_trans distLE_total _).imp fun hab => by
      simpa [distLE] using hab
  · rw [filter_putPendingLoop d nodes _ _ h hn fun _ => Iff.rfl, filter_mergeSort_dist]

/-- The node whose identity starts with the byte `k`, at distance `d`. -/
def pendingNode (k : UInt8) (d : Nat) : QryPendingInfo :=
  ⟨⟨Node.ofId ⟨k :: List.replicate 63 0, by simp⟩, Bytes.fill 32 0, d⟩, 0⟩

/-- The distances of the nodes `pendingNode k _`, by the first byte of their identity. -/
def pendingDist (id : NodeID) : Nat := [0, 5, 3, 5, 9, 3, 0, 0, 1].getD (id.data.headD 0).toNat 0

/-- A batch meets every case of the loop: node `8` is in the history, node `1` is queued already,
node `2` comes twice, and five fresh and queued nodes are cut to four. -/
theorem qryMgrQcbPutPending_stable_mixed :
    let qcb : QryCtrlBlock := { (default : QryCtrlBlock) with
      qryHistory := (∅ : GoMap NodeID QryPendingInfo).set (pendingNode 8 1).nodeId (pendingNode 8 1)
      qryPending := [pendingNode 1 5] }
    let batch := [pendingNode 8 1, pendingNode 2 3, pendingNode 1 5, pendingNode 3 5, pendingNode 5 3,
      pendingNode 2 3, pendingNode 4 9]
    let r := (qcb.qryMgrQcbPutPending batch 4).1
    r.qryPending = pendingSpec qcb.qryHistory qcb.qryPending batch 4 ∧
      PendingOk pendingDist r.qryHistory r.qryPending ∧ r.qryPending.length ≤ 4 :=
  qryMgrQcbPutPending_stable _ _ 4
    ⟨List.pairwise_singleton _ _, List.nodup_singleton _, by decide, by decide⟩ (by decide) (by decide)
    (List.cons_ne_nil _ _)

end Gyee.Dht.Query
