import Gyee.Dht.RouteManager
import Gyee.Dht.Query.System

/-! # The route manager's answers to the query manager

A query starts with a `NearestReq` from the query manager to the route manager, whose
`NearestRsp` seeds the query's pending queue; route notifications would add peers later. Both
messages cross the scheduler, whose types are not in the repository: the route manager reads the
request's target as a node identity, the query manager reads the target of the answer as its
key, and every other field goes through unchanged (`deliverNearestRsp`).

`nearestReq` fills `Eno`, `Target`, `Peers` and `Dists` only, and `rutNearestRsp` starts by checking
`ForWhat`: whatever the table, the query manager rejects every answer as mismatched and leaves its
state as it was, so a query never leaves `qsPreparing` (`nearestRsp_rejected`). Notifications go
only to the notifees of `ntfTab`, and nothing registers one (`updateReq_noNotifee`).

The peers that do reach a pending queue are ordered by their distance to the local node, the
`dist` of their bucket node, smallest first; that is neither the distance to the query's target
nor the closest first (`qryMgrQcbPutPending_closest_first`). -/

namespace Gyee.Dht.Query

open Gyee Gyee.Dht.Log2Dist Gyee.Dht.RouteTable Gyee.Dht.Nearest Gyee.Dht.RouteManager

/-! ### Nearest responses -/

/-- The route manager's `NearestRsp` as the query manager reads it, with its target read as the
query's key `key`. -/
def deliverNearestRsp (rsp : RouteManager.MsgDhtRutMgrNearestRsp) (key : DsKey) :
    Query.MsgDhtRutMgrNearestRsp :=
  ⟨rsp.Eno, rsp.ForWhat, key, rsp.Peers, rsp.Pcs, rsp.Dists⟩

/-- `nearestReq` answers with `ForWhat` zero and no connection states. -/
theorem nearestReq_unset {rutMgr : RutMgr} {target : NodeID} {max : Int} {e : SchErrno}
    {rsp : RouteManager.MsgDhtRutMgrNearestRsp} (h : nearestReq rutMgr target max = .ret (e, rsp)) :
    rsp.ForWhat = 0 ∧ rsp.Pcs = none := by
  unfold nearestReq at h
  cases hn : rutMgrNearest rutMgr.rutTab target max with
  | ret r =>
    rw [hn] at h
    cases Run.ret.inj h
    split_ifs <;> exact ⟨rfl, rfl⟩
  | panic => rw [hn] at h; cases h
  | running => rw [hn] at h; cases h

/-- `nearestReq` answers whenever `rutMgrNearest` returns. -/
theorem nearestReq_ret {rutMgr : RutMgr} {target : NodeID} {max : Int}
    {r : DhtErrno × List RutMgrBucketNode × List Nat}
    (h : rutMgrNearest rutMgr.rutTab target max = .ret r) :
    ∃ e rsp, nearestReq rutMgr target max = .ret (e, rsp) := by
  obtain ⟨eno, nearest, dists⟩ := r
  unfold nearestReq
  rw [h]
  exact ⟨_, _, rfl⟩

/-- **The query manager rejects every answer of the route manager**: whatever the route table,
the target and `Max`, a `NearestRsp` of `nearestReq` carries `ForWhat = 0`, which `rutNearestRsp`
answers with `SchEnoMismatched`, leaving every query as it was. -/
theorem nearestRsp_rejected {rutMgr : RutMgr} {target : NodeID} {max : Int} {e : SchErrno}
    {rsp : RouteManager.MsgDhtRutMgrNearestRsp} (h : nearestReq rutMgr target max = .ret (e, rsp))
    (qm : QryMgr) (key : DsKey) (timerOk : Bool) (creates : List Bool) :
    qm.rutNearestRsp (deliverNearestRsp rsp key) timerOk creates = .ret (.mismatched, qm) := by
  have hf : (deliverNearestRsp rsp key).ForWhat = 0 := (nearestReq_unset h).1
  unfold QryMgr.rutNearestRsp
  rw [if_pos (by rw [hf]; decide)]

/-- The route manager whose table holds the local node's entry in front of the peer's. -/
def frontRutMgr : RutMgr := ⟨distLookupTab, localId, frontLocalTable, ∅⟩

/-- A route manager whose table holds two entries answers, and a node lookup waiting for its
answer rejects it. -/
theorem nearestRsp_rejected_frontRutMgr :
    ∃ e rsp qm, nearestReq frontRutMgr peerId 1 = .ret (e, rsp) ∧ Reachable (fun _ => 0) qm ∧
      (qm.qcb 0).status = .qsPreparing ∧
      qm.rutNearestRsp (deliverNearestRsp rsp exampleTarget) true [] = .ret (.mismatched, qm) := by
  obtain ⟨e, rsp, hr⟩ := @nearestReq_ret frontRutMgr _ _ _ rutMgrNearest_frontLocalTable
  have hrun : (runEvents (newQryMgr (Node.ofId (exampleId 0)) qryMgrMaxActInsts)
      [.queryStartReq 0 exampleTarget MID_FINDNODE]).map
      (fun qm => decide ((qm.qcb 0).status = .qsPreparing)) = some true := by
    decide
  obtain ⟨qm, hq, hs⟩ := (Reachable.init _ _ : Reachable (fun _ => 0) _).exists_of_runEvents _
    (by simp [RouteConsistent]) hrun
  exact ⟨e, rsp, qm, hr, hq, of_decide_eq_true hs, nearestRsp_rejected hr qm exampleTarget true []⟩

/-! ### Notifications -/

/-- **No notification without a notifee**: an `updateReq` that returns on a route manager with no
notifee keeps none and sends no indication. `NewRutMgr` makes the notifee table empty, and
`rutMgrNotifeeReg`, the only function that adds to it, has no caller. -/
theorem updateReq_noNotifee (rutMgr : RutMgr) (h0 : rutMgr.ntfTab = ∅) (seens : List Node)
    (duras : List Int) (fuel : Nat) :
    (updateReq rutMgr seens duras fuel).Post fun r => r.2.1.ntfTab = ∅ ∧ r.2.2 = [] := by
  unfold updateReq
  split_ifs
  · exact ⟨h0, rfl⟩
  · refine Run.Post.bind (Run.post_true _) fun rt _ => ?_
    have hb : rutMgr.ntfTab.bindings = [] := by rw [h0]; rfl
    simp [h0, hb, rutMgrNotify]

/-! ### The order of the pending queue -/

/-- The distance of a pending entry to a query's target: a larger value is closer. -/
def targetDist (target : DsKey) (x : QryPendingInfo) : Nat :=
  rutMgrLog2Dist (rutMgrNodeId2Hash x.nodeId) target

theorem rutMgrLog2Dist_lt_of_ne {h1 h2 : Hash} (h : h1 ≠ h2) : rutMgrLog2Dist h1 h2 < 256 :=
  lt_of_le_of_ne (rutMgrLog2Dist_le _ _) fun e => h ((rutMgrLog2Dist_eq_256_iff _ _).mp e)

/-- The peer's bucket node is farther from the local node than the local node's own entry. -/
theorem peerNode_dist_lt : peerNode.dist < localNode.dist :=
  (rutMgrLog2Dist_lt_of_ne localId_hash_ne).trans_eq (rutMgrLog2Dist_self _).symm

/-- **The pending queue is not ordered closest first**: a node lookup of the local node's own hash,
given the peer's entry and the local node's, as a route manager around the local node builds them,
queues the peer first, though the local node's entry is at distance 256 from the target and the
peer's below it. The queue is ordered by the entries' distance to the local node, smallest
first. -/
theorem qryMgrQcbPutPending_closest_first :
    ¬ ∀ (qcb : QryCtrlBlock) (nodes : List QryPendingInfo) (size : Nat) (sha : Hash),
      qcb.status = .qsInited → (qcb.qryPending.map (targetDist qcb.target)).Pairwise (· ≥ ·) →
      (∀ n ∈ nodes, n.bn.dist = rutMgrLog2Dist sha (rutMgrNodeId2Hash n.nodeId)) →
      ((qcb.qryMgrQcbPutPending nodes size).1.qryPending.map (targetDist qcb.target)).Pairwise
        (· ≥ ·) := by
  intro hall
  let qcb : QryCtrlBlock := { (default : QryCtrlBlock) with
    status := .qsInited, target := rutMgrNodeId2Hash localId }
  let nodes : List QryPendingInfo := [⟨peerNode, 0⟩, ⟨localNode, 0⟩]
  have hput : (qcb.qryMgrQcbPutPending nodes qryMgrMaxPendings).1.qryPending = nodes := by
    have hid : peerNode.node.ID ≠ localNode.node.ID := localId_ne_peerId.symm
    have hc : ∀ id, qcb.qryHistory.contains id = false := fun _ => rfl
    have hp : qcb.qryPending = [] := rfl
    simp [QryCtrlBlock.qryMgrQcbPutPending, putPendingLoop, insertPending, QryPendingInfo.nodeId,
      nodes, hid, hc, hp, Nat.not_lt.mpr peerNode_dist_lt.le, qryMgrMaxPendings]
  have h := hall qcb nodes qryMgrMaxPendings (rutMgrNodeId2Hash localId) rfl List.Pairwise.nil
    (by simp [nodes, peerNode, localNode, QryPendingInfo.nodeId, Node.ofId])
  rw [hput] at h
  have h1 : targetDist (rutMgrNodeId2Hash localId) ⟨peerNode, 0⟩ ≥
      targetDist (rutMgrNodeId2Hash localId) ⟨localNode, 0⟩ := by
    simpa [nodes] using h
  have hlt : targetDist (rutMgrNodeId2Hash localId) ⟨peerNode, 0⟩ < 256 :=
    rutMgrLog2Dist_lt_of_ne localId_hash_ne.symm
  have hl : targetDist (rutMgrNodeId2Hash localId) ⟨localNode, 0⟩ = 256 := rutMgrLog2Dist_self _
  omega

end Gyee.Dht.Query
