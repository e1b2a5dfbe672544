import Gyee.Dht.Query.System

/-! # What the answers of the probes and the reports to the owner carry

`instResultInd` computes the distance of each reported peer with `rutMgrLog2Dist(nil, hash)`, which
indexes the nil first hash: the handler panics exactly when a peer is left after its self-filter
(`instResultInd_panics`), for every state with an active probe of the answering peer.

`qryMgrResultReport` makes a slice as long as the result list and writes each result at index `0`
(`resultPeers_eq_loop`): the owner is told only the last result, and `nil` for every other
(`qryMgrResultReport_keeps_last`).

`instResultInd` drops the first reported entry of the local node only, and `rutNotificationInd`
drops none: a route notification that reports the local node puts it in the queue of an inited
query, which then probes it (`rutNotificationInd_queues_local`). -/

namespace Gyee.Dht.Query

open Gyee Gyee.Dht.RouteTable

namespace QryMgr

/-! ### The result report -/

/-- The closed form of `resultPeers` on a non-empty result list. -/
theorem resultPeers_of_ne_nil {li : List QryResultInfo} (h : li ≠ []) :
    resultPeers li = some (li.getLast h).node :: List.replicate (li.length - 1) none := by
  rw [resultPeers, List.getLast?_eq_getLast li h]

/-- Writing at index `0` only keeps the last value written. -/
theorem foldl_set_zero (init : List (Option Node)) (h : init ≠ []) :
    ∀ (li : List QryResultInfo) (hli : li ≠ []),
      li.foldl (fun peers v => peers.set 0 (some v.node)) init =
        init.set 0 (some (li.getLast hli).node)
  | [v], _ => rfl
  | v :: w :: li, _ => by
    rw [List.foldl_cons, foldl_set_zero _ (by simpa using h) (w :: li) (List.cons_ne_nil _ _),
      List.set_set, List.getLast_cons (List.cons_ne_nil _ _)]

/-- **`resultPeers` is the loop of `qryMgrResultReport`**: a slice of `nil`s as long as the result
list, where the loop writes each result's node at `idx`, which stays `0`. -/
theorem resultPeers_eq_loop (li : List QryResultInfo) :
    resultPeers li =
      li.foldl (fun peers v => peers.set 0 (some v.node)) (List.replicate li.length none) := by
  cases li with
  | nil => rfl
  | cons v li =>
    rw [resultPeers_of_ne_nil (List.cons_ne_nil _ _),
      foldl_set_zero _ (by simp) _ (List.cons_ne_nil _ _), List.length_cons,
      List.replicate_succ, List.set_cons_zero, Nat.add_sub_cancel]

/-- **The owner is told the last result only**: for every QCB with two results or more, the
indication `qryMgrResultReport` sends, whatever its result code, has as many peers as results, the
last result's node first and `nil` in every other slot. -/
theorem qryMgrResultReport_keeps_last (qm : QryMgr) (qcb : QryCtrlBlock) (p : Nat) (eno : DhtErrno)
    (val : List UInt8) (prd : Option (List Node)) (h : 2 ≤ qcb.qryResult.length) :
    ∃ ind, (qm.qryMgrResultReport qcb p eno val prd).out =
        qm.out ++ [.queryResultInd qcb.ptnOwner p ind] ∧ ind.Eno = eno ∧
      ind.Peers.length = qcb.qryResult.length ∧
      ind.Peers.head? = some (qcb.qryResult.getLast?.map (·.node)) ∧
      ∀ i, 0 < i → i < ind.Peers.length → ind.Peers[i]? = some none := by
  have hne : qcb.qryResult ≠ [] := List.ne_nil_of_length_pos (by omega)
  refine ⟨_, rfl, rfl, ?_⟩
  rw [resultPeers_of_ne_nil hne, List.length_cons, List.length_replicate,
    List.getLast?_eq_getLast _ hne]
  refine ⟨by omega, rfl, fun i hi hl => ?_⟩
  obtain ⟨j, rfl⟩ := Nat.exists_eq_add_of_lt hi
  rw [Nat.zero_add, List.getElem?_cons_succ, List.getElem?_replicate, if_pos (by simpa using hl)]

/-- A QCB of `exampleTarget` whose result list holds two peers. -/
def twoResultsQcb : QryCtrlBlock :=
  { (default : QryCtrlBlock) with
    target := exampleTarget,
    qryResult := [⟨Node.ofId (exampleId 1), 0, 0⟩, ⟨Node.ofId (exampleId 2), 0, 0⟩] }

/-- The report on `twoResultsQcb` names the second peer and leaves the first slot's peer out. -/
theorem qryMgrResultReport_keeps_last_twoResults :
    ∃ ind, ((newQryMgr (Node.ofId (exampleId 0)) qryMgrMaxActInsts).qryMgrResultReport twoResultsQcb
        0 .notFound [] none).out =
        (newQryMgr (Node.ofId (exampleId 0)) qryMgrMaxActInsts).out ++
          [.queryResultInd twoResultsQcb.ptnOwner 0 ind] ∧ ind.Eno = .notFound ∧
      ind.Peers.length = twoResultsQcb.qryResult.length ∧
      ind.Peers.head? = some (twoResultsQcb.qryResult.getLast?.map (·.node)) ∧
      ∀ i, 0 < i → i < ind.Peers.length → ind.Peers[i]? = some none :=
  qryMgrResultReport_keeps_last _ twoResultsQcb 0 .notFound [] none (by decide)

/-! ### The answer of a probe -/

/-- **`instResultInd` panics on every answer that reports a peer**: for an accepted `ForWhat`,
matching `Peers` and `Pcs`, and a QCB of the target with an active probe of the answering peer, the
handler panics exactly when a peer is left after the self-filter, at its first distance
`rutMgrLog2Dist(nil, hash)`. -/
theorem instResultInd_panics (qm : QryMgr) (msg : MsgDhtQryInstResultInd) (creates : List Bool)
    (hfw : ∀ ev, msg.ForWhat ≠ .other ev) (hlen : msg.Peers.length = msg.Pcs.length) {p : Nat}
    {icb : QryInstCtrlBlock} (hp : qm.qcbTab.get? msg.Target = some p)
    (hi : (qm.qcb p).qryActived.get? msg.From.ID = some icb) :
    qm.instResultInd msg creates = .panic ↔ (dropLocal qm.cfgLocal.ID msg.Peers msg.Pcs).1 ≠ [] := by
  have hm : (msg.ForWhat matches .other _) = false := by
    cases hf : msg.ForWhat with
    | other ev => exact absurd hf (hfw ev)
    | _ => rfl
  unfold QryMgr.instResultInd
  simp only [hm, hlen, ne_eq, not_true_eq_false, if_false, Bool.false_eq_true, QryMgr.send_qcbTab,
    hp, QryMgr.send_qcb, hi]
  cases (dropLocal qm.cfgLocal.ID msg.Peers msg.Pcs).1 <;> simp [resultDistLoop]

/-- A query of `exampleTarget` seeded with the peer `exampleId 1`, which is then probed. -/
def probedRun : List QryEvent :=
  [.queryStartReq 0 exampleTarget MID_FINDNODE,
    .rutNearestRsp (exampleNearestRsp MID_FINDNODE [1]) true []]

theorem probedRun_routeConsistent : ∀ ev ∈ probedRun, RouteConsistent (fun _ => 0) ev := by
  simp [probedRun, RouteConsistent, exampleNearestRsp, examplePeer]

/-- The answer of the probe of `exampleId 1` that reports the peer `exampleId 9`. -/
def probeAnswer : MsgDhtQryInstResultInd :=
  ⟨.evDhtConInstNeighbors, Node.ofId (exampleId 1), exampleTarget, 0, [Node.ofId (exampleId 9)], [0],
    [], none⟩

/-- The first answer of a probe, which reports a peer, panics. -/
theorem instResultInd_panics_probeAnswer :
    ∃ qm, Reachable (fun _ => 0) qm ∧ qm.instResultInd probeAnswer [] = .panic := by
  have hrun : (runEvents (newQryMgr (Node.ofId (exampleId 0)) qryMgrMaxActInsts) probedRun).map
      (fun qm => decide (qm.qcbTab.get? exampleTarget = some 0) &&
        ((qm.qcb 0).qryActived.get? (exampleId 1)).isSome &&
        decide ((dropLocal qm.cfgLocal.ID probeAnswer.Peers probeAnswer.Pcs).1 ≠ [])) =
      some true := by
    decide
  obtain ⟨qm, h, hc⟩ := (Reachable.init _ _ : Reachable (fun _ => 0) _).exists_of_runEvents
    probedRun probedRun_routeConsistent hrun
  simp only [Bool.and_eq_true, decide_eq_true_eq, Option.isSome_iff_exists] at hc
  obtain ⟨⟨hp, icb, hi⟩, hd⟩ := hc
  exact ⟨qm, h, (instResultInd_panics qm probeAnswer [] (fun _ => nofun) rfl hp hi).mpr hd⟩

/-! ### The local node in a query -/

/-- No QCB holds the node `id`: not in its pending queue, its active set or its history. -/
def NoQcbHolds (qm : QryMgr) (id : NodeID) : Prop :=
  ∀ q ∈ qm.qcbs, (∀ x ∈ q.qryPending, x.nodeId ≠ id) ∧ q.qryActived.contains id = false ∧
    q.qryHistory.contains id = false

instance (qm : QryMgr) (id : NodeID) : Decidable (qm.NoQcbHolds id) :=
  inferInstanceAs (Decidable (∀ q ∈ qm.qcbs, (∀ x ∈ q.qryPending, x.nodeId ≠ id) ∧
    q.qryActived.contains id = false ∧ q.qryHistory.contains id = false))

/-- **A route notification makes the node probe itself**: from a reachable state where no QCB
holds the local node, a notification that reports it puts it in the active set of the inited
query, in a reachable state. -/
theorem rutNotificationInd_queues_local :
    ∃ qm qm' e, Reachable (fun _ => 0) qm ∧ qm.NoQcbHolds qm.cfgLocal.ID ∧
      (examplePeer 0).node.ID = qm.cfgLocal.ID ∧
      qm.rutNotificationInd exampleTarget [examplePeer 0] [] = .ret (e, qm') ∧
      Reachable (fun _ => 0) qm' ∧ ∃ p, qm'.qcbTab.get? exampleTarget = some p ∧
        (qm'.qcb p).qryActived.contains qm'.cfgLocal.ID = true := by
  have hrun : (runEvents (newQryMgr (Node.ofId (exampleId 0)) qryMgrMaxActInsts) probedRun).map
      (fun qm => decide (qm.NoQcbHolds qm.cfgLocal.ID) &&
        decide ((examplePeer 0).node.ID = qm.cfgLocal.ID) &&
        stepCheck (.rutNotificationInd exampleTarget [examplePeer 0] []) (fun _ qm' =>
          decide (qm'.qcbTab.get? exampleTarget = some 0) &&
            (qm'.qcb 0).qryActived.contains qm'.cfgLocal.ID) qm) = some true := by
    decide
  have hc0 : RouteConsistent (fun _ => 0) (.rutNotificationInd exampleTarget [examplePeer 0] []) := by
    simp [RouteConsistent, examplePeer]
  obtain ⟨qm, h, hc⟩ := (Reachable.init _ _ : Reachable (fun _ => 0) _).exists_of_runEvents
    probedRun probedRun_routeConsistent hrun
  simp only [Bool.and_eq_true, decide_eq_true_eq] at hc
  obtain ⟨⟨hno, hid⟩, hs⟩ := hc
  obtain ⟨e, qm', heq, hc'⟩ := stepCheck_eq_true hs
  simp only [Bool.and_eq_true, decide_eq_true_eq] at hc'
  exact ⟨qm, qm', e, h, hno, hid, Option.some.inj heq, h.step hc0 heq, 0, hc'⟩

end QryMgr

end Gyee.Dht.Query
