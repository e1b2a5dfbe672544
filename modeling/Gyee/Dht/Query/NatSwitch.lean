import Gyee.Dht.Query.System
import Mathlib.Data.String.Basic

/-! # Switching the queries to a new public address

`natPubAddrUpdateInd` handles the NAT manager's indication that the public TCP address changed. It
forwards the indication to the connection manager, records the status in `natTcpResult`, and for a
good status stores the indicated address in `pubTcpIp`/`pubTcpPort`. It then compares the
indicated address with those two fields to decide whether the queries must switch
(`natMapSwitch`: each owner is told `DhtEnoNatMapping`, its QCB is deleted, and the local node takes
the public address).

The comparison reads the fields just written, so it always finds them equal: once a good status
has been recorded, a good indication never switches, whatever address it carries
(`natPubAddrUpdateInd_tcpOk_keeps_queries`). A query started before the change of address survives
it, and its owner is told nothing (`natAddrChange_keeps_query`). -/

namespace Gyee.Dht.Query

open Gyee Gyee.Dht.RouteTable

/-- `strings.ToLower` leaves the protocol name `nat.NATP_TCP` as it is. -/
theorem tcp_toLower : "tcp".toLower = "tcp" := by
  rw [String.toLower, String.map_eq]
  decide

namespace QryMgr

/-- **A good TCP indication never switches once a good status is recorded**: for every state with
`natTcpResult` set and every indicated address, the handler forwards the indication and stores the
address, and leaves `qcbTab`, every QCB and the local node as they were, with no message to an
owner. -/
theorem natPubAddrUpdateInd_tcpOk_keeps_queries (qm : QryMgr) (hr : qm.natTcpResult = true)
    {proto : String} (hp : proto.toLower = "tcp") (pubIp : List UInt8) (pubPort : Nat) :
    qm.natPubAddrUpdateInd proto true pubIp pubPort =
      .ret (.none, { qm.send .toConMgr with pubTcpIp := pubIp, pubTcpPort := pubPort }) := by
  simp [natPubAddrUpdateInd, hp, hr, send]

/-- The first good mapping: the status is recorded and the local node takes the public address. -/
theorem natMakeMapRsp_tcpOk (qm : QryMgr) (pubIp : List UInt8) (pubPort : Nat) :
    qm.natMakeMapRsp "tcp" true pubIp pubPort =
      .ret (.none, (switch2NatAddr
        { qm with natTcpResult := true, pubTcpIp := pubIp, pubTcpPort := pubPort }).send .toConMgr) := by
  simp [natMakeMapRsp, tcp_toLower]

end QryMgr

/-- The query manager after power-on and a good mapping to `1.2.3.4:5000`. -/
def mappedQryMgr : QryMgr :=
  (QryMgr.switch2NatAddr { newQryMgr (Node.ofId (exampleId 0)) qryMgrMaxActInsts with
    natTcpResult := true, pubTcpIp := [1, 2, 3, 4], pubTcpPort := 5000 }).send .toConMgr

/-- A node lookup of `exampleTarget` seeded with one peer. -/
def mappedQueryRun : List QryEvent :=
  [.queryStartReq 0 exampleTarget MID_FINDNODE,
    .rutNearestRsp (exampleNearestRsp MID_FINDNODE [1]) true []]

/-- **A change of public address keeps a running query**: in a reachable state with a good mapping
and a lookup inited in `qcbTab`, an indication of the new address `5.6.7.8:6000` switches
nothing. -/
theorem natAddrChange_keeps_query :
    ∃ qm, Reachable (fun _ => 0) qm ∧ qm.natTcpResult = true ∧
      qm.qcbTab.get? exampleTarget = some 0 ∧ (qm.qcb 0).status = .qsInited ∧
      (qm.pubTcpIp, qm.pubTcpPort) ≠ ([5, 6, 7, 8], 6000) ∧
      qm.natPubAddrUpdateInd "tcp" true [5, 6, 7, 8] 6000 =
        .ret (.none, { qm.send .toConMgr with pubTcpIp := [5, 6, 7, 8], pubTcpPort := 6000 }) := by
  have h1 : Reachable (fun _ => 0) mappedQryMgr :=
    @Reachable.step _ _ _ (.natMakeMapRsp "tcp" true [1, 2, 3, 4] 5000) _ (.init _ _) trivial
      (congrArg some (QryMgr.natMakeMapRsp_tcpOk _ _ _))
  have hrun : (runEvents mappedQryMgr mappedQueryRun).map (fun qm =>
      decide (qm.natTcpResult = true) && decide (qm.qcbTab.get? exampleTarget = some 0) &&
        decide ((qm.qcb 0).status = .qsInited) &&
        decide ((qm.pubTcpIp, qm.pubTcpPort) ≠ ([5, 6, 7, 8], 6000))) = some true := by
    decide
  obtain ⟨qm, h, hc⟩ := h1.exists_of_runEvents mappedQueryRun
    (by simp [mappedQueryRun, RouteConsistent, exampleNearestRsp, examplePeer]) hrun
  simp only [Bool.and_eq_true, decide_eq_true_eq] at hc
  exact ⟨qm, h, hc.1.1.1, hc.1.1.2, hc.1.2, hc.2,
    QryMgr.natPubAddrUpdateInd_tcpOk_keeps_queries qm hc.1.1.1 tcp_toLower _ _⟩

end Gyee.Dht.Query
