import Gyee.Dht.Query.Ops

/-! # The query manager's handlers

One function per event of `qryMgrProc`. A handler returns its result code and the new state, or
panics; the scheduler's answers (whether a timer is set, whether each instance task is created)
are arguments. Three handlers end alike (`qryDoneCheck`): the QCB is in error when its queue holds
peers while its active set has room, and it is reported and deleted when both are empty.

`instResultInd` computes the distance of each reported peer with `rutMgrLog2Dist(nil, hash)`, which
reads the nil first hash: it panics on every result that reports a peer other than the local
node. -/

namespace Gyee.Dht.Query

open Gyee Gyee.Dht.RouteTable Gyee.Dht.Log2Dist

namespace QryMgr

/-- `queryStartReq(sender, msg)`: a new QCB in `qsPreparing`, and a nearest request to the route
manager. -/
def queryStartReq (qm : QryMgr) (sender : Nat) (target : DsKey) (forWhat : Nat) :
    Run (SchErrno × QryMgr) :=
  if !knownForWhat forWhat then .ret (.mismatched, qm)
  else if qm.qcbTab.contains target then
    .ret (.userTask, qm.send (.queryStartRsp sender target .duplicated))
  else
    let qcb : QryCtrlBlock :=
      ⟨sender, qm.qcbSeq, forWhat, target, .qsPreparing, ∅, [], ∅, [], 0, 0, true, 0, 0⟩
    let qm := { qm with
      qcbs := qm.qcbs ++ [qcb], qcbSeq := qm.qcbSeq + 1,
      qcbTab := qm.qcbTab.set target qm.qcbs.length }
    .ret (.none, (qm.send (.nearestReq target forWhat)).send (.queryStartRsp sender target .none))

/-- The loop of `rutNearestRsp` over the reported peers with their connection states and
distances: a lookup of a node, a value or a provider stops at a peer whose hash is the target;
otherwise each peer enters the result list. -/
def nearestResultLoop (forWhat : Nat) (target : DsKey) (qcb : QryCtrlBlock) :
    List (RutMgrBucketNode × Int × Nat) → QryCtrlBlock × Option RutMgrBucketNode
  | [] => (qcb, none)
  | (peer, pcs, dist) :: rest =>
    if (forWhat = MID_FINDNODE ∨ forWhat = MID_GETPROVIDER_REQ ∨ forWhat = MID_GETVALUE_REQ) ∧
        peer.hash = target then (qcb, some peer)
    else nearestResultLoop forWhat target (qcb.qcbUpdateResult ⟨peer.node, pcs, dist⟩) rest

/-- The loop only writes the result list. -/
theorem nearestResultLoop_qcb (forWhat : Nat) (target : DsKey) :
    ∀ (qcb : QryCtrlBlock) (l : List (RutMgrBucketNode × Int × Nat)),
      ∃ r, (nearestResultLoop forWhat target qcb l).1 = { qcb with qryResult := r }
  | qcb, [] => ⟨qcb.qryResult, rfl⟩
  | qcb, (peer, pcs, dist) :: rest => by
    unfold nearestResultLoop
    split_ifs
    · exact ⟨qcb.qryResult, rfl⟩
    · exact nearestResultLoop_qcb forWhat target _ rest

/-- `rutNearestRsp`'s closure `qryFailed2Sender(eno)` followed by
`qryMgrDelQcb(delQcb4NoSeeds, target)`: the owner learns the query failed, and the QCB is
deleted. -/
def nearestRspFailed (qm : QryMgr) (owner : Nat) (target : DsKey) (eno : DhtErrno) : QryMgr :=
  ((qm.send (.queryStartRsp owner target eno)).qryMgrDelQcb .noSeeds target).1

/-- The end of `rutNearestRsp` when no reported peer is the target: the peers seed the pending
queue of the QCB at `p`, its timer is set, its first probes start, and it is inited. -/
def nearestRspStart (qm : QryMgr) (p owner : Nat) (target : DsKey)
    (peers : List RutMgrBucketNode) (timerOk : Bool) (creates : List Bool) : SchErrno × QryMgr :=
  let (qcb, eno) := { qm.qcb p with qryPending := [] }.qryMgrQcbPutPending (peers.map (⟨·, 0⟩))
    qm.maxPendings
  let qm := qm.setQcb p qcb
  if eno ≠ .none then (.resource, qm.nearestRspFailed owner target eno)
  else
    let (qm, eno) := qm.qryMgrQcbStartTimer p timerOk
    if eno ≠ .none then (.resource, qm.nearestRspFailed owner target eno)
    else
      let qm := (qm.qryMgrQcbPutActived p creates).1
      (.none, qm.setQcb p { qm.qcb p with status := .qsInited })

/-- `rutNearestRsp(msg)`: the route manager's nearest peers seed the QCB's queue, its timer is set
and its first probes start. -/
def rutNearestRsp (qm : QryMgr) (msg : MsgDhtRutMgrNearestRsp) (timerOk : Bool)
    (creates : List Bool) : Run (SchErrno × QryMgr) :=
  if !knownForWhat msg.ForWhat then .ret (.mismatched, qm)
  else match qm.qcbTab.get? msg.Target with
  | none => .ret (.notFound, qm)
  | some p =>
    let owner := (qm.qcb p).ptnOwner
    if (qm.qcb p).status ≠ .qsPreparing then .ret (.mismatched, qm)
    else if msg.Eno ≠ .none then .ret (.none, qm.nearestRspFailed owner msg.Target msg.Eno)
    else match msg.Peers, msg.Pcs, msg.Dists with
    | none, _, _ => .ret (.parameter, qm.nearestRspFailed owner msg.Target .route)
    | some _, none, _ => .ret (.parameter, qm.nearestRspFailed owner msg.Target .route)
    | some _, some _, none => .panic
    | some peers, some pcs, some dists =>
      if peers.length ≠ pcs.length ∨ peers.length ≠ dists.length then
        .ret (.parameter, qm.nearestRspFailed owner msg.Target .route)
      else if peers.length = 0 then .ret (.parameter, qm.nearestRspFailed owner msg.Target .route)
      else
        let r := nearestResultLoop msg.ForWhat msg.Target { qm.qcb p with qryResult := [] }
          (peers.zip (pcs.zip dists))
        let qm := qm.setQcb p r.1
        match r.2 with
        | some peer =>
          let qm := qm.send (.queryResultInd owner p
            ⟨.none, msg.ForWhat, msg.Target, [], [], [some peer.node]⟩)
          .ret (.none, (qm.qryMgrDelQcb .targetInLocal msg.Target).1)
        | none => .ret (qm.nearestRspStart p owner msg.Target peers timerOk creates)

/-- `queryStopReq(sender, msg)`. -/
def queryStopReq (qm : QryMgr) (sender : Nat) (target : DsKey) : Run (SchErrno × QryMgr) :=
  let (qm, eno) := qm.qryMgrDelQcb .command target
  .ret (.none, qm.send (.queryStopRsp sender target eno))

/-- The end of `rutNotificationInd`, `instStatusInd` and `instResultInd` for the QCB at `p`. -/
def qryDoneCheck (qm : QryMgr) (p : Nat) (eno : DhtErrno) : SchErrno × QryMgr :=
  let qcb := qm.qcb p
  if qcb.qryPending.length > 0 ∧ qcb.qryActived.size < qm.maxActInsts then (.userTask, qm)
  else if qcb.qryPending.length = 0 ∧ qcb.qryActived.size = 0 then
    let (qm, e) := (qm.qryMgrResultReport qcb p eno [] none).qryMgrDelQcb .noMoreQueries qcb.target
    (if e ≠ .none then .userTask else .none, qm)
  else (.none, qm)

/-- `rutNotificationInd(msg)`: new nearest peers join the queue of an inited QCB. -/
def rutNotificationInd (qm : QryMgr) (target : DsKey) (peers : List RutMgrBucketNode)
    (creates : List Bool) : Run (SchErrno × QryMgr) :=
  match qm.qcbTab.get? target with
  | none => .ret (.parameter, qm)
  | some p =>
    let qcb := qm.qcb p
    if qcb.status ≠ .qsInited then .ret (.userTask, qm)
    else
      let qm := qm.setQcb p (qcb.qryMgrQcbPutPending (peers.map (⟨·, 0⟩)) qm.maxPendings).1
      .ret ((qm.qryMgrQcbPutActived p creates).1.qryDoneCheck p .notFound)

/-- `instStatusInd(msg)`: only `qisDone`, a failed probe, changes anything; statuses `0` to `5` are
known. -/
def instStatusInd (qm : QryMgr) (target : DsKey) (peer : NodeID) (status : Nat)
    (creates : List Bool) : Run (SchErrno × QryMgr) :=
  if status = qisDone then
    match qm.qcbTab.get? target with
    | none => .ret (.notFound, qm)
    | some p =>
      let (qm, eno) := qm.qryMgrDelIcb .qryInstDoneInd target peer
      if eno ≠ .none then .ret (.userTask, qm)
      else
        let qm := (qm.qryMgrQcbPutActived p creates).1
        let fw := (qm.qcb p).forWhat
        .ret (qm.qryDoneCheck p
          (if fw = MID_PUTVALUE ∨ fw = MID_PUTPROVIDER then .none else .notFound))
  else if status ≤ 5 then .ret (.none, qm)
  else .ret (.userTask, qm)

/-- The first reported peer that is the local node leaves `Peers` and `Pcs`. -/
def dropLocal (me : NodeID) : List Node → List Int → List Node × List Int
  | peer :: peers, pc :: pcs =>
    if peer.ID = me then (peers, pcs)
    else let r := dropLocal me peers pcs; (peer :: r.1, pc :: r.2)
  | peers, pcs => (peers, pcs)

/-- The loop of `instResultInd` computing each peer's hash and distance: `rutMgrLog2Dist(nil, hash)`
indexes the nil first hash, so the first peer panics. -/
def resultDistLoop : List Node → Run (List (Hash × Nat))
  | [] => .ret []
  | _ :: _ => .panic

/-- Whether an instance result's `ForWhat` is one of the three lookups whose peers go on. -/
def lookupFor : InstForWhat → Bool
  | .evDhtConInstNeighbors | .evDhtConInstGetProviderRsp | .evDhtConInstGetValRsp => true
  | _ => false

/-- A lookup of `instResultInd` found its target: the owner of the QCB at `p` is told, and the
QCB is deleted. -/
def instResultFound (qm : QryMgr) (p : Nat) (val : List UInt8) (prd : Option (List Node)) :
    SchErrno × QryMgr :=
  let (qm, e) := (qm.qryMgrResultReport (qm.qcb p) p .none val prd).qryMgrDelQcb .targetFound
    (qm.qcb p).target
  (if e ≠ .none then .userTask else .none, qm)

/-- The end of `instResultInd` when the target is not found: the probe `icb` is deleted, the
QCB's depth raised to the probe's, a lookup past the depth or width limit is reported and ends, a
lookup queues the reported peers and starts probes, and the QCB is checked for completion. -/
def instResultNext (qm : QryMgr) (msg : MsgDhtQryInstResultInd) (p : Nat)
    (icb : QryInstCtrlBlock) (peers : List Node) (hds : List (Hash × Nat)) (creates : List Bool) :
    SchErrno × QryMgr :=
  let (qm, eno) := qm.qryMgrDelIcb .qryInstResultInd msg.Target msg.From.ID
  if eno ≠ .none then (.userTask, qm)
  else
    let qm := if icb.depth > (qm.qcb p).depth then
      qm.setQcb p { qm.qcb p with depth := icb.depth } else qm
    let lookup := lookupFor msg.ForWhat
    let qcb := qm.qcb p
    if lookup ∧ (qcb.depth > qryMgrQryMaxDepth ∨ qcb.qryHistory.size ≥ qryMgrQryMaxWidth) then
      let (qm, e) := (qm.qryMgrResultReport qcb p .notFound [] none).qryMgrDelQcb .noMoreQueries
        qcb.target
      (if e ≠ .none then .userTask else .none, qm)
    else
      let qm := if lookup then
          let qpiList := (peers.zip hds).map fun (peer, hash, dist) =>
            (⟨⟨peer, hash, dist⟩, icb.depth + 1⟩ : QryPendingInfo)
          let qm := qm.setQcb p ((qm.qcb p).qryMgrQcbPutPending qpiList qm.maxPendings).1
          (qm.qryMgrQcbPutActived p creates).1
        else qm
      qm.qryDoneCheck p (if lookup then .notFound else .none)

/-- The part of `instResultInd` after the distances of the reported peers are known, for the QCB at
`p` and the probe `icb` that answered: the peers enter the result list, and a lookup that found its
target ends. -/
def instResultRest (qm : QryMgr) (msg : MsgDhtQryInstResultInd) (p : Nat) (icb : QryInstCtrlBlock)
    (peers : List Node) (pcs : List Int) (hds : List (Hash × Nat)) (creates : List Bool) :
    SchErrno × QryMgr :=
  let qm := qm.setQcb p ((peers.zip (pcs.zip hds)).foldl
    (fun q (peer, pc, _, dist) => q.qcbUpdateResult ⟨peer, pc, dist⟩) (qm.qcb p))
  if msg.ForWhat = .evDhtConInstNeighbors ∧ hds.any (·.1 = msg.Target) then
    qm.instResultFound p msg.Value msg.Provider
  else if msg.ForWhat = .evDhtConInstGetValRsp ∧ msg.Value ≠ [] then
    qm.instResultFound p msg.Value none
  else if msg.ForWhat = .evDhtConInstGetProviderRsp ∧ msg.Provider.isSome then
    qm.instResultFound p [] msg.Provider
  else qm.instResultNext msg p icb peers hds creates

/-- `instResultInd(msg)`: a probe's answer. -/
def instResultInd (qm : QryMgr) (msg : MsgDhtQryInstResultInd) (creates : List Bool) :
    Run (SchErrno × QryMgr) :=
  if msg.ForWhat matches .other _ then .ret (.mismatched, qm)
  else if msg.Peers.length ≠ msg.Pcs.length then .ret (.mismatched, qm)
  else
    let (peers, pcs) := dropLocal qm.cfgLocal.ID msg.Peers msg.Pcs
    let qm := qm.send (.updateReq msg.From msg.Latency)
    match qm.qcbTab.get? msg.Target with
    | none => .ret (.userTask, qm)
    | some p =>
      match (qm.qcb p).qryActived.get? msg.From.ID with
      | none => .ret (.userTask, qm)
      | some icb => do
        let hds ← resultDistLoop peers
        return qm.instResultRest msg p icb peers pcs hds creates

/-- `qcbTimerHandler(qcb)`, with the QCB pointer of the timer message: it reports a timeout to the
QCB's owner and deletes whatever QCB `qcbTab` holds under the QCB's target. -/
def qcbTimerHandler (qm : QryMgr) (p : Nat) : Run (SchErrno × QryMgr) :=
  let qcb := qm.qcb p
  .ret (.none, ((qm.qryMgrResultReport qcb p .timeout [] none).qryMgrDelQcb .timeout qcb.target).1)

/-- `switch2NatAddr("tcp")`: the local node takes the public address. -/
def switch2NatAddr (qm : QryMgr) : QryMgr :=
  { qm with cfgLocal := { qm.cfgLocal with IP := qm.pubTcpIp, TCP := qm.pubTcpPort % 65536 } }

/-- `natMgrReadyInd(msg)`: without NAT the local address is the public one; otherwise a mapping is
requested for the TCP port. -/
def natMgrReadyInd (qm : QryMgr) (natNone : Bool) : Run (SchErrno × QryMgr) :=
  if natNone then .ret (.none, { qm with pubTcpIp := qm.cfgLocal.IP, pubTcpPort := qm.cfgLocal.TCP })
  else .ret (.none, qm.send (.natMakeMapReq qm.cfgLocal.TCP))

/-- `natMakeMapRsp(msg)`, for a mapping of protocol `proto` whose status is `statusOk`. -/
def natMakeMapRsp (qm : QryMgr) (proto : String) (statusOk : Bool) (pubIp : List UInt8)
    (pubPort : Nat) : Run (SchErrno × QryMgr) :=
  if proto.toLower = "tcp" then
    let qm := { qm with natTcpResult := statusOk }
    let qm := if statusOk then switch2NatAddr { qm with pubTcpIp := pubIp, pubTcpPort := pubPort }
      else { qm with pubTcpIp := [0, 0, 0, 0], pubTcpPort := 0 }
    .ret (.none, qm.send .toConMgr)
  else .ret (.parameter, qm)

/-- The loop of `natMapSwitch` over `qcbTab`: each owner is told of the mapping change and the QCB
is deleted. -/
def natMapSwitchLoop (qm : QryMgr) : List (DsKey × Nat) → QryMgr × DhtErrno
  | [] => (qm, .none)
  | (k, p) :: rest =>
    let qcb := qm.qcb p
    let qm := qm.send (.queryResultInd qcb.ptnOwner p ⟨.natMapping, qcb.forWhat, k, [], [], []⟩)
    let (qm, eno) := qm.qryMgrDelQcb .pubAddrSwitch k
    if eno ≠ .none then (qm, eno) else natMapSwitchLoop qm rest

/-- `natMapSwitch()`. -/
def natMapSwitch (qm : QryMgr) : QryMgr × DhtErrno :=
  match natMapSwitchLoop qm qm.qcbTab.bindings with
  | (qm, .none) => ((switch2NatAddr qm).send .pubAddrSwitchInd, .none)
  | r => r

/-- `natPubAddrUpdateInd(msg)`: the message goes on to the connection manager; a first good status
switches every query to the new address. -/
def natPubAddrUpdateInd (qm : QryMgr) (proto : String) (statusOk : Bool) (pubIp : List UInt8)
    (pubPort : Nat) : Run (SchErrno × QryMgr) :=
  let qm := qm.send .toConMgr
  if proto.toLower ≠ "tcp" then .ret (.parameter, qm)
  else
    let oldResult := qm.natTcpResult
    let qm := { qm with natTcpResult := statusOk }
    if !statusOk then .ret (.none, qm)
    else
      let qm := { qm with pubTcpIp := pubIp, pubTcpPort := pubPort }
      if !oldResult ∨ pubIp ≠ qm.pubTcpIp ∨ pubPort ≠ qm.pubTcpPort then
        match natMapSwitch qm with
        | (qm, .none) => .ret (.none, qm)
        | (qm, _) => .ret (.userTask, qm)
      else .ret (.none, qm)

end QryMgr

end Gyee.Dht.Query
