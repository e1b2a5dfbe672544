import Gyee.Peer.Basic

/-! # The peer manager's handlers

One function per handler of `peerMgrProc`, with the helpers they call. A handler returns its
`PeMgrErrno` and the new state, or panics (a write to the nil inner map of a sub-network that is
not configured, `peerInstState.compare` on a negative state, a full `indChan`).

Two of the helpers act on what they are given, not on the instance they were called for:
`peMgrKillInst` deletes the entries of `workers` and `nodes` under the killed instance's identity
and direction whichever instance they hold, and `instStateCmpKill` answers `PeMgrEnoDuplicated`
whichever of the two instances it killed. -/

namespace Gyee.Peer

open Gyee

namespace PeerManager

variable (pm : PeerManager)

/-- `updateStaticStatus(snid, idEx, status)`: only a static node's status is kept. -/
def updateStaticStatus (snid : SubNetworkID) (idEx : PeerIdEx) (status : Int) : PeerManager :=
  if snid = pm.cfg.staticSubNetId ∧ pm.staticsStatus.contains idEx then
    { pm with staticsStatus := pm.staticsStatus.set idEx status }
  else pm

@[simp] theorem updateStaticStatus_peers (snid : SubNetworkID) (idEx : PeerIdEx) (status : Int) :
    (pm.updateStaticStatus snid idEx status).peers = pm.peers := by
  unfold updateStaticStatus; split_ifs <;> rfl
@[simp] theorem updateStaticStatus_nodes (snid : SubNetworkID) (idEx : PeerIdEx) (status : Int) :
    (pm.updateStaticStatus snid idEx status).nodes = pm.nodes := by
  unfold updateStaticStatus; split_ifs <;> rfl
@[simp] theorem updateStaticStatus_workers (snid : SubNetworkID) (idEx : PeerIdEx) (status : Int) :
    (pm.updateStaticStatus snid idEx status).workers = pm.workers := by
  unfold updateStaticStatus; split_ifs <;> rfl

/-- `dynamicSubNetIdExist(snid)`. -/
def dynamicSubNetIdExist (snid : SubNetworkID) : Bool :=
  pm.cfg.networkType = .dynamic ∧ snid ∈ pm.cfg.subNetIdList

/-- `staticSubNetIdExist(snid)`. -/
def staticSubNetIdExist (snid : SubNetworkID) : Bool :=
  match pm.cfg.networkType with
  | .static => pm.cfg.staticSubNetId = snid
  | .dynamic => pm.cfg.staticNodes.length > 0 ∧ pm.cfg.staticSubNetId = snid

/-- `isStaticSubNetId(snid)`. -/
def isStaticSubNetId (snid : SubNetworkID) : Bool :=
  (pm.cfg.networkType = .static ∧ pm.staticSubNetIdExist snid) ||
    (pm.cfg.networkType = .dynamic ∧ pm.staticSubNetIdExist snid)

/-- `peMgrIndEnque(ind)`: it panics when `indChan` is full. -/
def peMgrIndEnque (ind : PeInd) : Run PeerManager :=
  if pm.indLen ≥ maxIndicationQueueSize then .panic
  else .ret { pm with indChan := pm.indChan ++ [ind] }

/-- `delete(workers[snid], idEx)` and `wrkNum[snid]--`, when the entry exists. -/
def dropWorker (snid : SubNetworkID) (idEx : PeerIdEx) : PeerManager :=
  if (pm.workers.get? snid idEx).isSome then
    { pm with workers := pm.workers.delete snid idEx, wrkNum := bump pm.wrkNum snid (-1) }
  else pm

/-- The cleaning of an outbound instance at `ptn`: its node entry, its `peers` entry and its count
go. -/
def dropOutbound (ptn : Nat) (snid : SubNetworkID) (idEx : PeerIdEx) : PeerManager :=
  { pm with
    nodes := pm.nodes.delete snid idEx, peers := pm.peers.delete ptn,
    obpNum := bump pm.obpNum snid (-1) }

/-- The cleaning of an inbound instance at `ptn` in state `state`: its `peers` entry, its node
entry when there is one, and its counts go; `ibpNum` counts only the activated and killing ones. -/
def dropInbound (ptn : Nat) (state : Int) (snid : SubNetworkID) (idEx : PeerIdEx) : PeerManager :=
  let nodes := if (pm.nodes.get? snid idEx).isSome then pm.nodes.delete snid idEx else pm.nodes
  let pm := { pm with
    peers := pm.peers.delete ptn, nodes := nodes, ibpTotalNum := pm.ibpTotalNum - 1 }
  if state = peInstStateActivated ∨ state = peInstStateKilling then
    { pm with ibpNum := bump pm.ibpNum snid (-1) }
  else pm

/-- The part of `peMgrKillInst` that removes the map entries of the instance `peInst`, whose
task node is `ptn`: the entries under its identity and direction, whichever instance they hold. -/
def killInstMaps (ptn : Nat) (peInst : PeerInstance) : PeerManager :=
  let snid := peInst.snid
  let idEx : PeerIdEx := ⟨peInst.node.ID, peInst.dir⟩
  let pm := pm.dropWorker snid idEx
  if peInst.dir = PeInstDirOutbound then pm.dropOutbound ptn snid idEx
  else if peInst.dir = PeInstDirInbound then pm.dropInbound ptn peInst.state snid idEx
  else pm

/-- The pingpong timer of the instance at `p` is killed. -/
def killPingpong (p : Nat) : PeerManager :=
  let peInst := pm.inst p
  if peInst.ppTid ≠ schInvalidTid then
    (pm.schKillTimer peInst.ppTid).setInst p { peInst with ppTid := schInvalidTid }
  else pm

/-- The listener is resumed when there is inbound room. -/
def resumeAccepter : PeerManager :=
  if !pm.cfg.noAccept ∧ pm.ibpTotalNum < pm.cfg.ibpNumTotal then pm.send .lsnStartReq else pm

@[simp] theorem killPingpong_peers (p : Nat) : (pm.killPingpong p).peers = pm.peers := by
  unfold killPingpong; dsimp only; split_ifs <;> rfl
@[simp] theorem killPingpong_nodes (p : Nat) : (pm.killPingpong p).nodes = pm.nodes := by
  unfold killPingpong; dsimp only; split_ifs <;> rfl
@[simp] theorem killPingpong_workers (p : Nat) : (pm.killPingpong p).workers = pm.workers := by
  unfold killPingpong; dsimp only; split_ifs <;> rfl
@[simp] theorem resumeAccepter_peers : pm.resumeAccepter.peers = pm.peers := by
  unfold resumeAccepter; split_ifs <;> rfl
@[simp] theorem resumeAccepter_nodes : pm.resumeAccepter.nodes = pm.nodes := by
  unfold resumeAccepter; split_ifs <;> rfl
@[simp] theorem resumeAccepter_workers : pm.resumeAccepter.workers = pm.workers := by
  unfold resumeAccepter; split_ifs <;> rfl

/-- `peMgrKillInst(ptn, node, dir)`: the pingpong timer is killed, the maps are cleaned, the
listener is resumed when inbound room is back, and the instance task is stopped. -/
def peMgrKillInst (ptn : Nat) (_node : Node) (dir : Int) : PeerManager × PeMgrErrno :=
  match pm.peers.get? ptn with
  | none => (pm, .notfound)
  | some p =>
    let peInst := pm.inst p
    if peInst.dir ≠ dir then (pm, .parameter)
    else
      let pm := (((pm.killPingpong p).killInstMaps ptn peInst).updateStaticStatus peInst.snid
        ⟨peInst.node.ID, peInst.dir⟩ peerIdle).resumeAccepter
      (pm.setInst p { pm.inst p with state := peInstStateKilled }, .none)

/-- `peMgrCreateOutboundInst(snid, node)`: a new instance task in `peInstStateConnOut`, entered in
`peers` and `nodes`, and asked to connect. -/
def peMgrCreateOutboundInst (snid : SubNetworkID) (node : Node) : Run (PeerManager × PeMgrErrno) :=
  let pm := { pm with obInstSeq := pm.obInstSeq + 1 }
  let r := pm.schCreateTask
  if !r.2 then .ret (r.1, .scheduler)
  else
    let pm := r.1
    let ptn := pm.sch.insts.length
    let peInst : PeerInstance := { peerInstDefault with
      ptnMe := ptn, state := peInstStateConnOut, dir := PeInstDirOutbound, snid := snid, node := node }
    let pm := { pm with
      sch := { pm.sch with insts := pm.sch.insts ++ [peInst] }, peers := pm.peers.set ptn ptn }
    match pm.nodes.set snid ⟨node.ID, PeInstDirOutbound⟩ ptn with
    | .ret nodes =>
      .ret (({ pm with nodes := nodes, obpNum := bump pm.obpNum snid 1 }).sendInst ptn .connOutReq,
        .none)
    | _ => .panic

/-- `peMgrAsk4More(snid)`: a dynamic sub-network asks the discoverer for the outbounds it lacks;
either kind re-arms its retry timer. -/
def peMgrAsk4More (snid : SubNetworkID) : PeerManager × PeMgrErrno :=
  let more := cnt pm.cfg.subNetMaxOutbounds snid - cnt pm.obpNum snid
  if snid ≠ pm.cfg.staticSubNetId ∧ more ≤ 0 then (pm, .none)
  else
    let pm := if snid ≠ pm.cfg.staticSubNetId then pm.send (.dcvFindNodeReq snid more) else pm
    let pm := match pm.tidFindNode.get? snid with
      | some tid => if tid ≠ schInvalidTid then
          { pm.schKillTimer tid with tidFindNode := pm.tidFindNode.set snid schInvalidTid }
        else pm
      | none => pm
    match pm.schSetTimer (.findNode snid) with
    | (pm, some tid) => ({ pm with tidFindNode := pm.tidFindNode.set snid tid }, .none)
    | (pm, none) => (pm, .scheduler)

/-- The loop of `peMgrDynamicSubNetOutbound` over the candidates: a failed creation is skipped, and
the loop stops once the outbounds reach `maxOutbound`. -/
def dynamicOutboundLoop (snid : SubNetworkID) (maxOutbound : Int) :
    List Node → PeerManager → Run PeerManager
  | [], pm => .ret pm
  | n :: ns, pm => do
    let (pm, eno) ← pm.peMgrCreateOutboundInst snid n
    if eno ≠ .none then dynamicOutboundLoop snid maxOutbound ns pm
    else if cnt pm.obpNum snid ≥ maxOutbound then .ret pm
    else dynamicOutboundLoop snid maxOutbound ns pm

/-- `peMgrDynamicSubNetOutbound(snid)`: the random nodes not yet in `nodes` are dialed, and more
are asked for while the outbounds are short. -/
def peMgrDynamicSubNetOutbound (snid : SubNetworkID) : Run (PeerManager × PeMgrErrno) :=
  if cnt pm.wrkNum snid ≥ cnt pm.cfg.subNetMaxPeers snid then .ret (pm, .none)
  else if cnt pm.obpNum snid ≥ cnt pm.cfg.subNetMaxOutbounds snid then .ret (pm, .none)
  else
    let candidates := ((pm.randoms.get? snid).getD []).filter fun n =>
      (pm.nodes.get? snid ⟨n.ID, PeInstOutPos⟩).isNone
    let pm := { pm with randoms := pm.randoms.set snid [] }
    let maxOutbound := cnt pm.cfg.subNetMaxOutbounds snid
    do
      let pm ← dynamicOutboundLoop snid maxOutbound candidates pm
      if cnt pm.obpNum snid < maxOutbound then
        let r := pm.peMgrAsk4More snid
        if r.2 ≠ .none then return r
        return (r.1, .none)
      return (pm, .none)

/-- The loop of `peMgrStaticSubNetOutbound`, counting `cdNum` down: a candidate picked at random
leaves the list and is dialed; its static status follows the outcome. -/
def staticOutboundLoop (snid : SubNetworkID) : Nat → List Node → PeerManager → Run PeerManager
  | 0, _, pm => .ret pm
  | cdNum + 1, candidates, pm =>
    let r := pm.randIntn (cdNum + 1)
    match candidates[r.2]? with
    | none => .panic
    | some n => do
      let idEx : PeerIdEx := ⟨n.ID, PeInstOutPos⟩
      let candidates := candidates.eraseIdx r.2
      let (pm, eno) ← r.1.peMgrCreateOutboundInst snid n
      if eno ≠ .none then
        let pm := if pm.staticsStatus.contains idEx then
            { pm with staticsStatus := pm.staticsStatus.set idEx peerIdle } else pm
        staticOutboundLoop snid cdNum candidates pm
      else
        let pm := { pm with staticsStatus := pm.staticsStatus.set idEx peerConnectOutInited }
        if cnt pm.obpNum snid ≥ pm.cfg.staticMaxOutbounds then .ret pm
        else staticOutboundLoop snid cdNum candidates pm

/-- `peMgrStaticSubNetOutbound()`: the idle static nodes not yet in `nodes` are dialed in random
order. -/
def peMgrStaticSubNetOutbound : Run (PeerManager × PeMgrErrno) :=
  if pm.cfg.staticNodes = [] then .ret (pm, .none)
  else
    let snid := pm.cfg.staticSubNetId
    if cnt pm.wrkNum snid ≥ pm.cfg.staticMaxPeers then .ret (pm, .none)
    else if cnt pm.obpNum snid ≥ pm.cfg.staticMaxOutbounds then .ret (pm, .none)
    else
      let candidates := pm.cfg.staticNodes.filter fun n =>
        (pm.nodes.get? snid ⟨n.ID, PeInstOutPos⟩).isNone ∧
          (pm.staticsStatus.get? ⟨n.ID, PeInstOutPos⟩).getD 0 = peerIdle
      do
        let pm ← staticOutboundLoop snid candidates.length candidates pm
        if cnt pm.obpNum snid < pm.cfg.staticMaxOutbounds then
          let r := pm.peMgrAsk4More snid
          if r.2 ≠ .none then return r
          return (r.1, .none)
        return (pm, .none)

/-- The loop of `peMgrOutboundReq(nil)` over the dynamic sub-networks: it stops at the first
error. -/
def dynamicOutboundAll : List SubNetworkID → PeerManager → Run (PeerManager × PeMgrErrno)
  | [], pm => .ret (pm, .none)
  | id :: ids, pm => do
    let (pm, eno) ← pm.peMgrDynamicSubNetOutbound id
    if eno ≠ .none then return (pm, eno)
    dynamicOutboundAll ids pm

/-- `peMgrOutboundReq(snid)`: every sub-network when `snid` is nil, otherwise the one named. Every
path that does not return earlier ends with `PeMgrEnoNotfound`. -/
def peMgrOutboundReq (snid : Option SubNetworkID) : Run (PeerManager × PeMgrErrno) :=
  if pm.cfg.noDial ∨ pm.cfg.bootstrapNode then .ret (pm, .none)
  else match snid with
  | none => do
    let (pm, eno) ← pm.peMgrStaticSubNetOutbound
    if eno ≠ .none then return (pm, eno)
    if pm.cfg.networkType ≠ .static then
      let (pm, eno) ← dynamicOutboundAll pm.cfg.subNetIdList pm
      if eno ≠ .none then return (pm, eno)
      return (pm, .notfound)
    return (pm, .notfound)
  | some snid =>
    if pm.cfg.networkType = .static ∧ snid = pm.cfg.staticSubNetId then pm.peMgrStaticSubNetOutbound
    else if pm.cfg.networkType = .dynamic then
      if pm.dynamicSubNetIdExist snid then pm.peMgrDynamicSubNetOutbound snid
      else if pm.staticSubNetIdExist snid then pm.peMgrStaticSubNetOutbound
      else .ret (pm, .notfound)
    else .ret (pm, .notfound)

/-- `peMgrStartReq`: the listener is started, the manager drives its outbounds, and the statistics
timer is re-armed. -/
def peMgrStartReq : PeerManager × PeMgrErrno :=
  let pm := if !pm.cfg.noAccept then pm.send .lsnStartReq else pm
  let pm := pm.sendSelf (.outboundReq none)
  let pm := if pm.ssTid ≠ schInvalidTid then { pm.schKillTimer pm.ssTid with ssTid := schInvalidTid }
    else pm
  match pm.schSetTimer .stat with
  | (pm, some tid) => ({ pm with ssTid := tid }, .none)
  | (pm, none) => ({ pm with ssTid := schInvalidTid }, .scheduler)

/-- One node of `peMgrDcvFindNodeRsp`'s loop: a node already dialed, already a random node, a
static node of the static sub-network, or beyond `subNetMaxPeers` is skipped. -/
def dcvFindNodeAdd (snid : SubNetworkID) (pm : PeerManager × Nat) (n : Node) : PeerManager × Nat :=
  let randoms := (pm.1.randoms.get? snid).getD []
  if (pm.1.nodes.get? snid ⟨n.ID, PeInstOutPos⟩).isSome then pm
  else if randoms.any (·.ID = n.ID) then pm
  else if pm.1.cfg.staticNodes.any (fun s => s.ID = n.ID ∧ snid = pm.1.cfg.staticSubNetId) then pm
  else if (randoms.length : Int) ≥ cnt pm.1.cfg.subNetMaxPeers snid then pm
  else ({ pm.1 with randoms := pm.1.randoms.set snid (randoms ++ [n]) }, pm.2 + 1)

/-- `peMgrDcvFindNodeRsp(rsp)`: new nodes join `randoms[snid]`, and the outbounds are driven when
any did. -/
def peMgrDcvFindNodeRsp (snid : SubNetworkID) (nodes : List Node) : PeerManager × PeMgrErrno :=
  if !pm.dynamicSubNetIdExist snid then (pm, .notfound)
  else
    let r := nodes.foldl (dcvFindNodeAdd snid) (pm, 0)
    ((if r.2 > 0 then r.1.sendSelf (.outboundReq (some snid)) else r.1), .none)

/-- `peMgrDcvFindNodeTimerHandler(snid)`: the outbounds are driven again while they are short; it
answers `PeMgrEnoInternal` when it does. -/
def peMgrDcvFindNodeTimerHandler (snid : SubNetworkID) : PeerManager × PeMgrErrno :=
  let full := match pm.cfg.networkType with
    | .static => decide (cnt pm.obpNum snid ≥ pm.cfg.staticMaxOutbounds)
    | .dynamic => decide (cnt pm.obpNum snid ≥ cnt pm.cfg.subNetMaxOutbounds snid)
  if full then (pm, .none) else (pm.sendSelf (.outboundReq (some snid)), .internal)

/-- `peMgrLsnConnAcceptedInd(msg)`: a new inbound instance task in `peInstStateAccepted`, asked to
handshake; the listener is stopped when the inbounds reach `ibpNumTotal`. -/
def peMgrLsnConnAcceptedInd : PeerManager × PeMgrErrno :=
  let r := { pm with ibInstSeq := pm.ibInstSeq + 1 }.schCreateTask
  if !r.2 then (r.1, .scheduler)
  else
    let ptn := r.1.sch.insts.length
    let peInst : PeerInstance := { peerInstDefault with
      ptnMe := ptn, state := peInstStateAccepted, dir := PeInstDirInbound }
    let pm : PeerManager := { r.1 with
      sch := { r.1.sch with insts := r.1.sch.insts ++ [peInst] } }
    let pm : PeerManager := { pm.sendInst ptn .handshakeReq with
      peers := pm.peers.set ptn ptn, ibpTotalNum := pm.ibpTotalNum + 1 }
    if pm.ibpTotalNum ≥ pm.cfg.ibpNumTotal ∧ !pm.cfg.noAccept then (pm.send .lsnStopReq, .none)
    else (pm, .none)

/-- `peMgrConnOutRsp(rsp)`: a failed dial kills the instance when it still lives and drives the
outbounds; a connected one is asked to handshake. -/
def peMgrConnOutRsp (result : PeMgrErrno) (snid : SubNetworkID) (peNode : Node) (ptn : Nat) :
    PeerManager × PeMgrErrno :=
  if result ≠ .none then
    if pm.live ptn then
      let r := pm.peMgrKillInst ptn peNode PeInstDirOutbound
      if r.2 ≠ .none then r
      else (r.1.sendSelf (.outboundReq (some snid)), .none)
    else (pm, .none)
  else (pm.sendInst ptn .handshakeReq, .none)

/-- `peerInstState.compare(s)`: it panics on a negative state. -/
def peerInstStateCompare (pis s : Int) : Run Int :=
  if pis < 0 then .panic else .ret (pis - s)

/-- `instStateCmpKill(inst, ptn, snid, node, idEx)` for the responding instance at `p`: when
`nodes[snid][idEx]` holds an instance, the one of the two with the lower state is killed (a coin
decides a tie), the outbounds are driven when it was an outbound, and the answer is
`PeMgrEnoDuplicated` whichever was killed. -/
def instStateCmpKill (p ptn : Nat) (snid : SubNetworkID) (node : Node) (idEx : PeerIdEx) :
    Run (PeerManager × PeMgrErrno) :=
  match pm.nodes.get? snid idEx with
  | none => .ret (pm, .none)
  | some d => do
    let inst := pm.inst p
    let dupInst := pm.inst d
    let cmp ← peerInstStateCompare inst.state dupInst.state
    let (pm, killSelf) := if cmp < 0 then (pm, true) else if cmp > 0 then (pm, false)
      else pm.randCoin
    let (ptn2Kill, node2Kill, obKilled) := if killSelf
      then (ptn, node, decide (inst.dir = PeInstDirOutbound))
      else (dupInst.ptnMe, dupInst.node, decide (dupInst.dir = PeInstDirOutbound))
    let pm := (pm.peMgrKillInst ptn2Kill node2Kill
      (if obKilled then PeInstDirOutbound else PeInstDirInbound)).1
    let pm := if obKilled then pm.sendSelf (.outboundReq (some snid)) else pm
    return (pm, .duplicated)

/-- The caps of `snid` that `peMgrHandshakeRsp` reads: inbounds, outbounds and peers. -/
def hsCaps (snid : SubNetworkID) : Int × Int × Int :=
  if pm.cfg.networkType = .static ∧ pm.staticSubNetIdExist snid then
    (pm.cfg.staticMaxInBounds, pm.cfg.staticMaxOutbounds, pm.cfg.staticMaxPeers)
  else if pm.cfg.networkType = .dynamic then
    if pm.dynamicSubNetIdExist snid then
      (cnt pm.cfg.subNetMaxInBounds snid, cnt pm.cfg.subNetMaxOutbounds snid,
        cnt pm.cfg.subNetMaxPeers snid)
    else if pm.staticSubNetIdExist snid then
      (pm.cfg.staticMaxInBounds, pm.cfg.staticMaxOutbounds, pm.cfg.staticMaxPeers)
    else (0, 0, 0)
  else (0, 0, 0)

/-- The end of `peMgrHandshakeRsp` for an admitted instance at `p`: it is told it is established,
it is activated, and `PeerActivated` is enqueued. -/
def peMgrHandshakeRspAdmit (p ptn : Nat) (snid : SubNetworkID) : Run (PeerManager × PeMgrErrno) :=
  let pm := pm.sendInst ptn .establishedInd
  let pm := pm.setInst p { pm.inst p with state := peInstStateActivated }
  let pm := { pm with wrkNum := bump pm.wrkNum snid 1 }
  let inst := pm.inst p
  do
    let pm ← pm.peMgrIndEnque (.peerActivated inst.ptnMe inst.snid inst.dir inst.node.ID)
    return (pm, .none)

/-- The inbound part of `peMgrHandshakeRsp`: a duplicate worker is killed, a dynamic sub-network
checks its inbound cap and resolves an outbound of the same peer by `instStateCmpKill`, and an
admitted instance enters `nodes` and `workers`. -/
def peMgrHandshakeRspInbound (p ptn : Nat) (snid : SubNetworkID) (peNode : Node)
    (maxInbound : Int) : Run (PeerManager × PeMgrErrno) :=
  let idEx : PeerIdEx := ⟨peNode.ID, PeInstInPos⟩
  let kill (pm : PeerManager) := (pm.peMgrKillInst ptn peNode (pm.inst p).dir).1
  let enter (pm : PeerManager) : Run (PeerManager × PeMgrErrno) := do
    let nodes ← pm.nodes.set snid idEx p
    let workers ← pm.workers.set snid idEx p
    let pm := { pm with nodes := nodes, workers := workers, ibpNum := bump pm.ibpNum snid 1 }
    pm.peMgrHandshakeRspAdmit p ptn snid
  if pm.isStaticSubNetId snid then
    if (pm.workers.get? snid idEx).isSome then .ret (kill pm, .duplicated)
    else do
      let workers ← pm.workers.set snid idEx p
      enter { pm with workers := workers }
  else if cnt pm.ibpNum snid ≥ maxInbound then .ret (kill pm, .resource)
  else if (pm.workers.get? snid idEx).isSome then .ret (kill pm, .duplicated)
  else do
    let (pm, e) ← pm.instStateCmpKill p ptn snid peNode ⟨peNode.ID, PeInstOutPos⟩
    if e = .duplicated then return (pm, .duplicated)
    enter pm

/-- The outbound part of `peMgrHandshakeRsp`: as the inbound one, with the outbound cap and an
inbound of the same peer; an admitted instance enters `workers`. -/
def peMgrHandshakeRspOutbound (p ptn : Nat) (snid : SubNetworkID) (peNode : Node)
    (maxOutbound : Int) : Run (PeerManager × PeMgrErrno) :=
  let idEx : PeerIdEx := ⟨peNode.ID, PeInstOutPos⟩
  let kill (pm : PeerManager) := (pm.peMgrKillInst ptn peNode (pm.inst p).dir).1
  let enter (pm : PeerManager) : Run (PeerManager × PeMgrErrno) := do
    let idEx : PeerIdEx := ⟨peNode.ID, PeInstDirOutbound⟩
    let workers ← pm.workers.set snid idEx p
    let pm := { pm with workers := workers }.updateStaticStatus snid idEx peerActivated
    pm.peMgrHandshakeRspAdmit p ptn snid
  if pm.isStaticSubNetId snid then
    if (pm.workers.get? snid idEx).isSome then .ret (kill pm, .duplicated)
    else do
      let workers ← pm.workers.set snid idEx p
      enter { pm with workers := workers }
  else if cnt pm.obpNum snid ≥ maxOutbound then .ret (kill pm, .resource)
  else if (pm.workers.get? snid idEx).isSome then .ret (kill pm, .duplicated)
  else do
    let (pm, e) ← pm.instStateCmpKill p ptn snid peNode ⟨peNode.ID, PeInstInPos⟩
    if e = .duplicated then return (pm, .duplicated)
    enter pm

/-- `peMgrHandshakeRsp(rsp)`: a failed handshake kills the instance; a successful one is admitted
unless the sub-network is full or the peer is a duplicate. -/
def peMgrHandshakeRsp (result : PeMgrErrno) (dir : Int) (snid : SubNetworkID) (peNode : Node)
    (ptn : Nat) : Run (PeerManager × PeMgrErrno) :=
  match pm.peers.get? ptn with
  | none => .ret (pm, .notfound)
  | some p =>
    let inst := pm.inst p
    if inst.snid ≠ snid ∨ inst.dir ≠ dir then .ret (pm, .parameter)
    else
      let idEx : PeerIdEx := ⟨peNode.ID, dir⟩
      if result ≠ .none then
        let pm := (pm.updateStaticStatus snid idEx peerKilling).peMgrKillInst ptn peNode inst.dir
        .ret ((if inst.dir = PeInstDirOutbound then pm.1.sendSelf (.outboundReq (some inst.snid))
          else pm.1), .none)
      else
        let (maxInbound, maxOutbound, maxPeers) := pm.hsCaps snid
        if cnt pm.wrkNum snid ≥ maxPeers then
          .ret (((pm.updateStaticStatus snid idEx peerKilling).peMgrKillInst ptn peNode inst.dir).1,
            .resource)
        else if inst.dir = PeInstDirInbound then
          pm.peMgrHandshakeRspInbound p ptn snid peNode maxInbound
        else if inst.dir = PeInstDirOutbound then
          pm.peMgrHandshakeRspOutbound p ptn snid peNode maxOutbound
        else pm.peMgrHandshakeRspAdmit p ptn snid

/-- `peMgrPingpongRsp(rsp)`: a failed pingpong kills the instance. -/
def peMgrPingpongRsp (result : PeMgrErrno) (dir : Int) (peNode : Node) (ptn : Nat) :
    PeerManager × PeMgrErrno :=
  if result ≠ .none then
    let r := pm.peMgrKillInst ptn peNode dir
    if r.2 ≠ .none then r else (r.1, .none)
  else (pm, .none)

/-- `peMgrCloseReq(req)`: the worker of the peer and direction is asked to close, unless it is
already killing. -/
def peMgrCloseReq (snid : SubNetworkID) (node : Node) (dir : Int) : PeerManager × PeMgrErrno :=
  let idEx : PeerIdEx := ⟨node.ID, dir⟩
  match pm.workers.get? snid idEx with
  | none => (pm, .notfound)
  | some p =>
    let inst := pm.inst p
    if inst.state = peInstStateKilling then (pm, .duplicated)
    else ((pm.updateStaticStatus snid idEx peerKilling).sendInst inst.ptnMe .closeReq, .none)

/-- `peMgrConnCloseCfm(msg)` and `peMgrConnCloseInd(msg)`: the instance is killed, `PeerClosed` is
enqueued and the outbounds are driven; when the kill fails the handler answers
`PeMgrEnoScheduler` before enqueuing anything. -/
def peMgrConnClose (dir : Int) (snid : SubNetworkID) (peNode : Node) (ptn : Nat) :
    Run (PeerManager × PeMgrErrno) :=
  let r := pm.peMgrKillInst ptn peNode dir
  if r.2 ≠ .none then .ret (r.1, .scheduler)
  else do
    let pm ← r.1.peMgrIndEnque (.peerClosed snid peNode.ID)
    return (pm.sendSelf (.outboundReq (some snid)), .none)

/-- `peMgrConnCloseCfm(msg)`. -/
def peMgrConnCloseCfm (dir : Int) (snid : SubNetworkID) (peNode : Node) (ptn : Nat) :
    Run (PeerManager × PeMgrErrno) :=
  pm.peMgrConnClose dir snid peNode ptn

/-- `peMgrConnCloseInd(msg)`. -/
def peMgrConnCloseInd (dir : Int) (snid : SubNetworkID) (peNode : Node) (ptn : Nat) :
    Run (PeerManager × PeMgrErrno) :=
  pm.peMgrConnClose dir snid peNode ptn

/-- `peerMgrProc(ptn, msg)` for a message of the mailbox: a handler's error becomes
`SchEnoUserTask`. -/
def peerMgrProc : PeMgrMsg → Run (SchErrno × PeerManager)
  | m => do
    let (pm, eno) ← match m with
      | .startReq => .ret pm.peMgrStartReq
      | .dcvFindNodeRsp snid nodes => .ret (pm.peMgrDcvFindNodeRsp snid nodes)
      | .dcvFindNodeTimer snid => .ret (pm.peMgrDcvFindNodeTimerHandler snid)
      | .lsnConnAcceptedInd => .ret pm.peMgrLsnConnAcceptedInd
      | .outboundReq snid => pm.peMgrOutboundReq snid
      | .connOutRsp result snid peNode ptn => .ret (pm.peMgrConnOutRsp result snid peNode ptn)
      | .handshakeRsp result dir snid peNode ptn => pm.peMgrHandshakeRsp result dir snid peNode ptn
      | .pingpongRsp result dir peNode ptn => .ret (pm.peMgrPingpongRsp result dir peNode ptn)
      | .closeReq snid node dir => .ret (pm.peMgrCloseReq snid node dir)
      | .closeCfm _ dir snid peNode ptn => pm.peMgrConnCloseCfm dir snid peNode ptn
      | .closeInd _ dir snid peNode ptn => pm.peMgrConnCloseInd dir snid peNode ptn
    return (if eno ≠ .none then .userTask else .none, pm)

end PeerManager

end Gyee.Peer
