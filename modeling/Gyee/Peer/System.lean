import Gyee.Peer.Manager

/-! # Runs of the peer manager and its instance tasks

A run interleaves the steps of the manager task, of the instance tasks, and of the tasks outside
the model that talk to the manager:

- the manager takes the first message of its mailbox and runs `peerMgrProc` on it, with the
  answers the scheduler and `math/rand` give to that handler's calls;
- an instance task that is not stopped takes the first message of its own mailbox and runs its
  handler (`piConnOutReq`, `piHandshakeReq`, `piEstablishedInd`, `piCloseReq`); the network gives
  the outcome of dialing and of the two halves of the handshake;
- an established instance whose rx, tx or pingpong fails asks the manager to close it, as `piTx`,
  `piRx` and `piPingpongTimerHandler` do;
- the listener reports an accepted connection, the discoverer answers with nodes, a user calls
  `ClosePeer`, a discovery timer expires, and the consumer of `indChan` takes an indication.

No task of the repository sends `EvPePingpongRsp` or `EvPeCloseInd`. `peMgrPoweron` is the start of
a run, with `PeMgrStart`'s `EvPeMgrStartReq` in the mailbox. -/

namespace Gyee.Peer

open Gyee

/-- The network's answers to an instance task's next step: whether the dial succeeds, the remote's
handshake (its sub-network and identity) or the error reading it, the result of writing ours,
whether the pingpong timer is set, and whether the connection's deadline is cleared. -/
structure PiAnswers where
  dialOk : Bool
  hsRead : Except PeMgrErrno (SubNetworkID × NodeID)
  hsWrite : PeMgrErrno
  timerOk : Bool
  deadlineOk : Bool

namespace PeerManager

variable (pm : PeerManager)

/-- `piConnOutReq` of the instance at `p`: a dial from `peInstStateConnOut`; the result goes to
the manager. -/
def piConnOutReq (p : Nat) (dialOk : Bool) : PeerManager :=
  let inst := pm.inst p
  if inst.dir ≠ PeInstDirOutbound ∨ inst.state ≠ peInstStateConnOut then pm
  else
    let inst := if dialOk then { inst with state := peInstStateConnected } else inst
    (pm.setInst p inst).sendSelf
      (.connOutRsp (if dialOk then .none else .os) inst.snid inst.node inst.ptnMe)

/-- `piHandshakeInbound`: the remote's handshake is read first; its sub-network must be one of the
manager's, and it gives the instance its sub-network and peer. -/
def piHandshakeInbound (p : Nat) (rd : Except PeMgrErrno (SubNetworkID × NodeID))
    (wr : PeMgrErrno) : PeerManager × PeMgrErrno :=
  match rd with
  | .error e => (pm, e)
  | .ok (hsSnid, hsId) =>
    if !pm.dynamicSubNetIdExist hsSnid ∧ !pm.staticSubNetIdExist hsSnid then (pm, .notfound)
    else
      let inst := pm.inst p
      let inst := { inst with snid := hsSnid, node := { inst.node with ID := hsId } }
      if wr ≠ .none then (pm.setInst p inst, wr)
      else (pm.setInst p { inst with state := peInstStateHandshook }, .none)

/-- `piHandshakeOutbound`: ours is written first; the remote's must name the dialed sub-network and
peer. -/
def piHandshakeOutbound (p : Nat) (rd : Except PeMgrErrno (SubNetworkID × NodeID))
    (wr : PeMgrErrno) : PeerManager × PeMgrErrno :=
  if wr ≠ .none then (pm, wr)
  else match rd with
  | .error e => (pm, e)
  | .ok (hsSnid, hsId) =>
    let inst := pm.inst p
    if hsSnid ≠ inst.snid then (pm, .message)
    else if hsId ≠ inst.node.ID then (pm, .message)
    else (pm.setInst p { inst with state := peInstStateHandshook }, .none)

/-- `piHandshakeReq` of the instance at `p`: from `peInstStateConnected` or `peInstStateAccepted`,
the handshake of its direction; the result goes to the manager. -/
def piHandshakeReq (p : Nat) (rd : Except PeMgrErrno (SubNetworkID × NodeID)) (wr : PeMgrErrno) :
    PeerManager :=
  let inst := pm.inst p
  if inst.state ≠ peInstStateConnected ∧ inst.state ≠ peInstStateAccepted then pm
  else
    let r := if inst.dir = PeInstDirInbound then pm.piHandshakeInbound p rd wr
      else if inst.dir = PeInstDirOutbound then pm.piHandshakeOutbound p rd wr
      else (pm, .internal)
    let inst := r.1.inst p
    r.1.sendSelf (.handshakeRsp r.2 inst.dir inst.snid inst.node inst.ptnMe)

/-- `piEstablishedInd` of the instance at `p`: the pingpong timer is armed, and the rx and tx
routines start; when the deadline cannot be cleared the instance asks to be closed instead. -/
def piEstablishedInd (p : Nat) (timerOk deadlineOk : Bool) : PeerManager :=
  if !timerOk then pm
  else
    let tid := pm.sch.nextTid
    let pm := { pm with sch := { pm.sch with
      timers := pm.sch.timers ++ [(tid, PeTimer.pingpong p)], nextTid := tid + 1 } }
    let inst := { pm.inst p with ppTid := tid }
    if !deadlineOk then
      (pm.setInst p inst).sendSelf (.closeReq inst.snid (Node.ofId inst.node.ID) inst.dir)
    else pm.setInst p { inst with rxtxRuning := true }

/-- `piCloseReq` of the instance at `p`: it enters `peInstStateKilling`, stops its rx and tx
routines and confirms to the manager; an instance already killing does nothing. -/
def piCloseReq (p : Nat) : PeerManager :=
  let inst := pm.inst p
  if inst.state = peInstStateKilling then pm
  else
    (pm.setInst p { inst with state := peInstStateKilling, rxtxRuning := false }).sendSelf
      (.closeCfm .none inst.dir inst.snid inst.node inst.ptnMe)

/-- The instance task at `p` handles the first message of its mailbox; `none` when the task is
stopped or its mailbox is empty. -/
def piProc (p : Nat) (a : PiAnswers) : Option PeerManager :=
  if p ≥ pm.sch.insts.length ∨ (pm.inst p).state = peInstStateKilled then none
  else match pm.sch.ibox.find? (·.1 = p) with
  | none => none
  | some (_, m) =>
    let pm := { pm with sch := { pm.sch with ibox := pm.sch.ibox.erase (p, m) } }
    some (match m with
      | .connOutReq => pm.piConnOutReq p a.dialOk
      | .handshakeReq => pm.piHandshakeReq p a.hsRead a.hsWrite
      | .establishedInd => pm.piEstablishedInd p a.timerOk a.deadlineOk
      | .closeReq => pm.piCloseReq p)

/-- The rx, tx or pingpong of the established instance at `p` fails: it asks the manager to close
it. -/
def piIoFailure (p : Nat) : Option PeerManager :=
  let inst := pm.inst p
  if inst.state = peInstStateKilled ∨ !inst.rxtxRuning then none
  else some (pm.sendSelf (.closeReq inst.snid inst.node inst.dir))

/-- The manager handles the first message of its mailbox, with the answers `ans` to its calls. -/
def mgrProc (ans : SchAnswers) : Option (Run PeerManager) :=
  match pm.sch.mbox with
  | [] => none
  | m :: ms =>
    some ((·.2) <$> ({ pm with sch := { pm.sch with mbox := ms, ans := ans } }).peerMgrProc m)

end PeerManager

/-- A step of a run. -/
inductive PeEvent where
  | mgrProc (ans : SchAnswers)
  | piProc (ptn : Nat) (a : PiAnswers)
  | piIoFailure (ptn : Nat)
  | lsnConnAccepted
  | dcvFindNodeRsp (snid : SubNetworkID) (nodes : List Node)
  | closePeer (snid : SubNetworkID) (id : NodeID)
  | findNodeTimer (tid : Int)
  | indTake

namespace PeerManager

variable (pm : PeerManager)

/-- `ClosePeer(snid, id)`: a close request for each direction. -/
def closePeer (snid : SubNetworkID) (id : NodeID) : PeerManager :=
  (pm.sendSelf (.closeReq snid (Node.ofId id) PeInstOutPos)).sendSelf
    (.closeReq snid (Node.ofId id) PeInstInPos)

/-- The discovery timer `tid` expires: it leaves the armed timers, and its message is queued. -/
def findNodeTimer (tid : Int) : Option PeerManager :=
  match pm.sch.timers.find? (·.1 = tid) with
  | some (_, .findNode snid) =>
    some ({ pm with sch := { pm.sch with timers := pm.sch.timers.filter (·.1 ≠ tid) } }.sendSelf
      (.dcvFindNodeTimer snid))
  | _ => none

/-- A step: `none` when it cannot happen. -/
def step : PeEvent → Option (Run PeerManager)
  | .mgrProc ans => pm.mgrProc ans
  | .piProc p a => (pm.piProc p a).map .ret
  | .piIoFailure p => (pm.piIoFailure p).map .ret
  | .lsnConnAccepted => some (.ret (pm.sendSelf .lsnConnAcceptedInd))
  | .dcvFindNodeRsp snid nodes => some (.ret (pm.sendSelf (.dcvFindNodeRsp snid nodes)))
  | .closePeer snid id => some (.ret (pm.closePeer snid id))
  | .findNodeTimer tid => (pm.findNodeTimer tid).map .ret
  | .indTake => if pm.indTaken < pm.indChan.length then
      some (.ret { pm with indTaken := pm.indTaken + 1 }) else none

end PeerManager

/-- The sub-networks `peMgrPoweron` makes tables and counters for. -/
def poweronSubNets (c : PeMgrConfig) : List SubNetworkID :=
  match c.networkType with
  | .dynamic => c.subNetIdList ++ (if c.staticNodes ≠ [] then [c.staticSubNetId] else [])
  | .static => [c.staticSubNetId]

/-- The configuration `peMgrPoweron` keeps: `ibpNumTotal` sums the inbound caps it is given, and a
dynamic node with no sub-network joins `AnySubNet` with the default caps. -/
def poweronConfig (cfg : Cfg4PeerManager) (dflt : SubNetDefaults) : PeMgrConfig :=
  let c : PeMgrConfig := ⟨cfg.NoDial, cfg.NoAccept, cfg.BootstrapNode, cfg.NetworkType,
    cfg.StaticMaxPeers, cfg.StaticMaxOutbounds, cfg.StaticMaxInBounds, cfg.StaticNodes,
    cfg.StaticNetId, cfg.SubNetMaxPeers, cfg.SubNetMaxOutbounds, cfg.SubNetMaxInBounds,
    cfg.SubNetIdList, cfg.SubNetMaxInBounds.bindings.foldl (fun n b => n + b.2) cfg.StaticMaxInBounds⟩
  if c.subNetIdList = [] ∧ c.networkType = .dynamic then
    { c with
      subNetIdList := [dflt.AnySubNet]
      subNetMaxPeers := c.subNetMaxPeers.set dflt.AnySubNet dflt.MaxPeers
      subNetMaxOutbounds := c.subNetMaxOutbounds.set dflt.AnySubNet dflt.MaxOutbounds
      subNetMaxInBounds := c.subNetMaxInBounds.set dflt.AnySubNet dflt.MaxInbounds }
  else c

/-- `NewPeerMgr` and `peMgrPoweron(ptn)`: every static node idle in both directions, empty tables
and zero counters for each sub-network, and `EvPeMgrStartReq` in the mailbox. -/
def peMgrPoweron (cfg : Cfg4PeerManager) (dflt : SubNetDefaults) : PeerManager :=
  let c := poweronConfig cfg dflt
  let snids := poweronSubNets c
  let tabs : PeerTab := snids.foldl (fun m s => GoMap.set m s ∅) ∅
  let counters : GoMap SubNetworkID Int := snids.foldl (fun m s => m.set s 0) ∅
  let statics : GoMap PeerIdEx Int := c.staticNodes.foldl
    (fun m sn => (m.set ⟨sn.ID, PeInstOutPos⟩ peerIdle).set ⟨sn.ID, PeInstInPos⟩ peerIdle) ∅
  ⟨c, 0, 0, ∅, tabs, tabs, counters, counters, counters, 0, ∅, ∅, 0, statics, [], 0, [],
    ⟨[], [.startReq], [], [], 0, ⟨[], [], [], []⟩⟩⟩

/-- The states of the peer manager reached from power-on by steps that return. -/
inductive Reachable : PeerManager → Prop
  | init (cfg : Cfg4PeerManager) (dflt : SubNetDefaults) : Reachable (peMgrPoweron cfg dflt)
  | step {pm pm' : PeerManager} {ev : PeEvent} : Reachable pm → pm.step ev = some (.ret pm') →
      Reachable pm'

/-- The state after the steps `evs`, when each can happen and returns. -/
def runEvents (pm : PeerManager) : List PeEvent → Option PeerManager
  | [] => some pm
  | ev :: evs =>
    match pm.step ev with
    | some (.ret pm') => runEvents pm' evs
    | _ => none

/-- **A run of steps reaches a reachable state.** -/
theorem Reachable.of_runEvents :
    ∀ {pm pm' : PeerManager} (evs : List PeEvent), Reachable pm → runEvents pm evs = some pm' →
      Reachable pm'
  | _, _, [], h, hr => Option.some.inj hr ▸ h
  | pm, _, ev :: evs, h, hr => by
    unfold Gyee.Peer.runEvents at hr
    split at hr
    · next pm' heq => exact Reachable.of_runEvents evs (h.step heq) hr
    · cases hr

/-- **A run that ends in a state passing a test**: a reachable state passes it. The test is
evaluated on the run, so `decide` settles the hypothesis for a concrete run. -/
theorem Reachable.exists_of_runEvents {pm0 : PeerManager} (h0 : Reachable pm0)
    (evs : List PeEvent) {P : PeerManager → Bool} (h : (runEvents pm0 evs).map P = some true) :
    ∃ pm, Reachable pm ∧ P pm = true := by
  cases hr : runEvents pm0 evs with
  | none => simp [hr] at h
  | some pm =>
    simp only [hr, Option.map_some', Option.some.injEq] at h
    exact ⟨pm, h0.of_runEvents evs hr, h⟩

end Gyee.Peer
