import Gyee.Basic

/-! # The peer manager: instances, messages and state

The peer manager (`PeerManager`) runs one task, and each peer connection runs as a peer instance
task (`peerInstance`). The manager knows an instance by its task node: `peers` maps each live task
node to its instance, and `nodes[snid]` and `workers[snid]` map a peer's identity and direction in
the sub-network `snid` to an instance. The model keeps the instances in a heap indexed by task node,
and the maps hold task nodes. An instance's record is shared by the two tasks: the manager reads
its `state`, and the instance task writes it.

The scheduler is explicit: the mailbox of the manager and those of the instance tasks (the
scheduler delivers a task's messages in the order they were sent), the armed timers, and the answers
the scheduler and `math/rand` give to the calls of the handler that runs next (`SchCreateTask`,
`SchSetTimer`, `rand.Intn`, `rand.Int`). The indication channel `indChan` is the list of every
indication enqueued, with the number the consumer has taken; what is still queued is the rest.

The `config` and `sch` packages are not in the repository: the configuration is the record of the
fields `peMgrPoweron` reads, the network types are two names, and `sch.SchInvalidTid` is `-1`. -/

namespace Gyee.Peer

open Gyee

/-- `PeMgrErrno`. -/
inductive PeMgrErrno where
  | none | parameter | scheduler | config | resource | os | message | duplicated | notfound
  | mismatched | internal | pingpongTh | unknown
  deriving DecidableEq, Repr

/-- `peInstStateNull`; `peerInstState` is an `int`, and the states are compared as integers. -/
def peInstStateNull : Int := 0

/-- `peInstStateConnOut`: outbound connection inited. -/
def peInstStateConnOut : Int := 1

/-- `peInstStateAccepted`: inbound accepted, handshake needed. -/
def peInstStateAccepted : Int := 2

/-- `peInstStateConnected`: outbound connected, handshake needed. -/
def peInstStateConnected : Int := 3

/-- `peInstStateHandshook`. -/
def peInstStateHandshook : Int := 4

/-- `peInstStateActivated`: working. -/
def peInstStateActivated : Int := 5

/-- `peInstStateKilling`. -/
def peInstStateKilling : Int := -1

/-- `peInstStateKilled`. -/
def peInstStateKilled : Int := -2

/-- `PeInstDirNull`. -/
def PeInstDirNull : Int := -1

/-- `PeInstDirInbound`. -/
def PeInstDirInbound : Int := 0

/-- `PeInstDirOutbound`. -/
def PeInstDirOutbound : Int := 1

/-- `PeInstInPos`, the direction in the key of an inbound instance. -/
def PeInstInPos : Int := 0

/-- `PeInstOutPos`, the direction in the key of an outbound instance. -/
def PeInstOutPos : Int := 1

/-- `peerIdle`, a static node's status. -/
def peerIdle : Int := 0

/-- `peerConnectOutInited`. -/
def peerConnectOutInited : Int := 1

/-- `peerActivated`. -/
def peerActivated : Int := 2

/-- `peerKilling`. -/
def peerKilling : Int := 3

/-- `maxIndicationQueueSize`, the capacity of `indChan`. -/
def maxIndicationQueueSize : Nat := 512

/-- `sch.SchInvalidTid`. -/
def schInvalidTid : Int := -1

/-- `config.P2pNetworkTypeDynamic` and `config.P2pNetworkTypeStatic`. -/
inductive P2pNetworkType where
  | dynamic | static
  deriving DecidableEq, Repr

/-- `PeerIdEx`: a peer's identity and a direction. -/
structure PeerIdEx where
  Id : NodeID
  Dir : Int
  deriving DecidableEq

/-- `peerInstance`, with what the two tasks read of it: its task node, state, direction,
sub-network and peer, its pingpong timer, and whether its rx and tx routines run. -/
structure PeerInstance where
  ptnMe : Nat
  state : Int
  dir : Int
  snid : SubNetworkID
  node : Node
  ppTid : Int
  rxtxRuning : Bool
  deriving DecidableEq

/-- `peerInstDefault`, the record every new instance starts from. -/
def peerInstDefault : PeerInstance :=
  ⟨0, peInstStateNull, PeInstDirNull, Bytes.fill 2 0, Node.ofId (Bytes.fill 64 0), schInvalidTid,
    false⟩

/-- The messages of the manager's mailbox, with the fields its handlers read. -/
inductive PeMgrMsg where
  | startReq
  | dcvFindNodeRsp (Snid : SubNetworkID) (Nodes : List Node)
  | dcvFindNodeTimer (snid : SubNetworkID)
  | lsnConnAcceptedInd
  | outboundReq (snid : Option SubNetworkID)
  | connOutRsp (result : PeMgrErrno) (snid : SubNetworkID) (peNode : Node) (ptn : Nat)
  | handshakeRsp (result : PeMgrErrno) (dir : Int) (snid : SubNetworkID) (peNode : Node) (ptn : Nat)
  | pingpongRsp (result : PeMgrErrno) (dir : Int) (peNode : Node) (ptn : Nat)
  | closeReq (Snid : SubNetworkID) (Node : Node) (Dir : Int)
  | closeCfm (result : PeMgrErrno) (dir : Int) (snid : SubNetworkID) (peNode : Node) (ptn : Nat)
  | closeInd (cause : PeMgrErrno) (dir : Int) (snid : SubNetworkID) (peNode : Node) (ptn : Nat)
  deriving DecidableEq

/-- The messages the manager sends to an instance task. -/
inductive PiMsg where
  | connOutReq | handshakeReq | establishedInd | closeReq
  deriving DecidableEq

/-- What the manager sends to the listener and to the discoverer. -/
inductive PeMgrOut where
  | lsnStartReq | lsnStopReq
  | dcvFindNodeReq (Snid : SubNetworkID) (More : Int)
  deriving DecidableEq

/-- The indications of `indChan`: `P2pIndPeerActivatedPara` with the instance's task node and
handshake fields, and `P2pIndPeerClosedPara`. -/
inductive PeInd where
  | peerActivated (Ptn : Nat) (Snid : SubNetworkID) (Dir : Int) (NodeId : NodeID)
  | peerClosed (Snid : SubNetworkID) (PeerId : NodeID)
  deriving DecidableEq

/-- A timer and what its expiry does: the discovery timer of a sub-network, the statistics timer,
and an instance's pingpong timer. -/
inductive PeTimer where
  | findNode (snid : SubNetworkID) | stat | pingpong (ptn : Nat)
  deriving DecidableEq

/-- The answers of the scheduler and of `math/rand` to the calls of the handler that runs next:
`SchCreateTask` and `SchSetTimer` succeed once their answers run out, and `rand` gives `0`. -/
structure SchAnswers where
  creates : List Bool
  timers : List Bool
  picks : List Nat
  coins : List Bool
  deriving DecidableEq

/-- The scheduler: the instance tasks by task node, the mailboxes, the armed timers, and the answers
to the running handler's calls. -/
structure PeSch where
  insts : List PeerInstance
  mbox : List PeMgrMsg
  ibox : List (Nat × PiMsg)
  timers : List (Int × PeTimer)
  nextTid : Int
  ans : SchAnswers
  deriving DecidableEq

/-- `config.Cfg4PeerManager`, with the fields `peMgrPoweron` reads. -/
structure Cfg4PeerManager where
  NoDial : Bool
  NoAccept : Bool
  BootstrapNode : Bool
  NetworkType : P2pNetworkType
  StaticMaxPeers : Int
  StaticMaxOutbounds : Int
  StaticMaxInBounds : Int
  StaticNodes : List Node
  StaticNetId : SubNetworkID
  SubNetMaxPeers : GoMap SubNetworkID Int
  SubNetMaxOutbounds : GoMap SubNetworkID Int
  SubNetMaxInBounds : GoMap SubNetworkID Int
  SubNetIdList : List SubNetworkID
  deriving DecidableEq

/-- `config.AnySubNet`, `config.MaxPeers`, `config.MaxOutbounds` and `config.MaxInbounds`: the
sub-network a dynamic node joins when none is configured, and its caps. -/
structure SubNetDefaults where
  AnySubNet : SubNetworkID
  MaxPeers : Int
  MaxOutbounds : Int
  MaxInbounds : Int
  deriving DecidableEq

/-- `peMgrConfig`, with the fields the handlers read. -/
structure PeMgrConfig where
  noDial : Bool
  noAccept : Bool
  bootstrapNode : Bool
  networkType : P2pNetworkType
  staticMaxPeers : Int
  staticMaxOutbounds : Int
  staticMaxInBounds : Int
  staticNodes : List Node
  staticSubNetId : SubNetworkID
  subNetMaxPeers : GoMap SubNetworkID Int
  subNetMaxOutbounds : GoMap SubNetworkID Int
  subNetMaxInBounds : GoMap SubNetworkID Int
  subNetIdList : List SubNetworkID
  ibpNumTotal : Int
  deriving DecidableEq

/-- A map of sub-networks to maps of peers to task nodes (`nodes`, `workers`). -/
abbrev PeerTab := GoMap SubNetworkID (GoMap PeerIdEx Nat)

/-- `PeerManager`. -/
structure PeerManager where
  cfg : PeMgrConfig
  ibInstSeq : Nat
  obInstSeq : Nat
  peers : GoMap Nat Nat
  nodes : PeerTab
  workers : PeerTab
  wrkNum : GoMap SubNetworkID Int
  ibpNum : GoMap SubNetworkID Int
  obpNum : GoMap SubNetworkID Int
  ibpTotalNum : Int
  randoms : GoMap SubNetworkID (List Node)
  tidFindNode : GoMap SubNetworkID Int
  ssTid : Int
  staticsStatus : GoMap PeerIdEx Int
  indChan : List PeInd
  indTaken : Nat
  out : List PeMgrOut
  sch : PeSch
  deriving DecidableEq

/-! ### Go maps of maps and of counters -/

namespace PeerTab

/-- `m[snid][idEx]`: a missing inner map reads as empty. -/
def get? (m : PeerTab) (snid : SubNetworkID) (idEx : PeerIdEx) : Option Nat :=
  (GoMap.get? m snid).bind (·.get? idEx)

/-- `m[snid][idEx] = v`: writing to a missing (nil) inner map panics. -/
def set (m : PeerTab) (snid : SubNetworkID) (idEx : PeerIdEx) (v : Nat) : Run PeerTab :=
  match GoMap.get? m snid with
  | some inner => .ret (GoMap.set m snid (inner.set idEx v))
  | none => .panic

/-- `delete(m[snid], idEx)`: deleting from a nil map does nothing. -/
def delete (m : PeerTab) (snid : SubNetworkID) (idEx : PeerIdEx) : PeerTab :=
  match GoMap.get? m snid with
  | some inner => GoMap.set m snid (inner.delete idEx)
  | none => m

/-- `len(m[snid])`. -/
def size (m : PeerTab) (snid : SubNetworkID) : Nat := ((GoMap.get? m snid).map GoMap.size).getD 0

@[simp] theorem get?_delete (m : PeerTab) (snid snid' : SubNetworkID) (idEx idEx' : PeerIdEx) :
    (m.delete snid idEx).get? snid' idEx' =
      if snid' = snid ∧ idEx' = idEx then none else m.get? snid' idEx' := by
  unfold delete get?
  split <;> by_cases h1 : snid' = snid <;> by_cases h2 : idEx' = idEx <;> simp_all

/-- What `m[snid][idEx] = v` reads back, when it returns. -/
theorem post_set (m : PeerTab) (snid : SubNetworkID) (idEx : PeerIdEx) (v : Nat) :
    (m.set snid idEx v).Post fun m' => ∀ snid' idEx',
      m'.get? snid' idEx' = if snid' = snid ∧ idEx' = idEx then some v else m.get? snid' idEx' := by
  unfold set
  split
  · intro snid' idEx'
    unfold get?
    by_cases h1 : snid' = snid <;> by_cases h2 : idEx' = idEx <;> simp_all
  · trivial

theorem get?_of_set {m m' : PeerTab} {snid : SubNetworkID} {idEx : PeerIdEx} {v : Nat}
    (h : m.set snid idEx v = .ret m') (snid' : SubNetworkID) (idEx' : PeerIdEx) :
    m'.get? snid' idEx' = if snid' = snid ∧ idEx' = idEx then some v else m.get? snid' idEx' := by
  have hs := post_set m snid idEx v
  rw [h] at hs
  exact hs snid' idEx'

/-- `m[snid][idEx] = v` adds one to `len(m[snid])` when `idEx` is a new key. -/
theorem size_of_set {m m' : PeerTab} {snid : SubNetworkID} {idEx : PeerIdEx} {v : Nat}
    (h : m.set snid idEx v = .ret m') (s : SubNetworkID) :
    m'.size s = m.size s + if s = snid ∧ m.get? snid idEx = none then 1 else 0 := by
  unfold set at h
  split at h
  · next inner hi =>
    cases h
    by_cases hs : s = snid
    · subst hs
      simp only [size, get?, GoMap.get?_set, hi, if_true, Option.map_some', Option.getD_some,
        GoMap.size_set, Option.some_bind, true_and, GoMap.contains, Option.isSome_iff_ne_none]
      split_ifs <;> simp_all
    · simp [size, hs]
  · cases h

/-- `delete(m[snid], idEx)` takes one off `len(m[snid])` when the key is there. -/
theorem size_delete (m : PeerTab) (snid : SubNetworkID) (idEx : PeerIdEx) (s : SubNetworkID) :
    (m.delete snid idEx).size s + (if s = snid ∧ (m.get? snid idEx).isSome then 1 else 0) =
      m.size s := by
  unfold delete
  split
  · next inner hi =>
    by_cases hs : s = snid
    · subst hs
      have hpos := @GoMap.size_pos_of_contains _ _ _ inner idEx
      simp only [size, get?, GoMap.get?_set, hi, if_true, Option.map_some', Option.getD_some,
        GoMap.size_delete, Option.some_bind, true_and, GoMap.contains] at hpos ⊢
      split_ifs at hpos ⊢ <;> simp_all; omega
    · simp [size, hs]
  · next hi => simp [get?, hi]

end PeerTab

/-- `m[snid]` of a Go map of counters: `0` when missing. -/
def cnt (m : GoMap SubNetworkID Int) (snid : SubNetworkID) : Int := (m.get? snid).getD 0

/-- `m[snid] += d`. -/
def bump (m : GoMap SubNetworkID Int) (snid : SubNetworkID) (d : Int) : GoMap SubNetworkID Int :=
  m.set snid (cnt m snid + d)

@[simp] theorem cnt_bump (m : GoMap SubNetworkID Int) (snid snid' : SubNetworkID) (d : Int) :
    cnt (bump m snid d) snid' = if snid' = snid then cnt m snid + d else cnt m snid' := by
  unfold bump cnt
  by_cases h : snid' = snid <;> simp [h]

namespace PeerManager

variable (pm : PeerManager)

/-- The instance of task node `p`. -/
def inst (p : Nat) : PeerInstance := pm.sch.insts.getD p peerInstDefault

/-- The instance of task node `p` written. -/
def setInst (p : Nat) (i : PeerInstance) : PeerManager :=
  { pm with sch := { pm.sch with insts := pm.sch.insts.set p i } }

/-- Whether the task node `p` is in `peers`. -/
def live (p : Nat) : Bool := pm.peers.contains p

/-- `SchSendMessage` to the instance task `p`. -/
def sendInst (p : Nat) (m : PiMsg) : PeerManager :=
  { pm with sch := { pm.sch with ibox := pm.sch.ibox ++ [(p, m)] } }

/-- `SchSendMessage` to the manager itself. -/
def sendSelf (m : PeMgrMsg) : PeerManager :=
  { pm with sch := { pm.sch with mbox := pm.sch.mbox ++ [m] } }

/-- A message to the listener or the discoverer. -/
def send (m : PeMgrOut) : PeerManager := { pm with out := pm.out ++ [m] }

/-- `SchCreateTask`: whether it succeeds, and the scheduler after it. -/
def schCreateTask : PeerManager × Bool :=
  ({ pm with sch := { pm.sch with ans := { pm.sch.ans with creates := pm.sch.ans.creates.tail } } },
    pm.sch.ans.creates.headD true)

/-- `SchSetTimer`: the timer's identity, or `none` when it fails. -/
def schSetTimer (t : PeTimer) : PeerManager × Option Int :=
  let pm' := { pm with sch := { pm.sch with ans := { pm.sch.ans with timers := pm.sch.ans.timers.tail } } }
  if pm.sch.ans.timers.headD true then
    ({ pm' with sch := { pm'.sch with
      timers := pm'.sch.timers ++ [(pm.sch.nextTid, t)], nextTid := pm.sch.nextTid + 1 } },
      some pm.sch.nextTid)
  else (pm', none)

/-- `SchKillTimer`. -/
def schKillTimer (tid : Int) : PeerManager :=
  { pm with sch := { pm.sch with timers := pm.sch.timers.filter (·.1 ≠ tid) } }

/-- `rand.Intn(n)`, for `0 < n`. -/
def randIntn (n : Nat) : PeerManager × Nat :=
  ({ pm with sch := { pm.sch with ans := { pm.sch.ans with picks := pm.sch.ans.picks.tail } } },
    pm.sch.ans.picks.headD 0 % n)

/-- `rand.Int() & 0x01 == 0`. -/
def randCoin : PeerManager × Bool :=
  ({ pm with sch := { pm.sch with ans := { pm.sch.ans with coins := pm.sch.ans.coins.tail } } },
    pm.sch.ans.coins.headD true)

/-- `len(indChan)`: what was enqueued and not yet taken. -/
def indLen : Nat := pm.indChan.length - pm.indTaken

@[simp] theorem setInst_peers (p : Nat) (i : PeerInstance) : (pm.setInst p i).peers = pm.peers := rfl
@[simp] theorem setInst_nodes (p : Nat) (i : PeerInstance) : (pm.setInst p i).nodes = pm.nodes := rfl
@[simp] theorem setInst_workers (p : Nat) (i : PeerInstance) :
    (pm.setInst p i).workers = pm.workers := rfl
@[simp] theorem setInst_indChan (p : Nat) (i : PeerInstance) :
    (pm.setInst p i).indChan = pm.indChan := rfl
@[simp] theorem sendInst_peers (p : Nat) (m : PiMsg) : (pm.sendInst p m).peers = pm.peers := rfl
@[simp] theorem sendInst_nodes (p : Nat) (m : PiMsg) : (pm.sendInst p m).nodes = pm.nodes := rfl
@[simp] theorem sendInst_workers (p : Nat) (m : PiMsg) : (pm.sendInst p m).workers = pm.workers := rfl
@[simp] theorem sendSelf_peers (m : PeMgrMsg) : (pm.sendSelf m).peers = pm.peers := rfl
@[simp] theorem sendSelf_nodes (m : PeMgrMsg) : (pm.sendSelf m).nodes = pm.nodes := rfl
@[simp] theorem sendSelf_workers (m : PeMgrMsg) : (pm.sendSelf m).workers = pm.workers := rfl
@[simp] theorem sendSelf_indChan (m : PeMgrMsg) : (pm.sendSelf m).indChan = pm.indChan := rfl
@[simp] theorem send_peers (m : PeMgrOut) : (pm.send m).peers = pm.peers := rfl
@[simp] theorem send_nodes (m : PeMgrOut) : (pm.send m).nodes = pm.nodes := rfl
@[simp] theorem send_workers (m : PeMgrOut) : (pm.send m).workers = pm.workers := rfl
@[simp] theorem schKillTimer_peers (tid : Int) : (pm.schKillTimer tid).peers = pm.peers := rfl
@[simp] theorem schKillTimer_nodes (tid : Int) : (pm.schKillTimer tid).nodes = pm.nodes := rfl
@[simp] theorem schKillTimer_workers (tid : Int) : (pm.schKillTimer tid).workers = pm.workers := rfl

end PeerManager

end Gyee.Peer
