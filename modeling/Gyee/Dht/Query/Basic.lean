import Gyee.Dht.RouteTable

/-! # The query manager: control blocks, messages and state

A query control block (QCB) drives one lookup of a target: the peers still to probe wait in
`qryPending`, ordered by distance; each probe runs as an instance task whose control block sits in
`qryActived` under the probed peer; `qryHistory` records every peer a probe was started for.
`qcbTab` maps each target to its QCB.

Go reaches a QCB through a pointer, and a timer message carries that pointer, also after the QCB has
left `qcbTab`. The model keeps the QCBs in a heap `qcbs` indexed by pointer, and `qcbTab` maps a
target to a pointer. The scheduler's side is explicit: the armed timers with the QCB each one names,
the timers killed after they may already have fired, and the instance tasks created. Everything the
query manager sends is appended to `out`.

The `sch` package is not in the repository: its event numbers enter the model only as distinct
names, and `SchInvalidTid` as `-1`. -/

namespace Gyee.Dht.Query

open Gyee Gyee.Dht.RouteTable

/-- `qryMgrMaxPendings`. -/
def qryMgrMaxPendings : Nat := 64

/-- `qryMgrMaxActInsts`, the default of the configured `maxActInsts`. -/
def qryMgrMaxActInsts : Nat := 8

/-- `qryMgrQryMaxWidth`. -/
def qryMgrQryMaxWidth : Nat := 64

/-- `qryMgrQryMaxDepth`. -/
def qryMgrQryMaxDepth : Nat := 8

/-- `sch.SchInvalidTid`. -/
def schInvalidTid : Int := -1

/-- The DHT protobuf's message types a query can be for (`MID_*`). -/
def MID_FINDNODE : Nat := 1

/-- `MID_PUTVALUE`. -/
def MID_PUTVALUE : Nat := 3

/-- `MID_GETVALUE_REQ`. -/
def MID_GETVALUE_REQ : Nat := 4

/-- `MID_PUTPROVIDER`. -/
def MID_PUTPROVIDER : Nat := 6

/-- `MID_GETPROVIDER_REQ`. -/
def MID_GETPROVIDER_REQ : Nat := 7

/-- The query types `queryStartReq` and `rutNearestRsp` accept. -/
def knownForWhat (forWhat : Nat) : Bool :=
  forWhat = MID_PUTVALUE || forWhat = MID_PUTPROVIDER || forWhat = MID_FINDNODE ||
    forWhat = MID_GETPROVIDER_REQ || forWhat = MID_GETVALUE_REQ

/-- `QryStatus`. -/
inductive QryStatus where
  | qsNull | qsPreparing | qsInited
  deriving DecidableEq, Repr

/-- `qisDone`, the instance status of a failed probe. -/
def qisDone : Nat := 4

/-- The `ForWhat` of an instance result: the `sch` events it may name. -/
inductive InstForWhat where
  | evDhtMgrPutValueReq | evDhtMgrPutProviderReq | evDhtConInstNeighbors
  | evDhtConInstGetProviderRsp | evDhtConInstGetValRsp | other (ev : Nat)
  deriving DecidableEq, Repr

/-- Why a QCB is deleted (`delQcb4*`). -/
inductive DelQcbWhy where
  | targetFound | noMoreQueries | timeout | command | noSeeds | targetInLocal | qryInstDoneInd
  | qryInstResultInd | interalErrors | pubAddrSwitch
  deriving DecidableEq, Repr

/-! ### Control blocks -/

/-- `qryPendingInfo`: a bucket node and the depth it was found at. -/
structure QryPendingInfo where
  bn : RutMgrBucketNode
  depth : Nat
  deriving DecidableEq

/-- `qryResultInfo`. -/
structure QryResultInfo where
  node : Node
  pcs : Int
  dist : Nat
  deriving DecidableEq

/-- `qryInstCtrlBlock`: its name `qryMgrIcb_q<seq>_i<icbSeq>` as the two numbers, the instance task
as its task number, and the peer it probes (Go's `to`) as `toNode`. -/
structure QryInstCtrlBlock where
  seq : Nat
  name : Nat × Nat
  ptnInst : Nat
  target : DsKey
  toNode : Node
  depth : Nat
  deriving DecidableEq

/-- `qryCtrlBlock`. The owner task is its task number; `qryPending` and `qryResult` are `nil` lists
until `rutNearestRsp` makes them, and are read as empty lists. -/
structure QryCtrlBlock where
  ptnOwner : Nat
  seq : Nat
  forWhat : Nat
  target : DsKey
  status : QryStatus
  qryHistory : GoMap NodeID QryPendingInfo
  qryPending : List QryPendingInfo
  qryActived : GoMap NodeID QryInstCtrlBlock
  qryResult : List QryResultInfo
  qryTid : Int
  icbSeq : Nat
  rutNtfFlag : Bool
  width : Nat
  depth : Nat
  deriving DecidableEq

instance : Inhabited QryCtrlBlock :=
  ⟨⟨0, 0, 0, Bytes.fill 32 0, .qsNull, ∅, [], ∅, [], 0, 0, false, 0, 0⟩⟩

/-! ### Messages -/

/-- `sch.MsgDhtQryMgrQueryResultInd`. -/
structure MsgDhtQryMgrQueryResultInd where
  Eno : DhtErrno
  ForWhat : Nat
  Target : DsKey
  Val : List UInt8
  Prds : List Node
  Peers : List (Option Node)
  deriving DecidableEq

/-- `sch.MsgDhtRutMgrNearestRsp`, as the query manager reads it; the interface fields are `none`
when nil. -/
structure MsgDhtRutMgrNearestRsp where
  Eno : DhtErrno
  ForWhat : Nat
  Target : DsKey
  Peers : Option (List RutMgrBucketNode)
  Pcs : Option (List Int)
  Dists : Option (List Nat)
  deriving DecidableEq

/-- `sch.MsgDhtQryInstResultInd`. -/
structure MsgDhtQryInstResultInd where
  ForWhat : InstForWhat
  From : Node
  Target : DsKey
  Latency : Int
  Peers : List Node
  Pcs : List Int
  Value : List UInt8
  Provider : Option (List Node)
  deriving DecidableEq

/-- What the query manager sends. A result indication also names the QCB it reports on, by its
pointer. -/
inductive QryMgrOut where
  | queryStartRsp (dst : Nat) (target : DsKey) (eno : DhtErrno)
  | queryResultInd (dst : Nat) (qcb : Nat) (ind : MsgDhtQryMgrQueryResultInd)
  | queryStopRsp (dst : Nat) (target : DsKey) (eno : DhtErrno)
  | nearestReq (target : DsKey) (forWhat : Nat)
  | updateReq (seen : Node) (dura : Int)
  | stopNotifyReq (target : DsKey)
  | instPoweron (ptn : Nat)
  | instStartReq (ptn : Nat)
  | instPoweroff (ptn : Nat)
  | natMakeMapReq (port : Nat)
  | toConMgr
  | pubAddrSwitchInd
  deriving DecidableEq

/-! ### State -/

/-- The scheduler as the query manager sees it: the armed timers, each with the QCB its expiry
message carries; the timers killed, whose expiry may have been queued before the kill; the next
timer identity; and the instance tasks created, by task number. -/
structure Sch where
  timers : List (Int × Nat)
  killed : List (Int × Nat)
  nextTid : Nat
  insts : List QryInstCtrlBlock
  deriving DecidableEq

/-- `QryMgr`: `qcbTab`, the QCBs by pointer, the configuration it reads (`qmCfg.local`,
`qmCfg.maxActInsts`, `qmCfg.maxPendings`), the NAT fields, the scheduler and what was sent. -/
structure QryMgr where
  qcbTab : GoMap DsKey Nat
  qcbs : List QryCtrlBlock
  qcbSeq : Nat
  cfgLocal : Node
  maxActInsts : Nat
  maxPendings : Nat
  natTcpResult : Bool
  pubTcpIp : List UInt8
  pubTcpPort : Nat
  sch : Sch
  out : List QryMgrOut
  deriving DecidableEq

namespace QryMgr

variable (qm : QryMgr)

/-- The QCB at pointer `p`. -/
def qcb (p : Nat) : QryCtrlBlock := qm.qcbs.getD p default

/-- The QCB at pointer `p` written. -/
def setQcb (p : Nat) (q : QryCtrlBlock) : QryMgr := { qm with qcbs := qm.qcbs.set p q }

/-- A message sent. -/
def send (m : QryMgrOut) : QryMgr := { qm with out := qm.out ++ [m] }

@[simp] theorem setQcb_qcbTab (p : Nat) (q : QryCtrlBlock) : (qm.setQcb p q).qcbTab = qm.qcbTab := rfl
@[simp] theorem setQcb_sch (p : Nat) (q : QryCtrlBlock) : (qm.setQcb p q).sch = qm.sch := rfl
@[simp] theorem setQcb_out (p : Nat) (q : QryCtrlBlock) : (qm.setQcb p q).out = qm.out := rfl
@[simp] theorem setQcb_maxActInsts (p : Nat) (q : QryCtrlBlock) :
    (qm.setQcb p q).maxActInsts = qm.maxActInsts := rfl
@[simp] theorem setQcb_maxPendings (p : Nat) (q : QryCtrlBlock) :
    (qm.setQcb p q).maxPendings = qm.maxPendings := rfl
@[simp] theorem setQcb_length (p : Nat) (q : QryCtrlBlock) :
    (qm.setQcb p q).qcbs.length = qm.qcbs.length := by simp [setQcb]

@[simp] theorem send_qcbTab (m : QryMgrOut) : (qm.send m).qcbTab = qm.qcbTab := rfl
@[simp] theorem send_qcbs (m : QryMgrOut) : (qm.send m).qcbs = qm.qcbs := rfl
@[simp] theorem send_sch (m : QryMgrOut) : (qm.send m).sch = qm.sch := rfl
@[simp] theorem send_out (m : QryMgrOut) : (qm.send m).out = qm.out ++ [m] := rfl
@[simp] theorem send_maxActInsts (m : QryMgrOut) : (qm.send m).maxActInsts = qm.maxActInsts := rfl
@[simp] theorem send_maxPendings (m : QryMgrOut) : (qm.send m).maxPendings = qm.maxPendings := rfl
@[simp] theorem send_qcb (m : QryMgrOut) (p : Nat) : (qm.send m).qcb p = qm.qcb p := rfl

theorem qcb_setQcb (p p' : Nat) (q : QryCtrlBlock) (hp : p < qm.qcbs.length) :
    (qm.setQcb p q).qcb p' = if p' = p then q else qm.qcb p' := by
  simp only [qcb, setQcb, List.getD_eq_getElem?_getD, List.getElem?_set]
  split_ifs with h1 h2 h2
  · simp [hp, h1]
  · exact absurd h1.symm h2
  · exact absurd h2.symm h1
  · rfl

@[simp] theorem qcb_setQcb_ne {p p' : Nat} (q : QryCtrlBlock) (h : p' ≠ p) :
    (qm.setQcb p q).qcb p' = qm.qcb p' := by
  simp only [qcb, setQcb, List.getD_eq_getElem?_getD, List.getElem?_set, if_neg (Ne.symm h)]

@[simp] theorem qcb_setQcb_self (p : Nat) (q : QryCtrlBlock) (hp : p < qm.qcbs.length) :
    (qm.setQcb p q).qcb p = q := by
  rw [qcb_setQcb _ _ _ _ hp, if_pos rfl]

@[simp] theorem setQcb_qcb_self (p : Nat) : qm.setQcb p (qm.qcb p) = qm := by
  unfold setQcb qcb
  rw [set_getD_self]

end QryMgr

end Gyee.Dht.Query
