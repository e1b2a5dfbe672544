import Gyee.Dht.Query.Handlers

/-! # Runs of the query manager

`qryMgrProc` hands each message of the mailbox to its handler. An event is a message with what the
handler reads of it, and the scheduler's answers the handler gets (whether the QCB timer is set,
whether each instance task is created):

- a QCB timer expires only while it is armed: the timer leaves the armed set and
  `qcbTimerHandler` runs with the QCB pointer the timer was set with;
- a timer killed after its expiry was queued delivers that expiry once, later (`qcbTimerStale`);
- an instance task's indications name the target and the peer of the probe it was started for.
  The instance task (`qryinst.go`) is not in the repository: its messages are modelled from the
  spec's sentence that responses carry the correlation of the request they answer.

The route manager's messages carry bucket nodes, and each bucket node the route manager builds has
`dist = rutMgrLog2Dist(shaLocal, hash)` with `hash` the SHA-256 of its identity: the distance is a
function of the identity. `RouteConsistent distOf` states this of an event's bucket nodes; runs
are made of such events. Power-on reads the configuration (`qmCfg.local`, `qmCfg.maxActInsts`);
power-off ends the task and is not an event. -/

namespace Gyee.Dht.Query

open Gyee Gyee.Dht.RouteTable

/-- A message of the query manager's mailbox, with the scheduler's answers to what its handler
asks for. -/
inductive QryEvent where
  | queryStartReq (sender : Nat) (target : DsKey) (forWhat : Nat)
  | rutNearestRsp (msg : MsgDhtRutMgrNearestRsp) (timerOk : Bool) (creates : List Bool)
  | qcbTimer (tid : Int) (p : Nat)
  | qcbTimerStale (tid : Int) (p : Nat)
  | queryStopReq (sender : Nat) (target : DsKey)
  | rutNotificationInd (target : DsKey) (peers : List RutMgrBucketNode) (creates : List Bool)
  | instStatusInd (ptn : Nat) (status : Nat) (creates : List Bool)
  | instResultInd (ptn : Nat) (forWhat : InstForWhat) (latency : Int) (peers : List Node)
      (pcs : List Int) (value : List UInt8) (provider : Option (List Node)) (creates : List Bool)
  | natMgrReadyInd (natNone : Bool)
  | natMakeMapRsp (proto : String) (statusOk : Bool) (pubIp : List UInt8) (pubPort : Nat)
  | natPubAddrUpdateInd (proto : String) (statusOk : Bool) (pubIp : List UInt8) (pubPort : Nat)

namespace QryMgr

/-- The QCB timer `(tid, p)` expires: it is no longer armed. -/
def expire (qm : QryMgr) (tid : Int) (p : Nat) : QryMgr :=
  { qm with sch := { qm.sch with timers := qm.sch.timers.erase (tid, p) } }

/-- The queued expiry of the killed timer `(tid, p)` is delivered. -/
def deliverStale (qm : QryMgr) (tid : Int) (p : Nat) : QryMgr :=
  { qm with sch := { qm.sch with killed := qm.sch.killed.erase (tid, p) } }

/-- `qryMgrProc(ptn, msg)`: `none` when the event cannot happen in `qm` (a timer that is not armed
or killed, an instance task that was never created). -/
def qryMgrProc (qm : QryMgr) : QryEvent → Option (Run (SchErrno × QryMgr))
  | .queryStartReq sender target forWhat => some (qm.queryStartReq sender target forWhat)
  | .rutNearestRsp msg timerOk creates => some (qm.rutNearestRsp msg timerOk creates)
  | .qcbTimer tid p =>
    if (tid, p) ∈ qm.sch.timers then some ((qm.expire tid p).qcbTimerHandler p) else none
  | .qcbTimerStale tid p =>
    if (tid, p) ∈ qm.sch.killed then some ((qm.deliverStale tid p).qcbTimerHandler p) else none
  | .queryStopReq sender target => some (qm.queryStopReq sender target)
  | .rutNotificationInd target peers creates => some (qm.rutNotificationInd target peers creates)
  | .instStatusInd ptn status creates => (qm.sch.insts.get? ptn).map fun icb =>
    qm.instStatusInd icb.target icb.toNode.ID status creates
  | .instResultInd ptn forWhat latency peers pcs value provider creates =>
    (qm.sch.insts.get? ptn).map fun icb =>
      qm.instResultInd ⟨forWhat, icb.toNode, icb.target, latency, peers, pcs, value, provider⟩ creates
  | .natMgrReadyInd natNone => some (qm.natMgrReadyInd natNone)
  | .natMakeMapRsp proto statusOk pubIp pubPort => some (qm.natMakeMapRsp proto statusOk pubIp pubPort)
  | .natPubAddrUpdateInd proto statusOk pubIp pubPort =>
    some (qm.natPubAddrUpdateInd proto statusOk pubIp pubPort)

end QryMgr

/-- The query manager after `NewQryMgr` and power-on with the configured local node and
`maxActInsts`: no QCB, the default `maxPendings`, no NAT result and the zero public address. -/
def newQryMgr (cfgLocal : Node) (maxActInsts : Nat) : QryMgr :=
  ⟨∅, [], 0, cfgLocal, maxActInsts, qryMgrMaxPendings, false, [0, 0, 0, 0], 0, ⟨[], [], 0, []⟩, []⟩

/-- The bucket nodes of a route manager message are at the distance `distOf` gives their
identity. -/
def RouteConsistent (distOf : NodeID → Nat) : QryEvent → Prop
  | .rutNearestRsp msg _ _ => ∀ peers ∈ msg.Peers, ∀ bn ∈ peers, bn.dist = distOf bn.node.ID
  | .rutNotificationInd _ peers _ => ∀ bn ∈ peers, bn.dist = distOf bn.node.ID
  | _ => True

/-- The states of the query manager reached from power-on by events whose handlers return. -/
inductive Reachable (distOf : NodeID → Nat) : QryMgr → Prop
  | init (cfgLocal : Node) (maxActInsts : Nat) : Reachable distOf (newQryMgr cfgLocal maxActInsts)
  | step {qm qm' : QryMgr} {ev : QryEvent} {e : SchErrno} : Reachable distOf qm →
      RouteConsistent distOf ev → qm.qryMgrProc ev = some (.ret (e, qm')) → Reachable distOf qm'

/-- The state after `evs`, when each event can happen and its handler returns. -/
def runEvents (qm : QryMgr) : List QryEvent → Option QryMgr
  | [] => some qm
  | ev :: evs =>
    match qm.qryMgrProc ev with
    | some (.ret (_, qm')) => runEvents qm' evs
    | _ => none

/-- **A run of events reaches a reachable state.** -/
theorem Reachable.of_runEvents {distOf : NodeID → Nat} :
    ∀ {qm qm' : QryMgr} (evs : List QryEvent), Reachable distOf qm →
      (∀ ev ∈ evs, RouteConsistent distOf ev) → runEvents qm evs = some qm' → Reachable distOf qm'
  | _, _, [], h, _, hr => Option.some.inj hr ▸ h
  | qm, _, ev :: evs, h, hc, hr => by
    unfold Gyee.Dht.Query.runEvents at hr
    split at hr
    · next e qm' heq =>
      exact Reachable.of_runEvents evs (h.step (hc ev (List.mem_cons_self _ _)) heq)
        (fun ev' hm => hc ev' (List.mem_cons_of_mem _ hm)) hr
    · cases hr

/-- Whether the event `ev` can happen in `qm` and its handler returns a code and a state that pass
the test `P`. -/
def stepCheck (ev : QryEvent) (P : SchErrno → QryMgr → Bool) (qm : QryMgr) : Bool :=
  match qm.qryMgrProc ev with
  | some (.ret (e, qm')) => P e qm'
  | _ => false

theorem stepCheck_eq_true {ev : QryEvent} {P : SchErrno → QryMgr → Bool} {qm : QryMgr}
    (h : stepCheck ev P qm = true) :
    ∃ e qm', qm.qryMgrProc ev = some (.ret (e, qm')) ∧ P e qm' = true := by
  unfold stepCheck at h
  split at h
  · exact ⟨_, _, by assumption, h⟩
  · cases h

/-- **A run that ends in a state passing a test**: a reachable state passes it. The test is
evaluated on the run, so `decide` settles the hypothesis for a concrete run. -/
theorem Reachable.exists_of_runEvents {distOf : NodeID → Nat} {qm0 : QryMgr}
    (h0 : Reachable distOf qm0) (evs : List QryEvent) (hc : ∀ ev ∈ evs, RouteConsistent distOf ev)
    {P : QryMgr → Bool} (h : (runEvents qm0 evs).map P = some true) :
    ∃ qm, Reachable distOf qm ∧ P qm = true := by
  cases hr : runEvents qm0 evs with
  | none => simp [hr] at h
  | some qm =>
    simp only [hr, Option.map_some', Option.some.injEq] at h
    exact ⟨qm, h0.of_runEvents evs hc hr, h⟩

/-- A query target used in the runs that witness results. -/
def exampleTarget : DsKey := Bytes.fill 32 7

/-- The identity whose first byte is `k` and whose other bytes are `0`. -/
def exampleId (k : UInt8) : NodeID := ⟨k :: List.replicate 63 0, by simp⟩

/-- The bucket node of the peer `exampleId k`, at distance `0`. -/
def examplePeer (k : UInt8) : RutMgrBucketNode := ⟨Node.ofId (exampleId k), Bytes.fill 32 0, 0⟩

/-- A nearest response of the route manager for `exampleTarget` with the peers `ks`. -/
def exampleNearestRsp (forWhat : Nat) (ks : List UInt8) : MsgDhtRutMgrNearestRsp :=
  ⟨.none, forWhat, exampleTarget, some (ks.map examplePeer), some (ks.map fun _ => 0),
    some (ks.map fun _ => 0)⟩

end Gyee.Dht.Query
