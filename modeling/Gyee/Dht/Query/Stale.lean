import Gyee.Dht.Query.Invariant

/-! # Messages of a deleted query

A QCB's timer and its instances outlive the QCB: a timer killed after its expiry was queued still
delivers the expiry, and an instance's indications name only the target and the peer. The handlers
act on what such a message names, not on the QCB that sent it. `qcbTimerHandler` reports a timeout
for the QCB of the timer's pointer and deletes whatever QCB the table holds under that QCB's target
(`qcbTimerHandler_spec`). The stale expiry of a deleted QCB thus reports that QCB a second time and
deletes the query that took its target since (`staleTimer_reports_twice`). -/

namespace Gyee.Dht.Query

open Gyee Gyee.Dht.RouteTable

/-- Whether a message is a `QueryResultInd` for the QCB at `p`. -/
def QryMgrOut.isResultFor (p : Nat) : QryMgrOut → Bool
  | .queryResultInd _ p' _ => p' == p
  | _ => false

namespace QryMgr

/-- The number of `QueryResultInd` messages sent so far for the QCB at `p`. -/
def resultCount (qm : QryMgr) (p : Nat) : Nat := qm.out.countP (·.isResultFor p)

@[simp] theorem resultCount_send (qm : QryMgr) (m : QryMgrOut) (p : Nat) :
    (qm.send m).resultCount p = qm.resultCount p + if m.isResultFor p then 1 else 0 := by
  simp only [resultCount, send_out, List.countP_append, List.countP_singleton]

/-- **Deleting a QCB reports nothing**: it only powers instances off and stops notifications. -/
theorem resultCount_qryMgrDelQcb (qm : QryMgr) (why : DelQcbWhy) (t : DsKey) (p : Nat) :
    (qm.qryMgrDelQcb why t).1.resultCount p = qm.resultCount p := by
  unfold qryMgrDelQcb
  split_ifs
  · rfl
  split
  · rfl
  dsimp only
  split_ifs <;> simp [resultCount, poweroffAll_eq, killTimer, setQcb, send, List.countP_append,
    QryMgrOut.isResultFor]

/-- **The timer handler reports the QCB of the timer's pointer once and deletes the table's entry
for that QCB's target**, whichever QCB the entry holds. -/
theorem qcbTimerHandler_spec (qm : QryMgr) (p : Nat) :
    ∃ qm', qm.qcbTimerHandler p = .ret (.none, qm') ∧ qm'.resultCount p = qm.resultCount p + 1 ∧
      ∀ t, qm'.qcbTab.get? t = if t = (qm.qcb p).target then none else qm.qcbTab.get? t := by
  refine ⟨_, rfl, ?_, fun t => ?_⟩
  · simp [resultCount_qryMgrDelQcb, qryMgrResultReport, QryMgrOut.isResultFor]
  rcases qryMgrDelQcb_cases (qm.qryMgrResultReport (qm.qcb p) p .timeout [] none) .timeout
    (qm.qcb p).target (by decide) with ⟨hn, h⟩ | ⟨_, -, h, -⟩
  · rw [h]
    split_ifs with ht
    · exact ht ▸ hn
    · rfl
  · rw [h, GoMap.get?_delete]
    rfl

end QryMgr

/-- A node lookup of `exampleTarget` whose only probe fails, so that it is reported and deleted, and
a second lookup of the same target, which takes the next QCB and starts its timer. -/
def staleTimerRun : List QryEvent :=
  [.queryStartReq 0 exampleTarget MID_FINDNODE,
    .rutNearestRsp (exampleNearestRsp MID_FINDNODE [1]) true [],
    .instStatusInd 0 qisDone [],
    .queryStartReq 0 exampleTarget MID_FINDNODE,
    .rutNearestRsp (exampleNearestRsp MID_FINDNODE [2]) true []]

/-- **The queued expiry of a deleted query's timer reports it again and deletes its successor**:
the first QCB was reported once and the second one is inited in the table; the first QCB's killed
timer then delivers its expiry, which reports the first QCB a second time and drops the second from
the table. -/
theorem staleTimer_reports_twice :
    ∃ qm, Reachable (fun _ => 0) qm ∧ qm.qcbTab.get? exampleTarget = some 1 ∧
      (qm.qcb 1).status = .qsInited ∧ (qm.qcb 0).target = exampleTarget ∧ qm.resultCount 0 = 1 ∧
      ∃ e qm', qm.qryMgrProc (.qcbTimerStale 0 0) = some (.ret (e, qm')) ∧
        qm'.qcbTab.get? exampleTarget = none ∧ qm'.resultCount 0 = 2 := by
  have hrun : (runEvents (newQryMgr (Node.ofId (exampleId 0)) qryMgrMaxActInsts) staleTimerRun).map
      (fun qm => decide (qm.qcbTab.get? exampleTarget = some 1) &&
        decide ((qm.qcb 1).status = .qsInited) && decide ((qm.qcb 0).target = exampleTarget) &&
        decide (qm.resultCount 0 = 1) &&
        stepCheck (.qcbTimerStale 0 0) (fun _ qm' => decide (qm'.qcbTab.get? exampleTarget = none) &&
          decide (qm'.resultCount 0 = 2)) qm) = some true := by
    decide
  obtain ⟨qm, h, hc⟩ := (Reachable.init _ _ : Reachable (fun _ => 0) _).exists_of_runEvents
    staleTimerRun (by simp [staleTimerRun, RouteConsistent, exampleNearestRsp, examplePeer]) hrun
  simp only [Bool.and_eq_true, decide_eq_true_eq] at hc
  obtain ⟨e, qm', heq, hc'⟩ := stepCheck_eq_true hc.2
  simp only [Bool.and_eq_true, decide_eq_true_eq] at hc'
  exact ⟨qm, h, hc.1.1.1.1, hc.1.1.1.2, hc.1.1.2, hc.1.2, e, qm', heq, hc'⟩

end Gyee.Dht.Query
