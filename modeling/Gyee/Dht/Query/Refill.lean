import Gyee.Dht.Query.Invariant

/-! # Refilling the active set

`qryMgrQcbPutActived` refills a QCB's active set from its pending queue, and the handlers of
instance indications and route notifications end by checking that it did: `qryDoneCheck` answers
`SchEnoUserTask` ("internal errors") when peers are pending while the active set has room.

`instResultInd` refills only for the three lookups: the result of a `PUT_VALUE` or `PUT_PROVIDER`
probe deletes the probe and leaves every queue as it was (`instResultInd_put_noRefill`), so a
query with more seeds than `maxActInsts` keeps a free slot and pending peers
(`putValueResult_leaves_room`).

The width limit `qryMgrQryMaxWidth` is checked only in `instResultInd`: a failed probe
(`instStatusInd` with `qisDone`) starts the next pending probe whatever the size of the history
(`instStatusInd_qisDone_probes_next`), and a lookup whose probes fail probes more peers than the
limit and the probes in flight (`failedProbes_pass_width`). -/

namespace Gyee.Dht.Query

open Gyee Gyee.Dht.RouteTable

namespace QryMgr

/-! ### Steps that start no probe -/

/-- `qm'` has `qm`'s instance tasks and every QCB's pending queue: no probe was started and no
peer left a queue. -/
def NoRefill (qm qm' : QryMgr) : Prop :=
  qm'.sch.insts = qm.sch.insts ∧ ∀ p, (qm'.qcb p).qryPending = (qm.qcb p).qryPending

theorem NoRefill.refl (qm : QryMgr) : NoRefill qm qm := ⟨rfl, fun _ => rfl⟩

theorem NoRefill.trans {qm qm' qm'' : QryMgr} (h : NoRefill qm qm') (h' : NoRefill qm' qm'') :
    NoRefill qm qm'' :=
  ⟨h'.1.trans h.1, fun p => (h'.2 p).trans (h.2 p)⟩

theorem noRefill_send (qm : QryMgr) (m : QryMgrOut) : NoRefill qm (qm.send m) := NoRefill.refl qm

theorem noRefill_setQcb (qm : QryMgr) (p : Nat) (q : QryCtrlBlock)
    (h : q.qryPending = (qm.qcb p).qryPending) : NoRefill qm (qm.setQcb p q) := by
  refine ⟨rfl, fun p' => ?_⟩
  rcases qcb_setQcb_cases qm p p' q with ⟨rfl, e⟩ | e <;> rw [e]
  exact h

theorem noRefill_qryMgrDelIcb (qm : QryMgr) (why : DelQcbWhy) (t : DsKey) (peer : NodeID) :
    NoRefill qm (qm.qryMgrDelIcb why t peer).1 := by
  rcases qryMgrDelIcb_cases qm why t peer with h | ⟨p, icb, -, -, h⟩
  · rw [h]
    exact NoRefill.refl qm
  · rw [h]
    have hs : NoRefill qm
        (if why = .qryInstResultInd then qm.send (.instPoweroff icb.ptnInst) else qm) := by
      split_ifs
      exacts [noRefill_send qm _, NoRefill.refl qm]
    refine hs.trans (noRefill_setQcb _ p _ ?_)
    split_ifs <;> rfl

theorem noRefill_qryMgrDelQcb (qm : QryMgr) {why : DelQcbWhy} (hwhy : why ≠ .qryInstResultInd)
    (t : DsKey) : NoRefill qm (qm.qryMgrDelQcb why t).1 := by
  rcases qryMgrDelQcb_cases qm why t hwhy with ⟨-, h⟩ | ⟨p, -, -, -, hO, ⟨tid, hP⟩, hI, -⟩
  · rw [h]
    exact NoRefill.refl qm
  · refine ⟨hI, fun p' => ?_⟩
    by_cases e : p' = p
    · rw [e, hP]
    · rw [hO p' e]

theorem noRefill_qryDoneCheck (qm : QryMgr) (p : Nat) (eno : DhtErrno) :
    NoRefill qm (qm.qryDoneCheck p eno).2 := by
  unfold qryDoneCheck
  dsimp only
  split_ifs
  all_goals first
    | exact NoRefill.refl qm
    | exact (noRefill_send qm _).trans (noRefill_qryMgrDelQcb _ (by decide) _)

/-- **The result of a probe that is not a lookup's starts no probe**: it deletes the probe and
leaves every pending queue as it was. -/
theorem instResultInd_put_noRefill (qm : QryMgr) (msg : MsgDhtQryInstResultInd)
    (creates : List Bool) (hfw : lookupFor msg.ForWhat = false) :
    (qm.instResultInd msg creates).Post (NoRefill qm ·.2) := by
  have hnf : ¬(msg.ForWhat = .evDhtConInstGetValRsp ∧ msg.Value ≠ []) ∧
      ¬(msg.ForWhat = .evDhtConInstGetProviderRsp ∧ msg.Provider.isSome) := by
    constructor <;> rintro ⟨h, -⟩ <;> simp [h, lookupFor] at hfw
  unfold instResultInd
  split_ifs
  · exact NoRefill.refl qm
  · exact NoRefill.refl qm
  dsimp only
  split
  · exact noRefill_send qm _
  next p _ =>
  split
  · exact noRefill_send qm _
  next icb _ =>
  rw [Run.post_bind]
  refine Run.Post.mono (fun hds (h : hds = []) => ?_) (resultDistLoop_post _)
  subst h
  refine (noRefill_send qm (.updateReq msg.From msg.Latency)).trans ?_
  unfold instResultRest
  simp only [List.zip_nil_right, List.foldl_nil, setQcb_qcb_self, List.any_nil,
    Bool.false_eq_true, and_false, if_false]
  rw [if_neg hnf.1, if_neg hnf.2]
  unfold instResultNext
  split
  next qm1 eno heq =>
  have h1 : NoRefill _ qm1 := heq ▸ noRefill_qryMgrDelIcb _ _ _ _
  by_cases he : eno ≠ .none
  · rw [if_pos he]
    exact h1
  rw [if_neg he]
  dsimp only
  simp only [hfw, Bool.false_eq_true, false_and, if_false]
  refine h1.trans ((?_ : NoRefill qm1 _).trans (noRefill_qryDoneCheck _ p _))
  split_ifs
  · exact noRefill_setQcb _ p _ rfl
  · exact NoRefill.refl qm1

end QryMgr

/-! ### A `PUT_VALUE` query with more seeds than probes -/

/-- A `PUT_VALUE` query for `exampleTarget` seeded with nine peers: eight probes start and one peer
waits. The scheduler creates every task it is asked for. -/
def putValueRun : List QryEvent :=
  [.queryStartReq 0 exampleTarget MID_PUTVALUE,
    .rutNearestRsp (exampleNearestRsp MID_PUTVALUE [1, 2, 3, 4, 5, 6, 7, 8, 9]) true []]

/-- The result of the first probe: the value is put, and no peer is reported. -/
def putValueResult : QryEvent := .instResultInd 0 .evDhtMgrPutValueReq 0 [] [] [] none []

/-- **After the result of a `PUT_VALUE` probe the query keeps a pending peer and a free probe
slot**, and the handler answers `SchEnoUserTask` for its internal error. -/
theorem putValueResult_leaves_room :
    ∃ qm, Reachable (fun _ => 0) qm ∧ ∃ e qm', qm.qryMgrProc putValueResult = some (.ret (e, qm')) ∧
      e = .userTask ∧ qm'.qcbTab.get? exampleTarget = some 0 ∧ (qm'.qcb 0).status = .qsInited ∧
      (qm'.qcb 0).qryPending.length = 1 ∧ (qm'.qcb 0).qryActived.size + 1 = qm'.maxActInsts := by
  have hrun : (runEvents (newQryMgr (Node.ofId (exampleId 0)) qryMgrMaxActInsts) putValueRun).map
      (stepCheck putValueResult fun e qm' => decide (e = .userTask) &&
        decide (qm'.qcbTab.get? exampleTarget = some 0) && decide ((qm'.qcb 0).status = .qsInited) &&
        decide ((qm'.qcb 0).qryPending.length = 1) &&
        decide ((qm'.qcb 0).qryActived.size + 1 = qm'.maxActInsts)) = some true := by
    decide
  obtain ⟨qm, h, hc⟩ := (Reachable.init _ _ : Reachable (fun _ => 0) _).exists_of_runEvents
    putValueRun (by simp [putValueRun, RouteConsistent, exampleNearestRsp, examplePeer]) hrun
  obtain ⟨e, qm', heq, hc⟩ := stepCheck_eq_true hc
  simp only [Bool.and_eq_true, decide_eq_true_eq] at hc
  exact ⟨qm, h, e, qm', heq, hc.1.1.1.1, hc.1.1.1.2, hc.1.1.2, hc.1.2, hc.2⟩

/-! ### A failed probe starts the next one -/

/-- The activation loop never shrinks the history nor deactivates a peer. -/
theorem putActivedLoop_grows (maxActInsts seq : Nat) (target : DsKey) :
    ∀ (rest : List QryPendingInfo) (acc : PutActivedAcc),
      let r := putActivedLoop maxActInsts seq target rest acc
      acc.history.size ≤ r.history.size ∧
        ∀ id, acc.actived.contains id = true → r.actived.contains id = true
  | [], _ => ⟨le_rfl, fun _ => id⟩
  | pending :: rest, acc => by
    unfold putActivedLoop
    split_ifs
    · exact ⟨le_rfl, fun _ => id⟩
    · exact putActivedLoop_grows maxActInsts seq target rest { acc with act := acc.act + 1 }
    · exact ⟨le_rfl, fun _ => id⟩
    · obtain ⟨h1, h2⟩ := putActivedLoop_grows maxActInsts seq target rest
        (acc.activate seq target pending)
      refine ⟨le_trans ?_ h1, fun id hid => h2 id ?_⟩
      · simp only [PutActivedAcc.activate, GoMap.size_set]
        split_ifs <;> omega
      · simp [PutActivedAcc.activate, hid]

/-- **With room, a fresh head of the queue is probed**: it becomes active and the history grows. -/
theorem putActivedLoop_starts_head (maxActInsts seq : Nat) (target : DsKey) (x : QryPendingInfo)
    (rest : List QryPendingInfo) (acc : PutActivedAcc) (hroom : acc.actived.size < maxActInsts)
    (hact : acc.actived.contains x.nodeId = false) (hcr : acc.creates.headD true = true)
    (hfresh : acc.history.contains x.nodeId = false) :
    let r := putActivedLoop maxActInsts seq target (x :: rest) acc
    acc.history.size < r.history.size ∧ r.actived.contains x.nodeId = true := by
  unfold putActivedLoop
  rw [if_neg (by omega), if_neg (by simp [hact]), if_neg (by rw [hcr]; decide)]
  obtain ⟨h1, h2⟩ := putActivedLoop_grows maxActInsts seq target rest
    (acc.activate seq target x)
  refine ⟨lt_of_lt_of_le ?_ h1, h2 _ ?_⟩
  · simp [PutActivedAcc.activate, GoMap.size_set, hfresh]
  · simp [PutActivedAcc.activate]

namespace QryMgr

/-- `qryMgrQcbPutActived` probes the head of the queue of the QCB at `p` when the QCB has room, the
head is fresh and the scheduler creates its task. -/
theorem qryMgrQcbPutActived_starts_head (qm : QryMgr) (p : Nat) (creates : List Bool)
    (hp : p < qm.qcbs.length) {x : QryPendingInfo} {rest : List QryPendingInfo}
    (hq : (qm.qcb p).qryPending = x :: rest) (hroom : (qm.qcb p).qryActived.size < qm.maxActInsts)
    (hact : (qm.qcb p).qryActived.contains x.nodeId = false) (hcr : creates.headD true = true)
    (hfresh : (qm.qcb p).qryHistory.contains x.nodeId = false) :
    let qm' := (qm.qryMgrQcbPutActived p creates).1
    (qm.qcb p).qryHistory.size < (qm'.qcb p).qryHistory.size ∧
      (qm'.qcb p).qryActived.contains x.nodeId = true := by
  unfold qryMgrQcbPutActived
  dsimp only
  rw [if_neg (by simp [hq]), if_neg (by omega)]
  show (qm.qcb p).qryHistory.size < ((qm.setQcb p _).qcb p).qryHistory.size ∧
    ((qm.setQcb p _).qcb p).qryActived.contains x.nodeId = true
  rw [qcb_setQcb_self _ _ _ hp, hq]
  exact putActivedLoop_starts_head _ _ _ x rest ⟨(qm.qcb p).qryActived, (qm.qcb p).qryHistory,
    (qm.qcb p).icbSeq, qm.sch, qm.out, creates, 0, 0, .none⟩ hroom hact hcr hfresh

/-- `qryDoneCheck` leaves the state alone while the QCB has an active probe. -/
theorem qryDoneCheck_snd_of_active (qm : QryMgr) (p : Nat) (eno : DhtErrno)
    (h : (qm.qcb p).qryActived.size ≠ 0) : (qm.qryDoneCheck p eno).2 = qm := by
  unfold qryDoneCheck
  dsimp only
  split_ifs with h1 h2 <;> first | rfl | exact absurd h2.2 h

/-- **A failed probe starts the next pending probe**, with no check of the width of the query: the
status indication `qisDone` of an active probe of a query with pending peers keeps the query and
grows its history. -/
theorem instStatusInd_qisDone_probes_next {distOf : NodeID → Nat} {qm : QryMgr}
    (hi : Inv distOf qm) {t : DsKey} {p : Nat} {peer : NodeID} {creates : List Bool}
    (hp : qm.qcbTab.get? t = some p) (hact : (qm.qcb p).qryActived.contains peer = true)
    (hpend : (qm.qcb p).qryPending ≠ []) (hcr : creates.headD true = true) :
    ∃ e qm', qm.instStatusInd t peer qisDone creates = .ret (e, qm') ∧
      qm'.qcbTab.get? t = some p ∧ (qm.qcb p).qryHistory.size < (qm'.qcb p).qryHistory.size := by
  have he := hi.entry t p hp
  obtain ⟨icb, hicb⟩ := (GoMap.contains_iff _ _).mp hact
  obtain ⟨x, rest, hx⟩ := List.exists_cons_of_ne_nil hpend
  set q1 : QryCtrlBlock := { qm.qcb p with qryActived := (qm.qcb p).qryActived.delete peer }
  have hq1 : (qm.setQcb p q1).qcb p = q1 := qcb_setQcb_self _ _ _ he.lt
  have hfresh : (qm.qcb p).qryHistory.contains x.nodeId = false :=
    he.queues.pending.fresh x (hx ▸ List.mem_cons_self _ _)
  have hnact : (qm.qcb p).qryActived.contains x.nodeId = false := by
    cases h : (qm.qcb p).qryActived.contains x.nodeId
    · rfl
    · rw [he.queues.actived_history _ h] at hfresh
      cases hfresh
  have hroom : q1.qryActived.size < qm.maxActInsts := by
    have := GoMap.size_pos_of_contains hact
    have := he.queues.actived_le
    simp only [q1, GoMap.size_delete, hact, if_true]
    omega
  obtain ⟨h1, h2⟩ := qryMgrQcbPutActived_starts_head (qm.setQcb p q1) p creates (by simpa using he.lt)
    (by rw [hq1]; exact hx) (by rw [hq1]; exact hroom) (by simp [hq1, q1, hnact]) hcr
    (by rw [hq1]; exact hfresh)
  set qm2 := ((qm.setQcb p q1).qryMgrQcbPutActived p creates).1
  have hk : Keeps distOf (qm.setQcb p q1) qm2 := keeps_qryMgrQcbPutActived _ _ _
  have hdone : ∀ eno, (qm2.qryDoneCheck p eno).2 = qm2 := fun eno =>
    qryDoneCheck_snd_of_active _ _ _ (GoMap.size_pos_of_contains h2).ne'
  have hdel : qm.qryMgrDelIcb .qryInstDoneInd t peer = (qm.setQcb p q1, .none) := by
    simp [qryMgrDelIcb, hp, hicb]
  have hrun : ∃ eno, qm.instStatusInd t peer qisDone creates = .ret (qm2.qryDoneCheck p eno) := by
    unfold instStatusInd
    simp only [if_true, hp, hdel, ne_eq, not_true_eq_false, if_false]
    exact ⟨_, rfl⟩
  obtain ⟨eno, hrun⟩ := hrun
  refine ⟨(qm2.qryDoneCheck p eno).1, qm2, ?_, by rw [hk.qcbTab]; exact hp,
    by rw [hq1] at h1; exact h1⟩
  rw [hrun]
  exact congrArg _ (Prod.ext rfl (hdone eno))

end QryMgr

/-! ### A lookup whose probes fail -/

/-- A node lookup of `exampleTarget` seeded with sixty-four peers whose probes fail one after the
other; when the history holds `qryMgrQryMaxWidth` peers, a route notification brings nine more,
and their probes fail too. The scheduler creates every task. -/
def failedProbesRun : List QryEvent :=
  [.queryStartReq 0 exampleTarget MID_FINDNODE,
    .rutNearestRsp (exampleNearestRsp MID_FINDNODE ((List.range 64).map fun i => (i + 1).toUInt8))
      true []] ++
  (List.range 56).map (fun i => .instStatusInd i qisDone []) ++
  [.rutNotificationInd exampleTarget ((List.range 9).map fun i => examplePeer (i + 100).toUInt8) []] ++
  (List.range 9).map (fun i => .instStatusInd (i + 56) qisDone [])

/-- **A lookup whose probes fail passes the width limit by more than the probes in flight**: with
the default `maxActInsts`, the query is still in the table with seventy-three peers probed. -/
theorem failedProbes_pass_width :
    ∃ qm, Reachable (fun _ => 0) qm ∧ qm.qcbTab.get? exampleTarget = some 0 ∧
      qm.maxActInsts = qryMgrMaxActInsts ∧
      qryMgrQryMaxWidth + qm.maxActInsts < (qm.qcb 0).qryHistory.size := by
  have hrun : (runEvents (newQryMgr (Node.ofId (exampleId 0)) qryMgrMaxActInsts)
      failedProbesRun).map (fun qm => decide (qm.qcbTab.get? exampleTarget = some 0) &&
        decide (qm.maxActInsts = qryMgrMaxActInsts) &&
        decide (qryMgrQryMaxWidth + qm.maxActInsts < (qm.qcb 0).qryHistory.size)) = some true := by
    set_option maxRecDepth 100000 in decide
  obtain ⟨qm, h, hc⟩ := (Reachable.init _ _ : Reachable (fun _ => 0) _).exists_of_runEvents
    failedProbesRun (by
      simp only [failedProbesRun, List.mem_append, List.mem_map, List.mem_cons, List.mem_singleton,
        List.not_mem_nil, or_false, or_assoc]
      rintro _ (rfl | rfl | ⟨_, -, rfl⟩ | rfl | ⟨_, -, rfl⟩) <;>
        simp [RouteConsistent, exampleNearestRsp, examplePeer]) hrun
  simp only [Bool.and_eq_true, decide_eq_true_eq] at hc
  exact ⟨qm, h, hc.1.1, hc.1.2, hc.2⟩

end Gyee.Dht.Query
