import Gyee.Dht.Query.Pending

/-! # Activating, deleting and reporting

`qryMgrQcbPutActived` walks the pending queue from its front and starts an instance task for each
entry while the QCB has room; every entry it visits leaves the queue, also one skipped because the
peer is already active and the one whose task the scheduler failed to create. A started probe
enters `qryActived` and `qryHistory` under its peer.

`qryMgrDelQcb` kills the timer of an inited QCB, powers off its instances and drops `qcbTab`'s
entry; the QCB object stays where the pointers in timer messages can still reach it.

The main results: `putActivedLoop_spec` (the loop keeps the active set within `maxActInsts` and
inside the history, and leaves no history node in what remains of the queue) and
`keeps_qryMgrQcbPutActived` (activation is a step that only works on queues). -/

namespace Gyee.Dht.Query

open Gyee Gyee.Dht.RouteTable

/-- What `qryMgrQcbPutActived`'s loop changes: the QCB's active set, history and instance counter,
the scheduler, the messages sent, the task creation outcomes still to come, the number of queue
elements visited (`act`), `cnt` and the result code. -/
structure PutActivedAcc where
  actived : GoMap NodeID QryInstCtrlBlock
  history : GoMap NodeID QryPendingInfo
  icbSeq : Nat
  sch : Sch
  out : List QryMgrOut
  creates : List Bool
  act : Nat
  cnt : Nat
  eno : DhtErrno

/-- A probe started for `pending`: its instance task and control block, the peer entered in the
active set and the history, and the power-on and start requests sent to the task. -/
def PutActivedAcc.activate (acc : PutActivedAcc) (seq : Nat) (target : DsKey)
    (pending : QryPendingInfo) : PutActivedAcc :=
  let ptn := acc.sch.insts.length
  let icb : QryInstCtrlBlock :=
    ⟨acc.icbSeq, (seq, acc.icbSeq), ptn, target, pending.bn.node, pending.depth⟩
  { actived := acc.actived.set pending.nodeId icb
    history := acc.history.set pending.nodeId pending
    icbSeq := acc.icbSeq + 1
    sch := { acc.sch with insts := acc.sch.insts ++ [icb] }
    out := acc.out ++ [.instPoweron ptn, .instStartReq ptn]
    creates := acc.creates.tail
    act := acc.act + 1
    cnt := acc.cnt + 1
    eno := acc.eno }

/-- The loop of `qryMgrQcbPutActived` over the queue, for the QCB of sequence number `seq` and
target `target`. `SchCreateTask` answers with the next of `creates`, and succeeds once they run
out. -/
def putActivedLoop (maxActInsts seq : Nat) (target : DsKey) :
    List QryPendingInfo → PutActivedAcc → PutActivedAcc
  | [], acc => acc
  | pending :: rest, acc =>
    if maxActInsts ≤ acc.actived.size then acc
    else if acc.actived.contains pending.nodeId then
      putActivedLoop maxActInsts seq target rest { acc with act := acc.act + 1 }
    else if acc.creates.headD true = false then
      { acc with creates := acc.creates.tail, act := acc.act + 1, eno := .scheduler }
    else putActivedLoop maxActInsts seq target rest (acc.activate seq target pending)

namespace QryMgr

/-- `qryMgrQcbPutActived(qcb)` for the QCB at pointer `p`: the result code and `cnt`. -/
def qryMgrQcbPutActived (qm : QryMgr) (p : Nat) (creates : List Bool) : QryMgr × DhtErrno × Nat :=
  let qcb := qm.qcb p
  if qcb.qryPending.length = 0 then (qm, .notFound, 0)
  else if qm.maxActInsts ≤ qcb.qryActived.size then (qm, .resource, 0)
  else
    let acc := putActivedLoop qm.maxActInsts qcb.seq qcb.target qcb.qryPending
      ⟨qcb.qryActived, qcb.qryHistory, qcb.icbSeq, qm.sch, qm.out, creates, 0, 0, .none⟩
    let qm := qm.setQcb p { qcb with
      qryActived := acc.actived, qryHistory := acc.history, icbSeq := acc.icbSeq,
      qryPending := qcb.qryPending.drop acc.act }
    ({ qm with sch := acc.sch, out := acc.out }, acc.eno, acc.cnt)

/-- `qryMgrQcbStartTimer(qcb)` for the QCB at pointer `p`: `SchSetTimer` succeeds when `timerOk`,
with the next timer identity. -/
def qryMgrQcbStartTimer (qm : QryMgr) (p : Nat) (timerOk : Bool) : QryMgr × DhtErrno :=
  if timerOk then
    let tid : Int := qm.sch.nextTid
    let qm' := qm.setQcb p { qm.qcb p with qryTid := tid }
    ({ qm' with sch := { qm.sch with
      timers := qm.sch.timers ++ [(tid, p)], nextTid := qm.sch.nextTid + 1 } }, .none)
  else (qm, .scheduler)

/-- `SchKillTimer(ptnMe, tid)`: the timer is no longer armed; its expiry may already be queued. -/
def killTimer (qm : QryMgr) (tid : Int) : QryMgr :=
  { qm with sch := { qm.sch with
    timers := qm.sch.timers.filter (·.1 ≠ tid),
    killed := qm.sch.killed ++ qm.sch.timers.filter (·.1 = tid) } }

/-- The power-off messages to the instances of an active set. -/
def poweroffAll (qm : QryMgr) : List (NodeID × QryInstCtrlBlock) → QryMgr
  | [] => qm
  | (_, icb) :: icbs => poweroffAll (qm.send (.instPoweroff icb.ptnInst)) icbs

/-- `qryMgrDelQcb(why, target)`. -/
def qryMgrDelQcb (qm : QryMgr) (why : DelQcbWhy) (target : DsKey) : QryMgr × DhtErrno :=
  if why = .qryInstResultInd then (qm, .mismatched)
  else match qm.qcbTab.get? target with
  | none => (qm, .notFound)
  | some p =>
    let qcb := qm.qcb p
    if qcb.status ≠ .qsInited then ({ qm with qcbTab := qm.qcbTab.delete target }, .none)
    else
      let qm := if qcb.qryTid ≠ schInvalidTid then
        (qm.killTimer qcb.qryTid).setQcb p { qcb with qryTid := schInvalidTid } else qm
      let qm := qm.poweroffAll qcb.qryActived.bindings
      let qm := if qcb.rutNtfFlag then qm.send (.stopNotifyReq qcb.target) else qm
      ({ qm with qcbTab := qm.qcbTab.delete target }, .none)

/-- `qryMgrDelIcb(why, target, peer)`. For a result indication it powers the instance off (the
scheduler finds the task by its name while it runs). -/
def qryMgrDelIcb (qm : QryMgr) (why : DelQcbWhy) (target : DsKey) (peer : NodeID) :
    QryMgr × DhtErrno :=
  if why ≠ .qryInstDoneInd ∧ why ≠ .qryInstResultInd then (qm, .mismatched)
  else match qm.qcbTab.get? target with
  | none => (qm, .notFound)
  | some p =>
    let qcb := qm.qcb p
    match qcb.qryActived.get? peer with
    | none => (qm, .notFound)
    | some icb =>
      let qm := if why = .qryInstResultInd then qm.send (.instPoweroff icb.ptnInst) else qm
      (qm.setQcb p { qcb with qryActived := qcb.qryActived.delete peer }, .none)

/-- The peers a result indication carries: `qryMgrResultReport` makes a slice as long as the result
list and writes every entry at index `0`, so only the last one is kept. -/
def resultPeers (li : List QryResultInfo) : List (Option Node) :=
  match li.getLast? with
  | none => []
  | some v => some v.node :: List.replicate (li.length - 1) none

/-- `qryMgrResultReport(qcb, eno, nil, val, prd)` for the QCB `qcb` at pointer `p`. -/
def qryMgrResultReport (qm : QryMgr) (qcb : QryCtrlBlock) (p : Nat) (eno : DhtErrno)
    (val : List UInt8) (prd : Option (List Node)) : QryMgr :=
  qm.send (.queryResultInd qcb.ptnOwner p ⟨eno, qcb.forWhat, qcb.target, val, prd.getD [],
    resultPeers qcb.qryResult⟩)

end QryMgr

/-! ### What activation keeps -/

/-- **The queues of a QCB are well kept**: at most `maxAct` active probes, at most `maxPend`
pending peers, every active peer in the history, and a well-kept pending queue. -/
structure QueuesOk (distOf : NodeID → Nat) (maxAct maxPend : Nat) (q : QryCtrlBlock) : Prop where
  actived_le : q.qryActived.size ≤ maxAct
  pending_le : q.qryPending.length ≤ maxPend
  actived_history : ∀ id, q.qryActived.contains id = true → q.qryHistory.contains id = true
  pending : PendingOk distOf q.qryHistory q.qryPending

/-- Well-kept queues only read the active set, the pending queue and the history. -/
theorem QueuesOk.congr {distOf : NodeID → Nat} {maxAct maxPend : Nat} {q q' : QryCtrlBlock}
    (h : QueuesOk distOf maxAct maxPend q) (ha : q'.qryActived = q.qryActived)
    (hp : q'.qryPending = q.qryPending) (hh : q'.qryHistory = q.qryHistory) :
    QueuesOk distOf maxAct maxPend q' := by
  obtain ⟨h1, h2, h3, h4⟩ := h
  rw [← ha, ← hp, ← hh] at *
  exact ⟨h1, h2, h3, h4⟩

theorem putActivedLoop_sch (maxActInsts seq : Nat) (target : DsKey) :
    ∀ rest acc, let r := putActivedLoop maxActInsts seq target rest acc
      r.sch.timers = acc.sch.timers ∧ r.sch.killed = acc.sch.killed ∧ r.sch.nextTid = acc.sch.nextTid
  | [], _ => ⟨rfl, rfl, rfl⟩
  | pending :: rest, acc => by
    unfold putActivedLoop
    split_ifs
    · exact ⟨rfl, rfl, rfl⟩
    · exact putActivedLoop_sch maxActInsts seq target rest _
    · exact ⟨rfl, rfl, rfl⟩
    · exact putActivedLoop_sch maxActInsts seq target rest _

/-- **The activation loop keeps the active set within bounds and inside the history**, and no node
of the history is left in what remains of the queue. -/
theorem putActivedLoop_spec (maxActInsts seq : Nat) (target : DsKey) :
    ∀ (rest : List QryPendingInfo) (acc : PutActivedAcc),
      acc.actived.size ≤ maxActInsts →
      (∀ id, acc.actived.contains id = true → acc.history.contains id = true) →
      (∀ x ∈ rest, acc.history.contains x.nodeId = false) →
      (rest.map QryPendingInfo.nodeId).Nodup →
      let r := putActivedLoop maxActInsts seq target rest acc
      r.actived.size ≤ maxActInsts ∧
        (∀ id, r.actived.contains id = true → r.history.contains id = true) ∧
        acc.act ≤ r.act ∧ (∀ x ∈ rest.drop (r.act - acc.act), r.history.contains x.nodeId = false)
  | [], acc, h1, h2, _, _ => ⟨h1, h2, le_rfl, by simp⟩
  | pending :: rest, acc, h1, h2, h3, h4 => by
    rw [List.map_cons, List.nodup_cons] at h4
    have h3' : ∀ x ∈ rest, acc.history.contains x.nodeId = false :=
      fun x hx => h3 x (List.mem_cons_of_mem _ hx)
    unfold putActivedLoop
    split_ifs with hroom hdup hfail
    · exact ⟨h1, h2, le_rfl, by simpa using h3⟩
    · obtain ⟨r1, r2, r3, r4⟩ := putActivedLoop_spec maxActInsts seq target rest
        { acc with act := acc.act + 1 } h1 h2 h3' h4.2
      refine ⟨r1, r2, by simp at r3; omega, fun x hx => r4 x ?_⟩
      have : (putActivedLoop maxActInsts seq target rest { acc with act := acc.act + 1 }).act -
          acc.act = (putActivedLoop maxActInsts seq target rest
            { acc with act := acc.act + 1 }).act - (acc.act + 1) + 1 := by simp at r3; omega
      rwa [this, List.drop_succ_cons] at hx
    · exact ⟨h1, h2, by simp, fun x hx => h3' x (by simpa using hx)⟩
    · have hsize : (acc.activate seq target pending).actived.size ≤ maxActInsts := by
        simp only [PutActivedAcc.activate, GoMap.size_set, hdup, Bool.false_eq_true, if_false]
        omega
      obtain ⟨r1, r2, r3, r4⟩ := putActivedLoop_spec maxActInsts seq target rest
        (acc.activate seq target pending) hsize
        (fun id hid => by
          simp only [PutActivedAcc.activate, GoMap.contains_set, Bool.or_eq_true,
            decide_eq_true_eq] at hid ⊢
          exact hid.imp_right (h2 id))
        (fun x hx => by
          simp only [PutActivedAcc.activate, GoMap.contains_set, Bool.or_eq_false_iff,
            decide_eq_false_iff_not]
          exact ⟨fun he => h4.1 (he ▸ List.mem_map_of_mem _ hx), h3' x hx⟩) h4.2
      have hact : (acc.activate seq target pending).act = acc.act + 1 := rfl
      refine ⟨r1, r2, by omega, fun x hx => r4 x ?_⟩
      have : (putActivedLoop maxActInsts seq target rest (acc.activate seq target pending)).act -
          acc.act = (putActivedLoop maxActInsts seq target rest
            (acc.activate seq target pending)).act - (acc.act + 1) + 1 := by omega
      rwa [this, List.drop_succ_cons] at hx

/-- A pending queue cut to `maxPend` after the insertions keeps the queues well kept, for nodes at
the distance `distOf` gives them. -/
theorem qryMgrQcbPutPending_queuesOk {distOf : NodeID → Nat} {maxAct maxPend : Nat}
    {qcb : QryCtrlBlock} (h : QueuesOk distOf maxAct maxPend qcb) (nodes : List QryPendingInfo)
    (hn : ∀ n ∈ nodes, n.bn.dist = distOf n.nodeId) :
    QueuesOk distOf maxAct maxPend (qcb.qryMgrQcbPutPending nodes maxPend).1 := by
  obtain ⟨hok, hle⟩ := qryMgrQcbPutPending_ok qcb nodes maxPend h.pending hn
  unfold QryCtrlBlock.qryMgrQcbPutPending at hok hle ⊢
  split_ifs at hok hle ⊢
  · exact h
  · exact ⟨h.actived_le, hle rfl, h.actived_history, hok⟩

/-! ### Steps that only work on queues -/

namespace QryMgr

variable (distOf : NodeID → Nat)

/-- **A step that only works on queues**: the table, the size of the QCB heap, the armed timers,
the timer counter and the bounds stay; every QCB keeps its target, status and timer, and a QCB
whose queues were well kept keeps them well kept. Sending, writing a QCB's queues, activating and
deleting probes are such steps. -/
structure Keeps (qm qm' : QryMgr) : Prop where
  qcbTab : qm'.qcbTab = qm.qcbTab
  length : qm'.qcbs.length = qm.qcbs.length
  timers : qm'.sch.timers = qm.sch.timers
  nextTid : qm'.sch.nextTid = qm.sch.nextTid
  maxActInsts : qm'.maxActInsts = qm.maxActInsts
  maxPendings : qm'.maxPendings = qm.maxPendings
  target : ∀ p, (qm'.qcb p).target = (qm.qcb p).target
  status : ∀ p, (qm'.qcb p).status = (qm.qcb p).status
  qryTid : ∀ p, (qm'.qcb p).qryTid = (qm.qcb p).qryTid
  queues : ∀ p, QueuesOk distOf qm.maxActInsts qm.maxPendings (qm.qcb p) →
    QueuesOk distOf qm.maxActInsts qm.maxPendings (qm'.qcb p)

variable {distOf}

theorem Keeps.refl (qm : QryMgr) : Keeps distOf qm qm :=
  ⟨rfl, rfl, rfl, rfl, rfl, rfl, fun _ => rfl, fun _ => rfl, fun _ => rfl, fun _ => id⟩

theorem Keeps.trans {qm qm' qm'' : QryMgr} (h : Keeps distOf qm qm') (h' : Keeps distOf qm' qm'') :
    Keeps distOf qm qm'' where
  qcbTab := h'.qcbTab.trans h.qcbTab
  length := h'.length.trans h.length
  timers := h'.timers.trans h.timers
  nextTid := h'.nextTid.trans h.nextTid
  maxActInsts := h'.maxActInsts.trans h.maxActInsts
  maxPendings := h'.maxPendings.trans h.maxPendings
  target p := (h'.target p).trans (h.target p)
  status p := (h'.status p).trans (h.status p)
  qryTid p := (h'.qryTid p).trans (h.qryTid p)
  queues p hp := by
    have := h'.queues p (h.maxActInsts ▸ h.maxPendings ▸ h.queues p hp)
    rwa [h.maxActInsts, h.maxPendings] at this

/-- A step that leaves the table, the QCBs, the armed timers and the bounds as they were. -/
theorem Keeps.of_qcbs (qm qm' : QryMgr) (h1 : qm'.qcbTab = qm.qcbTab) (h2 : qm'.qcbs = qm.qcbs)
    (h3 : qm'.sch.timers = qm.sch.timers) (h4 : qm'.sch.nextTid = qm.sch.nextTid)
    (h5 : qm'.maxActInsts = qm.maxActInsts) (h6 : qm'.maxPendings = qm.maxPendings) :
    Keeps distOf qm qm' := by
  have hq : ∀ p, qm'.qcb p = qm.qcb p := fun p => by simp only [qcb, h2]
  exact ⟨h1, by rw [h2], h3, h4, h5, h6, fun p => by rw [hq], fun p => by rw [hq],
    fun p => by rw [hq], fun p => by rw [hq]; exact id⟩

theorem keeps_sch (qm : QryMgr) (sch : Sch) (out : List QryMgrOut)
    (ht : sch.timers = qm.sch.timers) (hn : sch.nextTid = qm.sch.nextTid) :
    Keeps distOf qm { qm with sch := sch, out := out } :=
  Keeps.of_qcbs _ _ rfl rfl ht hn rfl rfl

theorem keeps_send (qm : QryMgr) (m : QryMgrOut) : Keeps distOf qm (qm.send m) :=
  Keeps.of_qcbs _ _ rfl rfl rfl rfl rfl rfl

/-- Writing the QCB at `p` either writes the QCB read at `p'`, or leaves it. -/
theorem qcb_setQcb_cases (qm : QryMgr) (p p' : Nat) (q : QryCtrlBlock) :
    (p' = p ∧ (qm.setQcb p q).qcb p' = q) ∨ (qm.setQcb p q).qcb p' = qm.qcb p' := by
  rcases Nat.lt_or_ge p qm.qcbs.length with hp | hp
  · rw [qcb_setQcb _ _ _ _ hp]
    split_ifs with h
    · exact .inl ⟨h, rfl⟩
    · exact .inr rfl
  · right
    simp [setQcb, List.set_eq_of_length_le hp]

/-- **Writing a QCB's queues is a step that only works on queues**, for a QCB with the same target,
status and timer whose queues are well kept when the old ones were. -/
theorem keeps_setQcb (qm : QryMgr) (p : Nat) (q : QryCtrlBlock)
    (ht : q.target = (qm.qcb p).target) (hs : q.status = (qm.qcb p).status)
    (hq : q.qryTid = (qm.qcb p).qryTid)
    (hok : QueuesOk distOf qm.maxActInsts qm.maxPendings (qm.qcb p) →
      QueuesOk distOf qm.maxActInsts qm.maxPendings q) :
    Keeps distOf qm (qm.setQcb p q) := by
  refine ⟨rfl, by simp, rfl, rfl, rfl, rfl, fun p' => ?_, fun p' => ?_, fun p' => ?_, fun p' => ?_⟩ <;>
    rcases qcb_setQcb_cases qm p p' q with ⟨rfl, h⟩ | h <;> rw [h]
  exacts [ht, hs, hq, hok, id]

/-- **Activation is a step that only works on queues.** -/
theorem keeps_qryMgrQcbPutActived (qm : QryMgr) (p : Nat) (creates : List Bool) :
    Keeps distOf qm (qm.qryMgrQcbPutActived p creates).1 := by
  unfold qryMgrQcbPutActived
  dsimp only
  split_ifs with h0 hroom
  · exact Keeps.refl qm
  · exact Keeps.refl qm
  · set acc := putActivedLoop qm.maxActInsts (qm.qcb p).seq (qm.qcb p).target
      (qm.qcb p).qryPending ⟨(qm.qcb p).qryActived, (qm.qcb p).qryHistory, (qm.qcb p).icbSeq,
        qm.sch, qm.out, creates, 0, 0, .none⟩ with hacc
    obtain ⟨ht, -, hn⟩ := putActivedLoop_sch qm.maxActInsts (qm.qcb p).seq (qm.qcb p).target
      (qm.qcb p).qryPending ⟨(qm.qcb p).qryActived, (qm.qcb p).qryHistory, (qm.qcb p).icbSeq,
        qm.sch, qm.out, creates, 0, 0, .none⟩
    refine (keeps_setQcb qm p _ (by rfl) (by rfl) (by rfl) fun hok => ?_).trans
      (keeps_sch _ _ _ (by rw [← hacc] at ht; exact ht) (by rw [← hacc] at hn; exact hn))
    obtain ⟨r1, r2, -, r4⟩ := putActivedLoop_spec qm.maxActInsts (qm.qcb p).seq
      (qm.qcb p).target (qm.qcb p).qryPending ⟨(qm.qcb p).qryActived, (qm.qcb p).qryHistory,
        (qm.qcb p).icbSeq, qm.sch, qm.out, creates, 0, 0, .none⟩ hok.actived_le
      hok.actived_history hok.pending.fresh hok.pending.nodup
    rw [← hacc] at r1 r2 r4
    have hd := hok.pending.drop acc.act
    exact ⟨r1, by rw [List.length_drop]; have := hok.pending_le; omega, r2,
      ⟨hd.sorted, hd.nodup, fun x hx => r4 x (by simpa using hx), hd.dist⟩⟩

/-- What `qryMgrDelIcb` does: nothing, or it finds the QCB of `target` and the probe of `peer` in its
active set, and deletes the probe (powering the instance off for a result indication). -/
theorem qryMgrDelIcb_cases (qm : QryMgr) (why : DelQcbWhy) (target : DsKey) (peer : NodeID) :
    (qm.qryMgrDelIcb why target peer).1 = qm ∨
    ∃ p icb, qm.qcbTab.get? target = some p ∧ (qm.qcb p).qryActived.get? peer = some icb ∧
      qm.qryMgrDelIcb why target peer =
        ((if why = .qryInstResultInd then qm.send (.instPoweroff icb.ptnInst) else qm).setQcb p
          { qm.qcb p with qryActived := (qm.qcb p).qryActived.delete peer }, .none) := by
  unfold qryMgrDelIcb
  by_cases h : why ≠ .qryInstDoneInd ∧ why ≠ .qryInstResultInd
  · exact .inl (by rw [if_pos h])
  rw [if_neg h]
  cases hp : qm.qcbTab.get? target with
  | none => exact .inl rfl
  | some p =>
    dsimp only
    cases hi : (qm.qcb p).qryActived.get? peer with
    | none => exact .inl rfl
    | some icb => exact .inr ⟨p, icb, rfl, hi, rfl⟩

/-- **Deleting a probe is a step that only works on queues.** -/
theorem keeps_qryMgrDelIcb (qm : QryMgr) (why : DelQcbWhy) (target : DsKey) (peer : NodeID) :
    Keeps distOf qm (qm.qryMgrDelIcb why target peer).1 := by
  rcases qryMgrDelIcb_cases qm why target peer with h | ⟨p, icb, -, -, h⟩
  · rw [h]; exact Keeps.refl qm
  rw [h]
  have hsend : Keeps distOf qm
      (if why = .qryInstResultInd then qm.send (.instPoweroff icb.ptnInst) else qm) := by
    split_ifs
    exacts [keeps_send qm _, Keeps.refl qm]
  have hq : (if why = .qryInstResultInd then qm.send (.instPoweroff icb.ptnInst) else qm).qcb p =
      qm.qcb p := by split_ifs <;> rfl
  refine hsend.trans (keeps_setQcb _ p _ (by rw [hq]) (by rw [hq]) (by rw [hq]) fun hok => ?_)
  simp only [hq, hsend.maxActInsts, hsend.maxPendings] at hok ⊢
  refine ⟨le_trans ?_ hok.actived_le, hok.pending_le, fun id hid => ?_, hok.pending⟩
  · rw [GoMap.size_delete]; split_ifs <;> omega
  · simp only [GoMap.contains_delete, Bool.and_eq_true, decide_eq_true_eq] at hid
    exact hok.actived_history id hid.2

/-! ### Deleting a QCB -/

/-- Powering off the instances of an active set only sends. -/
theorem poweroffAll_eq (qm : QryMgr) (l : List (NodeID × QryInstCtrlBlock)) :
    qm.poweroffAll l = { qm with out := qm.out ++ l.map fun x => .instPoweroff x.2.ptnInst } := by
  induction l generalizing qm with
  | nil => simp [poweroffAll]
  | cons x l ih => simp [poweroffAll, ih, send]

/-- **What `qryMgrDelQcb` does**, for every reason but a result indication's: nothing when the
target has no QCB; otherwise it drops the target's entry, touches no other QCB and of the QCB only
its timer, creates no instance, and kills the QCB's timer when the QCB is inited with a valid
timer. -/
theorem qryMgrDelQcb_cases (qm : QryMgr) (why : DelQcbWhy) (t : DsKey)
    (hwhy : why ≠ .qryInstResultInd) :
    (qm.qcbTab.get? t = none ∧ (qm.qryMgrDelQcb why t).1 = qm) ∨
    ∃ p, qm.qcbTab.get? t = some p ∧
      let qm' := (qm.qryMgrDelQcb why t).1
      qm'.qcbTab = qm.qcbTab.delete t ∧ qm'.qcbs.length = qm.qcbs.length ∧
      (∀ p', p' ≠ p → qm'.qcb p' = qm.qcb p') ∧
      (∃ tid, qm'.qcb p = { qm.qcb p with qryTid := tid }) ∧ qm'.sch.insts = qm.sch.insts ∧
      qm'.sch.nextTid = qm.sch.nextTid ∧
      qm'.maxActInsts = qm.maxActInsts ∧ qm'.maxPendings = qm.maxPendings ∧
      qm'.sch.timers =
        if (qm.qcb p).status = .qsInited ∧ (qm.qcb p).qryTid ≠ schInvalidTid then
          qm.sch.timers.filter (·.1 ≠ (qm.qcb p).qryTid)
        else qm.sch.timers := by
  unfold qryMgrDelQcb
  rw [if_neg hwhy]
  cases hp : qm.qcbTab.get? t with
  | none => exact .inl ⟨rfl, rfl⟩
  | some p =>
    refine .inr ⟨p, rfl, ?_⟩
    dsimp only
    by_cases hs : (qm.qcb p).status = .qsInited
    · have c1 : ¬((qm.qcb p).status ≠ .qsInited) := not_not.mpr hs
      rw [if_neg c1]
      by_cases ht : (qm.qcb p).qryTid = schInvalidTid
      · have c2 : ¬((qm.qcb p).qryTid ≠ schInvalidTid) := not_not.mpr ht
        have c3 : ¬((qm.qcb p).status = .qsInited ∧ (qm.qcb p).qryTid ≠ schInvalidTid) :=
          fun h => h.2 ht
        rw [if_neg c2, if_neg c3, poweroffAll_eq]
        split_ifs <;> exact ⟨rfl, rfl, fun _ _ => rfl, ⟨_, rfl⟩, rfl, rfl, rfl, rfl, rfl⟩
      · have c3 : (qm.qcb p).status = .qsInited ∧ (qm.qcb p).qryTid ≠ schInvalidTid := ⟨hs, ht⟩
        rw [if_pos ht, if_pos c3, poweroffAll_eq]
        set q : QryCtrlBlock := { qm.qcb p with qryTid := schInvalidTid }
        have hqp : ∃ tid, ((qm.killTimer (qm.qcb p).qryTid).setQcb p q).qcb p =
            { qm.qcb p with qryTid := tid } := by
          rcases qcb_setQcb_cases (qm.killTimer (qm.qcb p).qryTid) p p q with ⟨-, h⟩ | h
          · exact ⟨_, h⟩
          · exact ⟨_, h⟩
        split_ifs
        all_goals exact ⟨rfl, by simp [killTimer], fun p' h => qcb_setQcb_ne _ q h, hqp, rfl, rfl,
          rfl, rfl, rfl⟩
    · have c3 : ¬((qm.qcb p).status = .qsInited ∧ (qm.qcb p).qryTid ≠ schInvalidTid) :=
        fun h => hs h.1
      rw [if_pos hs, if_neg c3]
      exact ⟨rfl, rfl, fun _ _ => rfl, ⟨_, rfl⟩, rfl, rfl, rfl, rfl, rfl⟩

/-- **Writing a pending queue is a step that only works on queues**, for nodes at the distance
`distOf` gives them. -/
theorem keeps_qryMgrQcbPutPending (qm : QryMgr) (p : Nat) (nodes : List QryPendingInfo)
    (hn : ∀ n ∈ nodes, n.bn.dist = distOf n.nodeId) :
    Keeps distOf qm (qm.setQcb p ((qm.qcb p).qryMgrQcbPutPending nodes qm.maxPendings).1) := by
  refine keeps_setQcb qm p _ ?_ ?_ ?_ fun hok => qryMgrQcbPutPending_queuesOk hok nodes hn <;>
    unfold QryCtrlBlock.qryMgrQcbPutPending <;> split_ifs <;> rfl

end QryMgr

end Gyee.Dht.Query
