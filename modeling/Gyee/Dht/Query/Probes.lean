import Gyee.Dht.Query.Invariant

/-! # Every query probes each peer once

An activation (`qryMgrQcbPutActived`) starts an instance task for the QCB at `p` and names it
`qryMgrIcb_q<seq>_i<icbSeq>`, with `seq` the QCB's sequence number: the first part of a task's name
is the query it probes for. A started probe enters the QCB's history, and a probe is only started
for a queued peer that is not active; a queued peer is never in the history (`Inv`), so no query
probes a peer twice, whatever the probes answer and whenever they end.

`Probed` states this of a state: the QCBs' sequence numbers are their pointers, every instance task
names a QCB of the heap whose history holds the task's peer, and no two tasks of one QCB share a
peer. Every change of state but an activation and a new QCB keeps the sequence numbers, the
histories and the tasks (`ProbeKeeps`).

The main results: `Probed.qryMgrProc` (every handled event keeps `Probed` in a state with `Inv`),
`Reachable.probed`, and `reachable_probes_once`. -/

namespace Gyee.Dht.Query

open Gyee Gyee.Dht.RouteTable

/-- Two instance tasks started for one QCB probe different peers. -/
def ProbesApart (a b : QryInstCtrlBlock) : Prop := a.name.1 = b.name.1 → a.toNode.ID ≠ b.toNode.ID

namespace QryMgr

/-- **The probes' invariant.** -/
structure Probed (qm : QryMgr) : Prop where
  seq : ∀ p < qm.qcbs.length, (qm.qcb p).seq = p
  qcbSeq : qm.qcbSeq = qm.qcbs.length
  history : ∀ icb ∈ qm.sch.insts, icb.name.1 < qm.qcbs.length ∧
    (qm.qcb icb.name.1).qryHistory.contains icb.toNode.ID = true
  started : ∀ p < qm.qcbs.length, ∀ id, (qm.qcb p).qryHistory.contains id = true →
    ∃ icb ∈ qm.sch.insts, icb.name.1 = p ∧ icb.toNode.ID = id
  once : qm.sch.insts.Pairwise ProbesApart

/-- A step that keeps what `Probed` reads: the size of the QCB heap, the sequence counter, the
instance tasks, and every QCB's sequence number and history. -/
structure ProbeKeeps (qm qm' : QryMgr) : Prop where
  length : qm'.qcbs.length = qm.qcbs.length
  qcbSeq : qm'.qcbSeq = qm.qcbSeq
  insts : qm'.sch.insts = qm.sch.insts
  seq : ∀ p, (qm'.qcb p).seq = (qm.qcb p).seq
  history : ∀ p, (qm'.qcb p).qryHistory = (qm.qcb p).qryHistory

theorem ProbeKeeps.refl (qm : QryMgr) : ProbeKeeps qm qm :=
  ⟨rfl, rfl, rfl, fun _ => rfl, fun _ => rfl⟩

theorem ProbeKeeps.trans {qm qm' qm'' : QryMgr} (h : ProbeKeeps qm qm') (h' : ProbeKeeps qm' qm'') :
    ProbeKeeps qm qm'' :=
  ⟨h'.length.trans h.length, h'.qcbSeq.trans h.qcbSeq, h'.insts.trans h.insts,
    fun p => (h'.seq p).trans (h.seq p), fun p => (h'.history p).trans (h.history p)⟩

/-- **A step that keeps what it reads keeps the probes' invariant.** -/
theorem Probed.keeps {qm qm' : QryMgr} (h : Probed qm) (hk : ProbeKeeps qm qm') : Probed qm' where
  seq p hp := (hk.seq p).trans (h.seq p (hk.length ▸ hp))
  qcbSeq := hk.qcbSeq.trans (h.qcbSeq.trans hk.length.symm)
  history icb hm := by
    rw [hk.length, hk.history]
    exact h.history icb (hk.insts ▸ hm)
  started p hp id hid := by
    rw [hk.insts]
    exact h.started p (hk.length ▸ hp) id (hk.history p ▸ hid)
  once := hk.insts ▸ h.once

/-! ### Steps that keep the probes -/

/-- A step that leaves the QCBs, the sequence counter and the instance tasks as they were. -/
theorem ProbeKeeps.of_qcbs {qm qm' : QryMgr} (h1 : qm'.qcbs = qm.qcbs) (h2 : qm'.qcbSeq = qm.qcbSeq)
    (h3 : qm'.sch.insts = qm.sch.insts) : ProbeKeeps qm qm' := by
  have hq : ∀ p, qm'.qcb p = qm.qcb p := fun p => by simp only [qcb, h1]
  exact ⟨by rw [h1], h2, h3, fun p => by rw [hq], fun p => by rw [hq]⟩

theorem probeKeeps_send (qm : QryMgr) (m : QryMgrOut) : ProbeKeeps qm (qm.send m) :=
  .of_qcbs rfl rfl rfl

/-- Writing a QCB with the same sequence number and history keeps the probes. -/
theorem probeKeeps_setQcb (qm : QryMgr) (p : Nat) (q : QryCtrlBlock) (hs : q.seq = (qm.qcb p).seq)
    (hh : q.qryHistory = (qm.qcb p).qryHistory) : ProbeKeeps qm (qm.setQcb p q) := by
  refine ⟨by simp, rfl, rfl, fun p' => ?_, fun p' => ?_⟩ <;>
    rcases qcb_setQcb_cases qm p p' q with ⟨rfl, h⟩ | h <;> rw [h]
  exacts [hs, hh]

theorem probeKeeps_qryMgrDelQcb (qm : QryMgr) (why : DelQcbWhy) (t : DsKey) :
    ProbeKeeps qm (qm.qryMgrDelQcb why t).1 := by
  by_cases hwhy : why = .qryInstResultInd
  · simp only [qryMgrDelQcb, if_pos hwhy]
    exact .refl qm
  have hseq : (qm.qryMgrDelQcb why t).1.qcbSeq = qm.qcbSeq := by
    unfold qryMgrDelQcb
    rw [if_neg hwhy]
    split
    · rfl
    · dsimp only
      split_ifs <;> simp only [poweroffAll_eq] <;> rfl
  rcases qryMgrDelQcb_cases qm why t hwhy with ⟨-, h⟩ | ⟨p, -, -, hL, hO, ⟨tid, hP⟩, hI, -⟩
  · rw [h]
    exact .refl qm
  refine ⟨hL, hseq, hI, fun p' => ?_, fun p' => ?_⟩ <;> by_cases hp : p' = p
  all_goals first | (subst hp; rw [hP]) | rw [hO p' hp]

theorem probeKeeps_qryMgrDelIcb (qm : QryMgr) (why : DelQcbWhy) (target : DsKey) (peer : NodeID) :
    ProbeKeeps qm (qm.qryMgrDelIcb why target peer).1 := by
  rcases qryMgrDelIcb_cases qm why target peer with h | ⟨p, icb, -, -, h⟩
  · rw [h]
    exact .refl qm
  rw [h]
  have hsend : ProbeKeeps qm
      (if why = .qryInstResultInd then qm.send (.instPoweroff icb.ptnInst) else qm) := by
    split_ifs
    exacts [probeKeeps_send qm _, .refl qm]
  exact hsend.trans (probeKeeps_setQcb _ p _ (hsend.seq p).symm (hsend.history p).symm)

theorem probeKeeps_qryMgrQcbPutPending (qm : QryMgr) (p : Nat) (nodes : List QryPendingInfo)
    (size : Nat) :
    ProbeKeeps qm (qm.setQcb p ((qm.qcb p).qryMgrQcbPutPending nodes size).1) := by
  obtain ⟨l, hl⟩ := QryCtrlBlock.qryMgrQcbPutPending_eq (qm.qcb p) nodes size
  rw [hl]
  exact probeKeeps_setQcb qm p _ rfl rfl

theorem probeKeeps_qryMgrQcbStartTimer (qm : QryMgr) (p : Nat) (timerOk : Bool) :
    ProbeKeeps qm (qm.qryMgrQcbStartTimer p timerOk).1 := by
  unfold qryMgrQcbStartTimer
  split_ifs
  · refine (probeKeeps_setQcb qm p { qm.qcb p with qryTid := qm.sch.nextTid } rfl rfl).trans
      (.of_qcbs ?_ ?_ ?_) <;> rfl
  · exact .refl qm

theorem probeKeeps_qryDoneCheck (qm : QryMgr) (p : Nat) (eno : DhtErrno) :
    ProbeKeeps qm (qm.qryDoneCheck p eno).2 := by
  unfold qryDoneCheck
  dsimp only
  split_ifs
  · exact .refl qm
  iterate 2 exact (probeKeeps_send qm _).trans (probeKeeps_qryMgrDelQcb _ _ _)
  · exact .refl qm

end QryMgr

/-! ### The activation loop -/

/-- **The activation loop starts each probe for a peer new to the history**: for the QCB of
sequence number `seq`, the tasks it appends are named after `seq`, the history only grows, every
task of the QCB has its peer in the history, and no two tasks of one QCB share a peer; provided
every task of the QCB had its peer in the history and every peer of the queue in the history is
active. -/
theorem putActivedLoop_probes (maxActInsts seq : Nat) (target : DsKey) :
    ∀ (rest : List QryPendingInfo) (acc : PutActivedAcc),
      (∀ icb ∈ acc.sch.insts, icb.name.1 = seq → acc.history.contains icb.toNode.ID = true) →
      acc.sch.insts.Pairwise ProbesApart →
      (∀ x ∈ rest, acc.history.contains x.nodeId = true → acc.actived.contains x.nodeId = true) →
      let r := putActivedLoop maxActInsts seq target rest acc
      (∃ new, r.sch.insts = acc.sch.insts ++ new ∧ ∀ icb ∈ new, icb.name.1 = seq) ∧
        (∀ id, acc.history.contains id = true → r.history.contains id = true) ∧
        (∀ icb ∈ r.sch.insts, icb.name.1 = seq → r.history.contains icb.toNode.ID = true) ∧
        (∀ id, r.history.contains id = true → acc.history.contains id = true ∨
          ∃ icb ∈ r.sch.insts, icb.name.1 = seq ∧ icb.toNode.ID = id) ∧
        r.sch.insts.Pairwise ProbesApart
  | [], acc, h1, h2, _ =>
    ⟨⟨[], (List.append_nil _).symm, nofun⟩, fun _ => id, h1, fun _ => .inl, h2⟩
  | pending :: rest, acc, h1, h2, h3 => by
    have h3' := fun x (hx : x ∈ rest) => h3 x (List.mem_cons_of_mem _ hx)
    unfold putActivedLoop
    split_ifs with hroom hdup hfail
    · exact ⟨⟨[], (List.append_nil _).symm, nofun⟩, fun _ => id, h1, fun _ => .inl, h2⟩
    · exact putActivedLoop_probes maxActInsts seq target rest _ h1 h2 h3'
    · exact ⟨⟨[], (List.append_nil _).symm, nofun⟩, fun _ => id, h1, fun _ => .inl, h2⟩
    -- a probe starts: its peer is in neither the active set nor the history
    have hnew : acc.history.contains pending.nodeId = false := by
      cases hc : acc.history.contains pending.nodeId
      · rfl
      · exact absurd (h3 pending (List.mem_cons_self _ _) hc) hdup
    set acc' := acc.activate seq target pending
    have hgrow : ∀ id, acc.history.contains id = true → acc'.history.contains id = true :=
      fun id hid => by simp [acc', PutActivedAcc.activate, hid]
    obtain ⟨⟨new, hI, hN⟩, r2, r3, r5, r4⟩ := putActivedLoop_probes maxActInsts seq target rest acc'
      (fun icb hm hs => by
        rcases List.mem_append.mp hm with hm | hm
        · exact hgrow _ (h1 icb hm hs)
        · rw [List.mem_singleton.mp hm]
          simp [acc', PutActivedAcc.activate, QryPendingInfo.nodeId])
      (List.pairwise_append.mpr ⟨h2, List.pairwise_singleton _ _, fun a ha b hb hs he => by
        rw [List.mem_singleton.mp hb] at hs he
        have := h1 a ha hs
        rw [he] at this
        exact absurd this (by simpa [QryPendingInfo.nodeId] using hnew)⟩)
      (fun x hx hc => by
        simp only [acc', PutActivedAcc.activate, GoMap.contains_set, Bool.or_eq_true,
          decide_eq_true_eq] at hc ⊢
        exact hc.imp_right (h3' x hx))
    refine ⟨⟨_ :: new, hI.trans (List.append_assoc _ _ _), ?_⟩,
      fun id hid => r2 id (hgrow id hid), r3, fun id hid => ?_, r4⟩
    · intro icb hm
      rcases List.mem_cons.mp hm with rfl | hm
      · rfl
      · exact hN icb hm
    -- a node new to the history is the peer of the probe just started, or of a later one
    rcases r5 id hid with hid | hid
    · simp only [acc', PutActivedAcc.activate, GoMap.contains_set, Bool.or_eq_true,
        decide_eq_true_eq] at hid
      rcases hid with rfl | hid
      · exact .inr ⟨⟨acc.icbSeq, (seq, acc.icbSeq), acc.sch.insts.length, target, pending.bn.node,
          pending.depth⟩, by rw [hI]; simp [acc', PutActivedAcc.activate], rfl, rfl⟩
      · exact .inl hid
    · exact .inr hid

namespace QryMgr

/-! ### Activations and new QCBs -/

/-- **An activation keeps the probes' invariant**, for a QCB whose queue holds no peer of its
history. -/
theorem Probed.qryMgrQcbPutActived {qm : QryMgr} (h : Probed qm) (p : Nat) (creates : List Bool)
    (hfresh : ∀ x ∈ (qm.qcb p).qryPending, (qm.qcb p).qryHistory.contains x.nodeId = false) :
    Probed (qm.qryMgrQcbPutActived p creates).1 := by
  unfold QryMgr.qryMgrQcbPutActived
  dsimp only
  split_ifs with h0 hroom
  · exact h
  · exact h
  -- the QCB has a queue, so it is on the heap, at its sequence number
  have hp : p < qm.qcbs.length := by
    by_contra hge
    exact h0 (by simp only [qcb, List.getD_eq_default _ _ (not_lt.mp hge)]; rfl)
  have hseq := h.seq p hp
  set q := qm.qcb p
  set acc := putActivedLoop qm.maxActInsts q.seq q.target q.qryPending
    ⟨q.qryActived, q.qryHistory, q.icbSeq, qm.sch, qm.out, creates, 0, 0, .none⟩ with hacc
  obtain ⟨⟨new, hI, hN⟩, -, r3, r5, r4⟩ := putActivedLoop_probes qm.maxActInsts q.seq q.target
    q.qryPending ⟨q.qryActived, q.qryHistory, q.icbSeq, qm.sch, qm.out, creates, 0, 0, .none⟩
    (fun icb hm hs => by
      have := (h.history icb hm).2
      rwa [hs, hseq] at this)
    h.once (fun x hx hc => absurd hc (by simp [hfresh x hx]))
  rw [← hacc] at hI r3 r5 r4
  have hsub : ∀ icb ∈ qm.sch.insts, icb ∈ acc.sch.insts := fun icb hm => by
    rw [hI]
    exact List.mem_append_left _ hm
  set q' : QryCtrlBlock := { q with
    qryActived := acc.actived, qryHistory := acc.history, icbSeq := acc.icbSeq,
    qryPending := q.qryPending.drop acc.act }
  have hq : ∀ p', (qm.setQcb p q').qcb p' = if p' = p then q' else qm.qcb p' :=
    fun p' => qcb_setQcb qm p p' q' hp
  refine ⟨fun p' hp' => ?_, h.qcbSeq.trans (setQcb_length qm p q').symm, fun icb hm => ?_,
    fun p' hp' id hid => ?_, r4⟩
  · show ((qm.setQcb p q').qcb p').seq = p'
    rw [hq]
    split_ifs with he
    · exact he ▸ hseq
    · exact h.seq p' (by simpa using hp')
  · show icb.name.1 < (qm.setQcb p q').qcbs.length ∧
      ((qm.setQcb p q').qcb icb.name.1).qryHistory.contains icb.toNode.ID = true
    rw [setQcb_length, hq]
    by_cases hs : icb.name.1 = p
    · rw [if_pos hs]
      exact ⟨hs ▸ hp, r3 icb hm (hs.trans hseq.symm)⟩
    · rw [if_neg hs]
      rw [hI] at hm
      rcases List.mem_append.mp hm with hm | hm
      · exact h.history icb hm
      · exact absurd ((hN icb hm).trans hseq) hs
  · change ((qm.setQcb p q').qcb p').qryHistory.contains id = true at hid
    rw [hq] at hid
    split_ifs at hid with he
    · subst he
      rcases r5 id hid with hid | ⟨icb, hm, hs, hi⟩
      · obtain ⟨icb, hm, hs, hi⟩ := h.started _ hp id hid
        exact ⟨icb, hsub icb hm, hs, hi⟩
      · exact ⟨icb, hm, hs.trans hseq, hi⟩
    · obtain ⟨icb, hm, hs, hi⟩ := h.started p' (by simpa using hp') id hid
      exact ⟨icb, hsub icb hm, hs, hi⟩

/-- An activation of a QCB of the table keeps the probes' invariant in a state with `Inv`. -/
theorem Probed.putActived_of_inv {distOf : NodeID → Nat} {qm : QryMgr} (h : Probed qm)
    (hi : Inv distOf qm) {t : DsKey} {p : Nat} (hp : qm.qcbTab.get? t = some p)
    (creates : List Bool) : Probed (qm.qryMgrQcbPutActived p creates).1 :=
  h.qryMgrQcbPutActived p creates (hi.entry t p hp).queues.pending.fresh

/-- **A new QCB keeps the probes' invariant**, when its sequence number is the counter's. -/
theorem Probed.alloc {qm : QryMgr} (h : Probed qm) (q : QryCtrlBlock) (hq : q.seq = qm.qcbSeq)
    (hh : ∀ id, q.qryHistory.contains id = false) (tab : GoMap DsKey Nat) :
    Probed { qm with qcbs := qm.qcbs ++ [q], qcbSeq := qm.qcbSeq + 1, qcbTab := tab } := by
  have hold : ∀ p < qm.qcbs.length, (qm.qcbs ++ [q]).getD p default = qm.qcb p :=
    fun p hp => List.getD_append _ _ _ _ hp
  refine ⟨fun p hp => ?_, by simp [h.qcbSeq], fun icb hm => ?_, fun p hp id hid => ?_, h.once⟩
  · show ((qm.qcbs ++ [q]).getD p default).seq = p
    rcases Nat.lt_or_ge p qm.qcbs.length with hlt | hge
    · rw [hold p hlt]
      exact h.seq p hlt
    · have he : p = qm.qcbs.length := by simp at hp; omega
      subst he
      simp [List.getD_append_right, hq, h.qcbSeq]
  · obtain ⟨hlt, hc⟩ := h.history icb hm
    refine ⟨by simp; omega, ?_⟩
    show ((qm.qcbs ++ [q]).getD icb.name.1 default).qryHistory.contains icb.toNode.ID = true
    rwa [hold _ hlt]
  · change ((qm.qcbs ++ [q]).getD p default).qryHistory.contains id = true at hid
    rcases Nat.lt_or_ge p qm.qcbs.length with hlt | hge
    · rw [hold p hlt] at hid
      exact h.started p hlt id hid
    · have he : p = qm.qcbs.length := by simp at hp; omega
      subst he
      simp [List.getD_append_right, hh] at hid

/-! ### The handlers -/

theorem Probed.queryStartReq {qm : QryMgr} (h : Probed qm) (sender : Nat) (target : DsKey)
    (forWhat : Nat) : (qm.queryStartReq sender target forWhat).Post (Probed ·.2) := by
  unfold QryMgr.queryStartReq
  split_ifs
  · exact h
  · exact h.keeps (probeKeeps_send qm _)
  · exact ((h.alloc _ rfl (fun _ => by rfl) _).keeps (probeKeeps_send _ _)).keeps
      (probeKeeps_send _ _)

theorem Probed.queryStopReq {qm : QryMgr} (h : Probed qm) (sender : Nat) (target : DsKey) :
    (qm.queryStopReq sender target).Post (Probed ·.2) :=
  (h.keeps (probeKeeps_qryMgrDelQcb qm .command target)).keeps (probeKeeps_send _ _)

theorem probeKeeps_nearestRspFailed (qm : QryMgr) (owner : Nat) (target : DsKey) (eno : DhtErrno) :
    ProbeKeeps qm (qm.nearestRspFailed owner target eno) :=
  (probeKeeps_send qm _).trans (probeKeeps_qryMgrDelQcb _ _ _)

/-- Seeding, arming and starting a preparing QCB of the table keeps the probes' invariant, for seeds
at the distance `distOf` gives them. -/
theorem Probed.nearestRspStart {distOf : NodeID → Nat} {qm : QryMgr} (h : Probed qm)
    (hi : Inv distOf qm) {t : DsKey} {p : Nat} (hp : qm.qcbTab.get? t = some p) (owner : Nat)
    (target : DsKey) (peers : List RutMgrBucketNode) (timerOk : Bool) (creates : List Bool)
    (hc : ∀ bn ∈ peers, bn.dist = distOf bn.node.ID) :
    Probed (qm.nearestRspStart p owner target peers timerOk creates).2 := by
  have hlt := (hi.entry t p hp).lt
  obtain ⟨l, hl⟩ := QryCtrlBlock.qryMgrQcbPutPending_eq { qm.qcb p with qryPending := [] }
    (peers.map (⟨·, 0⟩)) qm.maxPendings
  -- the seeds are new to the history
  have hfresh : ∀ x ∈ l, (qm.qcb p).qryHistory.contains x.nodeId = false := by
    have h0 := (hi.entry t p hp).queues
    have hok := @qryMgrQcbPutPending_queuesOk distOf _ _ _
      (⟨h0.actived_le, Nat.zero_le _, h0.actived_history, ⟨.nil, List.nodup_nil, nofun, nofun⟩⟩ :
        QueuesOk distOf qm.maxActInsts qm.maxPendings { qm.qcb p with qryPending := [] })
      (peers.map (⟨·, 0⟩)) (by simpa [QryPendingInfo.nodeId] using hc)
    rw [hl] at hok
    exact hok.pending.fresh
  set qm1 := qm.setQcb p { qm.qcb p with qryPending := l }
  have h1 : Probed qm1 := h.keeps (probeKeeps_setQcb qm p _ rfl rfl)
  unfold QryMgr.nearestRspStart
  dsimp only
  rw [hl]
  split_ifs with he he2
  · exact h1.keeps (probeKeeps_nearestRspFailed _ _ _ _)
  · exact (h1.keeps (probeKeeps_qryMgrQcbStartTimer _ p _)).keeps (probeKeeps_nearestRspFailed _ _ _ _)
  · cases timerOk
    · simp [qryMgrQcbStartTimer] at he2
    set qm2 := (qm1.qryMgrQcbStartTimer p true).1
    have hq2 : qm2.qcb p = { qm.qcb p with qryPending := l, qryTid := qm1.sch.nextTid } := by
      simp only [qm2, qm1, qryMgrQcbStartTimer, if_true]
      show (qm1.setQcb p _).qcb p = _
      rw [qcb_setQcb_self _ _ _ (by simpa [qm1] using hlt), qcb_setQcb_self _ _ _ hlt]
    have h3 := (h1.keeps (probeKeeps_qryMgrQcbStartTimer qm1 p true)).qryMgrQcbPutActived p creates
      (by rw [hq2]; exact hfresh)
    exact h3.keeps (probeKeeps_setQcb _ p _ rfl rfl)

/-- `rutNearestRsp` keeps the probes' invariant, for peers at the distance `distOf` gives them. -/
theorem Probed.rutNearestRsp {distOf : NodeID → Nat} {qm : QryMgr} (h : Probed qm)
    (hi : Inv distOf qm) (msg : MsgDhtRutMgrNearestRsp) (timerOk : Bool) (creates : List Bool)
    (hc : ∀ peers ∈ msg.Peers, ∀ bn ∈ peers, bn.dist = distOf bn.node.ID) :
    (qm.rutNearestRsp msg timerOk creates).Post (Probed ·.2) := by
  unfold QryMgr.rutNearestRsp
  split
  · exact h
  split
  · exact h
  next p hp =>
  have hfail : ∀ eno, Probed (qm.nearestRspFailed (qm.qcb p).ptnOwner msg.Target eno) :=
    fun eno => h.keeps (probeKeeps_nearestRspFailed _ _ _ _)
  split
  · exact h
  split
  · exact hfail _
  split
  · exact hfail _
  · exact hfail _
  · trivial
  next peers pcs dists hP _ _ =>
  split
  · exact hfail _
  split
  · exact hfail _
  obtain ⟨r, hr⟩ := nearestResultLoop_qcb msg.ForWhat msg.Target { qm.qcb p with qryResult := [] }
    (peers.zip (pcs.zip dists))
  -- the result list is written
  have hk : Keeps distOf qm (qm.setQcb p (nearestResultLoop msg.ForWhat msg.Target
      { qm.qcb p with qryResult := [] } (peers.zip (pcs.zip dists))).1) := by
    rw [hr]
    exact keeps_setQcb qm p _ rfl rfl rfl fun h => h.congr rfl rfl rfl
  have h1 : Probed (qm.setQcb p (nearestResultLoop msg.ForWhat msg.Target
      { qm.qcb p with qryResult := [] } (peers.zip (pcs.zip dists))).1) := by
    rw [hr]
    exact h.keeps (probeKeeps_setQcb qm p _ rfl rfl)
  dsimp only
  split
  · exact (h1.keeps (probeKeeps_send _ _)).keeps (probeKeeps_qryMgrDelQcb _ _ _)
  · exact h1.nearestRspStart (hi.keeps hk) (hk.qcbTab ▸ hp) _ _ _ _ _ (hc peers hP)

/-- `rutNotificationInd` keeps the probes' invariant, for peers at the distance `distOf` gives
them. -/
theorem Probed.rutNotificationInd {distOf : NodeID → Nat} {qm : QryMgr} (h : Probed qm)
    (hi : Inv distOf qm) (target : DsKey) (peers : List RutMgrBucketNode) (creates : List Bool)
    (hc : ∀ bn ∈ peers, bn.dist = distOf bn.node.ID) :
    (qm.rutNotificationInd target peers creates).Post (Probed ·.2) := by
  unfold QryMgr.rutNotificationInd
  split
  · exact h
  next p hp =>
  dsimp only
  split
  · exact h
  have hk := @keeps_qryMgrQcbPutPending distOf qm p (peers.map (⟨·, 0⟩))
    (by simpa [QryPendingInfo.nodeId] using hc)
  exact ((h.keeps (probeKeeps_qryMgrQcbPutPending qm p _ _)).putActived_of_inv (hi.keeps hk)
    (hk.qcbTab ▸ hp) creates).keeps (probeKeeps_qryDoneCheck _ p _)

/-- `instStatusInd` keeps the probes' invariant. -/
theorem Probed.instStatusInd {distOf : NodeID → Nat} {qm : QryMgr} (h : Probed qm)
    (hi : Inv distOf qm) (target : DsKey) (peer : NodeID) (status : Nat) (creates : List Bool) :
    (qm.instStatusInd target peer status creates).Post (Probed ·.2) := by
  unfold QryMgr.instStatusInd
  split_ifs
  · split
    · exact h
    next p hp =>
    split
    next qm1 eno heq =>
    have hk := @keeps_qryMgrDelIcb distOf qm .qryInstDoneInd target peer
    have h1 := h.keeps (probeKeeps_qryMgrDelIcb qm .qryInstDoneInd target peer)
    rw [heq] at hk h1
    split_ifs
    · exact h1
    · exact (h1.putActived_of_inv (hi.keeps hk) (hk.qcbTab ▸ hp) creates).keeps
        (probeKeeps_qryDoneCheck _ p _)
  · exact h
  · exact h

theorem Probed.instResultFound {qm : QryMgr} (h : Probed qm) (p : Nat) (val : List UInt8)
    (prd : Option (List Node)) : Probed (qm.instResultFound p val prd).2 := by
  unfold QryMgr.instResultFound
  exact (h.keeps (probeKeeps_send qm _)).keeps (probeKeeps_qryMgrDelQcb _ _ _)

/-- The end of `instResultInd` keeps the probes' invariant, for the QCB of the table that the
answer's target names. -/
theorem Probed.instResultNext {distOf : NodeID → Nat} {qm : QryMgr} (h : Probed qm)
    (hi : Inv distOf qm) (msg : MsgDhtQryInstResultInd) {p : Nat}
    (hp : qm.qcbTab.get? msg.Target = some p) (icb : QryInstCtrlBlock) (peers : List Node)
    (creates : List Bool) : Probed (qm.instResultNext msg p icb peers [] creates).2 := by
  unfold QryMgr.instResultNext
  split
  next qm1 eno heq =>
  have hk1 := @keeps_qryMgrDelIcb distOf qm .qryInstResultInd msg.Target msg.From.ID
  have h1 := h.keeps (probeKeeps_qryMgrDelIcb qm .qryInstResultInd msg.Target msg.From.ID)
  rw [heq] at hk1 h1
  by_cases he : eno ≠ .none
  · rw [if_pos he]
    exact h1
  rw [if_neg he]
  -- the depth of the probe is recorded
  have hk2 : Keeps distOf qm1 (if icb.depth > (qm1.qcb p).depth then
      qm1.setQcb p { qm1.qcb p with depth := icb.depth } else qm1) := by
    split_ifs
    · exact keeps_setQcb _ p _ rfl rfl rfl fun h => h.congr rfl rfl rfl
    · exact .refl qm1
  have h2 : Probed (if icb.depth > (qm1.qcb p).depth then
      qm1.setQcb p { qm1.qcb p with depth := icb.depth } else qm1) := by
    split_ifs
    · exact h1.keeps (probeKeeps_setQcb _ p _ rfl rfl)
    · exact h1
  have hi2 := (hi.keeps hk1).keeps hk2
  have hp2 := (hk1.trans hk2).qcbTab ▸ hp
  generalize (if icb.depth > (qm1.qcb p).depth then
      qm1.setQcb p { qm1.qcb p with depth := icb.depth } else qm1) = qm2 at h2 hi2 hp2 ⊢
  dsimp only
  simp only [List.zip_nil_right, List.map_nil]
  split_ifs
  iterate 2 exact (h2.keeps (probeKeeps_send _ _)).keeps (probeKeeps_qryMgrDelQcb _ _ _)
  · have hk3 := @keeps_qryMgrQcbPutPending distOf qm2 p [] nofun
    exact ((h2.keeps (probeKeeps_qryMgrQcbPutPending qm2 p [] _)).putActived_of_inv (hi2.keeps hk3)
      (hk3.qcbTab ▸ hp2) creates).keeps (probeKeeps_qryDoneCheck _ p _)
  · exact h2.keeps (probeKeeps_qryDoneCheck _ p _)

/-- `instResultInd` keeps the probes' invariant. -/
theorem Probed.instResultInd {distOf : NodeID → Nat} {qm : QryMgr} (h : Probed qm)
    (hi : Inv distOf qm) (msg : MsgDhtQryInstResultInd) (creates : List Bool) :
    (qm.instResultInd msg creates).Post (Probed ·.2) := by
  unfold QryMgr.instResultInd
  split_ifs
  · exact h
  · exact h
  dsimp only
  split
  · exact h.keeps (probeKeeps_send _ _)
  next p hp =>
  split
  · exact h.keeps (probeKeeps_send _ _)
  next icb _ =>
  rw [Run.post_bind]
  refine Run.Post.mono (fun hds (hh : hds = []) => hh ▸ ?_) (resultDistLoop_post _)
  have h1 := h.keeps (probeKeeps_send qm (.updateReq msg.From msg.Latency))
  have hi1 := hi.send (.updateReq msg.From msg.Latency)
  unfold QryMgr.instResultRest
  simp only [List.zip_nil_right, List.foldl_nil, setQcb_qcb_self]
  split_ifs
  iterate 3 exact h1.instResultFound p _ _
  exact h1.instResultNext hi1 msg hp icb _ creates

theorem Probed.qcbTimer {qm : QryMgr} (h : Probed qm) (tid : Int) (p : Nat) :
    ((qm.expire tid p).qcbTimerHandler p).Post (Probed ·.2) :=
  ((h.keeps (@ProbeKeeps.of_qcbs _ (qm.expire tid p) rfl rfl rfl)).keeps (probeKeeps_send _ _)).keeps
    (probeKeeps_qryMgrDelQcb _ _ _)

theorem Probed.qcbTimerStale {qm : QryMgr} (h : Probed qm) (tid : Int) (p : Nat) :
    ((qm.deliverStale tid p).qcbTimerHandler p).Post (Probed ·.2) :=
  ((h.keeps (@ProbeKeeps.of_qcbs _ (qm.deliverStale tid p) rfl rfl rfl)).keeps
    (probeKeeps_send _ _)).keeps (probeKeeps_qryMgrDelQcb _ _ _)

theorem probeKeeps_natMapSwitchLoop (qm : QryMgr) :
    ∀ l, ProbeKeeps qm (qm.natMapSwitchLoop l).1 := by
  intro l
  induction l generalizing qm with
  | nil => exact .refl qm
  | cons x l ih =>
    unfold QryMgr.natMapSwitchLoop
    dsimp only
    split_ifs
    · exact (probeKeeps_send qm _).trans (probeKeeps_qryMgrDelQcb _ _ _)
    · exact ((probeKeeps_send qm _).trans (probeKeeps_qryMgrDelQcb _ _ _)).trans (ih _)

theorem Probed.natMapSwitch {qm : QryMgr} (h : Probed qm) {r : QryMgr × DhtErrno}
    (hr : qm.natMapSwitch = r) : Probed r.1 := by
  have hk := h.keeps (probeKeeps_natMapSwitchLoop qm qm.qcbTab.bindings)
  rw [← hr]
  unfold QryMgr.natMapSwitch
  split
  next qm1 heq =>
    rw [heq] at hk
    exact (hk.keeps (@ProbeKeeps.of_qcbs qm1 qm1.switch2NatAddr rfl rfl rfl)).keeps
      (probeKeeps_send _ _)
  next => exact hk

/-- The NAT indications keep the probes' invariant: they change addresses, or delete every QCB. -/
theorem Probed.natPubAddrUpdateInd {qm : QryMgr} (h : Probed qm) (proto : String)
    (statusOk : Bool) (pubIp : List UInt8) (pubPort : Nat) :
    (qm.natPubAddrUpdateInd proto statusOk pubIp pubPort).Post (Probed ·.2) := by
  have hs := h.keeps (probeKeeps_send qm .toConMgr)
  unfold QryMgr.natPubAddrUpdateInd
  dsimp only
  split_ifs
  · exact hs
  · exact hs.keeps (.of_qcbs rfl rfl rfl)
  · split <;>
    · rename_i heq
      exact (hs.keeps (.of_qcbs (by rfl) (by rfl) (by rfl))).natMapSwitch heq
  · exact hs.keeps (.of_qcbs rfl rfl rfl)

theorem Probed.natMgrReadyInd {qm : QryMgr} (h : Probed qm) (natNone : Bool) :
    (qm.natMgrReadyInd natNone).Post (Probed ·.2) := by
  unfold QryMgr.natMgrReadyInd
  split_ifs
  · exact h.keeps (.of_qcbs rfl rfl rfl)
  · exact h.keeps (probeKeeps_send qm _)

theorem Probed.natMakeMapRsp {qm : QryMgr} (h : Probed qm) (proto : String) (statusOk : Bool)
    (pubIp : List UInt8) (pubPort : Nat) :
    (qm.natMakeMapRsp proto statusOk pubIp pubPort).Post (Probed ·.2) := by
  unfold QryMgr.natMakeMapRsp
  dsimp only
  split_ifs
  · exact h.keeps (.of_qcbs (by rfl) (by rfl) (by rfl))
  · exact h.keeps (.of_qcbs (by rfl) (by rfl) (by rfl))
  · exact h

/-! ### Runs -/

/-- **Every handled event keeps the probes' invariant**, in a state with `Inv` and for route
manager messages whose bucket nodes are at the distance `distOf` gives them. -/
theorem Probed.qryMgrProc {distOf : NodeID → Nat} {qm : QryMgr} (h : Probed qm)
    (hi : Inv distOf qm) {ev : QryEvent} (hc : RouteConsistent distOf ev)
    {r : Run (SchErrno × QryMgr)} (heq : qm.qryMgrProc ev = some r) : r.Post (Probed ·.2) := by
  cases ev with
  | queryStartReq sender target forWhat => cases heq; exact h.queryStartReq sender target forWhat
  | rutNearestRsp msg timerOk creates => cases heq; exact h.rutNearestRsp hi msg timerOk creates hc
  | qcbTimer tid p =>
    simp only [QryMgr.qryMgrProc] at heq
    split_ifs at heq
    cases heq
    exact h.qcbTimer tid p
  | qcbTimerStale tid p =>
    simp only [QryMgr.qryMgrProc] at heq
    split_ifs at heq
    cases heq
    exact h.qcbTimerStale tid p
  | queryStopReq sender target => cases heq; exact h.queryStopReq sender target
  | rutNotificationInd target peers creates =>
    cases heq; exact h.rutNotificationInd hi target peers creates hc
  | instStatusInd ptn status creates =>
    obtain ⟨icb, -, rfl⟩ := Option.map_eq_some'.mp heq
    exact h.instStatusInd hi _ _ status creates
  | instResultInd ptn forWhat latency peers pcs value provider creates =>
    obtain ⟨icb, -, rfl⟩ := Option.map_eq_some'.mp heq
    exact h.instResultInd hi _ creates
  | natMgrReadyInd natNone => cases heq; exact h.natMgrReadyInd natNone
  | natMakeMapRsp proto statusOk pubIp pubPort =>
    cases heq; exact h.natMakeMapRsp proto statusOk pubIp pubPort
  | natPubAddrUpdateInd proto statusOk pubIp pubPort =>
    cases heq; exact h.natPubAddrUpdateInd proto statusOk pubIp pubPort

theorem probed_newQryMgr (cfgLocal : Node) (maxActInsts : Nat) :
    Probed (newQryMgr cfgLocal maxActInsts) :=
  ⟨fun _ h => absurd h (Nat.not_lt_zero _), rfl, nofun, fun _ h => absurd h (Nat.not_lt_zero _), .nil⟩

end QryMgr

open QryMgr

/-- **Every reachable state satisfies the probes' invariant.** -/
theorem Reachable.probed {distOf : NodeID → Nat} {qm : QryMgr} (h : Reachable distOf qm) :
    Probed qm := by
  induction h with
  | init cfgLocal maxActInsts => exact probed_newQryMgr cfgLocal maxActInsts
  | step hr hc heq ih => exact ih.qryMgrProc hr.inv hc heq

/-- **A query's history is the set of the peers it has probed, each probed once**: in every
reachable state, every instance task was started for a QCB of the heap; and for every QCB of the
heap, a peer is in its history exactly when an instance task was started for the QCB to probe it,
the tasks started for one QCB probe pairwise different peers, and so the history's size, which the
width limit reads, is the number of probes the query has started. -/
theorem reachable_probes_once {distOf : NodeID → Nat} {qm : QryMgr} (h : Reachable distOf qm) :
    (∀ icb ∈ qm.sch.insts, icb.name.1 < qm.qcbs.length) ∧
    ∀ p < qm.qcbs.length,
      (∀ id, (qm.qcb p).qryHistory.contains id = true ↔
        ∃ icb ∈ qm.sch.insts, icb.name.1 = p ∧ icb.toNode.ID = id) ∧
      ((qm.sch.insts.filter (·.name.1 = p)).map (·.toNode.ID)).Nodup ∧
      (qm.qcb p).qryHistory.size = (qm.sch.insts.filter (·.name.1 = p)).length := by
  have hp := h.probed
  refine ⟨fun icb hm => (hp.history icb hm).1, fun p hlt => ?_⟩
  have hiff : ∀ id, (qm.qcb p).qryHistory.contains id = true ↔
      ∃ icb ∈ qm.sch.insts, icb.name.1 = p ∧ icb.toNode.ID = id :=
    fun id => ⟨hp.started p hlt id, fun ⟨icb, hm, hs, hi⟩ => hi ▸ hs ▸ (hp.history icb hm).2⟩
  have hnd : ((qm.sch.insts.filter (·.name.1 = p)).map (·.toNode.ID)).Nodup := by
    rw [List.Nodup, List.pairwise_map]
    refine (hp.once.filter _).imp_of_mem fun ha hb hab => hab ?_
    simp only [List.mem_filter, decide_eq_true_eq] at ha hb
    exact ha.2.trans hb.2.symm
  refine ⟨hiff, hnd, ?_⟩
  -- the history's keys and the tasks' peers are one duplicate-free list, up to order
  have hperm := (List.perm_ext_iff_of_nodup (qm.qcb p).qryHistory.nodup hnd).mpr fun id => by
    rw [← GoMap.find_isSome]
    change (qm.qcb p).qryHistory.contains id = true ↔ _
    simp only [hiff, List.mem_map, List.mem_filter, decide_eq_true_eq, and_assoc]
  calc (qm.qcb p).qryHistory.size
      = ((qm.qcb p).qryHistory.bindings.map Prod.fst).length := (List.length_map _ _).symm
    _ = ((qm.sch.insts.filter (·.name.1 = p)).map (·.toNode.ID)).length := hperm.length_eq
    _ = (qm.sch.insts.filter (·.name.1 = p)).length := List.length_map _ _

/-- The lookup of `seededQryMgr` has probed its two seeds, one task each. -/
theorem reachable_probes_once_seeded :
    (∀ icb ∈ seededQryMgr.sch.insts, icb.name.1 < seededQryMgr.qcbs.length) ∧
    ∀ p < seededQryMgr.qcbs.length,
      (∀ id, (seededQryMgr.qcb p).qryHistory.contains id = true ↔
        ∃ icb ∈ seededQryMgr.sch.insts, icb.name.1 = p ∧ icb.toNode.ID = id) ∧
      ((seededQryMgr.sch.insts.filter (·.name.1 = p)).map (·.toNode.ID)).Nodup ∧
      (seededQryMgr.qcb p).qryHistory.size = (seededQryMgr.sch.insts.filter (·.name.1 = p)).length :=
  reachable_probes_once (Reachable.of_runEvents seededRun (.init _ _ : Reachable (fun _ => 0) _)
    (by simp [seededRun, RouteConsistent, exampleNearestRsp, examplePeer]) rfl)

end Gyee.Dht.Query
