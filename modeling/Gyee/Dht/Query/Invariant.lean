import Mathlib.Data.List.GetD
import Gyee.Dht.Query.System

/-! # What every run of the query manager keeps

The invariant `Inv`: every entry `t ↦ p` of `qcbTab` is a QCB stored under its own target, in
`qsPreparing` or `qsInited`, with well-kept queues (`EntryOk`); an inited QCB of the table has its
timer armed; every armed timer is the timer of an inited QCB of the table, with an identity below
the scheduler's counter; and no two inited QCBs of the table share a timer identity.

Most handler steps only work on queues (`Keeps`), and keep `Inv` at once (`Inv.keeps`). The others
delete a QCB or start one. `inv_qryMgrDelQcb` shows deleting keeps `Inv`, also from a state where
the deleted QCB's own timer has already expired: that is the state `qcbTimerHandler` deletes from.

The main results:
- `Inv.qryMgrProc`: every handled event keeps `Inv`;
- `Reachable.inv`: every reachable state satisfies it;
- `reachable_qcbTab_wellKept`: the table's QCBs as the spec describes them. -/

namespace Gyee.Dht.Query

open Gyee Gyee.Dht.RouteTable

namespace QryMgr

variable (distOf : NodeID → Nat)

/-- The entry `t ↦ p` of `qcbTab`: a QCB of the heap, stored under its own target, preparing or
inited, with well-kept queues. -/
structure EntryOk (qm : QryMgr) (t : DsKey) (p : Nat) : Prop where
  lt : p < qm.qcbs.length
  target : (qm.qcb p).target = t
  status : (qm.qcb p).status = .qsPreparing ∨ (qm.qcb p).status = .qsInited
  queues : QueuesOk distOf qm.maxActInsts qm.maxPendings (qm.qcb p)

/-- The armed timer `(tid, p)` is the timer of an inited QCB of the table. -/
def TimerOk (qm : QryMgr) (tid : Int) (p : Nat) : Prop :=
  (∃ t, qm.qcbTab.get? t = some p) ∧ (qm.qcb p).status = .qsInited ∧ (qm.qcb p).qryTid = tid ∧
    0 ≤ tid ∧ tid < qm.sch.nextTid

/-- **The invariant of the query manager.** -/
structure Inv (qm : QryMgr) : Prop where
  entry : ∀ t p, qm.qcbTab.get? t = some p → EntryOk distOf qm t p
  armed : ∀ t p, qm.qcbTab.get? t = some p → (qm.qcb p).status = .qsInited →
    ((qm.qcb p).qryTid, p) ∈ qm.sch.timers
  timers : ∀ tid p, (tid, p) ∈ qm.sch.timers → TimerOk qm tid p
  tidInj : ∀ t p t' p', qm.qcbTab.get? t = some p → qm.qcbTab.get? t' = some p' →
    (qm.qcb p).status = .qsInited → (qm.qcb p').status = .qsInited →
    (qm.qcb p).qryTid = (qm.qcb p').qryTid → p = p'

variable {distOf}

/-- Two targets of the table never share a QCB. -/
theorem Inv.ptr_inj {qm : QryMgr} (hi : Inv distOf qm) {t t' : DsKey} {p : Nat}
    (h : qm.qcbTab.get? t = some p) (h' : qm.qcbTab.get? t' = some p) : t = t' :=
  ((hi.entry t p h).target.symm.trans (hi.entry t' p h').target)

theorem inv_newQryMgr (cfgLocal : Node) (maxActInsts : Nat) :
    Inv distOf (newQryMgr cfgLocal maxActInsts) :=
  ⟨fun _ _ h => by simp [newQryMgr] at h, fun _ _ h => by simp [newQryMgr] at h, nofun,
    fun _ _ _ _ h => by simp [newQryMgr] at h⟩

/-! ### Steps that only work on queues -/

theorem EntryOk.keeps {qm qm' : QryMgr} {t : DsKey} {p : Nat} (h : EntryOk distOf qm t p)
    (hk : Keeps distOf qm qm') : EntryOk distOf qm' t p where
  lt := hk.length ▸ h.lt
  target := (hk.target p).trans h.target
  status := hk.status p ▸ h.status
  queues := hk.maxActInsts ▸ hk.maxPendings ▸ hk.queues p h.queues

theorem TimerOk.keeps {qm qm' : QryMgr} {tid : Int} {p : Nat} (h : TimerOk qm tid p)
    (hk : Keeps distOf qm qm') : TimerOk qm' tid p := by
  unfold TimerOk
  rw [hk.qcbTab, hk.status, hk.qryTid, hk.nextTid]
  exact h

/-- **A step that only works on queues keeps the invariant.** -/
theorem Inv.keeps {qm qm' : QryMgr} (hi : Inv distOf qm) (hk : Keeps distOf qm qm') :
    Inv distOf qm' where
  entry t p h := (hi.entry t p (hk.qcbTab ▸ h)).keeps hk
  armed t p h hs := by
    rw [hk.qryTid, hk.timers]
    exact hi.armed t p (hk.qcbTab ▸ h) (hk.status p ▸ hs)
  timers tid p h := (hi.timers tid p (hk.timers ▸ h)).keeps hk
  tidInj t p t' p' h h' hs hs' hq := by
    rw [hk.qcbTab] at h h'
    rw [hk.status] at hs hs'
    rw [hk.qryTid, hk.qryTid] at hq
    exact hi.tidInj t p t' p' h h' hs hs' hq

/-- The invariant only reads the table, the QCBs, the scheduler and the bounds. -/
theorem Inv.congr {qm qm' : QryMgr} (hi : Inv distOf qm) (h1 : qm'.qcbTab = qm.qcbTab)
    (h2 : qm'.qcbs = qm.qcbs) (h3 : qm'.sch = qm.sch) (h4 : qm'.maxActInsts = qm.maxActInsts)
    (h5 : qm'.maxPendings = qm.maxPendings) : Inv distOf qm' :=
  hi.keeps (Keeps.of_qcbs _ _ h1 h2 (by rw [h3]) (by rw [h3]) h4 h5)

/-! ### Deleting a QCB -/

/-- **Deleting a QCB keeps the invariant**, also from a state where the QCB of `t` has lost its
armed timer; every other part of the invariant must hold. -/
theorem inv_qryMgrDelQcb (qm : QryMgr) (why : DelQcbWhy) (t : DsKey)
    (hwhy : why ≠ .qryInstResultInd)
    (he : ∀ t p, qm.qcbTab.get? t = some p → EntryOk distOf qm t p)
    (ha : ∀ t' p, t' ≠ t → qm.qcbTab.get? t' = some p → (qm.qcb p).status = .qsInited →
      ((qm.qcb p).qryTid, p) ∈ qm.sch.timers)
    (ht : ∀ tid p, (tid, p) ∈ qm.sch.timers → TimerOk qm tid p)
    (hj : ∀ t p t' p', qm.qcbTab.get? t = some p → qm.qcbTab.get? t' = some p' →
      (qm.qcb p).status = .qsInited → (qm.qcb p').status = .qsInited →
      (qm.qcb p).qryTid = (qm.qcb p').qryTid → p = p') :
    Inv distOf (qm.qryMgrDelQcb why t).1 := by
  rcases qryMgrDelQcb_cases qm why t hwhy with ⟨hn, h⟩ | ⟨p, hp, hT, hL, hO, -, -, hN, hA, hP, hTm⟩
  · rw [h]
    refine ⟨he, fun t' p' h' => ha t' p' (fun e => ?_) h', ht, hj⟩
    rw [e, hn] at h'
    cases h'
  set qm' := (qm.qryMgrDelQcb why t).1
  -- an entry that survives the deletion is not the deleted QCB
  have hsurv : ∀ t' p', qm'.qcbTab.get? t' = some p' →
      t' ≠ t ∧ qm.qcbTab.get? t' = some p' ∧ p' ≠ p := by
    intro t' p' h'
    rw [hT, GoMap.get?_delete] at h'
    split_ifs at h' with h1
    refine ⟨h1, h', fun e => h1 ?_⟩
    subst e
    exact (he t' p' h').target.symm.trans (he t p' hp).target
  -- a timer that survives the kill is armed for a QCB other than the deleted one
  have hkill : ∀ x ∈ qm'.sch.timers, x ∈ qm.sch.timers ∧ x.2 ≠ p := by
    intro x hx
    rw [hTm] at hx
    split_ifs at hx with hk
    · obtain ⟨hx, hne⟩ := List.mem_filter.mp hx
      refine ⟨hx, fun e => ?_⟩
      obtain ⟨-, -, hq, -⟩ := ht x.1 x.2 hx
      rw [e] at hq
      simp [hq] at hne
    · refine ⟨hx, fun e => hk ?_⟩
      obtain ⟨-, hs, hq, h0, -⟩ := ht x.1 x.2 hx
      rw [e] at hs hq
      exact ⟨hs, by rw [hq]; unfold schInvalidTid; omega⟩
  refine ⟨fun t' p' h' => ?_, fun t' p' h' hs => ?_, fun tid p' h' => ?_,
    fun t1 p1 t2 p2 h1 h2 hs1 hs2 hq => ?_⟩
  · obtain ⟨-, h', hne⟩ := hsurv t' p' h'
    obtain ⟨hlt, htg, hst, hq⟩ := he t' p' h'
    exact ⟨hL ▸ hlt, (hO p' hne).symm ▸ htg, (hO p' hne).symm ▸ hst,
      hA ▸ hP ▸ (hO p' hne).symm ▸ hq⟩
  · obtain ⟨hne, h', hpne⟩ := hsurv t' p' h'
    rw [hO p' hpne] at hs ⊢
    have harm := ha t' p' hne h' hs
    rw [hTm]
    split_ifs with hk
    · refine List.mem_filter.mpr ⟨harm, ?_⟩
      simp only [ne_eq, decide_eq_true_eq]
      exact fun e => hpne (hj t' p' t p h' hp hs hk.1 e)
    · exact harm
  · obtain ⟨h', hne⟩ := hkill (tid, p') h'
    obtain ⟨⟨t'', ht''⟩, hs, hq, h0, hlt⟩ := ht tid p' h'
    have ht''ne : t'' ≠ t := fun e => hne (Option.some.inj ((e ▸ ht'').symm.trans hp))
    refine ⟨⟨t'', ?_⟩, (hO p' hne).symm ▸ hs, (hO p' hne).symm ▸ hq, h0, hN ▸ hlt⟩
    rw [hT, GoMap.get?_delete, if_neg ht''ne]
    exact ht''
  · obtain ⟨-, h1, hp1⟩ := hsurv t1 p1 h1
    obtain ⟨-, h2, hp2⟩ := hsurv t2 p2 h2
    rw [hO p1 hp1] at hs1 hq
    rw [hO p2 hp2] at hs2 hq
    exact hj t1 p1 t2 p2 h1 h2 hs1 hs2 hq

/-- Deleting a QCB keeps the invariant. -/
theorem Inv.qryMgrDelQcb {qm : QryMgr} (hi : Inv distOf qm) {why : DelQcbWhy}
    (hwhy : why ≠ .qryInstResultInd) (t : DsKey) : Inv distOf (qm.qryMgrDelQcb why t).1 :=
  inv_qryMgrDelQcb qm why t hwhy hi.entry (fun t' p _ => hi.armed t' p) hi.timers hi.tidInj

theorem Inv.send {qm : QryMgr} (hi : Inv distOf qm) (m : QryMgrOut) : Inv distOf (qm.send m) :=
  hi.keeps (keeps_send qm m)

/-- The end of three handlers, which may report and delete the QCB, keeps the invariant. -/
theorem Inv.qryDoneCheck {qm : QryMgr} (hi : Inv distOf qm) (p : Nat) (eno : DhtErrno) :
    Inv distOf (qm.qryDoneCheck p eno).2 := by
  unfold QryMgr.qryDoneCheck
  dsimp only
  split_ifs
  all_goals first | exact hi | exact (hi.send _).qryMgrDelQcb (by decide) _

/-! ### Starting a query -/

/-- A QCB appended to the heap and entered in the table under its target, which had no QCB, keeps
the invariant when it is preparing with well-kept queues. -/
theorem Inv.alloc {qm : QryMgr} (hi : Inv distOf qm) (q : QryCtrlBlock) (n : Nat)
    (hc : qm.qcbTab.contains q.target = false) (hs : q.status = .qsPreparing)
    (hq : QueuesOk distOf qm.maxActInsts qm.maxPendings q) :
    Inv distOf { qm with
      qcbs := qm.qcbs ++ [q], qcbSeq := n, qcbTab := qm.qcbTab.set q.target qm.qcbs.length } := by
  set qm' : QryMgr := { qm with
    qcbs := qm.qcbs ++ [q], qcbSeq := n, qcbTab := qm.qcbTab.set q.target qm.qcbs.length }
  -- the old entries read the same QCBs
  have hold : ∀ t p, t ≠ q.target → qm'.qcbTab.get? t = some p →
      qm.qcbTab.get? t = some p ∧ qm'.qcb p = qm.qcb p := by
    intro t p ht h
    simp only [qm', GoMap.get?_set, if_neg ht] at h
    exact ⟨h, List.getD_append _ _ _ _ (hi.entry t p h).lt⟩
  have hnew : ∀ p, qm'.qcbTab.get? q.target = some p → p = qm.qcbs.length ∧ qm'.qcb p = q := by
    intro p h
    simp only [qm', GoMap.get?_set, if_true, Option.some.injEq] at h
    subst h
    refine ⟨rfl, ?_⟩
    simp [qm', qcb, List.getD_append_right]
  have hpre : ∀ t p, qm'.qcbTab.get? t = some p → (qm'.qcb p).status = .qsInited →
      qm.qcbTab.get? t = some p ∧ qm'.qcb p = qm.qcb p := by
    intro t p h hs'
    by_cases ht : t = q.target
    · subst ht
      rw [(hnew p h).2, hs] at hs'
      cases hs'
    · exact hold t p ht h
  refine ⟨fun t p h => ?_, fun t p h hs' => ?_, fun tid p h => ?_,
    fun t p t' p' h h' hs1 hs2 hq' => ?_⟩
  · by_cases ht : t = q.target
    · subst ht
      obtain ⟨rfl, he⟩ := hnew p h
      exact ⟨by simp [qm'], he.symm ▸ rfl, he.symm ▸ .inl hs, he.symm ▸ hq⟩
    · obtain ⟨h, he⟩ := hold t p ht h
      obtain ⟨hlt, htg, hst, hok⟩ := hi.entry t p h
      exact ⟨by simp only [qm', List.length_append]; omega, he ▸ htg, he ▸ hst, he ▸ hok⟩
  · obtain ⟨h, he⟩ := hpre t p h hs'
    rw [he] at hs' ⊢
    exact hi.armed t p h hs'
  · obtain ⟨⟨t, ht⟩, hs', htid, h0, hlt⟩ := hi.timers tid p h
    have hne : t ≠ q.target := fun e => by
      rw [e] at ht
      simp [GoMap.contains, GoMap.get?] at hc
      simp [GoMap.get?, hc] at ht
    have he : qm'.qcb p = qm.qcb p := List.getD_append _ _ _ _ (hi.entry t p ht).lt
    refine ⟨⟨t, ?_⟩, he ▸ hs', he ▸ htid, h0, hlt⟩
    simp only [qm', GoMap.get?_set, if_neg hne]
    exact ht
  · obtain ⟨h, he⟩ := hpre t p h hs1
    obtain ⟨h', he'⟩ := hpre t' p' h' hs2
    rw [he] at hs1 hq'
    rw [he'] at hs2 hq'
    exact hi.tidInj t p t' p' h h' hs1 hs2 hq'

/-- **`queryStartReq` keeps the invariant.** -/
theorem Inv.queryStartReq {qm : QryMgr} (hi : Inv distOf qm) (sender : Nat) (target : DsKey)
    (forWhat : Nat) : (qm.queryStartReq sender target forWhat).Post (Inv distOf ·.2) := by
  unfold QryMgr.queryStartReq
  split_ifs with h1 h2
  · exact hi
  · exact hi.send _
  · refine ((hi.alloc ⟨sender, qm.qcbSeq, forWhat, target, .qsPreparing, ∅, [], ∅, [], 0, 0, true,
      0, 0⟩ (qm.qcbSeq + 1) (by simpa using h2) rfl ?_).send _).send _
    exact ⟨Nat.zero_le _, Nat.zero_le _, by simp, ⟨List.Pairwise.nil, List.nodup_nil, nofun,
      nofun⟩⟩

/-- `queryStopReq` keeps the invariant. -/
theorem Inv.queryStopReq {qm : QryMgr} (hi : Inv distOf qm) (sender : Nat) (target : DsKey) :
    (qm.queryStopReq sender target).Post (Inv distOf ·.2) := by
  have h1 : Inv distOf (qm.qryMgrDelQcb .command target).1 := hi.qryMgrDelQcb (by decide) target
  unfold QryMgr.queryStopReq
  split
  next qm' e h =>
  rw [h] at h1
  exact h1.send _

/-- **Arming the timer of a preparing QCB of the table**, then working on queues and marking the
QCB inited, keeps the invariant: the new timer's identity is above every armed one. -/
theorem Inv.arm {qm : QryMgr} (hi : Inv distOf qm) {t : DsKey} {p : Nat}
    (hp : qm.qcbTab.get? t = some p) (hs : (qm.qcb p).status = .qsPreparing) {qm' : QryMgr}
    (hk : Keeps distOf (qm.qryMgrQcbStartTimer p true).1 qm') :
    Inv distOf (qm'.setQcb p { qm'.qcb p with status := .qsInited }) := by
  have hlt := (hi.entry t p hp).lt
  set s := (qm.qryMgrQcbStartTimer p true).1 with hs_def
  have sO : ∀ p', p' ≠ p → s.qcb p' = qm.qcb p' := fun p' h => qcb_setQcb_ne _ _ h
  have sP : s.qcb p = { qm.qcb p with qryTid := qm.sch.nextTid } := qcb_setQcb_self _ _ _ hlt
  set f := qm'.setQcb p { qm'.qcb p with status := .qsInited }
  have fT : f.qcbTab = qm.qcbTab := hk.qcbTab
  have fLen : f.qcbs.length = qm.qcbs.length := by
    simp only [f, setQcb_length, hk.length, hs_def, qryMgrQcbStartTimer, if_true]
  have fL : p < f.qcbs.length := fLen ▸ hlt
  have fTm : f.sch.timers = qm.sch.timers ++ [((qm.sch.nextTid : Int), p)] := hk.timers
  have fN : f.sch.nextTid = qm.sch.nextTid + 1 := hk.nextTid
  have fM : f.maxActInsts = qm.maxActInsts ∧ f.maxPendings = qm.maxPendings :=
    ⟨hk.maxActInsts, hk.maxPendings⟩
  -- the other QCBs are read as before
  have fO : ∀ p', p' ≠ p → (f.qcb p').target = (qm.qcb p').target ∧
      (f.qcb p').status = (qm.qcb p').status ∧ (f.qcb p').qryTid = (qm.qcb p').qryTid ∧
      (QueuesOk distOf qm.maxActInsts qm.maxPendings (qm.qcb p') →
        QueuesOk distOf f.maxActInsts f.maxPendings (f.qcb p')) := by
    intro p' hne
    have e : f.qcb p' = qm'.qcb p' := qcb_setQcb_ne _ _ hne
    rw [e, hk.target, hk.status, hk.qryTid, sO p' hne, fM.1, fM.2]
    refine ⟨rfl, rfl, rfl, fun hq => ?_⟩
    exact hk.queues p' (by rw [sO p' hne]; exact hq)
  -- the armed QCB
  have fP : (f.qcb p).target = t ∧ (f.qcb p).status = .qsInited ∧
      (f.qcb p).qryTid = qm.sch.nextTid ∧ QueuesOk distOf f.maxActInsts f.maxPendings (f.qcb p) := by
    have he : f.qcb p = { qm'.qcb p with status := .qsInited } := qcb_setQcb_self _ _ _ (by
      simpa only [f, setQcb_length] using fL)
    rw [he, fM.1, fM.2]
    refine ⟨(hk.target p).trans (sP ▸ (hi.entry t p hp).target), rfl,
      (hk.qryTid p).trans (sP ▸ rfl), ?_⟩
    exact (hk.queues p (sP ▸ (hi.entry t p hp).queues.congr rfl rfl rfl)).congr rfl rfl rfl
  -- the QCBs armed before are the inited ones, whose timers are below the counter
  have hold : ∀ t' p', qm.qcbTab.get? t' = some p' → (qm.qcb p').status = .qsInited → p' ≠ p :=
    fun t' p' _ hs' e => by rw [e, hs] at hs'; cases hs'
  have hbelow : ∀ t' p', qm.qcbTab.get? t' = some p' → (qm.qcb p').status = .qsInited →
      (qm.qcb p').qryTid < qm.sch.nextTid := fun t' p' h hs' =>
    (hi.timers _ _ (hi.armed t' p' h hs')).2.2.2.2
  refine ⟨fun t' p' h' => ?_, fun t' p' h' hs' => ?_, fun tid p' h' => ?_,
    fun t1 p1 t2 p2 h1 h2 hs1 hs2 hq => ?_⟩
  · rw [fT] at h'
    by_cases hne : p' = p
    · subst hne
      rw [hi.ptr_inj h' hp]
      exact ⟨fL, fP.1, .inr fP.2.1, fP.2.2.2⟩
    · obtain ⟨hlt', htg, hst, hq⟩ := hi.entry t' p' h'
      obtain ⟨e1, e2, -, e4⟩ := fO p' hne
      exact ⟨fLen ▸ hlt', e1 ▸ htg, e2 ▸ hst, e4 hq⟩
  · rw [fT] at h'
    rw [fTm]
    by_cases hne : p' = p
    · subst hne
      rw [fP.2.2.1]
      exact List.mem_append_right _ (List.mem_singleton_self _)
    · obtain ⟨-, e2, e3, -⟩ := fO p' hne
      rw [e3]
      exact List.mem_append_left _ (hi.armed t' p' h' (e2 ▸ hs'))
  · rw [fTm] at h'
    rcases List.mem_append.mp h' with h' | h'
    · obtain ⟨⟨t'', ht''⟩, hs'', hq, h0, hlt''⟩ := hi.timers tid p' h'
      obtain ⟨-, e2, e3, -⟩ := fO p' (hold t'' p' ht'' hs'')
      exact ⟨⟨t'', fT ▸ ht''⟩, e2 ▸ hs'', e3 ▸ hq, h0, by rw [fN]; push_cast; omega⟩
    · obtain ⟨rfl, rfl⟩ := Prod.mk.inj (List.mem_singleton.mp h')
      exact ⟨⟨t, fT ▸ hp⟩, fP.2.1, fP.2.2.1, by omega, by rw [fN]; push_cast; omega⟩
  · rw [fT] at h1 h2
    by_cases e1 : p1 = p <;> by_cases e2 : p2 = p
    · exact e1.trans e2.symm
    · obtain ⟨-, s2, q2, -⟩ := fO p2 e2
      have := hbelow t2 p2 h2 (s2 ▸ hs2)
      rw [e1, fP.2.2.1, q2] at hq
      omega
    · obtain ⟨-, s1, q1, -⟩ := fO p1 e1
      have := hbelow t1 p1 h1 (s1 ▸ hs1)
      rw [e2, fP.2.2.1, q1] at hq
      omega
    · obtain ⟨-, s1, q1, -⟩ := fO p1 e1
      obtain ⟨-, s2, q2, -⟩ := fO p2 e2
      rw [q1, q2] at hq
      exact hi.tidInj t1 p1 t2 p2 h1 h2 (s1 ▸ hs1) (s2 ▸ hs2) hq

/-- **Seeding, arming and starting a preparing QCB of the table keeps the invariant**, for seeds at
the distance `distOf` gives them. -/
theorem Inv.nearestRspStart {qm : QryMgr} (hi : Inv distOf qm) {t : DsKey} {p : Nat}
    (hp : qm.qcbTab.get? t = some p) (hs : (qm.qcb p).status = .qsPreparing) (owner : Nat)
    (target : DsKey) (peers : List RutMgrBucketNode) (timerOk : Bool) (creates : List Bool)
    (hc : ∀ bn ∈ peers, bn.dist = distOf bn.node.ID) :
    Inv distOf (qm.nearestRspStart p owner target peers timerOk creates).2 := by
  have hq0 : QueuesOk distOf qm.maxActInsts qm.maxPendings { qm.qcb p with qryPending := [] } :=
    have h := (hi.entry t p hp).queues
    ⟨h.actived_le, Nat.zero_le _, h.actived_history, ⟨.nil, List.nodup_nil, nofun, nofun⟩⟩
  obtain ⟨l, hl⟩ := QryCtrlBlock.qryMgrQcbPutPending_eq { qm.qcb p with qryPending := [] }
    (peers.map (⟨·, 0⟩)) qm.maxPendings
  have hok := qryMgrQcbPutPending_queuesOk hq0 (peers.map (⟨·, 0⟩))
    (by simpa [QryPendingInfo.nodeId] using hc)
  rw [hl] at hok
  -- the seeds enter the queue: a step that only works on queues
  have hi1 : Inv distOf (qm.setQcb p { qm.qcb p with qryPending := l }) :=
    hi.keeps (keeps_setQcb qm p _ rfl rfl rfl fun _ => hok.congr rfl rfl rfl)
  have hs1 : ((qm.setQcb p { qm.qcb p with qryPending := l }).qcb p).status = .qsPreparing := by
    rw [qcb_setQcb_self _ _ _ (hi.entry t p hp).lt]
    exact hs
  unfold QryMgr.nearestRspStart
  dsimp only
  rw [hl]
  split_ifs with he he2
  · exact (hi1.send _).qryMgrDelQcb (by decide) _
  · cases timerOk
    · exact (hi1.send _).qryMgrDelQcb (by decide) _
    · simp [qryMgrQcbStartTimer] at he2
  · cases timerOk
    · simp [qryMgrQcbStartTimer] at he2
    · exact hi1.arm hp hs1 (keeps_qryMgrQcbPutActived _ p creates)

/-- **`rutNearestRsp` keeps the invariant**, for peers at the distance `distOf` gives them. -/
theorem Inv.rutNearestRsp {qm : QryMgr} (hi : Inv distOf qm) (msg : MsgDhtRutMgrNearestRsp)
    (timerOk : Bool) (creates : List Bool)
    (hc : ∀ peers ∈ msg.Peers, ∀ bn ∈ peers, bn.dist = distOf bn.node.ID) :
    (qm.rutNearestRsp msg timerOk creates).Post (Inv distOf ·.2) := by
  unfold QryMgr.rutNearestRsp
  split
  · exact hi
  split
  · exact hi
  next p hp =>
  have hfail : ∀ eno, Inv distOf (qm.nearestRspFailed (qm.qcb p).ptnOwner msg.Target eno) :=
    fun eno => (hi.send _).qryMgrDelQcb (by decide) _
  split
  · exact hi
  next hst =>
  split
  · exact hfail _
  split
  · exact hfail _
  · exact hfail _
  · trivial
  next peers pcs dists hP _ _ =>
  split
  · exact hfail _
  split
  · exact hfail _
  obtain ⟨r, hr⟩ := nearestResultLoop_qcb msg.ForWhat msg.Target { qm.qcb p with qryResult := [] }
    (peers.zip (pcs.zip dists))
  -- the result list is written: a step that only works on queues
  have hi1 : Inv distOf (qm.setQcb p (nearestResultLoop msg.ForWhat msg.Target
      { qm.qcb p with qryResult := [] } (peers.zip (pcs.zip dists))).1) := by
    rw [hr]
    exact hi.keeps (keeps_setQcb qm p _ rfl rfl rfl fun h => h.congr rfl rfl rfl)
  dsimp only
  split
  · exact (hi1.send _).qryMgrDelQcb (by decide) _
  · refine hi1.nearestRspStart hp ?_ _ _ _ _ _ (hc peers hP)
    rw [hr, qcb_setQcb_self _ _ _ (hi.entry _ p hp).lt]
    exact not_not.mp hst

/-! ### Probes and notifications -/

/-- **`rutNotificationInd` keeps the invariant**, for peers at the distance `distOf` gives them. -/
theorem Inv.rutNotificationInd {qm : QryMgr} (hi : Inv distOf qm) (target : DsKey)
    (peers : List RutMgrBucketNode) (creates : List Bool)
    (hc : ∀ bn ∈ peers, bn.dist = distOf bn.node.ID) :
    (qm.rutNotificationInd target peers creates).Post (Inv distOf ·.2) := by
  unfold QryMgr.rutNotificationInd
  split
  · exact hi
  next p _ =>
  dsimp only
  split
  · exact hi
  exact (hi.keeps ((keeps_qryMgrQcbPutPending qm p _ (by simpa [QryPendingInfo.nodeId] using hc)).trans
    (keeps_qryMgrQcbPutActived _ p creates))).qryDoneCheck p _

/-- **`instStatusInd` keeps the invariant.** -/
theorem Inv.instStatusInd {qm : QryMgr} (hi : Inv distOf qm) (target : DsKey) (peer : NodeID)
    (status : Nat) (creates : List Bool) :
    (qm.instStatusInd target peer status creates).Post (Inv distOf ·.2) := by
  unfold QryMgr.instStatusInd
  split_ifs
  · split
    · exact hi
    next p _ =>
    split
    next qm1 eno heq =>
    have hi1 : Inv distOf qm1 := by
      have := hi.keeps (keeps_qryMgrDelIcb qm .qryInstDoneInd target peer)
      rwa [heq] at this
    split_ifs
    · exact hi1
    · exact (hi1.keeps (keeps_qryMgrQcbPutActived _ p creates)).qryDoneCheck p _
  · exact hi
  · exact hi

/-- What `resultDistLoop` returns when it returns: the peers' distances are never computed. -/
theorem resultDistLoop_post (peers : List Node) :
    (resultDistLoop peers).Post (· = []) := by
  cases peers <;> simp [resultDistLoop]

/-- Reporting a found target and deleting its QCB keeps the invariant. -/
theorem Inv.instResultFound {qm : QryMgr} (hi : Inv distOf qm) (p : Nat) (val : List UInt8)
    (prd : Option (List Node)) : Inv distOf (qm.instResultFound p val prd).2 := by
  unfold QryMgr.instResultFound
  exact (hi.send _).qryMgrDelQcb (by decide : DelQcbWhy.targetFound ≠ _) _

/-- **The end of `instResultInd` keeps the invariant**, with no distance computed (the only way it
runs). -/
theorem Inv.instResultNext {qm : QryMgr} (hi : Inv distOf qm) (msg : MsgDhtQryInstResultInd)
    (p : Nat) (icb : QryInstCtrlBlock) (peers : List Node) (creates : List Bool) :
    Inv distOf (qm.instResultNext msg p icb peers [] creates).2 := by
  unfold QryMgr.instResultNext
  split
  next qm1 eno heq =>
  have hi1 : Inv distOf qm1 := by
    have := hi.keeps (keeps_qryMgrDelIcb qm .qryInstResultInd msg.Target msg.From.ID)
    rwa [heq] at this
  by_cases he : eno ≠ .none
  · rw [if_pos he]
    exact hi1
  rw [if_neg he]
  -- the depth of the probe is recorded: a step that only works on queues
  have hi2 : Inv distOf (if icb.depth > (qm1.qcb p).depth then
      qm1.setQcb p { qm1.qcb p with depth := icb.depth } else qm1) := by
    split_ifs
    · exact hi1.keeps (keeps_setQcb _ p _ rfl rfl rfl fun h => h.congr rfl rfl rfl)
    · exact hi1
  generalize (if icb.depth > (qm1.qcb p).depth then
      qm1.setQcb p { qm1.qcb p with depth := icb.depth } else qm1) = qm2 at hi2 ⊢
  dsimp only
  simp only [List.zip_nil_right, List.map_nil]
  split_ifs
  -- a limit is reached: the query ends, whatever the result code
  iterate 2 exact (hi2.send _).qryMgrDelQcb (by decide : DelQcbWhy.noMoreQueries ≠ _) _
  -- a lookup goes on: the peers are queued and probed
  · exact (hi2.keeps ((keeps_qryMgrQcbPutPending qm2 p [] nofun).trans
      (keeps_qryMgrQcbPutActived _ p creates))).qryDoneCheck p _
  -- not a lookup: only the end is checked
  · exact hi2.qryDoneCheck p _

/-- The rest of `instResultInd` keeps the invariant, with no distance computed. -/
theorem Inv.instResultRest {qm : QryMgr} (hi : Inv distOf qm) (msg : MsgDhtQryInstResultInd)
    (p : Nat) (icb : QryInstCtrlBlock) (peers : List Node) (pcs : List Int) (creates : List Bool) :
    Inv distOf (qm.instResultRest msg p icb peers pcs [] creates).2 := by
  unfold QryMgr.instResultRest
  simp only [List.zip_nil_right, List.foldl_nil, setQcb_qcb_self]
  split_ifs
  · exact hi.instResultFound p _ _
  · exact hi.instResultFound p _ _
  · exact hi.instResultFound p _ _
  · exact hi.instResultNext msg p icb peers creates

/-- **`instResultInd` keeps the invariant.** -/
theorem Inv.instResultInd {qm : QryMgr} (hi : Inv distOf qm) (msg : MsgDhtQryInstResultInd)
    (creates : List Bool) : (qm.instResultInd msg creates).Post (Inv distOf ·.2) := by
  unfold QryMgr.instResultInd
  split_ifs
  · exact hi
  · exact hi
  dsimp only
  split
  · exact hi.send _
  next p _ =>
  split
  · exact hi.send _
  next icb _ =>
  rw [Run.post_bind]
  exact Run.Post.mono (fun hds (h : hds = []) => h ▸ (hi.send _).instResultRest msg p icb _ _
    creates) (resultDistLoop_post _)

/-! ### Timers and NAT -/

/-- **The expiry of an armed timer keeps the invariant**: the timer's QCB is the table's QCB of its
target, and `qcbTimerHandler` deletes it. -/
theorem Inv.qcbTimer {qm : QryMgr} (hi : Inv distOf qm) {tid : Int} {p : Nat}
    (h : (tid, p) ∈ qm.sch.timers) : ((qm.expire tid p).qcbTimerHandler p).Post (Inv distOf ·.2) := by
  obtain ⟨⟨t, ht⟩, -⟩ := hi.timers tid p h
  have htg : (qm.qcb p).target = t := (hi.entry t p ht).target
  refine inv_qryMgrDelQcb _ _ _ (by decide)
    (fun t' p' h' => let ⟨a, b, c, d⟩ := hi.entry t' p' h'; ⟨a, b, c, d⟩)
    (fun t' p' hne h' hs => ?_) (fun tid' p' h' => hi.timers tid' p' (List.mem_of_mem_erase h'))
    hi.tidInj
  refine List.mem_erase_of_ne (fun e => hne ?_) |>.mpr (hi.armed t' p' h' hs)
  obtain ⟨-, rfl⟩ := Prod.mk.inj e
  exact (hi.ptr_inj h' ht).trans htg.symm

/-- The queued expiry of a killed timer keeps the invariant. -/
theorem Inv.qcbTimerStale {qm : QryMgr} (hi : Inv distOf qm) (tid : Int) (p : Nat) :
    ((qm.deliverStale tid p).qcbTimerHandler p).Post (Inv distOf ·.2) :=
  ((hi.keeps (Keeps.of_qcbs _ (qm.deliverStale tid p) rfl rfl rfl rfl rfl rfl)).send _).qryMgrDelQcb
    (by decide : DelQcbWhy.timeout ≠ _) _

theorem Inv.natMapSwitchLoop {qm : QryMgr} (hi : Inv distOf qm) :
    ∀ l, Inv distOf (qm.natMapSwitchLoop l).1 := by
  intro l
  induction l generalizing qm with
  | nil => exact hi
  | cons x l ih =>
    unfold QryMgr.natMapSwitchLoop
    dsimp only
    split_ifs
    · exact (hi.send _).qryMgrDelQcb (by decide : DelQcbWhy.pubAddrSwitch ≠ _) _
    · exact ih ((hi.send _).qryMgrDelQcb (by decide : DelQcbWhy.pubAddrSwitch ≠ _) _)

theorem Inv.natMapSwitch {qm : QryMgr} (hi : Inv distOf qm) {r : QryMgr × DhtErrno}
    (hr : qm.natMapSwitch = r) : Inv distOf r.1 := by
  have h := hi.natMapSwitchLoop qm.qcbTab.bindings
  rw [← hr]
  unfold QryMgr.natMapSwitch
  split
  next qm1 heq =>
    rw [heq] at h
    exact (h.keeps (Keeps.of_qcbs qm1 qm1.switch2NatAddr rfl rfl rfl rfl rfl rfl)).send _
  next => exact h

/-- **The NAT indications keep the invariant**: they change addresses, or delete every QCB. -/
theorem Inv.natPubAddrUpdateInd {qm : QryMgr} (hi : Inv distOf qm) (proto : String)
    (statusOk : Bool) (pubIp : List UInt8) (pubPort : Nat) :
    (qm.natPubAddrUpdateInd proto statusOk pubIp pubPort).Post (Inv distOf ·.2) := by
  unfold QryMgr.natPubAddrUpdateInd
  dsimp only
  split_ifs
  · exact hi.congr rfl rfl rfl rfl rfl
  · exact hi.congr rfl rfl rfl rfl rfl
  · split
    all_goals
      rename_i heq
      exact (hi.congr (by rfl) (by rfl) (by rfl) (by rfl) (by rfl)).natMapSwitch heq
  · exact hi.congr rfl rfl rfl rfl rfl

/-- The NAT manager's ready indication keeps the invariant. -/
theorem Inv.natMgrReadyInd {qm : QryMgr} (hi : Inv distOf qm) (natNone : Bool) :
    (qm.natMgrReadyInd natNone).Post (Inv distOf ·.2) := by
  unfold QryMgr.natMgrReadyInd
  split_ifs
  · exact hi.keeps (Keeps.of_qcbs _ _ rfl rfl rfl rfl rfl rfl)
  · exact hi.send _

/-- A mapping response keeps the invariant. -/
theorem Inv.natMakeMapRsp {qm : QryMgr} (hi : Inv distOf qm) (proto : String) (statusOk : Bool)
    (pubIp : List UInt8) (pubPort : Nat) :
    (qm.natMakeMapRsp proto statusOk pubIp pubPort).Post (Inv distOf ·.2) := by
  unfold QryMgr.natMakeMapRsp
  dsimp only
  split_ifs
  all_goals first | exact hi | exact (hi.congr (by rfl) (by rfl) (by rfl) (by rfl) (by rfl)).send _

/-! ### Runs -/

/-- **Every handled event keeps the invariant**, for route manager messages whose bucket nodes are
at the distance `distOf` gives them. -/
theorem Inv.qryMgrProc {qm : QryMgr} (hi : Inv distOf qm) {ev : QryEvent}
    (hc : RouteConsistent distOf ev) {r : Run (SchErrno × QryMgr)} (h : qm.qryMgrProc ev = some r) :
    r.Post (Inv distOf ·.2) := by
  cases ev with
  | queryStartReq sender target forWhat => cases h; exact hi.queryStartReq sender target forWhat
  | rutNearestRsp msg timerOk creates => cases h; exact hi.rutNearestRsp msg timerOk creates hc
  | qcbTimer tid p =>
    simp only [QryMgr.qryMgrProc] at h
    split_ifs at h with hm
    cases h
    exact hi.qcbTimer hm
  | qcbTimerStale tid p =>
    simp only [QryMgr.qryMgrProc] at h
    split_ifs at h
    cases h
    exact hi.qcbTimerStale tid p
  | queryStopReq sender target => cases h; exact hi.queryStopReq sender target
  | rutNotificationInd target peers creates =>
    cases h; exact hi.rutNotificationInd target peers creates hc
  | instStatusInd ptn status creates =>
    obtain ⟨icb, -, rfl⟩ := Option.map_eq_some'.mp h
    exact hi.instStatusInd _ _ status creates
  | instResultInd ptn forWhat latency peers pcs value provider creates =>
    obtain ⟨icb, -, rfl⟩ := Option.map_eq_some'.mp h
    exact hi.instResultInd _ creates
  | natMgrReadyInd natNone => cases h; exact hi.natMgrReadyInd natNone
  | natMakeMapRsp proto statusOk pubIp pubPort =>
    cases h; exact hi.natMakeMapRsp proto statusOk pubIp pubPort
  | natPubAddrUpdateInd proto statusOk pubIp pubPort =>
    cases h; exact hi.natPubAddrUpdateInd proto statusOk pubIp pubPort

end QryMgr

open QryMgr

/-- **Every reachable state satisfies the invariant.** -/
theorem Reachable.inv {distOf : NodeID → Nat} {qm : QryMgr} (h : Reachable distOf qm) :
    Inv distOf qm := by
  induction h with
  | init cfgLocal maxActInsts => exact inv_newQryMgr cfgLocal maxActInsts
  | step _ hc heq ih => exact ih.qryMgrProc hc heq

/-- What the spec says of the QCB at `p` stored under `t`: it is stored under its own target, is
preparing or inited, has its expiry timer armed exactly when it is inited, and once inited has at
most `maxActInsts` probes and `maxPendings` pending peers, probes only peers of its history, and
queues each peer at most once and none of its history. -/
def QcbWellKept (qm : QryMgr) (t : DsKey) (p : Nat) : Prop :=
  let q := qm.qcb p
  q.target = t ∧ (q.status = .qsPreparing ∨ q.status = .qsInited) ∧
    ((q.qryTid, p) ∈ qm.sch.timers ↔ q.status = .qsInited) ∧
    (q.status = .qsInited →
      q.qryActived.size ≤ qm.maxActInsts ∧ q.qryPending.length ≤ qm.maxPendings ∧
      (∀ id, q.qryActived.contains id = true → q.qryHistory.contains id = true) ∧
      (∀ x ∈ q.qryPending, q.qryHistory.contains x.nodeId = false) ∧
      (q.qryPending.map QryPendingInfo.nodeId).Nodup)

/-- **Every QCB of the table of a reachable state is as the spec says.** -/
theorem reachable_qcbTab_wellKept {distOf : NodeID → Nat} {qm : QryMgr} (h : Reachable distOf qm)
    (t : DsKey) (p : Nat) (hp : qm.qcbTab.get? t = some p) : QcbWellKept qm t p := by
  have hi := h.inv
  obtain ⟨-, htg, hst, hq⟩ := hi.entry t p hp
  exact ⟨htg, hst, ⟨fun hm => (hi.timers _ p hm).2.1, hi.armed t p hp⟩, fun _ =>
    ⟨hq.actived_le, hq.pending_le, hq.actived_history, hq.pending.fresh, hq.pending.nodup⟩⟩

/-- A lookup started for `exampleTarget` and seeded with two peers. -/
def seededRun : List QryEvent :=
  [.queryStartReq 0 exampleTarget MID_FINDNODE,
    .rutNearestRsp (exampleNearestRsp MID_FINDNODE [1, 2]) true [true, true]]

/-- The state after `seededRun`: one inited QCB probing two peers. -/
def seededQryMgr : QryMgr :=
  let qm0 := newQryMgr (Node.ofId (Bytes.fill 64 0)) qryMgrMaxActInsts
  (runEvents qm0 seededRun).getD qm0

theorem reachable_qcbTab_wellKept_seeded :
    seededQryMgr.qcbTab.get? exampleTarget = some 0 ∧ QcbWellKept seededQryMgr exampleTarget 0 :=
  have h : Reachable (fun _ => 0) seededQryMgr := Reachable.of_runEvents seededRun (.init _ _)
    (by simp [seededRun, RouteConsistent, exampleNearestRsp, examplePeer]) rfl
  ⟨rfl, reachable_qcbTab_wellKept h _ _ rfl⟩

end Gyee.Dht.Query
