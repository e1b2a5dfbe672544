import Gyee.Peer.Frame

/-! # What the counters count

`ibpTotalNum` counts the live inbound instances and `obpNum[snid]` the live outbound instances of
`snid`, in every reachable state (`reachable_accounted`): a new instance is counted in where it
enters `peers`, and `peMgrKillInst` counts out the instance it removes from `peers`, whatever
happens to the other tables. The invariant is `Stable`, so every handler keeps it. -/

namespace Gyee.Peer

open Gyee

/-- An inbound instance. -/
def isInbound (i : PeerInstance) : Bool := i.dir = PeInstDirInbound

/-- An outbound instance of the sub-network `snid`. -/
def isOutboundOf (snid : SubNetworkID) (i : PeerInstance) : Bool :=
  i.dir = PeInstDirOutbound ∧ i.snid = snid

theorem isInbound_congr {i j : PeerInstance} (h : acct i = acct j) : isInbound i = isInbound j := by
  simp only [acct, Prod.mk.injEq] at h
  simp [isInbound, h.1]

theorem isOutboundOf_congr {i j : PeerInstance} (h : acct i = acct j) (snid : SubNetworkID) :
    isOutboundOf snid i = isOutboundOf snid j := by
  simp only [acct, Prod.mk.injEq] at h
  obtain ⟨hd, hs⟩ := h
  by_cases ho : i.dir = PeInstDirOutbound
  · rw [if_pos ho, if_pos (hd ▸ ho)] at hs
    simp [isOutboundOf, ho, ← hd, Option.some.inj hs]
  · simp [isOutboundOf, ho, ← hd]

namespace PeerManager

variable (pm : PeerManager)

/-- The number of live instances that pass `Q`. -/
def liveCount (Q : PeerInstance → Bool) : Nat :=
  pm.peers.bindings.countP fun b => Q (pm.inst b.2)

/-- The counts of the peer manager: each live task node is its own instance of the heap,
`ibpTotalNum` is the number of live inbound instances, and `obpNum[snid]` the number of live
outbound instances of `snid`. -/
structure Accounted : Prop where
  heap : ∀ b ∈ pm.peers.bindings, b.2 = b.1 ∧ b.1 < pm.sch.insts.length
  ibpTotalNum : pm.ibpTotalNum = pm.liveCount isInbound
  obpNum : ∀ snid, cnt pm.obpNum snid = pm.liveCount (isOutboundOf snid)

variable {pm}

theorem acct_inst_eq {pm' : PeerManager} (h : pm'.sch.insts.map acct = pm.sch.insts.map acct)
    (p : Nat) : acct (pm'.inst p) = acct (pm.inst p) := by
  rw [inst, inst, ← List.getD_map _ _ acct, ← List.getD_map _ _ acct, h]

theorem liveCount_congr {pm' : PeerManager} {Q : PeerInstance → Bool}
    (hQ : ∀ i j, acct i = acct j → Q i = Q j) (hp : pm'.peers = pm.peers)
    (hi : ∀ p, acct (pm'.inst p) = acct (pm.inst p)) : pm'.liveCount Q = pm.liveCount Q := by
  simp only [liveCount, hp]
  exact List.countP_congr fun b _ => by rw [hQ _ _ (hi b.2)]

/-- A change that keeps `peers`, what the counts read of each instance and the two counters
keeps the counts. -/
theorem Accounted.of_eq {pm' : PeerManager} (h : Accounted pm) (hp : pm'.peers = pm.peers)
    (hi : pm'.sch.insts.map acct = pm.sch.insts.map acct) (hib : pm'.ibpTotalNum = pm.ibpTotalNum)
    (hob : pm'.obpNum = pm.obpNum) : Accounted pm' := by
  have hl : pm'.sch.insts.length = pm.sch.insts.length := by
    simpa using congrArg List.length hi
  refine ⟨fun b hb => hl ▸ h.heap b (hp ▸ hb), ?_, fun snid => ?_⟩
  · rw [liveCount_congr (fun _ _ => isInbound_congr) hp (acct_inst_eq hi), hib, h.ibpTotalNum]
  · rw [liveCount_congr (fun _ _ hij => isOutboundOf_congr hij snid) hp (acct_inst_eq hi), hob,
      h.obpNum]

theorem Accounted.of_ledger {pm' : PeerManager} (h : Accounted pm) (he : pm'.ledger = pm.ledger) :
    Accounted pm' :=
  h.of_eq (peers_eq_of_ledger he) (accts_eq_of_ledger he) (congrArg Ledger.ibpTotalNum he)
    (congrArg Ledger.obpNum he)

/-- A new instance `i` entered in `peers` under the heap's next task node and counted in keeps
the counts. -/
theorem Accounted.enter {pm' : PeerManager} (h : Accounted pm) (i : PeerInstance)
    (hp : pm'.peers = pm.peers.set pm.sch.insts.length pm.sch.insts.length)
    (hi : pm'.sch.insts = pm.sch.insts ++ [i])
    (hib : pm'.ibpTotalNum = pm.ibpTotalNum + if isInbound i then 1 else 0)
    (hob : ∀ snid, cnt pm'.obpNum snid = cnt pm.obpNum snid + if isOutboundOf snid i then 1 else 0) :
    Accounted pm' := by
  have hfree : pm.peers.get? pm.sch.insts.length = none := by
    cases hg : pm.peers.get? pm.sch.insts.length with
    | none => rfl
    | some v =>
      unfold GoMap.get? at hg
      have hk := (GoMap.find_isSome _ _).mp (by rw [hg]; rfl)
      obtain ⟨b, hb, hbk⟩ := List.mem_map.mp hk
      exact absurd (hbk ▸ (h.heap b hb).2) (lt_irrefl _)
  have hold : ∀ b ∈ pm.peers.bindings, pm'.inst b.2 = pm.inst b.2 := fun b hb => by
    simp only [inst, hi]
    exact List.getD_append _ _ _ _ ((h.heap b hb).1 ▸ (h.heap b hb).2)
  have hnew : pm'.inst pm.sch.insts.length = i := by
    simp only [inst, hi]
    rw [List.getD_append_right _ _ _ _ le_rfl, Nat.sub_self]
    rfl
  have hcount : ∀ Q, pm'.liveCount Q = pm.liveCount Q + if Q i then 1 else 0 := fun Q => by
    simp only [liveCount, hp, GoMap.countP_set_of_get?_none _ hfree, hnew]
    rw [List.countP_congr fun b hb => by rw [hold b hb]]
  refine ⟨fun b hb => ?_, ?_, fun snid => ?_⟩
  · have hl : pm'.sch.insts.length = pm.sch.insts.length + 1 := by simp [hi]
    rw [hp] at hb
    simp only [GoMap.set, GoMap.delete, List.mem_append, List.mem_filter, List.mem_singleton] at hb
    rcases hb with ⟨hb, -⟩ | rfl
    · exact ⟨(h.heap b hb).1, by have := (h.heap b hb).2; omega⟩
    · exact ⟨rfl, by omega⟩
  · rw [hib, hcount, h.ibpTotalNum]
    split_ifs <;> simp
  · rw [hob, hcount, h.obpNum]
    split_ifs <;> simp

/-- The entry `(ptn, p)` deleted from `peers`, and an instance `i` that reads as the one at `p`
counted out, keeps the counts. -/
theorem Accounted.remove {pm' : PeerManager} (h : Accounted pm) {ptn p : Nat}
    (hg : pm.peers.get? ptn = some p) {i : PeerInstance} (hai : acct i = acct (pm.inst p))
    (hp : pm'.peers = pm.peers.delete ptn) (hi : pm'.sch.insts = pm.sch.insts)
    (hib : pm'.ibpTotalNum + (if isInbound i then 1 else 0) = pm.ibpTotalNum)
    (hob : ∀ snid, cnt pm'.obpNum snid + (if isOutboundOf snid i then 1 else 0) =
      cnt pm.obpNum snid) :
    Accounted pm' := by
  have hcount : ∀ Q : PeerInstance → Bool, (∀ i j, acct i = acct j → Q i = Q j) →
      pm'.liveCount Q + (if Q i then 1 else 0) = pm.liveCount Q := fun Q hQ => by
    simp only [liveCount, hp, inst, hi, hQ _ _ hai]
    exact GoMap.countP_delete _ hg _
  refine ⟨fun b hb => ?_, ?_, fun snid => ?_⟩
  · rw [hp] at hb
    rw [hi]
    exact h.heap b (List.mem_of_mem_filter hb)
  · have h1 := hcount isInbound fun _ _ => isInbound_congr
    have h2 := h.ibpTotalNum
    split_ifs at hib h1 <;> omega
  · have h1 := hcount (isOutboundOf snid) fun _ _ hij => isOutboundOf_congr hij snid
    have h2 := h.obpNum snid
    have h3 := hob snid
    split_ifs at h3 h1 <;> omega

theorem Accounted.killInstMaps (h : Accounted pm) {ptn p : Nat} (hg : pm.peers.get? ptn = some p)
    {i : PeerInstance} (hai : acct i = acct (pm.inst p)) : Accounted (pm.killInstMaps ptn i) := by
  have hwa := ledger_dropWorker pm i.snid ⟨i.node.ID, i.dir⟩
  have hw := h.of_ledger hwa
  have hg' := (peers_eq_of_ledger hwa).symm ▸ hg
  have hai' := hai.trans (acct_inst_eq (accts_eq_of_ledger hwa) p).symm
  unfold PeerManager.killInstMaps; dsimp only
  split_ifs with ho hin
  · have hib : isInbound i = false := by simp [isInbound, ho, PeInstDirOutbound, PeInstDirInbound]
    refine hw.remove hg' hai' rfl rfl (by simp only [hib, Bool.false_eq_true, if_false, Int.add_zero]; rfl)
      fun snid => ?_
    simp only [dropOutbound, cnt_bump, isOutboundOf, ho, true_and, decide_eq_true_eq]
    by_cases hs : snid = i.snid
    · simp only [hs, if_true]; omega
    · simp [hs, Ne.symm hs]
  · have hib : isInbound i = true := by simp [isInbound, hin]
    have hob : ∀ snid, isOutboundOf snid i = false := by
      simp [isOutboundOf, hin, PeInstDirOutbound, PeInstDirInbound]
    unfold dropInbound; dsimp only
    split_ifs <;> exact hw.remove hg' hai' rfl rfl (by simp [hib]) fun snid => by simp [hob]
  · exact hw

theorem Accounted.resumeAccepter (h : Accounted pm) : Accounted pm.resumeAccepter := by
  unfold PeerManager.resumeAccepter
  split_ifs
  · exact h.of_eq rfl rfl rfl rfl
  · exact h

/-- **A kill keeps the counts**: the instance `peMgrKillInst` kills leaves `peers` and is counted
out. -/
theorem Accounted.peMgrKillInst (h : Accounted pm) (ptn : Nat) (node : Node) (dir : Int) :
    Accounted (pm.peMgrKillInst ptn node dir).1 := by
  unfold PeerManager.peMgrKillInst
  split
  · exact h
  · next p hg =>
    dsimp only
    split_ifs
    · exact h
    · have hkp := ledger_killPingpong pm p
      have hK := (h.of_ledger hkp).killInstMaps ((peers_eq_of_ledger hkp).symm ▸ hg)
        (acct_inst_eq (accts_eq_of_ledger hkp) p).symm
      exact ((hK.of_ledger (ledger_updateStaticStatus _ _ _ _)).resumeAccepter).of_ledger
        (ledger_setInst _ rfl fun _ => rfl)

theorem Accounted.peMgrCreateOutboundInst (h : Accounted pm) (snid : SubNetworkID) (node : Node) :
    (pm.peMgrCreateOutboundInst snid node).Post (Accounted ·.1) := by
  unfold PeerManager.peMgrCreateOutboundInst
  dsimp only
  split_ifs
  · exact h.of_ledger rfl
  · split
    · refine h.enter _ rfl rfl ?_ fun s => ?_
      · show pm.ibpTotalNum = pm.ibpTotalNum + _
        simp [isInbound, PeInstDirOutbound, PeInstDirInbound]
      show cnt (bump pm.obpNum snid 1) s = _
      by_cases hs : s = snid
      · simp [isOutboundOf, hs]
      · simp [isOutboundOf, hs, Ne.symm hs]
    · trivial

theorem Accounted.peMgrLsnConnAcceptedInd (h : Accounted pm) :
    Accounted pm.peMgrLsnConnAcceptedInd.1 := by
  unfold PeerManager.peMgrLsnConnAcceptedInd
  dsimp only
  split_ifs
  · exact h.of_ledger rfl
  all_goals
    refine h.enter _ rfl rfl ?_ fun s => ?_
    · rfl
    · show cnt pm.obpNum s = cnt pm.obpNum s + _
      simp [isOutboundOf, PeInstDirOutbound, PeInstDirInbound]

/-- The counts are a stable invariant. -/
theorem stable_accounted : Stable Accounted where
  ledger h he := h.of_ledger he
  sendSelf _ _ h := h.of_eq rfl rfl rfl rfl
  kill ptn node dir h := h.peMgrKillInst ptn node dir
  create snid node h := h.peMgrCreateOutboundInst snid node
  accept h := h.peMgrLsnConnAcceptedInd

theorem Accounted.peMgrStartReq (h : Accounted pm) : Accounted pm.peMgrStartReq.1 :=
  Accounted.of_ledger (by split_ifs <;> exact h.of_eq rfl rfl rfl rfl) (ledger_peMgrStartReq pm)

theorem cnt_foldl_set_zero (snids : List SubNetworkID) :
    ∀ m : GoMap SubNetworkID Int, (∀ s, cnt m s = 0) →
      ∀ s, cnt (snids.foldl (fun m s => m.set s 0) m) s = 0 := by
  induction snids with
  | nil => exact fun _ h => h
  | cons t ts ih =>
    refine fun m h => ih _ fun s => ?_
    simp only [cnt, GoMap.get?_set]
    split_ifs
    · rfl
    · exact h s

theorem accounted_peMgrPoweron (cfg : Cfg4PeerManager) (dflt : SubNetDefaults) :
    Accounted (peMgrPoweron cfg dflt) :=
  ⟨fun _ hb => absurd hb (List.not_mem_nil _), rfl,
    cnt_foldl_set_zero _ ∅ fun _ => rfl⟩

end PeerManager

open PeerManager in
/-- **The counters count the live instances**: in every reachable state, `ibpTotalNum` is the
number of live inbound instances and `obpNum[snid]` the number of live outbound instances of
`snid`. -/
theorem reachable_accounted {pm : PeerManager} (h : Reachable pm) :
    pm.ibpTotalNum = pm.liveCount isInbound ∧
      ∀ snid, cnt pm.obpNum snid = pm.liveCount (isOutboundOf snid) := by
  suffices hA : pm.Accounted from ⟨hA.ibpTotalNum, hA.obpNum⟩
  induction h with
  | init cfg dflt => exact accounted_peMgrPoweron cfg dflt
  | @step pm pm' ev _ hs ih =>
    cases ev with
    | mgrProc ans =>
      cases hbox : pm.sch.mbox with
      | nil => simp [PeerManager.step, PeerManager.mgrProc, hbox] at hs
      | cons m ms =>
        have hpop : Accounted { pm with sch := { pm.sch with mbox := ms, ans := ans } } :=
          ih.of_eq rfl rfl rfl rfl
        cases hm : m.isStartReq
        · exact stable_accounted.mgrProc hbox hm hpop hs
        · cases m <;> simp only [PeMgrMsg.isStartReq, Bool.false_eq_true] at hm
          cases step_mgrProc_startReq hbox hs
          exact hpop.peMgrStartReq
    | _ => exact stable_accounted.step_of_not_mgrProc ih (fun _ => PeEvent.noConfusion) hs

/-- The counters count one live inbound and one live outbound of `exampleSnid` after the crossed
connect, where the inbound handshakes while the outbound still connects. -/
theorem reachable_accounted_crossed :
    ∃ pm, Reachable pm ∧ pm.ibpTotalNum = 1 ∧ cnt pm.obpNum exampleSnid = 1 ∧
      (pm.ibpTotalNum = pm.liveCount isInbound ∧
        ∀ snid, cnt pm.obpNum snid = pm.liveCount (isOutboundOf snid)) := by
  have hrun : (runEvents (peMgrPoweron exampleCfg exampleDefaults) crossedConnectRun).map
      (fun pm => decide (pm.ibpTotalNum = 1) && decide (cnt pm.obpNum exampleSnid = 1)) =
        some true := by
    decide
  obtain ⟨pm, h, hc⟩ := (Reachable.init _ _).exists_of_runEvents _ hrun
  simp only [Bool.and_eq_true, decide_eq_true_eq] at hc
  exact ⟨pm, h, hc.1, hc.2, reachable_accounted h⟩

end Gyee.Peer
