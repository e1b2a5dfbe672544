import Gyee.Peer.Frame

/-! # The listener follows the inbound count

The manager pauses the listener with `LsnStopReq` when an accepted connection brings `ibpTotalNum`
to `ibpNumTotal` (`peMgrLsnConnAcceptedInd`), and resumes it with `LsnStartReq` when a kill leaves
room again (`peMgrKillInst`, through `resumeAccepter`); `peMgrStartReq` starts it first. No other
handler changes `ibpTotalNum` or sends to the listener.

With accepting on and room for one inbound, the last command sent to the listener is the one the
count calls for once `EvPeMgrStartReq` is handled (`lastLsnCmd_follows_ibpTotalNum`): the invariant
`Listening` (no `EvPeMgrStartReq` waits, and the last command follows the count) is `Stable`; before
`peMgrStartReq`, `EvPeMgrStartReq` heads the mailbox, nothing is counted and nothing was sent
(`Starting`, kept by every step but the manager's); and `peMgrStartReq` takes the one to the
other. -/

namespace Gyee.Peer

open Gyee

namespace PeerManager

variable (pm : PeerManager)

/-- The last command sent to the listener. -/
def lastLsnCmd : Option PeMgrOut := (pm.out.filter PeMgrOut.isLsnCmd).getLast?

/-- The command the inbound count calls for: a pause at `ibpNumTotal` inbounds, a start below. -/
def lsnCmdFor : PeMgrOut :=
  if pm.ibpTotalNum ≥ pm.cfg.ibpNumTotal then .lsnStopReq else .lsnStartReq

/-- With accepting on and room for an inbound, the last command sent to the listener is the one
the count calls for. -/
def LsnFollows : Prop :=
  pm.cfg.noAccept = false → 1 ≤ pm.cfg.ibpNumTotal → pm.lastLsnCmd = some pm.lsnCmdFor

theorem lastLsnCmd_send_lsn (c : PeMgrOut) (hc : c.isLsnCmd = true) :
    (pm.send c).lastLsnCmd = some c := by
  simp [lastLsnCmd, send, hc]

/-- The listener invariant after `peMgrStartReq`: no `EvPeMgrStartReq` waits in the mailbox, and
the last command sent to the listener follows the count. -/
structure Listening : Prop where
  noStart : ∀ m ∈ pm.sch.mbox, m.isStartReq = false
  follows : pm.LsnFollows

/-- The state before `peMgrStartReq`: `EvPeMgrStartReq` heads the mailbox and waits nowhere else,
no inbound is counted, and nothing was sent to the listener. -/
structure Starting : Prop where
  head : ∃ ms, pm.sch.mbox = .startReq :: ms ∧ ∀ m ∈ ms, m.isStartReq = false
  ibpTotalNum : pm.ibpTotalNum = 0
  noLsn : pm.lastLsnCmd = none

variable {pm}

/-- A change that keeps the mailbox, the commands to the listener, the count and the
configuration keeps `Listening`. -/
theorem Listening.of_eq {pm' : PeerManager} (h : Listening pm) (hm : pm'.sch.mbox = pm.sch.mbox)
    (ho : pm'.out.filter PeMgrOut.isLsnCmd = pm.out.filter PeMgrOut.isLsnCmd)
    (hi : pm'.ibpTotalNum = pm.ibpTotalNum) (hc : pm'.cfg = pm.cfg) : Listening pm' :=
  ⟨hm ▸ h.noStart, fun hna ht => by
    simp only [lastLsnCmd, lsnCmdFor, ho, hi, hc] at hna ht ⊢
    exact h.follows hna ht⟩

theorem Listening.of_ledger {pm' : PeerManager} (h : Listening pm) (he : pm'.ledger = pm.ledger) :
    Listening pm' :=
  h.of_eq (congrArg Ledger.mbox he) (congrArg Ledger.lsnCmds he) (congrArg Ledger.ibpTotalNum he)
    (congrArg Ledger.cfg he)

/-- **Resuming keeps the listener in step** after a change that keeps the mailbox, the commands
and the configuration and does not raise the count: below the cap it sends `LsnStartReq`; at the
cap the count was at the cap before, so the last command was already `LsnStopReq`. -/
theorem Listening.resumeAccepter {X : PeerManager} (h : Listening pm)
    (hm : X.sch.mbox = pm.sch.mbox)
    (ho : X.out.filter PeMgrOut.isLsnCmd = pm.out.filter PeMgrOut.isLsnCmd)
    (hc : X.cfg = pm.cfg) (hi : X.ibpTotalNum ≤ pm.ibpTotalNum) : Listening X.resumeAccepter := by
  unfold PeerManager.resumeAccepter
  split_ifs with hr
  · refine ⟨hm ▸ h.noStart, fun _ _ => ?_⟩
    rw [lastLsnCmd_send_lsn X .lsnStartReq rfl]
    exact congrArg some (if_neg (not_le.mpr hr.2)).symm
  · refine ⟨hm ▸ h.noStart, fun hna ht => ?_⟩
    have hge : X.cfg.ibpNumTotal ≤ X.ibpTotalNum := by
      simpa [hna] using hr
    have hf := h.follows (hc ▸ hna) (hc ▸ ht)
    simp only [lastLsnCmd, lsnCmdFor, ho, hc] at hf hge ⊢
    rw [hf, if_pos (hge.trans hi), if_pos hge]

/-- `killInstMaps` keeps the mailbox, the commands and the configuration, and lowers the count
by one for an inbound instance. -/
theorem killInstMaps_listener (ptn : Nat) (i : PeerInstance) :
    (pm.killInstMaps ptn i).sch.mbox = pm.sch.mbox ∧ (pm.killInstMaps ptn i).out = pm.out ∧
      (pm.killInstMaps ptn i).cfg = pm.cfg ∧
      (pm.killInstMaps ptn i).ibpTotalNum ≤ pm.ibpTotalNum := by
  have hw := ledger_dropWorker pm i.snid ⟨i.node.ID, i.dir⟩
  have hwo : (pm.dropWorker i.snid ⟨i.node.ID, i.dir⟩).out = pm.out := by
    unfold dropWorker; split_ifs <;> rfl
  unfold killInstMaps
  dsimp only
  generalize pm.dropWorker i.snid ⟨i.node.ID, i.dir⟩ = W at hw hwo
  have hi : W.ibpTotalNum = pm.ibpTotalNum := congrArg Ledger.ibpTotalNum hw
  unfold dropOutbound dropInbound
  split_ifs <;>
    exact ⟨congrArg Ledger.mbox hw, hwo, congrArg Ledger.cfg hw, by simp only [hi]; omega⟩

theorem Listening.peMgrKillInst (h : Listening pm) (ptn : Nat) (node : Node) (dir : Int) :
    Listening (pm.peMgrKillInst ptn node dir).1 := by
  unfold PeerManager.peMgrKillInst
  split
  · exact h
  · next p _ =>
    dsimp only
    split_ifs
    · exact h
    · have hk := h.of_ledger (ledger_killPingpong pm p)
      obtain ⟨hm, ho, hc, hi⟩ := @killInstMaps_listener (pm.killPingpong p) ptn (pm.inst p)
      have hu := ledger_updateStaticStatus ((pm.killPingpong p).killInstMaps ptn (pm.inst p))
        (pm.inst p).snid ⟨(pm.inst p).node.ID, (pm.inst p).dir⟩ peerIdle
      have hr := hk.resumeAccepter ((congrArg Ledger.mbox hu).trans hm)
        ((congrArg Ledger.lsnCmds hu).trans (by simp only [ledger, ho]))
        ((congrArg Ledger.cfg hu).trans hc) ((congrArg Ledger.ibpTotalNum hu).trans_le hi)
      exact hr.of_ledger (ledger_setInst _ rfl fun _ => rfl)

theorem Listening.peMgrCreateOutboundInst (h : Listening pm) (snid : SubNetworkID) (node : Node) :
    (pm.peMgrCreateOutboundInst snid node).Post (Listening ·.1) := by
  unfold PeerManager.peMgrCreateOutboundInst
  dsimp only
  split_ifs
  · exact h.of_ledger rfl
  · split
    · exact h.of_eq rfl rfl rfl rfl
    · trivial

/-- **An accepted inbound keeps the listener in step**: at the cap it sends `LsnStopReq`; below
it the count was below the cap before, so the last command was already `LsnStartReq`. -/
theorem Listening.accept {Y : PeerManager} {c : Prop} [Decidable c] (h : Listening pm)
    (hcond : c ↔ Y.ibpTotalNum ≥ Y.cfg.ibpNumTotal ∧ !Y.cfg.noAccept)
    (hm : Y.sch.mbox = pm.sch.mbox) (ho : Y.out = pm.out) (hc : Y.cfg = pm.cfg)
    (hi : Y.ibpTotalNum = pm.ibpTotalNum + 1) :
    Listening (if c then Y.send .lsnStopReq else Y) := by
  split_ifs with hs <;> rw [hcond] at hs
  · refine ⟨hm ▸ h.noStart, fun _ _ => ?_⟩
    rw [lastLsnCmd_send_lsn _ .lsnStopReq rfl]
    exact congrArg some (if_pos hs.1).symm
  · refine ⟨hm ▸ h.noStart, fun hna ht => ?_⟩
    rw [hc] at hna ht
    have hlt : pm.ibpTotalNum + 1 < pm.cfg.ibpNumTotal := by
      rw [hi, hc] at hs
      simpa [hna] using hs
    have hf := h.follows hna ht
    simp only [lastLsnCmd, lsnCmdFor, ho, hc, hi] at hf ⊢
    rw [hf, if_neg (by omega), if_neg (by omega)]

theorem Listening.peMgrLsnConnAcceptedInd (h : Listening pm) :
    Listening pm.peMgrLsnConnAcceptedInd.1 := by
  unfold PeerManager.peMgrLsnConnAcceptedInd
  dsimp only
  split
  · exact h.of_ledger rfl
  · rw [apply_ite Prod.fst]
    refine h.accept Iff.rfl ?_ ?_ ?_ ?_ <;> rfl

/-- The listener invariant is stable. -/
theorem stable_listening : Stable Listening where
  ledger h he := h.of_ledger he
  sendSelf m hm h := ⟨fun x hx => (List.mem_append.mp hx).elim (h.noStart x) fun hx' => by
      rw [List.mem_singleton.mp hx']; exact hm, h.follows⟩
  kill ptn node dir h := h.peMgrKillInst ptn node dir
  create snid node h := h.peMgrCreateOutboundInst snid node
  accept h := h.peMgrLsnConnAcceptedInd

/-- The state before `peMgrStartReq` is kept by every step but the manager's. -/
theorem framed_starting : Framed Starting where
  ledger h he := by
    obtain ⟨ms, hb, hms⟩ := h.head
    exact ⟨⟨ms, (congrArg Ledger.mbox he).trans hb, hms⟩,
      (congrArg Ledger.ibpTotalNum he).trans h.ibpTotalNum,
      (congrArg (·.lsnCmds.getLast?) he).trans h.noLsn⟩
  sendSelf m hm h := by
    obtain ⟨ms, hb, hms⟩ := h.head
    refine ⟨⟨ms ++ [m], by simp [sendSelf, hb], fun x hx => ?_⟩, h.ibpTotalNum, h.noLsn⟩
    rcases List.mem_append.mp hx with hx | hx
    · exact hms x hx
    · rw [List.mem_singleton.mp hx]; exact hm

/-- **`peMgrStartReq` starts the listener**: from a mailbox with no `EvPeMgrStartReq` and no
inbound counted, its state is `Listening`. -/
theorem Listening.peMgrStartReq (hm : ∀ m ∈ pm.sch.mbox, m.isStartReq = false)
    (hi : pm.ibpTotalNum = 0) : Listening pm.peMgrStartReq.1 := by
  have he := ledger_peMgrStartReq pm
  have hc : pm.peMgrStartReq.1.cfg = pm.cfg := (congrArg Ledger.cfg he).trans (by split_ifs <;> rfl)
  refine ⟨fun x hx => ?_, fun hna ht => ?_⟩
  · have hx' : x ∈ pm.sch.mbox ++ [.outboundReq none] := by
      have hb : x ∈ pm.peMgrStartReq.1.ledger.mbox := hx
      rw [he] at hb
      split_ifs at hb <;> exact hb
    rcases List.mem_append.mp hx' with hx' | hx'
    · exact hm x hx'
    · rw [List.mem_singleton.mp hx']; rfl
  · rw [hc] at hna ht
    have hl : pm.peMgrStartReq.1.lastLsnCmd = some .lsnStartReq := by
      have h' := congrArg (·.lsnCmds.getLast?) he
      simp only [hna, Bool.not_false, if_true] at h'
      exact h'.trans (lastLsnCmd_send_lsn pm .lsnStartReq rfl)
    have hi' : pm.peMgrStartReq.1.ibpTotalNum = 0 :=
      (congrArg Ledger.ibpTotalNum he).trans (by split_ifs <;> exact hi)
    rw [hl, lsnCmdFor, hc, hi', if_neg (by omega)]

end PeerManager

open PeerManager in
/-- In every reachable state, either `EvPeMgrStartReq` still waits at the head of the mailbox
with nothing counted or sent, or the listener invariant holds. -/
theorem reachable_listening {pm : PeerManager} (h : Reachable pm) : Starting pm ∨ Listening pm := by
  induction h with
  | init cfg dflt => exact .inl ⟨⟨[], rfl, fun _ h => absurd h (List.not_mem_nil _)⟩, rfl, rfl⟩
  | @step pm pm' ev _ hs ih =>
    cases ev with
    | mgrProc ans =>
      cases hbox : pm.sch.mbox with
      | nil => simp [PeerManager.step, PeerManager.mgrProc, hbox] at hs
      | cons m ms =>
        rcases ih with hst | hl
        · obtain ⟨ms', hb, hms⟩ := hst.head
          rw [hbox, List.cons.injEq] at hb
          obtain ⟨rfl, rfl⟩ := hb
          cases step_mgrProc_startReq hbox hs
          exact .inr (Listening.peMgrStartReq hms hst.ibpTotalNum)
        · have hpop : Listening { pm with sch := { pm.sch with mbox := ms, ans := ans } } :=
            ⟨fun x hx => hl.noStart x (hbox ▸ List.mem_cons_of_mem m hx), hl.follows⟩
          exact .inr (stable_listening.mgrProc hbox (hl.noStart m (hbox ▸ List.mem_cons_self m ms))
            hpop hs)
    | _ =>
      rcases ih with hst | hl
      · exact .inl (framed_starting.step_of_not_mgrProc hst (fun _ => PeEvent.noConfusion) hs)
      · exact .inr (stable_listening.step_of_not_mgrProc hl (fun _ => PeEvent.noConfusion) hs)

/-- **The listener follows the inbound count**: in every reachable state of a manager with
accepting on and `ibpNumTotal ≥ 1` where `EvPeMgrStartReq` has been handled, the last command sent
to the listener is `LsnStopReq` when `ibpTotalNum ≥ ibpNumTotal` and `LsnStartReq` when
`ibpTotalNum < ibpNumTotal`. -/
theorem lastLsnCmd_follows_ibpTotalNum {pm : PeerManager} (h : Reachable pm)
    (hna : pm.cfg.noAccept = false) (ht : 1 ≤ pm.cfg.ibpNumTotal)
    (hs : PeMgrMsg.startReq ∉ pm.sch.mbox) :
    pm.lastLsnCmd =
      some (if pm.ibpTotalNum ≥ pm.cfg.ibpNumTotal then .lsnStopReq else .lsnStartReq) := by
  rcases reachable_listening h with hst | hl
  · obtain ⟨ms, hb, -⟩ := hst.head
    exact absurd (hb ▸ List.mem_cons_self _ _) hs
  · exact hl.follows hna ht

/-- `exampleCfg` with one inbound allowed. -/
def oneInboundCfg : Cfg4PeerManager :=
  { exampleCfg with SubNetMaxInBounds := (∅ : GoMap SubNetworkID Int).set exampleSnid 1 }

/-- The manager of `oneInboundCfg` pauses its listener at its first accepted inbound. -/
theorem lastLsnCmd_follows_ibpTotalNum_oneInbound :
    ∃ pm, Reachable pm ∧ pm.cfg.noAccept = false ∧ pm.cfg.ibpNumTotal = 1 ∧
      PeMgrMsg.startReq ∉ pm.sch.mbox ∧ pm.ibpTotalNum = 1 ∧ pm.lastLsnCmd = some .lsnStopReq := by
  have hrun : (runEvents (peMgrPoweron oneInboundCfg exampleDefaults)
      (startRun ++ [.lsnConnAccepted, .mgrProc allGranted])).map
      (fun pm => decide (pm.cfg.noAccept = false) && decide (pm.cfg.ibpNumTotal = 1) &&
        decide (PeMgrMsg.startReq ∉ pm.sch.mbox) && decide (pm.ibpTotalNum = 1)) = some true := by
    decide
  obtain ⟨pm, h, hc⟩ := (Reachable.init _ _).exists_of_runEvents _ hrun
  simp only [Bool.and_eq_true, decide_eq_true_eq] at hc
  obtain ⟨⟨⟨hna, ht⟩, hs⟩, hi⟩ := hc
  refine ⟨pm, h, hna, ht, hs, hi, ?_⟩
  rw [lastLsnCmd_follows_ibpTotalNum h hna (by omega) hs, if_pos (by omega)]

end Gyee.Peer
