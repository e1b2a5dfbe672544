import Gyee.Peer.Kill
import Mathlib.Data.List.GetD

/-! # The ledger of the peer manager

The counters of the peer manager (`ibpTotalNum`, `obpNum`) and the commands to the listener
change in few places: a kill (`peMgrKillInst`), the creation of an outbound instance
(`peMgrCreateOutboundInst`), an accepted inbound (`peMgrLsnConnAcceptedInd`) and `peMgrStartReq`.
Every other change of state the handlers make keeps the *ledger*: the `peers` table, each
instance's direction and, for an outbound, its sub-network, the two counters, the configuration,
the listener commands sent and the manager's mailbox; the only other change is a message other
than `EvPeMgrStartReq` appended to the mailbox.

An invariant is `Framed` when the changes that keep the ledger and the messages to the manager
other than `EvPeMgrStartReq` keep it. Every step of the instance tasks and of the outside tasks
keeps a framed invariant (`Framed.step_of_not_mgrProc`). The handlers are treated with the other
invariants of the manager in `Gyee.Peer.Frame`, where a framed invariant that a kill, a new outbound
instance and an accepted inbound keep is `Stable`. -/

namespace Gyee.Peer

open Gyee

/-- Whether a message to the outside tasks is a command to the listener. -/
def PeMgrOut.isLsnCmd : PeMgrOut → Bool
  | .lsnStartReq | .lsnStopReq => true
  | .dcvFindNodeReq _ _ => false

/-- Whether a message of the manager's mailbox is `EvPeMgrStartReq`. -/
def PeMgrMsg.isStartReq : PeMgrMsg → Bool
  | .startReq => true
  | _ => false

/-- What the counters read of an instance: its direction, and its sub-network when it is an
outbound. -/
def acct (i : PeerInstance) : Int × Option SubNetworkID :=
  (i.dir, if i.dir = PeInstDirOutbound then some i.snid else none)

/-- What the counting invariants read of the state. -/
structure Ledger where
  peers : GoMap Nat Nat
  accts : List (Int × Option SubNetworkID)
  ibpTotalNum : Int
  obpNum : GoMap SubNetworkID Int
  cfg : PeMgrConfig
  lsnCmds : List PeMgrOut
  mbox : List PeMgrMsg

namespace PeerManager

variable (pm : PeerManager)

/-- The ledger of the state. -/
def ledger : Ledger :=
  ⟨pm.peers, pm.sch.insts.map acct, pm.ibpTotalNum, pm.obpNum, pm.cfg,
    pm.out.filter PeMgrOut.isLsnCmd, pm.sch.mbox⟩

variable {pm} in
theorem peers_eq_of_ledger {pm' : PeerManager} (h : pm'.ledger = pm.ledger) : pm'.peers = pm.peers :=
  congrArg Ledger.peers h

variable {pm} in
theorem accts_eq_of_ledger {pm' : PeerManager} (h : pm'.ledger = pm.ledger) :
    pm'.sch.insts.map acct = pm.sch.insts.map acct :=
  congrArg Ledger.accts h

/-! ### Changes that keep the ledger -/

@[simp] theorem ledger_sendInst (p : Nat) (m : PiMsg) : (pm.sendInst p m).ledger = pm.ledger := rfl
@[simp] theorem ledger_schKillTimer (tid : Int) : (pm.schKillTimer tid).ledger = pm.ledger := rfl
@[simp] theorem ledger_schSetTimer (t : PeTimer) : (pm.schSetTimer t).1.ledger = pm.ledger := by
  unfold schSetTimer; split_ifs <;> rfl
@[simp] theorem ledger_randIntn (n : Nat) : (pm.randIntn n).1.ledger = pm.ledger := rfl
@[simp] theorem ledger_randCoin : pm.randCoin.1.ledger = pm.ledger := rfl
@[simp] theorem ledger_schCreateTask : pm.schCreateTask.1.ledger = pm.ledger := rfl
@[simp] theorem ledger_updateStaticStatus (snid : SubNetworkID) (idEx : PeerIdEx) (status : Int) :
    (pm.updateStaticStatus snid idEx status).ledger = pm.ledger := by
  unfold updateStaticStatus; split_ifs <;> rfl
@[simp] theorem ledger_dropWorker (snid : SubNetworkID) (idEx : PeerIdEx) :
    (pm.dropWorker snid idEx).ledger = pm.ledger := by
  unfold dropWorker; split_ifs <;> rfl

/-- Writing an instance that keeps its direction, and its sub-network when it is an outbound,
keeps the ledger. -/
theorem ledger_setInst {p : Nat} {i : PeerInstance} (hd : i.dir = (pm.inst p).dir)
    (hs : i.dir = PeInstDirOutbound → i.snid = (pm.inst p).snid) :
    (pm.setInst p i).ledger = pm.ledger := by
  have ha : acct i = acct (pm.inst p) := by
    unfold acct
    rw [hd]
    split_ifs with ho
    · rw [hs (hd ▸ ho)]
    · rfl
  simp only [ledger, setInst, List.map_set, ha, inst, ← List.getD_map _ _ acct, set_getD_self]

@[simp] theorem ledger_setInst_state (p : Nat) (s : Int) :
    (pm.setInst p { pm.inst p with state := s }).ledger = pm.ledger :=
  ledger_setInst pm rfl fun _ => rfl

@[simp] theorem ledger_killPingpong (p : Nat) : (pm.killPingpong p).ledger = pm.ledger := by
  unfold killPingpong; dsimp only; split_ifs
  · exact ledger_setInst _ rfl fun _ => rfl
  · rfl

theorem ledger_of_schSetTimer_eq {X pm' : PeerManager} {t : PeTimer} {o : Option Int}
    (h : X.schSetTimer t = (pm', o)) : pm'.ledger = X.ledger := by
  rw [← ledger_schSetTimer X t, h]

@[simp] theorem ledger_peMgrAsk4More (snid : SubNetworkID) :
    (pm.peMgrAsk4More snid).1.ledger = pm.ledger := by
  have hs : ∀ (X : PeerManager) more, (X.send (.dcvFindNodeReq snid more)).ledger = X.ledger :=
    fun X _ => by simp [ledger, send, PeMgrOut.isLsnCmd]
  unfold peMgrAsk4More
  dsimp only
  split_ifs
  · rfl
  all_goals
    split <;> rename_i heq <;>
      exact (ledger_of_schSetTimer_eq heq).trans
        (by split <;> (try split_ifs) <;> first | exact hs pm _ | rfl)

theorem ledger_foldl_dcvFindNodeAdd (snid : SubNetworkID) :
    ∀ (nodes : List Node) (acc : PeerManager × Nat),
      (nodes.foldl (dcvFindNodeAdd snid) acc).1.ledger = acc.1.ledger
  | [], _ => rfl
  | n :: nodes, acc => by
    rw [List.foldl_cons, ledger_foldl_dcvFindNodeAdd snid nodes]
    unfold dcvFindNodeAdd
    dsimp only
    split_ifs <;> rfl

/-- `peMgrStartReq` keeps the ledger of the state with its command to the listener and its
`EvPeMgrOutboundReq` sent. -/
theorem ledger_peMgrStartReq : pm.peMgrStartReq.1.ledger =
    ((if !pm.cfg.noAccept then pm.send .lsnStartReq else pm).sendSelf (.outboundReq none)).ledger := by
  unfold peMgrStartReq
  dsimp only
  generalize (if !pm.cfg.noAccept then pm.send .lsnStartReq else pm).sendSelf (.outboundReq none) = X
  split <;> rename_i heq <;> refine (ledger_of_schSetTimer_eq heq).trans ?_ <;> split_ifs <;> rfl

/-! ### Framed invariants -/

/-- An invariant the instance tasks and the outside tasks keep: the changes that keep the ledger
keep it, and so does a message other than `EvPeMgrStartReq` sent to the manager. -/
structure Framed (I : PeerManager → Prop) : Prop where
  ledger : ∀ {pm pm' : PeerManager}, I pm → pm'.ledger = pm.ledger → I pm'
  sendSelf : ∀ {pm : PeerManager} (m : PeMgrMsg), m.isStartReq = false → I pm → I (pm.sendSelf m)

/-! ### The steps of the other tasks -/

section Tasks

variable {I : PeerManager → Prop} (hI : Framed I) {pm}
include hI

theorem Framed.piHandshakeReq (h : I pm) (p : Nat) (rd : Except PeMgrErrno (SubNetworkID × NodeID))
    (wr : PeMgrErrno) : I (pm.piHandshakeReq p rd wr) := by
  have hin : (pm.inst p).dir = PeInstDirInbound → (pm.piHandshakeInbound p rd wr).1.ledger = pm.ledger := by
    intro hd
    have hs : ∀ i : PeerInstance, i.dir = PeInstDirInbound →
        i.dir = PeInstDirOutbound → i.snid = (pm.inst p).snid := fun i hi ho => by
      rw [hi] at ho; cases ho
    unfold piHandshakeInbound
    split
    · rfl
    · dsimp only
      split_ifs
      · rfl
      · exact ledger_setInst _ rfl (hs _ hd)
      · exact ledger_setInst _ rfl (hs _ hd)
  have hout : (pm.piHandshakeOutbound p rd wr).1.ledger = pm.ledger := by
    unfold piHandshakeOutbound
    split_ifs
    · rfl
    · split
      · rfl
      · dsimp only
        split_ifs
        · rfl
        · rfl
        · exact ledger_setInst_state _ _ _
  unfold PeerManager.piHandshakeReq
  dsimp only
  split_ifs with h1 h2 h3
  · exact h
  · exact hI.sendSelf _ rfl (hI.ledger h (hin h2))
  · exact hI.sendSelf _ rfl (hI.ledger h hout)
  · exact hI.sendSelf _ rfl (hI.ledger h rfl)

theorem Framed.piProc (h : I pm) (p : Nat) (a : PiAnswers) {pm' : PeerManager}
    (hs : pm.piProc p a = some pm') : I pm' := by
  unfold PeerManager.piProc at hs
  split_ifs at hs
  split at hs
  · cases hs
  next _ m _ =>
  obtain rfl := Option.some.inj hs
  have he : I { pm with sch := { pm.sch with ibox := pm.sch.ibox.erase (p, m) } } := hI.ledger h rfl
  generalize { pm with sch := { pm.sch with ibox := pm.sch.ibox.erase (p, m) } } = X at he ⊢
  cases m with
  | connOutReq =>
    unfold PeerManager.piConnOutReq
    dsimp only
    split_ifs
    · exact he
    all_goals exact hI.sendSelf _ rfl (hI.ledger he (ledger_setInst_state _ _ _))
  | handshakeReq => exact hI.piHandshakeReq he _ _ _
  | establishedInd =>
    unfold PeerManager.piEstablishedInd
    dsimp only
    split_ifs
    · exact he
    · exact hI.sendSelf _ rfl (hI.ledger he (ledger_setInst _ rfl fun _ => rfl))
    · exact hI.ledger he (ledger_setInst _ rfl fun _ => rfl)
  | closeReq =>
    unfold PeerManager.piCloseReq
    dsimp only
    split_ifs
    · exact he
    · exact hI.sendSelf _ rfl (hI.ledger he (ledger_setInst _ rfl fun _ => rfl))

/-- **The steps of the instance tasks and of the outside tasks keep a framed invariant.** -/
theorem Framed.step_of_not_mgrProc (h : I pm) {ev : PeEvent} (hev : ∀ ans, ev ≠ .mgrProc ans)
    {r : Run PeerManager} (hs : pm.step ev = some r) : r.Post I := by
  cases ev with
  | mgrProc ans => exact absurd rfl (hev ans)
  | piProc p a =>
    obtain ⟨pm', hp, rfl⟩ := Option.map_eq_some'.mp hs
    exact hI.piProc h p a hp
  | piIoFailure p =>
    obtain ⟨pm', hp, rfl⟩ := Option.map_eq_some'.mp hs
    unfold PeerManager.piIoFailure at hp
    dsimp only at hp
    split_ifs at hp
    cases hp
    exact hI.sendSelf _ rfl h
  | lsnConnAccepted => cases hs; exact hI.sendSelf _ rfl h
  | dcvFindNodeRsp snid nodes => cases hs; exact hI.sendSelf _ rfl h
  | closePeer snid id => cases hs; exact hI.sendSelf _ rfl (hI.sendSelf _ rfl h)
  | findNodeTimer tid =>
    obtain ⟨pm', hp, rfl⟩ := Option.map_eq_some'.mp hs
    unfold PeerManager.findNodeTimer at hp
    split at hp
    · cases hp
      exact hI.sendSelf _ rfl (hI.ledger h rfl)
    · cases hp
  | indTake =>
    unfold PeerManager.step at hs
    split_ifs at hs
    cases hs
    exact hI.ledger h rfl

end Tasks

/-- The manager's step on `EvPeMgrStartReq` at the head of the mailbox is `peMgrStartReq`. -/
theorem step_mgrProc_startReq {pm : PeerManager} {ans : SchAnswers} {ms : List PeMgrMsg}
    (hbox : pm.sch.mbox = .startReq :: ms) {r : Run PeerManager}
    (hs : pm.step (.mgrProc ans) = some r) :
    r = .ret { pm with sch := { pm.sch with mbox := ms, ans := ans } }.peMgrStartReq.1 := by
  simp only [step, mgrProc, hbox, Option.some.injEq] at hs
  exact hs.symm

end PeerManager

end Gyee.Peer
