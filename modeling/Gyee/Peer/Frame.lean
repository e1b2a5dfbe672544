import Mathlib.Data.List.GetD
import Gyee.Peer.Ledger

/-! # Invariants that every handler keeps

The manager's handlers are made of a few changes that matter to its tables and many that do not.
The others are timers, random picks, messages to the listener or the discoverer, the static
statuses and the random nodes.

`coreView` is what an invariant of the tables may read:
* the configuration, `peers`, `nodes`, `workers` and the counters;
* of each instance, its task node, direction, sub-network, node and state;
* the instances that the instance tasks' mailboxes ask to close (`closeTargets`);
* the messages of the connection and handshake exchanges in flight (`exchanges`).

`timerView` is what an invariant of the timers may read besides: the armed timers, the next timer
identity, the discovery and statistics timers the manager records, each instance's pingpong timer,
and the instances the instance tasks' mailboxes tell they are established. A change that keeps both
views is `Quiet`.

What matters is a kill, a new outbound instance, an accepted inbound instance, a close request,
the re-arming of a discovery timer (`peMgrAsk4More`), the start (`peMgrStartReq`), a connected
dial's handshake request and an admission.

An invariant is `Kept` when every quiet change that also keeps the ledger (`Gyee.Peer.Ledger`)
keeps it, and so do a message to the manager outside the exchanges other than the start, and the
first five changes that matter. Every quiet step a handler takes keeps the ledger as well. From
these, every handler keeps the invariant (`Kept.peerMgrProc`), given that the start, the
handshake request and the handshake response at hand keep it. An invariant that reads only the
core view is kept when the first four keep it (`Kept.of_core`).

The counting invariants are framed by the ledger instead, which does not see states, `workers` or
the mailboxes. Such an invariant that a kill, a new outbound instance and an accepted inbound keep
is `Stable`. It is kept (`Stable.toKept`): the handlers are proved once, for both kinds. -/

namespace Gyee.Peer

open Gyee

/-- Whether a message to an instance task is of its connection and handshake exchange. -/
def PiMsg.isExchange : PiMsg → Bool
  | .connOutReq | .handshakeReq => true
  | _ => false

/-- The task node of an instance task's answer in its connection and handshake exchange:
`EvPeConnOutRsp` and `EvPeHandshakeRsp`. -/
def PeMgrMsg.exchangePtn : PeMgrMsg → Option Nat
  | .connOutRsp _ _ _ ptn | .handshakeRsp _ _ _ _ ptn => some ptn
  | _ => none

/-- What the core view reads of an instance. -/
def instCore (i : PeerInstance) : Nat × Int × SubNetworkID × Node × Int :=
  (i.ptnMe, i.dir, i.snid, i.node, i.state)

/-- What an invariant of the tables may read of the state. -/
structure CoreView where
  cfg : PeMgrConfig
  peers : GoMap Nat Nat
  insts : List (Nat × Int × SubNetworkID × Node × Int)
  nodes : PeerTab
  workers : PeerTab
  wrkNum : GoMap SubNetworkID Int
  ibpNum : GoMap SubNetworkID Int
  obpNum : GoMap SubNetworkID Int
  ibpTotalNum : Int
  closes : List Nat
  exchanges : List Nat

namespace PeerManager

variable (pm : PeerManager)

/-- The task nodes that the instance tasks' mailboxes ask to close. -/
def closeTargets : List Nat := (pm.sch.ibox.filter (·.2 = .closeReq)).map (·.1)

/-- The task nodes of the messages of the connection and handshake exchanges in flight: to the
instance tasks, then to the manager. -/
def exchanges : List Nat :=
  (pm.sch.ibox.filter (·.2.isExchange)).map (·.1) ++ pm.sch.mbox.filterMap PeMgrMsg.exchangePtn

/-- The core view of the state. -/
def coreView : CoreView :=
  ⟨pm.cfg, pm.peers, pm.sch.insts.map instCore, pm.nodes, pm.workers, pm.wrkNum, pm.ibpNum,
    pm.obpNum, pm.ibpTotalNum, pm.closeTargets, pm.exchanges⟩

/-- The task nodes that the instance tasks' mailboxes tell they are established. -/
def establishTargets : List Nat := (pm.sch.ibox.filter (·.2 = .establishedInd)).map (·.1)

end PeerManager

/-- What an invariant of the timers reads besides the core view. -/
structure TimerView where
  timers : List (Int × PeTimer)
  nextTid : Int
  tidFindNode : GoMap SubNetworkID Int
  ssTid : Int
  ppTids : List Int
  establishes : List Nat

namespace PeerManager

variable (pm : PeerManager)

/-- The timer view of the state. -/
def timerView : TimerView :=
  ⟨pm.sch.timers, pm.sch.nextTid, pm.tidFindNode, pm.ssTid, pm.sch.insts.map (·.ppTid),
    pm.establishTargets⟩

/-- A change that keeps the core view and the timer view. -/
def Quiet (pm' : PeerManager) : Prop := pm'.coreView = pm.coreView ∧ pm'.timerView = pm.timerView

/-! ### Changes that keep the core view -/

theorem exchanges_sendSelf (m : PeMgrMsg) :
    (pm.sendSelf m).exchanges = pm.exchanges ++ m.exchangePtn.toList := by
  simp only [exchanges, sendSelf, List.filterMap_append, List.filterMap_cons, List.filterMap_nil,
    List.append_assoc]
  cases m.exchangePtn <;> rfl

/-- A message to the manager outside the exchanges keeps the core view. -/
theorem coreView_sendSelf (m : PeMgrMsg) (hm : m.exchangePtn = none) :
    (pm.sendSelf m).coreView = pm.coreView := by
  simp only [coreView, exchanges_sendSelf, hm, Option.toList_none, List.append_nil]
  rfl

@[simp] theorem coreView_send (m : PeMgrOut) : (pm.send m).coreView = pm.coreView := rfl
@[simp] theorem coreView_schKillTimer (tid : Int) :
    (pm.schKillTimer tid).coreView = pm.coreView := rfl
@[simp] theorem coreView_schSetTimer (t : PeTimer) :
    (pm.schSetTimer t).1.coreView = pm.coreView := by
  unfold schSetTimer; split_ifs <;> rfl
@[simp] theorem coreView_randIntn (n : Nat) : (pm.randIntn n).1.coreView = pm.coreView := rfl
@[simp] theorem coreView_resumeAccepter : pm.resumeAccepter.coreView = pm.coreView := by
  unfold resumeAccepter; split_ifs <;> rfl
@[simp] theorem coreView_updateStaticStatus (snid : SubNetworkID) (idEx : PeerIdEx) (st : Int) :
    (pm.updateStaticStatus snid idEx st).coreView = pm.coreView := by
  unfold updateStaticStatus; split_ifs <;> rfl
@[simp] theorem timerView_updateStaticStatus (snid : SubNetworkID) (idEx : PeerIdEx) (st : Int) :
    (pm.updateStaticStatus snid idEx st).timerView = pm.timerView := by
  unfold updateStaticStatus; split_ifs <;> rfl

theorem closeTargets_sendInst (p : Nat) (m : PiMsg) :
    (pm.sendInst p m).closeTargets = pm.closeTargets ++ if m = .closeReq then [p] else [] := by
  simp only [closeTargets, sendInst, List.filter_append, List.map_append]
  split_ifs with h <;> simp [h]

theorem exchanges_sendInst_of_not (p : Nat) {m : PiMsg} (hx : m.isExchange = false) :
    (pm.sendInst p m).exchanges = pm.exchanges := by
  simp [exchanges, sendInst, hx]

/-- A message to an instance task outside its exchange, and not a close request, keeps the core
view. -/
theorem coreView_sendInst (p : Nat) {m : PiMsg} (hm : m ≠ .closeReq) (hx : m.isExchange = false) :
    (pm.sendInst p m).coreView = pm.coreView := by
  simp only [coreView, closeTargets_sendInst, if_neg hm, List.append_nil,
    exchanges_sendInst_of_not pm p hx]
  rfl

theorem exchanges_sendInst (p : Nat) (m : PiMsg) :
    (pm.sendInst p m).exchanges.Perm ((if m.isExchange then [p] else []) ++ pm.exchanges) := by
  simp only [exchanges, sendInst, List.filter_append, List.map_append, List.append_assoc]
  cases hx : m.isExchange
  · simp [hx]
  · simp [hx]

/-- Writing what the core view does not read of an instance keeps it. -/
theorem coreView_setInst {p : Nat} {i : PeerInstance} (h : instCore i = instCore (pm.inst p)) :
    (pm.setInst p i).coreView = pm.coreView := by
  have hm : (pm.sch.insts.set p i).map instCore = pm.sch.insts.map instCore := by
    rw [List.map_set, h, inst, ← List.getD_map _ _ instCore, set_getD_self]
  unfold coreView
  rw [show (pm.setInst p i).sch.insts = pm.sch.insts.set p i from rfl, hm]
  rfl

@[simp] theorem coreView_killPingpong (p : Nat) : (pm.killPingpong p).coreView = pm.coreView := by
  unfold killPingpong; dsimp only; split_ifs
  · refine (coreView_setInst _ ?_).trans (coreView_schKillTimer _ _)
    rfl
  · rfl

theorem coreView_of_schSetTimer_eq {X pm' : PeerManager} {t : PeTimer} {o : Option Int}
    (h : X.schSetTimer t = (pm', o)) : pm'.coreView = X.coreView := by
  rw [← coreView_schSetTimer X t, h]

@[simp] theorem coreView_peMgrAsk4More (snid : SubNetworkID) :
    (pm.peMgrAsk4More snid).1.coreView = pm.coreView := by
  unfold peMgrAsk4More
  dsimp only
  split_ifs
  · rfl
  all_goals
    split <;> rename_i heq <;>
      exact (coreView_of_schSetTimer_eq heq).trans (by split <;> (try split_ifs) <;> rfl)

theorem quiet_foldl_dcvFindNodeAdd (snid : SubNetworkID) :
    ∀ (nodes : List Node) (acc : PeerManager × Nat),
      acc.1.Quiet (nodes.foldl (dcvFindNodeAdd snid) acc).1
  | [], _ => ⟨rfl, rfl⟩
  | n :: nodes, acc => by
    obtain ⟨hc, ht⟩ := quiet_foldl_dcvFindNodeAdd snid nodes (dcvFindNodeAdd snid acc n)
    rw [List.foldl_cons]
    have hn : acc.1.Quiet (dcvFindNodeAdd snid acc n).1 := by
      unfold dcvFindNodeAdd
      dsimp only
      split_ifs <;> exact ⟨rfl, rfl⟩
    exact ⟨hc.trans hn.1, ht.trans hn.2⟩

theorem coreView_peMgrStartReq : pm.peMgrStartReq.1.coreView = pm.coreView := by
  unfold peMgrStartReq
  dsimp only
  have hX : ((if !pm.cfg.noAccept then pm.send .lsnStartReq else pm).sendSelf
      (.outboundReq none)).coreView = pm.coreView := by
    rw [coreView_sendSelf _ (.outboundReq none) rfl]
    split_ifs <;> rfl
  generalize (if !pm.cfg.noAccept then pm.send .lsnStartReq else pm).sendSelf
    (.outboundReq none) = X at hX
  split <;> rename_i heq <;> refine (coreView_of_schSetTimer_eq heq).trans ?_ <;>
    split_ifs <;> exact hX

/-! ### Kept invariants -/

/-- An invariant that every quiet change that keeps the ledger keeps, and that a message to the
manager outside the exchanges and the start, a kill, a new outbound instance, an accepted inbound, a
close request and the re-arming of a discovery timer keep. -/
structure Kept (I : PeerManager → Prop) : Prop where
  quiet : ∀ {pm pm' : PeerManager}, I pm → pm.Quiet pm' → pm'.ledger = pm.ledger → I pm'
  sendSelf : ∀ {pm : PeerManager} {m : PeMgrMsg}, I pm → m.exchangePtn = none →
    m.isStartReq = false → I (pm.sendSelf m)
  kill : ∀ {pm : PeerManager} (ptn : Nat) (node : Node) (dir : Int), I pm →
    I (pm.peMgrKillInst ptn node dir).1
  create : ∀ {pm : PeerManager} (snid : SubNetworkID) (node : Node), I pm →
    (pm.peMgrCreateOutboundInst snid node).Post (I ·.1)
  accept : ∀ {pm : PeerManager}, I pm → I pm.peMgrLsnConnAcceptedInd.1
  closeReq : ∀ {pm : PeerManager} (snid : SubNetworkID) (node : Node) (dir : Int), I pm →
    I (pm.peMgrCloseReq snid node dir).1
  ask4More : ∀ {pm : PeerManager} (snid : SubNetworkID), I pm → I (pm.peMgrAsk4More snid).1

/-- An invariant that reads only the core view is kept when a kill, a new instance and a close
request keep it. -/
theorem Kept.of_core {I : PeerManager → Prop}
    (core : ∀ {pm pm' : PeerManager}, I pm → pm'.coreView = pm.coreView → I pm')
    (kill : ∀ {pm : PeerManager} (ptn : Nat) (node : Node) (dir : Int), I pm →
      I (pm.peMgrKillInst ptn node dir).1)
    (create : ∀ {pm : PeerManager} (snid : SubNetworkID) (node : Node), I pm →
      (pm.peMgrCreateOutboundInst snid node).Post (I ·.1))
    (accept : ∀ {pm : PeerManager}, I pm → I pm.peMgrLsnConnAcceptedInd.1)
    (closeReq : ∀ {pm : PeerManager} (snid : SubNetworkID) (node : Node) (dir : Int), I pm →
      I (pm.peMgrCloseReq snid node dir).1) : Kept I :=
  ⟨fun h hq _ => core h hq.1, fun h hm _ => core h (coreView_sendSelf _ _ hm), kill, create, accept,
    closeReq, fun snid h => core h (coreView_peMgrAsk4More _ snid)⟩

/-- The worker tables after a write at a new key. -/
theorem workers_of_set {m w : PeerTab} {snid : SubNetworkID} {k : PeerIdEx} {p : Nat}
    (hk : m.get? snid k = none) (hw : m.set snid k p = .ret w) :
    (∀ s k', w.get? s k' = if s = snid ∧ k' = k then some p else m.get? s k') ∧
      ∀ s, w.size s = m.size s + if s = snid then 1 else 0 :=
  ⟨PeerTab.get?_of_set hw, fun s => by rw [PeerTab.size_of_set hw, hk]; simp⟩

/-- The worker tables after the same write at a new key, twice. -/
theorem workers_of_set_twice {m w1 w2 : PeerTab} {snid : SubNetworkID} {k : PeerIdEx} {p : Nat}
    (hk : m.get? snid k = none) (hw1 : m.set snid k p = .ret w1) (hw2 : w1.set snid k p = .ret w2) :
    (∀ s k', w2.get? s k' = if s = snid ∧ k' = k then some p else m.get? s k') ∧
      ∀ s, w2.size s = m.size s + if s = snid then 1 else 0 := by
  obtain ⟨hg, hs⟩ := workers_of_set hk hw1
  refine ⟨fun s k' => ?_, fun s => ?_⟩
  · rw [PeerTab.get?_of_set hw2, hg]
    split_ifs <;> rfl
  · rw [PeerTab.size_of_set hw2, hg snid k, hs]
    simp

/-- What `instStateCmpKill`'s result tells the handshake: a duplicate comes with the invariant,
anything else with the state unchanged. -/
theorem cmpKill_cases {I : PeerManager → Prop} {X Y : PeerManager} {e : PeMgrErrno}
    (hX : (X, e) = (Y, .none) ∨ e = .duplicated ∧ I X) :
    (e = .duplicated → I X) ∧ (e ≠ .duplicated → X = Y) := by
  rcases hX with hX | hX
  · cases hX
    exact ⟨nofun, fun _ => rfl⟩
  · exact ⟨fun _ => hX.2, fun he => absurd hX.1 he⟩

section Handlers

variable {I : PeerManager → Prop} (hI : Kept I) {pm}
include hI

theorem Kept.indEnque (h : I pm) (ind : PeInd) : (pm.peMgrIndEnque ind).Post I := by
  unfold peMgrIndEnque
  split_ifs
  · trivial
  · exact hI.quiet h ⟨rfl, rfl⟩ rfl

theorem Kept.dynamicOutboundLoop (snid : SubNetworkID) (maxOutbound : Int) :
    ∀ (ns : List Node) {pm : PeerManager}, I pm →
      (dynamicOutboundLoop snid maxOutbound ns pm).Post I
  | [], _, h => h
  | n :: ns, pm, h => by
    unfold PeerManager.dynamicOutboundLoop
    refine (hI.create snid n h).bind fun ⟨pm', eno⟩ h' => ?_
    dsimp only
    split_ifs
    · exact Kept.dynamicOutboundLoop snid maxOutbound ns h'
    · exact h'
    · exact Kept.dynamicOutboundLoop snid maxOutbound ns h'

theorem Kept.staticOutboundLoop (snid : SubNetworkID) :
    ∀ (cdNum : Nat) (candidates : List Node) {pm : PeerManager}, I pm →
      (staticOutboundLoop snid cdNum candidates pm).Post I
  | 0, _, _, h => h
  | cdNum + 1, candidates, pm, h => by
    unfold PeerManager.staticOutboundLoop
    dsimp only
    split
    · trivial
    · refine (hI.create snid _
        (hI.quiet h ⟨coreView_randIntn pm _, rfl⟩ (ledger_randIntn pm _))).bind fun ⟨pm', eno⟩ h' => ?_
      dsimp only
      split_ifs
      · exact Kept.staticOutboundLoop snid cdNum _ (hI.quiet h' ⟨rfl, rfl⟩ rfl)
      · exact Kept.staticOutboundLoop snid cdNum _ (hI.quiet h' ⟨rfl, rfl⟩ rfl)
      · exact hI.quiet h' ⟨rfl, rfl⟩ rfl
      · exact Kept.staticOutboundLoop snid cdNum _ (hI.quiet h' ⟨rfl, rfl⟩ rfl)

theorem Kept.dynamicSubNetOutbound (h : I pm) (snid : SubNetworkID) :
    (pm.peMgrDynamicSubNetOutbound snid).Post (I ·.1) := by
  unfold peMgrDynamicSubNetOutbound
  dsimp only
  split_ifs
  · exact h
  · exact h
  · refine Run.Post.bind (hI.dynamicOutboundLoop snid _ _ (hI.quiet h ⟨rfl, rfl⟩ rfl))
      fun pm' h' => ?_
    split_ifs
    · exact hI.ask4More _ h'
    · exact hI.ask4More _ h'
    · exact h'

theorem Kept.staticSubNetOutbound (h : I pm) : pm.peMgrStaticSubNetOutbound.Post (I ·.1) := by
  unfold peMgrStaticSubNetOutbound
  dsimp only
  split_ifs
  · exact h
  · exact h
  · exact h
  · refine Run.Post.bind (hI.staticOutboundLoop _ _ _ h) fun pm' h' => ?_
    split_ifs
    · exact hI.ask4More _ h'
    · exact hI.ask4More _ h'
    · exact h'

theorem Kept.dynamicOutboundAll :
    ∀ (ids : List SubNetworkID) {pm : PeerManager}, I pm → (dynamicOutboundAll ids pm).Post (I ·.1)
  | [], _, h => h
  | id :: ids, pm, h => by
    unfold PeerManager.dynamicOutboundAll
    refine (hI.dynamicSubNetOutbound h id).bind fun ⟨pm', eno⟩ h' => ?_
    dsimp only
    split_ifs
    · exact h'
    · exact Kept.dynamicOutboundAll ids h'

theorem Kept.outboundReq (h : I pm) (snid : Option SubNetworkID) :
    (pm.peMgrOutboundReq snid).Post (I ·.1) := by
  unfold peMgrOutboundReq
  split
  · exact h
  · cases snid with
    | none =>
      refine (hI.staticSubNetOutbound h).bind fun ⟨pm', eno⟩ h' => ?_
      dsimp only
      split_ifs
      · exact h'
      · exact (hI.dynamicOutboundAll _ h').bind fun ⟨pm'', eno'⟩ h'' => by
          dsimp only; split_ifs <;> exact h''
      · exact h'
    | some snid =>
      dsimp only
      split_ifs
      · exact hI.staticSubNetOutbound h
      · exact hI.dynamicSubNetOutbound h _
      · exact hI.staticSubNetOutbound h
      · exact h
      · exact h

theorem Kept.dcvFindNodeRsp (h : I pm) (snid : SubNetworkID) (nodes : List Node) :
    I (pm.peMgrDcvFindNodeRsp snid nodes).1 := by
  have hf := hI.quiet h (quiet_foldl_dcvFindNodeAdd snid nodes (pm, 0))
    (ledger_foldl_dcvFindNodeAdd snid nodes (pm, 0))
  unfold peMgrDcvFindNodeRsp
  dsimp only
  split_ifs
  · exact h
  · exact hI.sendSelf hf rfl rfl
  · exact hf

theorem Kept.dcvFindNodeTimerHandler (h : I pm) (snid : SubNetworkID) :
    I (pm.peMgrDcvFindNodeTimerHandler snid).1 := by
  unfold peMgrDcvFindNodeTimerHandler
  dsimp only
  split_ifs
  · exact h
  · exact hI.sendSelf h rfl rfl

/-- A dial's answer keeps a kept invariant when the handshake request it sends keeps it. -/
theorem Kept.connOutRsp (h : I pm) (result : PeMgrErrno) (snid : SubNetworkID) (peNode : Node)
    (ptn : Nat) (hq : result = .none → I (pm.sendInst ptn .handshakeReq)) :
    I (pm.peMgrConnOutRsp result snid peNode ptn).1 := by
  unfold peMgrConnOutRsp
  dsimp only
  split_ifs with hr
  · exact hI.kill _ _ _ h
  · exact hI.sendSelf (hI.kill _ _ _ h) rfl rfl
  · exact h
  · exact hq (not_not.mp hr)

/-- `instStateCmpKill` returns the state unchanged, or answers `PeMgrEnoDuplicated` after its
kill. -/
theorem Kept.instStateCmpKill (h : I pm) (p ptn : Nat) (snid : SubNetworkID) (node : Node)
    (idEx : PeerIdEx) : (pm.instStateCmpKill p ptn snid node idEx).Post fun r =>
      r = (pm, .none) ∨ r.2 = .duplicated ∧ I r.1 := by
  unfold PeerManager.instStateCmpKill
  split
  · exact .inl rfl
  · refine Run.Post.bind (Run.post_true _) fun cmp _ => ?_
    dsimp only
    have hq : I (if cmp < 0 then (pm, true) else if cmp > 0 then (pm, false)
        else pm.randCoin).1 := by
      split_ifs
      · exact h
      · exact h
      · exact hI.quiet h ⟨rfl, rfl⟩ (ledger_randCoin pm)
    generalize (if cmp < 0 then (pm, true) else if cmp > 0 then (pm, false) else pm.randCoin) = q
      at hq ⊢
    refine .inr ⟨rfl, ?_⟩
    split_ifs
    all_goals first
      | exact hI.sendSelf (hI.kill _ _ _ hq) rfl rfl
      | exact hI.kill _ _ _ hq

/-- **The inbound part of the handshake, said once.** A kept invariant gives `J` of its results
when `J` holds of what it holds of, and of an admission from the state with the instance entered
in `nodes` and `workers` under a new key and counted in `ibpNum`, outside the static sub-network
only while `ibpNum[snid]` is below the inbound cap. -/
theorem Kept.handshakeRspInbound {J : PeerManager → Prop} (h : I pm) (hJ : ∀ {X}, I X → J X)
    {p ptn : Nat} {snid : SubNetworkID} {peNode : Node} {maxInbound : Int}
    (hAdm : ∀ n w : PeerTab, (∀ s k, w.get? s k =
        if s = snid ∧ k = ⟨peNode.ID, PeInstInPos⟩ then some p else pm.workers.get? s k) →
      (∀ s, w.size s = pm.workers.size s + if s = snid then 1 else 0) →
      (pm.isStaticSubNetId snid = false → cnt pm.ibpNum snid < maxInbound) →
      (({ pm with nodes := n, workers := w, ibpNum := bump pm.ibpNum snid 1 } :
        PeerManager).peMgrHandshakeRspAdmit p ptn snid).Post (J ·.1)) :
    (pm.peMgrHandshakeRspInbound p ptn snid peNode maxInbound).Post (J ·.1) := by
  unfold peMgrHandshakeRspInbound
  dsimp only
  split_ifs with hS hdup hib hdup'
  · exact hJ (hI.kill _ _ _ h)
  · refine (Run.post_self _).bind fun w1 hw1 => (Run.post_self _).bind fun n _ =>
      (Run.post_self _).bind fun w2 hw2 => ?_
    obtain ⟨hg, hs⟩ := workers_of_set_twice (Option.not_isSome_iff_eq_none.mp hdup) hw1 hw2
    exact hAdm n w2 hg hs fun hS' => absurd hS (by rw [hS']; decide)
  · exact hJ (hI.kill _ _ _ h)
  · exact hJ (hI.kill _ _ _ h)
  · refine (hI.instStateCmpKill h _ _ _ _ _).bind fun ⟨X, e⟩ hX => ?_
    obtain ⟨hdup, hsame⟩ := cmpKill_cases hX
    dsimp only
    split_ifs with he
    · exact hJ (hdup he)
    · obtain rfl := hsame he
      refine (Run.post_true _).bind fun _ _ => (Run.post_self _).bind fun n _ =>
        (Run.post_self _).bind fun w hw => ?_
      obtain ⟨hg, hs⟩ := workers_of_set (Option.not_isSome_iff_eq_none.mp hdup') hw
      exact hAdm n w hg hs fun _ => not_le.mp hib

/-- **The outbound part of the handshake, said once**, as the inbound part: an admission is from
the state with the instance entered in `workers` under a new key and activated among the static
statuses, outside the static sub-network only while `obpNum[snid]` is below the outbound cap. -/
theorem Kept.handshakeRspOutbound {J : PeerManager → Prop} (h : I pm) (hJ : ∀ {X}, I X → J X)
    {p ptn : Nat} {snid : SubNetworkID} {peNode : Node} {maxOutbound : Int}
    (hAdm : ∀ w : PeerTab, (∀ s k, w.get? s k =
        if s = snid ∧ k = ⟨peNode.ID, PeInstOutPos⟩ then some p else pm.workers.get? s k) →
      (∀ s, w.size s = pm.workers.size s + if s = snid then 1 else 0) →
      (pm.isStaticSubNetId snid = false → cnt pm.obpNum snid < maxOutbound) →
      ((({ pm with workers := w } : PeerManager).updateStaticStatus snid
        ⟨peNode.ID, PeInstDirOutbound⟩ peerActivated).peMgrHandshakeRspAdmit p ptn snid).Post
          (J ·.1)) :
    (pm.peMgrHandshakeRspOutbound p ptn snid peNode maxOutbound).Post (J ·.1) := by
  unfold peMgrHandshakeRspOutbound
  dsimp only
  split_ifs with hS hdup hob hdup'
  · exact hJ (hI.kill _ _ _ h)
  · refine (Run.post_self _).bind fun w1 hw1 => (Run.post_self _).bind fun w2 hw2 => ?_
    obtain ⟨hg, hs⟩ := workers_of_set_twice (Option.not_isSome_iff_eq_none.mp hdup) hw1 hw2
    exact hAdm w2 hg hs fun hS' => absurd hS (by rw [hS']; decide)
  · exact hJ (hI.kill _ _ _ h)
  · exact hJ (hI.kill _ _ _ h)
  · refine (hI.instStateCmpKill h _ _ _ _ _).bind fun ⟨X, e⟩ hX => ?_
    obtain ⟨hdup, hsame⟩ := cmpKill_cases hX
    dsimp only
    split_ifs with he
    · exact hJ (hdup he)
    · obtain rfl := hsame he
      refine (Run.post_true _).bind fun _ _ => (Run.post_self _).bind fun w hw => ?_
      obtain ⟨hg, hs⟩ := workers_of_set (Option.not_isSome_iff_eq_none.mp hdup') hw
      exact hAdm w hg hs fun _ => not_le.mp hob

/-- **The handshake's answer, said once.** A kept invariant gives `J` of its results when `J` holds
of what it holds of, and of the part of the live instance's direction when it names its
sub-network and direction and there is room under the peer cap. -/
theorem Kept.handshakeRsp {J : PeerManager → Prop} (h : I pm) (hJ : ∀ {X}, I X → J X)
    {result : PeMgrErrno} {dir : Int} {snid : SubNetworkID} {peNode : Node} {ptn : Nat}
    (hin : ∀ p, pm.peers.get? ptn = some p → (pm.inst p).snid = snid →
      (pm.inst p).dir = PeInstDirInbound → cnt pm.wrkNum snid < (pm.hsCaps snid).2.2 →
      (pm.peMgrHandshakeRspInbound p ptn snid peNode (pm.hsCaps snid).1).Post (J ·.1))
    (hout : ∀ p, pm.peers.get? ptn = some p → (pm.inst p).snid = snid →
      (pm.inst p).dir ≠ PeInstDirInbound → (pm.inst p).dir = PeInstDirOutbound →
      cnt pm.wrkNum snid < (pm.hsCaps snid).2.2 →
      (pm.peMgrHandshakeRspOutbound p ptn snid peNode (pm.hsCaps snid).2.1).Post (J ·.1))
    (hother : ∀ p, pm.peers.get? ptn = some p → (pm.inst p).dir ≠ PeInstDirInbound →
      (pm.inst p).dir ≠ PeInstDirOutbound → (pm.peMgrHandshakeRspAdmit p ptn snid).Post (J ·.1)) :
    (pm.peMgrHandshakeRsp result dir snid peNode ptn).Post (J ·.1) := by
  unfold peMgrHandshakeRsp
  split
  · exact hJ h
  · next p hp =>
    dsimp only
    have hk := hI.quiet h ⟨coreView_updateStaticStatus pm snid ⟨peNode.ID, dir⟩ peerKilling,
      timerView_updateStaticStatus pm snid ⟨peNode.ID, dir⟩ peerKilling⟩
      (ledger_updateStaticStatus pm snid ⟨peNode.ID, dir⟩ peerKilling)
    split_ifs with h1 h2 h3 h4 h5 h6
    · exact hJ h
    · exact hJ (hI.sendSelf (hI.kill _ _ _ hk) rfl rfl)
    · exact hJ (hI.kill _ _ _ hk)
    · exact hJ (hI.kill _ _ _ hk)
    · exact hin p hp (not_not.mp (not_or.mp h1).1) h5 (not_le.mp h4)
    · exact hout p hp (not_not.mp (not_or.mp h1).1) h5 h6 (not_le.mp h4)
    · exact hother p hp h5 h6

theorem Kept.pingpongRsp (h : I pm) (result : PeMgrErrno) (dir : Int) (peNode : Node) (ptn : Nat) :
    I (pm.peMgrPingpongRsp result dir peNode ptn).1 := by
  unfold peMgrPingpongRsp
  dsimp only
  split_ifs
  · exact hI.kill _ _ _ h
  · exact hI.kill _ _ _ h
  · exact h

theorem Kept.connClose (h : I pm) (dir : Int) (snid : SubNetworkID) (peNode : Node) (ptn : Nat) :
    (pm.peMgrConnClose dir snid peNode ptn).Post (I ·.1) := by
  unfold peMgrConnClose
  dsimp only
  split_ifs
  · exact hI.kill _ _ _ h
  · exact (hI.indEnque (hI.kill _ _ _ h) _).bind fun _ h' => hI.sendSelf h' rfl rfl

/-- **Every handler keeps a kept invariant**, given that the start, the handshake request a dial's
answer at hand sends and the handshake response at hand keep it. -/
theorem Kept.peerMgrProc (h : I pm) (m : PeMgrMsg) (hst : m = .startReq → I pm.peMgrStartReq.1)
    (hco : ∀ result snid peNode ptn, m = .connOutRsp result snid peNode ptn → result = .none →
      I (pm.sendInst ptn .handshakeReq))
    (hhs : ∀ result dir snid peNode ptn, m = .handshakeRsp result dir snid peNode ptn →
      (pm.peMgrHandshakeRsp result dir snid peNode ptn).Post (I ·.1)) :
    (pm.peerMgrProc m).Post (I ·.2) := by
  have key : ∀ r : Run (PeerManager × PeMgrErrno), r.Post (I ·.1) →
      (r >>= fun d => match d with
        | (pm, eno) => pure (if eno ≠ .none then SchErrno.userTask else .none, pm)).Post
          (I ·.2) :=
    fun r hr => by rw [Run.post_bind]; exact hr.mono fun ⟨_, _⟩ h' => h'
  unfold PeerManager.peerMgrProc
  cases m with
  | startReq => exact key _ (hst rfl)
  | dcvFindNodeRsp snid nodes => exact key _ (hI.dcvFindNodeRsp h snid nodes)
  | dcvFindNodeTimer snid => exact key _ (hI.dcvFindNodeTimerHandler h snid)
  | lsnConnAcceptedInd => exact key _ (hI.accept h)
  | outboundReq snid => exact key _ (hI.outboundReq h snid)
  | connOutRsp result snid peNode ptn =>
    exact key _ (hI.connOutRsp h result snid peNode ptn (hco result snid peNode ptn rfl))
  | handshakeRsp result dir snid peNode ptn => exact key _ (hhs result dir snid peNode ptn rfl)
  | pingpongRsp result dir peNode ptn => exact key _ (hI.pingpongRsp h result dir peNode ptn)
  | closeReq snid node dir => exact key _ (hI.closeReq snid node dir h)
  | closeCfm _ dir snid peNode ptn => exact key _ (hI.connClose h dir snid peNode ptn)
  | closeInd _ dir snid peNode ptn => exact key _ (hI.connClose h dir snid peNode ptn)

end Handlers

/-! ### Stable invariants -/

/-- An invariant the handlers keep through the ledger: it is framed, and a kill, an outbound
instance's creation and an accepted inbound keep it. -/
structure Stable (I : PeerManager → Prop) extends Framed I : Prop where
  kill : ∀ {pm : PeerManager} (ptn : Nat) (node : Node) (dir : Int), I pm →
    I (pm.peMgrKillInst ptn node dir).1
  create : ∀ {pm : PeerManager} (snid : SubNetworkID) (node : Node), I pm →
    (pm.peMgrCreateOutboundInst snid node).Post (I ·.1)
  accept : ∀ {pm : PeerManager}, I pm → I pm.peMgrLsnConnAcceptedInd.1

section Stable

variable {I : PeerManager → Prop} (hI : Stable I) {pm}
include hI

/-- **A stable invariant is kept**: a quiet change keeps the ledger, and so do a close request and
the re-arming of a discovery timer. -/
theorem Stable.toKept : Kept I where
  quiet h _ hl := hI.ledger h hl
  sendSelf h _ hs := hI.sendSelf _ hs h
  kill := hI.kill
  create := hI.create
  accept := hI.accept
  closeReq snid node dir h := by
    unfold peMgrCloseReq
    dsimp only
    split
    · exact h
    · split_ifs
      · exact h
      · exact hI.ledger h (ledger_updateStaticStatus _ _ _ _)
  ask4More snid h := hI.ledger h (ledger_peMgrAsk4More _ snid)

/-- An admission keeps the ledger: the instance is activated and the indication enqueued. -/
theorem Stable.handshakeRspAdmit (h : I pm) (p ptn : Nat) (snid : SubNetworkID) :
    (pm.peMgrHandshakeRspAdmit p ptn snid).Post (I ·.1) := by
  unfold peMgrHandshakeRspAdmit
  dsimp only
  refine Run.Post.bind (hI.toKept.indEnque ?_ _) fun _ h' => h'
  exact hI.ledger (hI.ledger h (ledger_setInst_state _ p peInstStateActivated)) rfl

/-- **The handshake's answer keeps a stable invariant**: the entries in `nodes` and `workers` and
the count in `ibpNum` it makes before an admission are not in the ledger. -/
theorem Stable.handshakeRsp (h : I pm) (result : PeMgrErrno) (dir : Int) (snid : SubNetworkID)
    (peNode : Node) (ptn : Nat) : (pm.peMgrHandshakeRsp result dir snid peNode ptn).Post (I ·.1) :=
  hI.toKept.handshakeRsp h id
    (fun _ _ _ _ _ => hI.toKept.handshakeRspInbound h id fun _ _ _ _ _ =>
      hI.handshakeRspAdmit (hI.ledger h (by rfl)) _ _ _)
    (fun _ _ _ _ _ _ => hI.toKept.handshakeRspOutbound h id fun _ _ _ _ =>
      hI.handshakeRspAdmit (hI.ledger h (by exact ledger_updateStaticStatus _ _ _ _)) _ _ _)
    fun _ _ _ _ => hI.handshakeRspAdmit h _ _ _

/-- **Every handler but `peMgrStartReq` keeps a stable invariant.** -/
theorem Stable.peerMgrProc (h : I pm) (m : PeMgrMsg) (hm : m.isStartReq = false) :
    (pm.peerMgrProc m).Post (I ·.2) :=
  hI.toKept.peerMgrProc h m (fun hs => by subst hs; cases hm)
    (fun _ _ _ _ _ _ => hI.ledger h rfl) fun result dir snid peNode ptn _ =>
      hI.handshakeRsp h result dir snid peNode ptn

/-- **The manager's step keeps a stable invariant** when the mailbox's first message is not
`EvPeMgrStartReq` and taking it off the mailbox keeps the invariant. -/
theorem Stable.mgrProc {ans : SchAnswers} {m : PeMgrMsg} {ms : List PeMgrMsg}
    (hbox : pm.sch.mbox = m :: ms) (hm : m.isStartReq = false)
    (hpop : I { pm with sch := { pm.sch with mbox := ms, ans := ans } }) {r : Run PeerManager}
    (hs : pm.step (.mgrProc ans) = some r) : r.Post I := by
  simp only [PeerManager.step, PeerManager.mgrProc, hbox, Option.some.injEq] at hs
  subst hs
  rw [Run.post_map]
  exact hI.peerMgrProc hpop m hm

/-- **Every step keeps a stable invariant** that taking a message off the mailbox and
`peMgrStartReq` keep. -/
theorem Stable.step (hpop : ∀ (pm : PeerManager) ms ans, I pm →
      I { pm with sch := { pm.sch with mbox := ms, ans := ans } })
    (hstart : ∀ pm : PeerManager, I pm → I pm.peMgrStartReq.1) (h : I pm) {ev : PeEvent}
    {r : Run PeerManager} (hs : pm.step ev = some r) : r.Post I := by
  cases ev with
  | mgrProc ans =>
    cases hbox : pm.sch.mbox with
    | nil => simp [PeerManager.step, PeerManager.mgrProc, hbox] at hs
    | cons m ms =>
      cases hm : m.isStartReq
      · exact hI.mgrProc hbox hm (hpop pm ms ans h) hs
      · cases m <;> simp only [PeMgrMsg.isStartReq, Bool.false_eq_true] at hm
        cases step_mgrProc_startReq hbox hs
        exact hstart _ (hpop pm ms ans h)
  | _ => exact hI.step_of_not_mgrProc h (fun _ => PeEvent.noConfusion) hs

end Stable

end PeerManager

end Gyee.Peer
