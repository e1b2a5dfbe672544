import Gyee.Peer.Caps
import Gyee.Peer.Workers

/-! # The exchanges and the inbound counters

Each instance runs one connection and handshake exchange with the manager. The manager asks a new
outbound instance to dial (`EvPeConnOutReq`) and the instance answers (`EvPeConnOutRsp`). The
manager then asks it, or a new inbound instance, to handshake (`EvPeHandshakeReq`), and the
instance answers (`EvPeHandshakeRsp`). Each message hands the exchange to the other side.

* `reachable_exchange_once`: in every reachable state, each instance has at most one message of
  its exchange in flight. While it has one, it is between its creation and its admission
  (`pending`), or killed. The manager reads a handshake response of a live instance only, so it
  never admits an instance twice. A successful answer does not mean the instance is handshook:
  `piHandshakeInbound` answers `PeMgrEnoNone` when the handshake it reads is nil without an error.
* `reachable_inbounds_counted`: `ibpNum[snid]` is the number of live admitted inbound instances of
  `snid`. An admission adds one and marks the instance activated; a kill of an admitted inbound
  instance takes one off.
* `reachable_inbounds_within_cap`: outside the static sub-network, the admitted inbounds stay within
  the inbound cap. `peMgrHandshakeRsp` admits an inbound only while `ibpNum[snid]`, which does not
  count it yet, is below the cap, so the last inbound slot can be filled (the outbounds' cannot,
  `reachable_outbounds_below_cap`).

The invariant (`InboundsOk`) is kept by every handler (`kept_inbounds`, with the worker tables as
a side invariant). The dial's answer and the handshake's answer hand the exchange back, and
`InboundsOk.step` proves them from the message taken off the mailbox: it was the only one of its
instance in flight. -/

namespace Gyee.Peer

open Gyee

/-- An instance between its creation and its admission: dialing, accepted, connected or
handshook. -/
def pending (i : PeerInstance) : Bool := 0 < i.state ∧ i.state < peInstStateActivated

/-- An admitted inbound instance of the sub-network `snid`, which `ibpNum[snid]` counts. -/
def isAdmittedInboundOf (snid : SubNetworkID) (i : PeerInstance) : Bool :=
  i.dir = PeInstDirInbound ∧ i.snid = snid ∧
    (i.state = peInstStateActivated ∨ i.state = peInstStateKilling)

theorem isAdmittedInboundOf_congr {i j : PeerInstance} (h : instCore i = instCore j)
    (snid : SubNetworkID) : isAdmittedInboundOf snid i = isAdmittedInboundOf snid j := by
  simp only [instCore, Prod.mk.injEq] at h
  simp only [isAdmittedInboundOf, h]

theorem isAdmittedInboundOf_of_pending {i : PeerInstance} (h : pending i = true)
    (snid : SubNetworkID) : isAdmittedInboundOf snid i = false := by
  simp only [pending, peInstStateActivated, decide_eq_true_eq] at h
  simp only [isAdmittedInboundOf, peInstStateActivated, peInstStateKilling, decide_eq_false_iff_not]
  omega

/-- What the inbound invariant reads of the state. -/
structure InboundView where
  cfg : PeMgrConfig
  peers : GoMap Nat Nat
  insts : List (Nat × Int × SubNetworkID × Node × Int)
  exchanges : List Nat
  ibpNum : GoMap SubNetworkID Int

namespace PeerManager

variable (pm : PeerManager)

/-- The view of the state. -/
def inboundView : InboundView :=
  ⟨pm.cfg, pm.peers, pm.sch.insts.map instCore, pm.exchanges, pm.ibpNum⟩

theorem admittedInboundCount_eq (snid : SubNetworkID) :
    pm.admittedInboundCount snid = pm.liveCount (isAdmittedInboundOf snid) := rfl

/-- The exchanges and the inbound counters: live instances are not killed; each instance has at
most one message of its exchange in flight, and then it is pending or killed; `ibpNum[snid]`
counts the live admitted inbounds of `snid`, which outside the static sub-network stay within the
inbound cap. -/
structure InboundsOk : Prop where
  alive : ∀ b ∈ pm.peers.bindings, (pm.inst b.2).state ≠ peInstStateKilled
  nodup : pm.exchanges.Nodup
  exchanging : ∀ q ∈ pm.exchanges, q < pm.sch.insts.length ∧
    (pending (pm.inst q) = true ∨ (pm.inst q).state = peInstStateKilled)
  counted : ∀ snid, cnt pm.ibpNum snid = pm.admittedInboundCount snid
  capped : ∀ snid, pm.isStaticSubNetId snid = false →
    (pm.admittedInboundCount snid : Int) ≤ max (pm.hsCaps snid).1 0

variable {pm}

/-! ### Transport along changes that keep what the invariant reads -/

theorem instCore_inst_eq {pm' : PeerManager}
    (h : pm'.sch.insts.map instCore = pm.sch.insts.map instCore) (p : Nat) :
    instCore (pm'.inst p) = instCore (pm.inst p) := by
  rw [inst, inst, ← List.getD_map _ _ instCore, ← List.getD_map _ _ instCore, h]

theorem liveCount_of_core {pm' : PeerManager} {Q : PeerInstance → Bool}
    (hQ : ∀ i j, instCore i = instCore j → Q i = Q j) (hp : pm'.peers = pm.peers)
    (hi : pm'.sch.insts.map instCore = pm.sch.insts.map instCore) :
    pm'.liveCount Q = pm.liveCount Q := by
  simp only [liveCount, hp]
  exact List.countP_congr fun b _ => by rw [hQ _ _ (instCore_inst_eq hi b.2)]

theorem InboundsOk.of_view {pm' : PeerManager} (h : pm.InboundsOk)
    (hv : pm'.inboundView = pm.inboundView) : pm'.InboundsOk := by
  have hc : pm'.cfg = pm.cfg := congrArg InboundView.cfg hv
  have hp : pm'.peers = pm.peers := congrArg InboundView.peers hv
  have hi : pm'.sch.insts.map instCore = pm.sch.insts.map instCore := congrArg InboundView.insts hv
  have hx : pm'.exchanges = pm.exchanges := congrArg InboundView.exchanges hv
  have hn : pm'.ibpNum = pm.ibpNum := congrArg InboundView.ibpNum hv
  have hl : pm'.sch.insts.length = pm.sch.insts.length := by simpa using congrArg List.length hi
  have hs : ∀ q, (pm'.inst q).state = (pm.inst q).state := fun q =>
    congrArg (·.2.2.2.2) (instCore_inst_eq hi q)
  have hcount : ∀ snid, pm'.admittedInboundCount snid = pm.admittedInboundCount snid := fun snid =>
    liveCount_of_core (fun _ _ hij => isAdmittedInboundOf_congr hij snid) hp hi
  refine ⟨fun b hb => ?_, hx ▸ h.nodup, fun q hq => ?_, fun snid => ?_, fun snid hS => ?_⟩
  · rw [hs]; exact h.alive b (hp ▸ hb)
  · simp only [hl, pending, hs]; exact h.exchanging q (hx ▸ hq)
  · rw [hn, hcount]; exact h.counted snid
  · rw [hcount, hsCaps_congr hc]
    exact h.capped snid (by rwa [isStaticSubNetId_congr hc] at hS)

theorem inboundView_of_core {pm' : PeerManager} (h : pm'.coreView = pm.coreView) :
    pm'.inboundView = pm.inboundView := by
  simp only [inboundView, InboundView.mk.injEq]
  exact ⟨congrArg CoreView.cfg h, congrArg CoreView.peers h, congrArg CoreView.insts h,
    congrArg CoreView.exchanges h, congrArg CoreView.ibpNum h⟩

theorem InboundsOk.of_core {pm' : PeerManager} (h : pm.InboundsOk)
    (hv : pm'.coreView = pm.coreView) : pm'.InboundsOk :=
  h.of_view (inboundView_of_core hv)

theorem InboundsOk.sendSelf {m : PeMgrMsg} (h : pm.InboundsOk) (hm : m.exchangePtn = none) :
    (pm.sendSelf m).InboundsOk :=
  h.of_core (coreView_sendSelf pm m hm)

/-! ### An instance written -/

/-- **Writing an instance keeps the invariant** when it is not killed, it is pending when its
exchange is in flight, and it is an admitted inbound of the same sub-networks as before. -/
theorem InboundsOk.setInst (h : pm.InboundsOk) {p : Nat} {i : PeerInstance}
    (hk : i.state ≠ peInstStateKilled) (hx : p ∈ pm.exchanges → pending i = true)
    (hq : ∀ snid, isAdmittedInboundOf snid i = isAdmittedInboundOf snid (pm.inst p)) :
    (pm.setInst p i).InboundsOk := by
  have hl : (pm.setInst p i).sch.insts.length = pm.sch.insts.length := List.length_set _ _ _
  have hcount : ∀ snid, (pm.setInst p i).admittedInboundCount snid =
      pm.admittedInboundCount snid := fun snid => liveCount_setInst (hq snid)
  refine ⟨fun b hb => ?_, h.nodup, fun q hq' => ?_, fun snid => ?_, fun snid hS => ?_⟩
  · rw [inst_setInst]
    split_ifs
    · exact hk
    · exact h.alive b hb
  · rw [hl, inst_setInst]
    split_ifs with hqp
    · exact ⟨(h.exchanging q hq').1, .inl (hx (hqp.1 ▸ hq'))⟩
    · exact h.exchanging q hq'
  · rw [hcount]; exact h.counted snid
  · rw [hcount]; exact h.capped snid hS

/-- A pending instance that stays pending keeps the invariant. -/
theorem InboundsOk.setPending (h : pm.InboundsOk) {p : Nat} {i : PeerInstance}
    (hp : pending (pm.inst p) = true) (hi : pending i = true) : (pm.setInst p i).InboundsOk := by
  refine h.setInst ?_ (fun _ => hi) fun snid => by
    rw [isAdmittedInboundOf_of_pending hi, isAdmittedInboundOf_of_pending hp]
  simp only [pending, peInstStateActivated, decide_eq_true_eq] at hi
  simp only [peInstStateKilled]
  omega

/-! ### The mailboxes -/

/-- Taking a message off the manager's mailbox takes its task node off the exchanges, when it is
of one. -/
theorem exchanges_pop {m : PeMgrMsg} {ms : List PeMgrMsg} (hbox : pm.sch.mbox = m :: ms)
    (ans : SchAnswers) : pm.exchanges.Perm (m.exchangePtn.toList ++
      ({ pm with sch := { pm.sch with mbox := ms, ans := ans } } : PeerManager).exchanges) := by
  simp only [exchanges, hbox, List.filterMap_cons]
  cases m.exchangePtn <;> simp [List.perm_middle]

/-- Taking a message off the manager's mailbox keeps the invariant. -/
theorem InboundsOk.pop (h : pm.InboundsOk) {m : PeMgrMsg} {ms : List PeMgrMsg}
    (hbox : pm.sch.mbox = m :: ms) (ans : SchAnswers) :
    ({ pm with sch := { pm.sch with mbox := ms, ans := ans } } : PeerManager).InboundsOk := by
  have hx := exchanges_pop hbox ans
  have hs : ∀ q, q ∈ ({ pm with sch := { pm.sch with mbox := ms, ans := ans } } :
      PeerManager).exchanges → q ∈ pm.exchanges := fun q hq =>
    hx.mem_iff.mpr (List.mem_append_right _ hq)
  exact ⟨h.alive, (hx.nodup_iff.mp h.nodup).of_append_right, fun q hq => h.exchanging q (hs q hq),
    h.counted, h.capped⟩

/-- Taking a message off an instance task's mailbox keeps the invariant. -/
theorem InboundsOk.eraseInbox (h : pm.InboundsOk) (x : Nat × PiMsg) :
    ({ pm with sch := { pm.sch with ibox := pm.sch.ibox.erase x } } : PeerManager).InboundsOk := by
  have hs : ({ pm with sch := { pm.sch with ibox := pm.sch.ibox.erase x } } :
      PeerManager).exchanges.Sublist pm.exchanges :=
    (((List.erase_sublist _ _).filter _).map _).append (List.Sublist.refl _)
  exact ⟨h.alive, h.nodup.sublist hs, fun q hq => h.exchanging q (hs.subset hq), h.counted,
    h.capped⟩

/-- A message of the exchange of a pending or killed instance of the heap that has none in flight
keeps the invariant. -/
theorem InboundsOk.of_exchanges {pm' : PeerManager} (h : pm.InboundsOk) {q : Nat}
    (hx : pm'.exchanges.Perm (q :: pm.exchanges)) (hq : q ∉ pm.exchanges)
    (hlt : q < pm.sch.insts.length)
    (hs : pending (pm.inst q) = true ∨ (pm.inst q).state = peInstStateKilled)
    (hv : pm'.inboundView = { pm.inboundView with exchanges := pm'.exchanges }) :
    pm'.InboundsOk := by
  have hc : pm'.cfg = pm.cfg := congrArg InboundView.cfg hv
  have hp : pm'.peers = pm.peers := congrArg InboundView.peers hv
  have hi : pm'.sch.insts.map instCore = pm.sch.insts.map instCore := congrArg InboundView.insts hv
  have hl : pm'.sch.insts.length = pm.sch.insts.length := by simpa using congrArg List.length hi
  have hst : ∀ r, (pm'.inst r).state = (pm.inst r).state := fun r =>
    congrArg (·.2.2.2.2) (instCore_inst_eq hi r)
  have hcount : ∀ snid, pm'.admittedInboundCount snid = pm.admittedInboundCount snid := fun snid =>
    liveCount_of_core (fun _ _ hij => isAdmittedInboundOf_congr hij snid) hp hi
  refine ⟨fun b hb => ?_, hx.nodup_iff.mpr (List.nodup_cons.mpr ⟨hq, h.nodup⟩), fun r hr => ?_,
    fun snid => ?_, fun snid hS => ?_⟩
  · rw [hst]; exact h.alive b (hp ▸ hb)
  · simp only [hl, pending, hst]
    rcases List.mem_cons.mp (hx.subset hr) with rfl | hr'
    · exact ⟨hlt, hs⟩
    · exact h.exchanging r hr'
  · rw [show pm'.ibpNum = pm.ibpNum from congrArg InboundView.ibpNum hv, hcount]
    exact h.counted snid
  · rw [hcount, hsCaps_congr hc]
    exact h.capped snid (by rwa [isStaticSubNetId_congr hc] at hS)

/-! ### A kill -/

variable (pm) in
theorem killInstMaps_ibpNum (ptn : Nat) (i : PeerInstance) :
    (pm.killInstMaps ptn i).ibpNum =
      if isAdmittedInboundOf i.snid i then bump pm.ibpNum i.snid (-1) else pm.ibpNum := by
  simp only [killInstMaps, dropWorker, dropOutbound, dropInbound, apply_ite PeerManager.ibpNum,
    ite_self]
  split_ifs <;> simp_all [isAdmittedInboundOf, PeInstDirOutbound, PeInstDirInbound]

variable (pm) in
/-- The cleaning of a kill takes one off `ibpNum` of a sub-network exactly when the instance is an
admitted inbound of it. -/
theorem cnt_killInstMaps_ibpNum (ptn : Nat) (i : PeerInstance) (snid : SubNetworkID) :
    cnt (pm.killInstMaps ptn i).ibpNum snid + (if isAdmittedInboundOf snid i then 1 else 0) =
      cnt pm.ibpNum snid := by
  rw [killInstMaps_ibpNum]
  by_cases he : i.snid = snid
  · subst he
    split_ifs
    · simp only [cnt_bump, if_true]; omega
    · simp
  · have hs : isAdmittedInboundOf snid i = false := by simp [isAdmittedInboundOf, he]
    rw [hs, if_neg Bool.false_ne_true]
    split_ifs <;> simp [cnt_bump, Ne.symm he]

/-- The cleaning of a kill deletes the `peers` entry of a live instance. -/
theorem TablesOk.killInstMaps_peers_eq (ht : pm.TablesOk) {ptn p : Nat}
    (hg : pm.peers.get? ptn = some p) {i : PeerInstance} (hd : i.dir = (pm.inst p).dir) :
    (pm.killInstMaps ptn i).peers = pm.peers.delete ptn := by
  have hlt : p < pm.sch.insts.length := (ht.heap_get? hg).1 ▸ (ht.heap_get? hg).2
  rw [killInstMaps_peers, if_pos (hd ▸ (ht.dirs p hlt).symm)]

/-- **The cleaning of a kill keeps the invariant**, given the killed instance: its `peers` entry
goes, with its count when it is an admitted inbound. -/
theorem InboundsOk.killInstMaps (h : pm.InboundsOk) (ht : pm.TablesOk) {ptn p : Nat}
    (hg : pm.peers.get? ptn = some p) {i : PeerInstance} (hi : instCore i = instCore (pm.inst p)) :
    (pm.killInstMaps ptn i).InboundsOk := by
  have hsch := killInstMaps_sch pm ptn i
  have hc := killInstMaps_cfg pm ptn i
  have hp := ht.killInstMaps_peers_eq hg (congrArg (·.2.1) hi)
  have hinst : ∀ q, (pm.killInstMaps ptn i).inst q = pm.inst q := fun q => by
    simp only [inst, hsch]
  have hx : (pm.killInstMaps ptn i).exchanges = pm.exchanges := by simp only [exchanges, hsch]
  have hcount : ∀ snid, (pm.killInstMaps ptn i).admittedInboundCount snid +
      (if isAdmittedInboundOf snid i then 1 else 0) = pm.admittedInboundCount snid := fun snid => by
    rw [isAdmittedInboundOf_congr hi]
    simp only [admittedInboundCount_eq, liveCount, hp, hinst]
    exact GoMap.countP_delete _ hg _
  refine ⟨fun b hb => ?_, hx ▸ h.nodup, fun q hq => ?_, fun snid => ?_, fun snid hS => ?_⟩
  · rw [hinst]
    exact h.alive b (List.mem_of_mem_filter (hp ▸ hb))
  · rw [hsch, hinst]
    exact h.exchanging q (hx ▸ hq)
  · have h1 := hcount snid
    have h2 := cnt_killInstMaps_ibpNum pm ptn i snid
    have h3 := h.counted snid
    split_ifs at h1 h2 <;> omega
  · rw [hsCaps_congr hc]
    rw [isStaticSubNetId_congr hc] at hS
    have h1 := hcount snid
    have h2 := h.capped snid hS
    split_ifs at h1 <;> omega

/-- Marking killed an instance that no live entry holds keeps the invariant. -/
theorem InboundsOk.setKilled (h : pm.InboundsOk) {p : Nat} {i : PeerInstance}
    (hk : i.state = peInstStateKilled) (hp : ∀ b ∈ pm.peers.bindings, b.2 ≠ p) :
    (pm.setInst p i).InboundsOk := by
  have hl : (pm.setInst p i).sch.insts.length = pm.sch.insts.length := List.length_set _ _ _
  have hlive : ∀ b ∈ pm.peers.bindings, (pm.setInst p i).inst b.2 = pm.inst b.2 := fun b hb => by
    rw [inst_setInst, if_neg fun h' => hp b hb h'.1]
  have hcount : ∀ snid, (pm.setInst p i).admittedInboundCount snid =
      pm.admittedInboundCount snid := fun snid =>
    List.countP_congr fun b hb => by rw [hlive b hb]
  refine ⟨fun b hb => ?_, h.nodup, fun q hq => ?_, fun snid => ?_, fun snid hS => ?_⟩
  · rw [hlive b hb]; exact h.alive b hb
  · rw [hl, inst_setInst]
    split_ifs
    · exact ⟨(h.exchanging q hq).1, .inr hk⟩
    · exact h.exchanging q hq
  · rw [hcount]; exact h.counted snid
  · rw [hcount]; exact h.capped snid hS

/-- **A kill keeps the invariant**: the instance leaves `peers`, with its count when it was an
admitted inbound, before it is marked killed. -/
theorem InboundsOk.peMgrKillInst (h : pm.InboundsOk) (ht : pm.TablesOk) (ptn : Nat) (node : Node)
    (dir : Int) : (pm.peMgrKillInst ptn node dir).1.InboundsOk := by
  unfold PeerManager.peMgrKillInst
  split
  · exact h
  · next p hg =>
    dsimp only
    split_ifs
    · exact h
    · have hk := coreView_killPingpong pm p
      have hi : instCore (pm.inst p) = instCore ((pm.killPingpong p).inst p) :=
        (instCore_inst_eq (congrArg CoreView.insts hk) p).symm
      have hg' : (pm.killPingpong p).peers.get? ptn = some p := by rwa [killPingpong_peers]
      refine InboundsOk.setKilled (((h.of_core hk).killInstMaps (ht.of_core hk) hg' hi).of_core
        (by simp)) rfl fun b hb hbp => ?_
      rw [resumeAccepter_peers, updateStaticStatus_peers,
        (ht.of_core hk).killInstMaps_peers_eq hg' (congrArg (·.2.1) hi), killPingpong_peers] at hb
      simp only [GoMap.delete, List.mem_filter, decide_eq_true_eq] at hb
      exact hb.2 (((ht.heap b hb.1).1.symm.trans hbp).trans (ht.heap_get? hg).1)

/-! ### New instances and close requests -/

/-- **A new instance keeps the invariant**: entered in `peers` under the heap's next task node,
pending, with the one message of its exchange in flight. -/
theorem InboundsOk.enter (h : pm.InboundsOk) (ht : pm.TablesOk) {pm' : PeerManager}
    {i : PeerInstance} (hi : pm'.sch.insts = pm.sch.insts ++ [i])
    (hp : pm'.peers = pm.peers.set pm.sch.insts.length pm.sch.insts.length)
    (hc : pm'.cfg = pm.cfg) (hn : pm'.ibpNum = pm.ibpNum)
    (hx : pm'.exchanges.Perm (pm.sch.insts.length :: pm.exchanges)) (hs : pending i = true) :
    pm'.InboundsOk := by
  have hl : pm'.sch.insts.length = pm.sch.insts.length + 1 := by simp [hi]
  have hcount : ∀ snid, pm'.admittedInboundCount snid = pm.admittedInboundCount snid := fun snid => by
    rw [admittedInboundCount_eq, admittedInboundCount_eq, ht.liveCount_enter hi hp,
      isAdmittedInboundOf_of_pending hs]
    rfl
  refine ⟨fun b hb => ?_, hx.nodup_iff.mpr (List.nodup_cons.mpr
    ⟨fun hm => lt_irrefl _ (h.exchanging _ hm).1, h.nodup⟩), fun q hq => ?_, fun snid => ?_,
    fun snid hS => ?_⟩
  · rw [hp] at hb
    simp only [GoMap.set, GoMap.delete, List.mem_append, List.mem_filter, List.mem_singleton] at hb
    rcases hb with ⟨hb, -⟩ | rfl
    · rw [inst_append_of_lt hi ((ht.heap b hb).1 ▸ (ht.heap b hb).2)]
      exact h.alive b hb
    · rw [inst_append_self hi]
      simp only [pending, peInstStateActivated, decide_eq_true_eq] at hs
      simp only [peInstStateKilled]
      omega
  · rw [hl]
    rcases List.mem_cons.mp (hx.subset hq) with rfl | hq'
    · rw [inst_append_self hi]
      exact ⟨Nat.lt_succ_self _, .inl hs⟩
    · obtain ⟨hlt, hst⟩ := h.exchanging q hq'
      rw [inst_append_of_lt hi hlt]
      exact ⟨Nat.lt_succ_of_lt hlt, hst⟩
  · rw [hn, hcount]; exact h.counted snid
  · rw [hcount, hsCaps_congr hc]
    exact h.capped snid (by rwa [isStaticSubNetId_congr hc] at hS)

theorem InboundsOk.send (h : pm.InboundsOk) (m : PeMgrOut) : (pm.send m).InboundsOk :=
  h.of_view rfl

theorem InboundsOk.peMgrCreateOutboundInst (h : pm.InboundsOk) (ht : pm.TablesOk)
    (snid : SubNetworkID) (node : Node) :
    (pm.peMgrCreateOutboundInst snid node).Post (·.1.InboundsOk) := by
  unfold PeerManager.peMgrCreateOutboundInst
  dsimp only
  split_ifs
  · exact h.of_view rfl
  · split
    · exact h.enter ht rfl rfl rfl rfl (exchanges_sendInst _ _ _) rfl
    · trivial

theorem InboundsOk.peMgrLsnConnAcceptedInd (h : pm.InboundsOk) (ht : pm.TablesOk) :
    pm.peMgrLsnConnAcceptedInd.1.InboundsOk := by
  unfold PeerManager.peMgrLsnConnAcceptedInd
  dsimp only
  split_ifs
  · exact h.of_view rfl
  on_goal 1 => refine .send ?_ _
  all_goals
    exact h.enter ht (i := { peerInstDefault with
        ptnMe := pm.sch.insts.length, state := peInstStateAccepted, dir := PeInstDirInbound })
      rfl rfl rfl rfl (exchanges_sendInst _ _ _) rfl

variable (pm) in
/-- A message to an instance task outside its exchange keeps the view. -/
theorem inboundView_sendInst (p : Nat) {m : PiMsg} (hx : m.isExchange = false) :
    (pm.sendInst p m).inboundView = pm.inboundView := by
  simp only [inboundView, exchanges_sendInst_of_not pm p hx]
  rfl

/-- A close request is not of an exchange, so it keeps the invariant. -/
theorem InboundsOk.closeReq (h : pm.InboundsOk) (snid : SubNetworkID) (node : Node) (dir : Int) :
    (pm.peMgrCloseReq snid node dir).1.InboundsOk := by
  unfold peMgrCloseReq
  dsimp only
  split
  · exact h
  · split_ifs
    · exact h
    · exact (h.of_core (coreView_updateStaticStatus pm snid ⟨node.ID, dir⟩ peerKilling)).of_view
        (inboundView_sendInst _ _ rfl)

/-- **The invariant is kept**, with the worker tables: a kill, a new instance and a close request
keep both. -/
theorem kept_inbounds : Kept fun pm => pm.TablesOk ∧ pm.InboundsOk :=
  .of_core (fun h hv => ⟨h.1.of_core hv, h.2.of_core hv⟩)
    (fun ptn node dir h => ⟨h.1.peMgrKillInst ptn node dir, h.2.peMgrKillInst h.1 ptn node dir⟩)
    (fun snid node h =>
      (h.1.peMgrCreateOutboundInst snid node).and (h.2.peMgrCreateOutboundInst h.1 snid node))
    (fun h => ⟨h.1.peMgrLsnConnAcceptedInd, h.2.peMgrLsnConnAcceptedInd h.1⟩)
    fun snid node dir h => ⟨h.1.closeReq snid node dir, h.2.closeReq snid node dir⟩

/-! ### An admission -/

theorem isAdmittedInboundOf_activated (i : PeerInstance) (s : SubNetworkID) :
    isAdmittedInboundOf s { i with state := peInstStateActivated } =
      decide (i.dir = PeInstDirInbound ∧ i.snid = s) := by
  simp [isAdmittedInboundOf]

theorem instCore_with_state {i j : PeerInstance} (h : instCore i = instCore j) (s : Int) :
    instCore { i with state := s } = instCore { j with state := s } := by
  simp only [instCore, Prod.mk.injEq, and_true] at h ⊢
  exact ⟨h.1, h.2.1, h.2.2.1, h.2.2.2.1⟩

/-- Writing the instance of a live task node changes its count by what the new and the old
instance pass. -/
theorem TablesOk.liveCount_setInst (ht : pm.TablesOk) {p : Nat} (hg : pm.peers.get? p = some p)
    (i : PeerInstance) (Q : PeerInstance → Bool) :
    (pm.setInst p i).liveCount Q + (if Q (pm.inst p) then 1 else 0) =
      pm.liveCount Q + if Q i then 1 else 0 := by
  have hi : (pm.setInst p i).inst p = i := by
    rw [inst_setInst, if_pos ⟨rfl, (ht.heap_get? hg).2⟩]
  have hrest : (pm.peers.delete p).bindings.countP (fun b => Q ((pm.setInst p i).inst b.2)) =
      (pm.peers.delete p).bindings.countP (fun b => Q (pm.inst b.2)) :=
    List.countP_congr fun b hb => by
      simp only [GoMap.delete, List.mem_filter, decide_eq_true_eq] at hb
      rw [inst_setInst, if_neg fun h' => hb.2 ((ht.heap b hb.1).1 ▸ h'.1)]
  have h1 := GoMap.countP_delete pm.peers hg fun b => Q ((pm.setInst p i).inst b.2)
  have h2 := GoMap.countP_delete pm.peers hg fun b => Q (pm.inst b.2)
  simp only [hi, hrest] at h1
  show pm.peers.bindings.countP _ + _ = pm.peers.bindings.countP _ + _
  rw [← h1, ← h2]
  exact Nat.add_right_comm _ _ _

/-- **Activating a pending instance keeps the invariant** when none of the messages of its
exchange is in flight, the counters `ib` count it when it becomes an admitted inbound, and
outside the static sub-network that happens only below the inbound cap. -/
theorem InboundsOk.activate (h : pm.InboundsOk) (ht : pm.TablesOk) {p : Nat}
    (hg : pm.peers.get? p = some p) (hx : p ∉ pm.exchanges) (hs : pending (pm.inst p) = true)
    {i : PeerInstance} (hk : i.state ≠ peInstStateKilled) {ib : GoMap SubNetworkID Int}
    (hib : ∀ s, cnt ib s = cnt pm.ibpNum s + if isAdmittedInboundOf s i then 1 else 0)
    (hcap : ∀ s, pm.isStaticSubNetId s = false → isAdmittedInboundOf s i = true →
      cnt pm.ibpNum s < (pm.hsCaps s).1) :
    ({ pm.setInst p i with ibpNum := ib } : PeerManager).InboundsOk := by
  have hcount : ∀ s, (pm.setInst p i).admittedInboundCount s =
      pm.admittedInboundCount s + if isAdmittedInboundOf s i then 1 else 0 := fun s => by
    have := ht.liveCount_setInst hg i (isAdmittedInboundOf s)
    rwa [isAdmittedInboundOf_of_pending hs, if_neg Bool.false_ne_true, Nat.add_zero] at this
  refine ⟨fun b hb => ?_, h.nodup, fun q hq => ?_, fun s => ?_, fun s hS => ?_⟩
  · show ((pm.setInst p i).inst b.2).state ≠ _
    rw [inst_setInst]
    split_ifs
    · exact hk
    · exact h.alive b hb
  · show q < (pm.setInst p i).sch.insts.length ∧ (pending ((pm.setInst p i).inst q) = true ∨
      ((pm.setInst p i).inst q).state = peInstStateKilled)
    have hq' : ¬(q = p ∧ p < pm.sch.insts.length) := fun h' => hx (h'.1 ▸ hq)
    rw [inst_setInst, if_neg hq']
    exact (List.length_set _ _ _).symm ▸ h.exchanging q hq
  · show cnt ib s = ((pm.setInst p i).admittedInboundCount s : Int)
    have := h.counted s
    rw [hib, hcount]
    split_ifs <;> push_cast <;> omega
  · show ((pm.setInst p i).admittedInboundCount s : Int) ≤ max (pm.hsCaps s).1 0
    have h1 := h.capped s hS
    rw [hcount]
    split_ifs with ha
    · have := hcap s hS ha
      have := h.counted s
      push_cast
      omega
    · simpa using h1

theorem InboundsOk.indEnque (h : pm.InboundsOk) (ind : PeInd) :
    (pm.peMgrIndEnque ind).Post InboundsOk := by
  unfold peMgrIndEnque
  split_ifs
  · trivial
  · exact h.of_view rfl

/-- **An admission keeps the invariant**: `peMgrHandshakeRspAdmit` activates a pending instance
none of whose exchange's messages is in flight, after the counters `ib` count it when it is an
inbound. -/
theorem InboundsOk.handshakeRspAdmit {pm1 : PeerManager} {p ptn : Nat} {snid : SubNetworkID}
    {ib : GoMap SubNetworkID Int} (h : pm.InboundsOk) (ht : pm.TablesOk)
    (hg : pm.peers.get? p = some p) (hx : p ∉ pm.exchanges) (hs : pending (pm.inst p) = true)
    (hib : ∀ s, cnt ib s = cnt pm.ibpNum s +
      if isAdmittedInboundOf s { pm.inst p with state := peInstStateActivated } then 1 else 0)
    (hcap : ∀ s, pm.isStaticSubNetId s = false →
      isAdmittedInboundOf s { pm.inst p with state := peInstStateActivated } = true →
      cnt pm.ibpNum s < (pm.hsCaps s).1)
    (hv : pm1.inboundView = { pm.inboundView with ibpNum := ib }) :
    (pm1.peMgrHandshakeRspAdmit p ptn snid).Post (·.1.InboundsOk) := by
  have hA := h.activate ht hg hx hs (show peInstStateActivated ≠ peInstStateKilled by decide) hib
    hcap
  have hI : pm1.sch.insts.map instCore = pm.sch.insts.map instCore := congrArg InboundView.insts hv
  unfold peMgrHandshakeRspAdmit
  dsimp only
  refine Run.Post.bind ((hA.of_view ?_).indEnque _) fun _ h' => h'
  simp only [inboundView, InboundView.mk.injEq]
  refine ⟨congrArg InboundView.cfg hv, congrArg InboundView.peers hv, ?_,
    (exchanges_sendInst_of_not pm1 ptn (m := .establishedInd) rfl).trans (congrArg InboundView.exchanges hv),
    congrArg InboundView.ibpNum hv⟩
  show (pm1.sch.insts.set p _).map instCore = (pm.sch.insts.set p _).map instCore
  rw [List.map_set, List.map_set, hI]
  exact congrArg _ (instCore_with_state (instCore_inst_eq hI p) _)

/-- **The inbound part of the handshake keeps the invariant**, for a live pending inbound instance
of `snid` none of whose exchange's messages is in flight: it is killed, or admitted and counted,
outside the static sub-network only below the inbound cap. -/
theorem InboundsOk.handshakeRspInbound (h : pm.InboundsOk) (ht : pm.TablesOk) {p : Nat}
    (hg : pm.peers.get? p = some p) (hx : p ∉ pm.exchanges) (hs : pending (pm.inst p) = true)
    (hd : (pm.inst p).dir = PeInstDirInbound) {snid : SubNetworkID}
    (hsn : (pm.inst p).snid = snid) (peNode : Node) :
    (pm.peMgrHandshakeRspInbound p p snid peNode (pm.hsCaps snid).1).Post (·.1.InboundsOk) := by
  have hsnid : ∀ s, isAdmittedInboundOf s { pm.inst p with state := peInstStateActivated } = true →
      s = snid := fun s ha => by
    rw [isAdmittedInboundOf_activated, decide_eq_true_eq] at ha
    exact ha.2.symm.trans hsn
  have hib : ∀ s, cnt (bump pm.ibpNum snid 1) s = cnt pm.ibpNum s +
      if isAdmittedInboundOf s { pm.inst p with state := peInstStateActivated } then 1 else 0 :=
    fun s => by
      rw [isAdmittedInboundOf_activated, cnt_bump, hd, hsn]
      by_cases he : s = snid
      · simp [he]
      · simp [he, Ne.symm he]
  refine kept_inbounds.handshakeRspInbound ⟨ht, h⟩ (·.2) fun _ _ _ _ hroom =>
    h.handshakeRspAdmit ht hg hx hs hib (fun s hS ha => ?_) rfl
  obtain rfl := hsnid s ha
  exact hroom hS

/-- **The outbound part of the handshake keeps the invariant**: an instance that is not inbound is
killed, or admitted without a count of `ibpNum`. -/
theorem InboundsOk.handshakeRspOutbound (h : pm.InboundsOk) (ht : pm.TablesOk) {p : Nat}
    (hg : pm.peers.get? p = some p) (hx : p ∉ pm.exchanges) (hs : pending (pm.inst p) = true)
    (hd : (pm.inst p).dir ≠ PeInstDirInbound) (snid : SubNetworkID) (peNode : Node)
    (maxOutbound : Int) :
    (pm.peMgrHandshakeRspOutbound p p snid peNode maxOutbound).Post (·.1.InboundsOk) := by
  have hno : ∀ s, isAdmittedInboundOf s { pm.inst p with state := peInstStateActivated } = false :=
    fun s => by simp [isAdmittedInboundOf_activated, hd]
  have hAdm : ∀ X : PeerManager, X.inboundView = { pm.inboundView with ibpNum := pm.ibpNum } →
      (X.peMgrHandshakeRspAdmit p p snid).Post (·.1.InboundsOk) := fun X hX =>
    h.handshakeRspAdmit ht hg hx hs (fun s => by simp [hno])
      (fun s _ ha => absurd ha (by simp [hno])) hX
  exact kept_inbounds.handshakeRspOutbound ⟨ht, h⟩ (·.2) fun _ _ _ _ =>
    hAdm _ ((inboundView_of_core (coreView_updateStaticStatus _ _ _ _)).trans rfl)

/-- The instance a handshake answer names is entered under its own task node and, when it lives,
is pending. -/
theorem InboundsOk.live_of_get? (h : pm.InboundsOk) (ht : pm.TablesOk) {ptn p : Nat}
    (hs : pending (pm.inst ptn) = true ∨ (pm.inst ptn).state = peInstStateKilled)
    (hp : pm.peers.get? ptn = some p) : p = ptn ∧ pending (pm.inst p) = true := by
  obtain ⟨rfl, -⟩ := ht.heap_get? hp
  exact ⟨rfl, hs.resolve_right (h.alive _ (GoMap.mem_of_get? hp))⟩

/-- **A handshake answer keeps the invariant** when no other message of the instance's exchange is
in flight and the instance is pending or killed: a failure or a full sub-network kills a live
instance, and a success goes to the part of its direction. -/
theorem InboundsOk.handshakeRsp (h : pm.InboundsOk) (ht : pm.TablesOk) {ptn : Nat}
    (hx : ptn ∉ pm.exchanges)
    (hs : pending (pm.inst ptn) = true ∨ (pm.inst ptn).state = peInstStateKilled)
    (result : PeMgrErrno) (dir : Int) (snid : SubNetworkID) (peNode : Node) :
    (pm.peMgrHandshakeRsp result dir snid peNode ptn).Post (·.1.InboundsOk) := by
  refine kept_inbounds.handshakeRsp ⟨ht, h⟩ (·.2)
    (fun _ hp hsn hd _ => ?_) (fun _ hp _ hd _ _ => ?_) fun p hp h5 h6 => ?_
  · obtain ⟨rfl, hpend⟩ := h.live_of_get? ht hs hp
    exact h.handshakeRspInbound ht hp hx hpend hd hsn _
  · obtain ⟨rfl, hpend⟩ := h.live_of_get? ht hs hp
    exact h.handshakeRspOutbound ht hp hx hpend hd _ _ _
  · obtain ⟨rfl, hlt⟩ := ht.heap_get? hp
    exact absurd (ht.dirs p hlt) (by tauto)

/-! ### The instance tasks

A dial and a handshake take the message of the exchange off the instance task's mailbox and hand
the answer back to the manager, with the instance still pending. A close request reaches an
admitted instance, which stays admitted. -/

/-- A message taken off the instance tasks' mailbox is one occurrence of it. -/
theorem perm_erase_ibox {x : Nat × PiMsg} (hx : x ∈ pm.sch.ibox) :
    pm.sch.ibox.Perm (x :: pm.sch.ibox.erase x) := by
  obtain ⟨_, _, _, e₁, e₂⟩ := List.exists_erase_eq hx
  rw [e₂, e₁]
  exact List.perm_middle

/-- Taking a message of an instance's exchange off its task's mailbox takes one occurrence of its
task node off the exchanges. -/
theorem exchanges_eraseInbox {x : Nat × PiMsg} (hx : x ∈ pm.sch.ibox) (he : x.2.isExchange = true) :
    pm.exchanges.Perm (x.1 :: ({ pm with sch := { pm.sch with ibox := pm.sch.ibox.erase x } } :
      PeerManager).exchanges) := by
  have hq := ((perm_erase_ibox hx).filter fun y : Nat × PiMsg => y.2.isExchange).map (·.1)
  rw [List.filter_cons_of_pos (p := fun y : Nat × PiMsg => y.2.isExchange) he, List.map_cons] at hq
  exact hq.append_right (pm.sch.mbox.filterMap PeMgrMsg.exchangePtn)

/-- An answer of an instance's exchange to the manager keeps the invariant when the instance is
pending and none of its exchange's messages is in flight. -/
theorem InboundsOk.sendSelf_exchange (h : pm.InboundsOk) {m : PeMgrMsg} {q : Nat}
    (hm : m.exchangePtn = some q) (hq : q ∉ pm.exchanges) (hlt : q < pm.sch.insts.length)
    (hs : pending (pm.inst q) = true) : (pm.sendSelf m).InboundsOk :=
  h.of_exchanges (by rw [exchanges_sendSelf, hm]; exact List.perm_append_singleton _ _) hq hlt
    (.inl hs) rfl

/-- A pending instance written pending, whose answer goes to the manager, keeps the invariant. -/
theorem InboundsOk.setPending_sendSelf {p : Nat} {i : PeerInstance} {m : PeMgrMsg}
    (h : pm.InboundsOk) (hlt : p < pm.sch.insts.length) (hx : p ∉ pm.exchanges)
    (hp : pending (pm.inst p) = true) (hi : pending i = true) (hm : m.exchangePtn = some p) :
    ((pm.setInst p i).sendSelf m).InboundsOk := by
  refine (h.setPending hp hi).sendSelf_exchange hm hx ((List.length_set _ _ _).symm ▸ hlt) ?_
  rw [inst_setInst, if_pos ⟨rfl, hlt⟩]
  exact hi

theorem InboundsOk.piConnOutReq (h : pm.InboundsOk) (ht : pm.TablesOk) {p : Nat}
    (hlt : p < pm.sch.insts.length) (hx : p ∉ pm.exchanges) (dialOk : Bool) :
    (pm.piConnOutReq p dialOk).InboundsOk := by
  have hpt : some (pm.inst p).ptnMe = some p := congrArg some (ht.ptnMe p hlt)
  unfold PeerManager.piConnOutReq
  dsimp only
  split_ifs with h1
  · exact h
  all_goals
    have hp : pending (pm.inst p) = true := by
      simp only [pending, not_not.mp (not_or.mp h1).2]
      decide
  · exact h.setPending_sendSelf hlt hx hp
      (decide_eq_true (show 0 < peInstStateConnected ∧ peInstStateConnected < peInstStateActivated
        by decide)) hpt
  · exact h.setPending_sendSelf hlt hx hp hp hpt

/-- The halves of the handshake leave the state as it is, or write the instance with its task node
and pingpong timer, and its state or `peInstStateHandshook`. -/
def HandshakeStep (pm X : PeerManager) (p : Nat) : Prop :=
  X = pm ∨ ∃ i : PeerInstance, X = pm.setInst p i ∧ i.ptnMe = (pm.inst p).ptnMe ∧
    i.ppTid = (pm.inst p).ppTid ∧ (i.state = (pm.inst p).state ∨ i.state = peInstStateHandshook)

variable (pm) in
theorem handshakeStep_piHandshakeInbound (p : Nat) (rd : Except PeMgrErrno (SubNetworkID × NodeID))
    (wr : PeMgrErrno) : HandshakeStep pm (pm.piHandshakeInbound p rd wr).1 p := by
  unfold PeerManager.piHandshakeInbound
  split
  · exact .inl rfl
  · dsimp only
    split_ifs
    · exact .inl rfl
    · exact .inr ⟨_, rfl, rfl, rfl, .inl rfl⟩
    · exact .inr ⟨_, rfl, rfl, rfl, .inr rfl⟩

variable (pm) in
theorem handshakeStep_piHandshakeOutbound (p : Nat)
    (rd : Except PeMgrErrno (SubNetworkID × NodeID)) (wr : PeMgrErrno) :
    HandshakeStep pm (pm.piHandshakeOutbound p rd wr).1 p := by
  unfold PeerManager.piHandshakeOutbound
  split_ifs
  · exact .inl rfl
  · split
    · exact .inl rfl
    · dsimp only
      split_ifs
      · exact .inl rfl
      · exact .inl rfl
      · exact .inr ⟨_, rfl, rfl, rfl, .inr rfl⟩

/-- The half of a handshake leaves a pending instance pending. -/
theorem pending_of_handshake {i j : PeerInstance} (hp : pending j = true)
    (hst : i.state = j.state ∨ i.state = peInstStateHandshook) : pending i = true := by
  rcases hst with hst | hst
  · simpa only [pending, hst] using hp
  · simp only [pending, hst]
    decide

/-- A handshake hands its answer back with the instance still pending. -/
theorem InboundsOk.handshakeBack {X : PeerManager} (h : pm.InboundsOk) (ht : pm.TablesOk) {p : Nat}
    (hlt : p < pm.sch.insts.length) (hx : p ∉ pm.exchanges) (hp : pending (pm.inst p) = true)
    (hX : HandshakeStep pm X p) (e : PeMgrErrno) :
    (X.sendSelf (.handshakeRsp e (X.inst p).dir (X.inst p).snid (X.inst p).node
      (X.inst p).ptnMe)).InboundsOk := by
  rcases hX with rfl | ⟨i, rfl, hpt, -, hst⟩
  · exact h.sendSelf_exchange (congrArg some (ht.ptnMe p hlt)) hx hlt hp
  · have hi := pending_of_handshake hp hst
    rw [show (pm.setInst p i).inst p = i by rw [inst_setInst, if_pos ⟨rfl, hlt⟩]]
    exact h.setPending_sendSelf hlt hx hp hi (congrArg some (hpt.trans (ht.ptnMe p hlt)))

theorem InboundsOk.piHandshakeReq (h : pm.InboundsOk) (ht : pm.TablesOk) {p : Nat}
    (hlt : p < pm.sch.insts.length) (hx : p ∉ pm.exchanges)
    (rd : Except PeMgrErrno (SubNetworkID × NodeID)) (wr : PeMgrErrno) :
    (pm.piHandshakeReq p rd wr).InboundsOk := by
  unfold PeerManager.piHandshakeReq
  dsimp only
  split_ifs with h1 h2 h3
  · exact h
  all_goals
    have hp : pending (pm.inst p) = true := decide_eq_true (by
      simp only [peInstStateConnected, peInstStateAccepted, peInstStateActivated] at h1 ⊢
      omega)
  · exact h.handshakeBack ht hlt hx hp (handshakeStep_piHandshakeInbound pm p rd wr) _
  · exact h.handshakeBack ht hlt hx hp (handshakeStep_piHandshakeOutbound pm p rd wr) _
  · exact h.handshakeBack ht hlt hx hp (.inl rfl) _

theorem InboundsOk.piEstablishedInd (h : pm.InboundsOk) (p : Nat) (timerOk deadlineOk : Bool) :
    (pm.piEstablishedInd p timerOk deadlineOk).InboundsOk := by
  unfold PeerManager.piEstablishedInd
  dsimp only
  split_ifs
  · exact h
  · exact InboundsOk.sendSelf (h.of_core (coreView_setInst _ rfl)) rfl
  · exact h.of_core (coreView_setInst _ rfl)

/-- A close request reaches an admitted instance: an activated one becomes killing, admitted as
well, and none of its exchange's messages is in flight. -/
theorem InboundsOk.piCloseReq (h : pm.InboundsOk) {p : Nat} (ha : admitted (pm.inst p) = true) :
    (pm.piCloseReq p).InboundsOk := by
  unfold PeerManager.piCloseReq
  dsimp only
  split_ifs with hk
  · exact h
  · have hact : (pm.inst p).state = peInstStateActivated := by
      simp only [admitted, decide_eq_true_eq] at ha
      exact ha.resolve_right hk
    refine InboundsOk.sendSelf (h.setInst ?_ (fun hx => ?_) fun snid => ?_) rfl
    · simp [peInstStateKilling, peInstStateKilled]
    · have := (h.exchanging p hx).2
      simp [pending, hact, peInstStateActivated, peInstStateKilled] at this
    · simp [isAdmittedInboundOf, hact]

/-- **An instance task's step keeps the invariant**: the message of the exchange it takes is the
only one of its instance in flight, and a close request is to an admitted instance. -/
theorem InboundsOk.piProc (h : pm.InboundsOk) (ht : pm.TablesOk) (p : Nat) (a : PiAnswers)
    {pm' : PeerManager} (hs : pm.piProc p a = some pm') : pm'.InboundsOk := by
  unfold PeerManager.piProc at hs
  split_ifs at hs with hg
  split at hs
  · cases hs
  next x m hf =>
  obtain rfl := Option.some.inj hs
  obtain ⟨rfl, hmem⟩ := mem_ibox_of_find? hf
  have hlt : x < pm.sch.insts.length := not_le.mp (not_or.mp hg).1
  have he := h.eraseInbox (x, m)
  have hte := ht.eraseInbox (x, m)
  have hout : m.isExchange = true →
      x ∉ ({ pm with sch := { pm.sch with ibox := pm.sch.ibox.erase (x, m) } } :
        PeerManager).exchanges := fun hm =>
    (List.nodup_cons.mp ((exchanges_eraseInbox hmem hm).nodup_iff.mp h.nodup)).1
  cases m with
  | connOutReq => exact he.piConnOutReq hte hlt (hout rfl) a.dialOk
  | handshakeReq => exact he.piHandshakeReq hte hlt (hout rfl) a.hsRead a.hsWrite
  | establishedInd => exact he.piEstablishedInd x a.timerOk a.deadlineOk
  | closeReq => exact he.piCloseReq (ht.admitted_of_closeReq hmem fun hk => hg (.inr hk))

/-! ### Runs -/

/-- The answer taken off the manager's mailbox is the only message of its exchange in flight, for
an instance of the heap that is pending or killed. -/
theorem InboundsOk.pop_exchange (h : pm.InboundsOk) {m : PeMgrMsg} {ms : List PeMgrMsg}
    (hbox : pm.sch.mbox = m :: ms) {q : Nat} (hm : m.exchangePtn = some q) (ans : SchAnswers) :
    q ∉ ({ pm with sch := { pm.sch with mbox := ms, ans := ans } } : PeerManager).exchanges ∧
      q < pm.sch.insts.length ∧
        (pending (pm.inst q) = true ∨ (pm.inst q).state = peInstStateKilled) := by
  have hx := exchanges_pop hbox ans
  rw [hm] at hx
  exact ⟨(List.nodup_cons.mp (hx.nodup_iff.mp h.nodup)).1,
    h.exchanging q (hx.mem_iff.mpr (List.mem_cons_self _ _))⟩

/-- **Every step keeps the invariant** of a state that keeps the worker tables and counts its live
instances. -/
theorem InboundsOk.step (h : pm.InboundsOk) (ht : pm.TablesOk) (hA : pm.Accounted) {ev : PeEvent}
    {r : Run PeerManager} (hs : pm.step ev = some r) : r.Post InboundsOk := by
  cases ev with
  | mgrProc ans =>
    cases hbox : pm.sch.mbox with
    | nil => simp [PeerManager.step, PeerManager.mgrProc, hbox] at hs
    | cons m ms =>
      simp only [PeerManager.step, PeerManager.mgrProc, hbox, Option.some.injEq] at hs
      subst hs
      rw [Run.post_map]
      have hpop := h.pop hbox ans
      have htp : TablesOk { pm with sch := { pm.sch with mbox := ms, ans := ans } } := ht.of_view rfl
      refine Run.Post.mono (fun _ h' => h'.2) (kept_inbounds.peerMgrProc ⟨htp, hpop⟩ m
        (fun _ => ⟨htp.of_core (coreView_peMgrStartReq _), hpop.of_core (coreView_peMgrStartReq _)⟩)
        ?_ ?_)
      · rintro result snid peNode ptn rfl -
        obtain ⟨hx, hlt, hst⟩ := h.pop_exchange hbox rfl ans
        exact ⟨htp.of_view (tableView_sendInst _ ptn nofun),
          hpop.of_exchanges (exchanges_sendInst _ _ _) hx hlt hst rfl⟩
      · rintro result dir snid peNode ptn rfl
        obtain ⟨hx, -, hst⟩ := h.pop_exchange hbox rfl ans
        exact (htp.handshakeRsp (hA.of_eq rfl rfl rfl rfl).obpNum result dir snid peNode ptn).and
          (hpop.handshakeRsp htp hx hst result dir snid peNode)
  | piProc p a =>
    obtain ⟨pm', hp, rfl⟩ := Option.map_eq_some'.mp hs
    exact h.piProc ht p a hp
  | piIoFailure p =>
    obtain ⟨pm', hp, rfl⟩ := Option.map_eq_some'.mp hs
    unfold PeerManager.piIoFailure at hp
    dsimp only at hp
    split_ifs at hp
    cases hp
    exact h.sendSelf (by rfl)
  | lsnConnAccepted => cases hs; exact h.sendSelf (by rfl)
  | dcvFindNodeRsp snid nodes => cases hs; exact h.sendSelf (by rfl)
  | closePeer snid id => cases hs; exact (h.sendSelf (by rfl)).sendSelf (by rfl)
  | findNodeTimer tid =>
    obtain ⟨pm', hp, rfl⟩ := Option.map_eq_some'.mp hs
    unfold PeerManager.findNodeTimer at hp
    split at hp
    · cases hp
      exact InboundsOk.sendSelf (h.of_view rfl) (by rfl)
    · cases hp
  | indTake =>
    unfold PeerManager.step at hs
    split_ifs at hs
    cases hs
    exact h.of_view rfl

/-- Power-on has no instance, no exchange in flight and zero counters. -/
theorem inboundsOk_peMgrPoweron (cfg : Cfg4PeerManager) (dflt : SubNetDefaults) :
    (peMgrPoweron cfg dflt).InboundsOk :=
  ⟨fun _ hb => absurd hb (List.not_mem_nil _), List.nodup_nil,
    fun _ hq => absurd hq (List.not_mem_nil _), cnt_foldl_set_zero _ ∅ (fun _ => rfl),
    fun _ _ => le_max_right _ _⟩

end PeerManager

open PeerManager in
/-- Every reachable state keeps the exchanges and the inbound counters. -/
theorem reachable_inboundsOk {pm : PeerManager} (h : Reachable pm) : pm.InboundsOk := by
  induction h with
  | init cfg dflt => exact inboundsOk_peMgrPoweron cfg dflt
  | step hr hs ih => exact ih.step (reachable_tablesOk hr).2 (reachable_tablesOk hr).1 hs

open PeerManager in
/-- **Each instance has at most one message of its exchange in flight**: in every reachable state
the task nodes of the connection and handshake messages in flight, to the instance tasks and to the
manager, are distinct, and each names an instance between its creation and its admission, or a
killed one. So the manager reads at most one handshake answer of an instance while it lives, and
admits none twice. -/
theorem reachable_exchange_once {pm : PeerManager} (h : Reachable pm) :
    pm.exchanges.Nodup ∧ ∀ q ∈ pm.exchanges,
      pending (pm.inst q) = true ∨ (pm.inst q).state = peInstStateKilled :=
  ⟨(reachable_inboundsOk h).nodup, fun q hq => ((reachable_inboundsOk h).exchanging q hq).2⟩

/-- After the crossed connect, the dial of the outbound `0` and the handshake answer of the inbound
`1` are in flight, once each. -/
theorem reachable_exchange_once_crossed :
    ∃ pm, Reachable pm ∧ pm.exchanges = [0, 1] ∧
      (pm.exchanges.Nodup ∧ ∀ q ∈ pm.exchanges,
        pending (pm.inst q) = true ∨ (pm.inst q).state = peInstStateKilled) := by
  have hrun : (runEvents (peMgrPoweron exampleCfg exampleDefaults) crossedConnectRun).map
      (fun pm => decide (pm.exchanges = [0, 1])) = some true := by
    decide
  obtain ⟨pm, h, hc⟩ := (Reachable.init _ _).exists_of_runEvents _ hrun
  exact ⟨pm, h, of_decide_eq_true hc, reachable_exchange_once h⟩

open PeerManager in
/-- **`ibpNum` counts the admitted inbounds**: in every reachable state and for every sub-network
`snid`, `ibpNum[snid]` is the number of live inbound instances of `snid` that were admitted, and
are activated or killing since. -/
theorem reachable_inbounds_counted {pm : PeerManager} (h : Reachable pm) (snid : SubNetworkID) :
    cnt pm.ibpNum snid = pm.admittedInboundCount snid :=
  (reachable_inboundsOk h).counted snid

/-- After an inbound is admitted and a second one of the same peer handshakes, `ibpNum` counts the
admitted one only. -/
theorem reachable_inbounds_counted_admitted :
    ∃ pm, Reachable pm ∧ pm.admittedInboundCount exampleSnid = 1 ∧ pm.ibpTotalNum = 2 ∧
      cnt pm.ibpNum exampleSnid = pm.admittedInboundCount exampleSnid := by
  have hrun : (runEvents (peMgrPoweron exampleCfg exampleDefaults) duplicateInboundRun.dropLast).map
      (fun pm => decide (pm.admittedInboundCount exampleSnid = 1) && decide (pm.ibpTotalNum = 2)) =
        some true := by
    decide
  obtain ⟨pm, h, hc⟩ := (Reachable.init _ _).exists_of_runEvents _ hrun
  simp only [Bool.and_eq_true, decide_eq_true_eq] at hc
  exact ⟨pm, h, hc.1, hc.2, reachable_inbounds_counted h exampleSnid⟩

open PeerManager in
/-- **The inbound cap holds outside the static sub-network**: in every reachable state and for
every sub-network `snid` other than the static one, the live admitted inbounds of `snid` are at
most its inbound cap, or none when the cap is negative. `peMgrHandshakeRsp` admits an inbound only
while `ibpNum[snid]` is below the cap. -/
theorem reachable_inbounds_within_cap {pm : PeerManager} (h : Reachable pm) {snid : SubNetworkID}
    (hS : pm.isStaticSubNetId snid = false) :
    (pm.admittedInboundCount snid : Int) ≤ max (pm.hsCaps snid).1 0 :=
  (reachable_inboundsOk h).capped snid hS

/-- After an inbound of `exampleSnid` is admitted, the one admitted inbound is within the cap. -/
theorem reachable_inbounds_within_cap_admitted :
    ∃ pm, Reachable pm ∧ pm.admittedInboundCount exampleSnid = 1 ∧
      pm.isStaticSubNetId exampleSnid = false ∧
      (pm.admittedInboundCount exampleSnid : Int) ≤ max (pm.hsCaps exampleSnid).1 0 := by
  have hrun : (runEvents (peMgrPoweron exampleCfg exampleDefaults) duplicateInboundRun.dropLast).map
      (fun pm => decide (pm.admittedInboundCount exampleSnid = 1) &&
        !pm.isStaticSubNetId exampleSnid) = some true := by
    decide
  obtain ⟨pm, h, hc⟩ := (Reachable.init _ _).exists_of_runEvents _ hrun
  simp only [Bool.and_eq_true, decide_eq_true_eq, Bool.not_eq_true'] at hc
  exact ⟨pm, h, hc.1, hc.2, reachable_inbounds_within_cap h hc.2⟩

end Gyee.Peer
