import Gyee.Peer.Caps

/-! # The statuses of the static nodes

`staticsStatus` records how far the outbound of each static node has got in the static
sub-network: idle, dialing (`peerConnectOutInited`), activated or killing. When the static nodes
have distinct identities, in every reachable state the status of a static node is idle exactly when
`nodes` holds no outbound instance of it, and activated or killing exactly when `workers` holds
that instance; so the candidates `peMgrStaticSubNetOutbound` dials are the static nodes with no
live outbound instance (`reachable_staticsStatus`).

The invariant (`StaticsAgree`) reads little of the state (`StaticView`): `peers`, what each
instance is as an outbound (`outView`), the three tables at the static nodes' keys
(`staticEntry`), the random nodes of the static sub-network, and the mailbox, where each handshake
answer names the peer of the outbound it is about (`AnswerNames`). A change that keeps the view
keeps the invariant. The changes that do not are proved once each: a kill, which empties the
killed instance's key and sets its status idle, and so also repairs a status set to killing just
before it (`peMgrHandshakeRsp`'s failure paths); a creation; an accepted inbound; a status update;
and the random nodes' updates. No step writes the configuration (`step_cfg`), so the static nodes'
identities stay distinct along a run (`reachable_staticsAgree`). -/

namespace Gyee.Peer

open Gyee

/-- What the static invariant reads of an instance: its task node, its direction, and its
sub-network and peer when it is an outbound. -/
def outView (i : PeerInstance) : Nat × Int × Option (SubNetworkID × NodeID) :=
  (i.ptnMe, i.dir, if i.dir = PeInstDirOutbound then some (i.snid, i.node.ID) else none)

theorem outView_snd_eq_iff {i : PeerInstance} {snid : SubNetworkID} {id : NodeID} :
    (outView i).2 = (PeInstDirOutbound, some (snid, id)) ↔
      i.dir = PeInstDirOutbound ∧ i.snid = snid ∧ i.node.ID = id := by
  unfold outView
  by_cases h : i.dir = PeInstDirOutbound <;> simp [h]

/-- What `nodes`, `workers` and `staticsStatus` hold for the outbound of a static node. -/
@[ext] structure StaticEntry where
  node : Option Nat
  worker : Option Nat
  status : Option Int

/-- A static node's status agrees with its tables: it is idle exactly when `nodes` holds no
outbound of it, and activated or killing exactly when `workers` holds one. -/
structure StaticEntry.Agrees (e : StaticEntry) : Prop where
  idle : e.status.getD 0 = peerIdle ↔ e.node = none
  active : e.status.getD 0 = peerActivated ∨ e.status.getD 0 = peerKilling ↔ e.worker.isSome

theorem StaticEntry.agrees_idle {e : StaticEntry} (hn : e.node = none) (hw : e.worker = none) :
    ({ e with status := some peerIdle } : StaticEntry).Agrees :=
  ⟨by simp [hn], by simp [hw, peerIdle, peerActivated, peerKilling]⟩

theorem StaticEntry.agrees_dialing {e : StaticEntry} {p : Nat} (hw : e.worker = none) :
    ({ e with node := some p, status := some peerConnectOutInited } : StaticEntry).Agrees :=
  ⟨by simp [peerConnectOutInited, peerIdle], by
    simp [hw, peerConnectOutInited, peerActivated, peerKilling]⟩

/-- What the static invariant reads of the state. -/
structure StaticView where
  cfg : PeMgrConfig
  peers : GoMap Nat Nat
  outs : List (Nat × Int × Option (SubNetworkID × NodeID))
  statics : List StaticEntry
  randoms : List Node
  mbox : List PeMgrMsg

namespace PeerManager

variable (pm : PeerManager)

/-- The entry of the static node `s`. -/
def staticEntry (s : Node) : StaticEntry :=
  ⟨pm.nodes.get? pm.cfg.staticSubNetId ⟨s.ID, PeInstOutPos⟩,
    pm.workers.get? pm.cfg.staticSubNetId ⟨s.ID, PeInstOutPos⟩,
    pm.staticsStatus.get? ⟨s.ID, PeInstOutPos⟩⟩

/-- The view of the state. -/
def staticView : StaticView :=
  ⟨pm.cfg, pm.peers, pm.sch.insts.map outView, pm.cfg.staticNodes.map pm.staticEntry,
    (pm.randoms.get? pm.cfg.staticSubNetId).getD [], pm.sch.mbox⟩

/-- The instance at `q` is an outbound of the static sub-network to the peer `id`. -/
def StaticOutOf (q : Nat) (id : NodeID) : Prop :=
  (outView (pm.inst q)).2 = (PeInstDirOutbound, some (pm.cfg.staticSubNetId, id))

instance (q : Nat) (id : NodeID) : Decidable (pm.StaticOutOf q id) :=
  inferInstanceAs (Decidable (_ = _))

/-- A handshake answer names a task node of the heap, and the peer of its instance when that is
a live outbound. -/
def AnswerNames : PeMgrMsg → Prop
  | .handshakeRsp _ _ _ peNode ptn => ptn < pm.sch.insts.length ∧
      ∀ q snid id, pm.peers.get? ptn = some q →
        (outView (pm.inst q)).2 = (PeInstDirOutbound, some (snid, id)) → id = peNode.ID
  | _ => True

/-- The tables of the static sub-network: the static nodes have distinct identities, the task
nodes in `peers` are their own instances, each static node has a status, `workers` holds only
what `nodes` holds, `nodes` holds exactly the live outbound of each static node, the random
nodes of the static sub-network are not static, and the handshake answers name their peers. -/
structure StaticTables : Prop where
  distinct : (pm.cfg.staticNodes.map (·.ID)).Nodup
  heap : ∀ a b, pm.peers.get? a = some b → b = a ∧ a < pm.sch.insts.length
  ptnMe : ∀ p < pm.sch.insts.length, (pm.inst p).ptnMe = p
  known : ∀ s ∈ pm.cfg.staticNodes, (pm.staticEntry s).status.isSome
  worker : ∀ s ∈ pm.cfg.staticNodes, ∀ p, (pm.staticEntry s).worker = some p →
    (pm.staticEntry s).node = some p
  node : ∀ s ∈ pm.cfg.staticNodes, ∀ p, (pm.staticEntry s).node = some p →
    pm.peers.get? p = some p ∧ pm.StaticOutOf p s.ID
  unique : ∀ s ∈ pm.cfg.staticNodes, ∀ p, pm.peers.get? p = some p → pm.StaticOutOf p s.ID →
    (pm.staticEntry s).node = some p
  randoms : ∀ n ∈ (pm.randoms.get? pm.cfg.staticSubNetId).getD [], ∀ s ∈ pm.cfg.staticNodes,
    n.ID ≠ s.ID
  answers : ∀ m ∈ pm.sch.mbox, pm.AnswerNames m

/-- The statuses of the static nodes agree with the tables. -/
structure StaticsAgree extends StaticTables pm : Prop where
  status : ∀ s ∈ pm.cfg.staticNodes, (pm.staticEntry s).Agrees

theorem staticOutOf_iff {q : Nat} {id : NodeID} :
    pm.StaticOutOf q id ↔ (pm.inst q).dir = PeInstDirOutbound ∧
      (pm.inst q).snid = pm.cfg.staticSubNetId ∧ (pm.inst q).node.ID = id :=
  outView_snd_eq_iff

variable {pm}

/-! ### Transport along changes that keep what the invariant reads -/

theorem outView_inst_eq {pm' : PeerManager}
    (h : pm'.sch.insts.map outView = pm.sch.insts.map outView) (p : Nat) :
    outView (pm'.inst p) = outView (pm.inst p) := by
  rw [inst, inst, ← List.getD_map _ _ outView, ← List.getD_map _ _ outView, h]

theorem AnswerNames.mono {pm' : PeerManager} {m : PeMgrMsg} (h : pm.AnswerNames m)
    (hl : pm.sch.insts.length ≤ pm'.sch.insts.length)
    (hp : ∀ a b, a < pm.sch.insts.length → pm'.peers.get? a = some b →
      pm.peers.get? a = some b ∧ outView (pm'.inst b) = outView (pm.inst b)) :
    pm'.AnswerNames m := by
  cases m with
  | handshakeRsp _ _ _ peNode ptn =>
    refine ⟨lt_of_lt_of_le h.1 hl, fun q snid id hq ho => ?_⟩
    obtain ⟨hq', hv⟩ := hp ptn q h.1 hq
    exact h.2 q snid id hq' (hv ▸ ho)
  | _ => trivial

/-- A change that keeps the configuration, `peers`, the instances as the invariant reads them,
the random nodes, the mailbox and each static node's `nodes` entry keeps the tables, when each
static node keeps a status and its worker stays in `nodes`. -/
theorem StaticTables.of_eq {pm' : PeerManager} (h : pm.StaticTables) (hc : pm'.cfg = pm.cfg)
    (hp : pm'.peers = pm.peers) (hi : pm'.sch.insts.map outView = pm.sch.insts.map outView)
    (hr : (pm'.randoms.get? pm.cfg.staticSubNetId).getD [] =
      (pm.randoms.get? pm.cfg.staticSubNetId).getD [])
    (hb : pm'.sch.mbox = pm.sch.mbox)
    (hn : ∀ s ∈ pm.cfg.staticNodes, (pm'.staticEntry s).node = (pm.staticEntry s).node)
    (hw : ∀ s ∈ pm.cfg.staticNodes, ∀ p, (pm'.staticEntry s).worker = some p →
      (pm'.staticEntry s).node = some p)
    (hk : ∀ s ∈ pm.cfg.staticNodes, (pm'.staticEntry s).status.isSome) : pm'.StaticTables := by
  have hl : pm'.sch.insts.length = pm.sch.insts.length := by
    simpa using congrArg List.length hi
  have ho : ∀ q id, pm'.StaticOutOf q id ↔ pm.StaticOutOf q id := fun q id => by
    rw [StaticOutOf, StaticOutOf, outView_inst_eq hi, hc]
  rw [← hc] at hn hw hk hr
  refine ⟨hc ▸ h.distinct, fun a b hab => hl ▸ h.heap a b (hp ▸ hab), fun p hp' => ?_, hk, hw,
    fun s hs p hsp => ?_, fun s hs p hpp hpo => ?_, fun n hn' s hs => ?_, fun m hm => ?_⟩
  · exact (congrArg Prod.fst (outView_inst_eq hi p)).trans (h.ptnMe p (hl ▸ hp'))
  · rw [hn s hs] at hsp
    rw [hc] at hs
    rw [hp, ho]
    exact h.node s hs p hsp
  · rw [hn s hs]
    rw [hc] at hs
    exact h.unique s hs p (hp ▸ hpp) ((ho p s.ID).mp hpo)
  · rw [hr] at hn'
    rw [hc] at hs hn'
    exact h.randoms n hn' s hs
  · rw [hb] at hm
    exact (h.answers m hm).mono hl.ge fun a b _ hab => ⟨hp ▸ hab, outView_inst_eq hi b⟩

theorem staticEntry_eq_of_view {pm' : PeerManager} (hv : pm'.staticView = pm.staticView) :
    ∀ s ∈ pm.cfg.staticNodes, pm'.staticEntry s = pm.staticEntry s := by
  have hc : pm'.cfg = pm.cfg := congrArg StaticView.cfg hv
  have hs : pm'.cfg.staticNodes.map pm'.staticEntry = pm.cfg.staticNodes.map pm.staticEntry :=
    congrArg StaticView.statics hv
  rw [hc] at hs
  exact List.map_inj_left.mp hs

theorem StaticTables.of_view {pm' : PeerManager} (h : pm.StaticTables)
    (hv : pm'.staticView = pm.staticView) : pm'.StaticTables := by
  have hc : pm'.cfg = pm.cfg := congrArg StaticView.cfg hv
  have hr : (pm'.randoms.get? pm'.cfg.staticSubNetId).getD [] =
      (pm.randoms.get? pm.cfg.staticSubNetId).getD [] := congrArg StaticView.randoms hv
  have he := staticEntry_eq_of_view hv
  rw [hc] at hr
  exact h.of_eq hc (congrArg StaticView.peers hv) (congrArg StaticView.outs hv) hr
    (congrArg StaticView.mbox hv) (fun s hs => by rw [he s hs])
    (fun s hs p => by rw [he s hs]; exact h.worker s hs p)
    (fun s hs => by rw [he s hs]; exact h.known s hs)

/-- New tables whose static entries are the old ones keep the statuses. -/
theorem StaticsAgree.of_tables {pm' : PeerManager} (h : pm.StaticsAgree) (ht : pm'.StaticTables)
    (hc : pm'.cfg = pm.cfg) (he : ∀ s ∈ pm.cfg.staticNodes, pm'.staticEntry s = pm.staticEntry s) :
    pm'.StaticsAgree :=
  ⟨ht, fun s hs => by rw [hc] at hs; rw [he s hs]; exact h.status s hs⟩

/-- **A change that keeps the view keeps the invariant.** -/
theorem StaticsAgree.of_view {pm' : PeerManager} (h : pm.StaticsAgree)
    (hv : pm'.staticView = pm.staticView) : pm'.StaticsAgree :=
  h.of_tables (h.toStaticTables.of_view hv) (congrArg StaticView.cfg hv) (staticEntry_eq_of_view hv)

/-- A message to the manager keeps the invariant when it is not a handshake answer, or names the
peer of its instance. -/
theorem StaticsAgree.sendSelf (h : pm.StaticsAgree) {m : PeMgrMsg} (hm : pm.AnswerNames m) :
    (pm.sendSelf m).StaticsAgree :=
  { h with
    answers := fun m' hm' => (List.mem_append.mp hm').elim (h.answers m') fun h' =>
      List.mem_singleton.mp h' ▸ hm }

theorem StaticsAgree.setRandoms (h : pm.StaticsAgree) {rs : GoMap SubNetworkID (List Node)}
    (hr : ∀ n ∈ (rs.get? pm.cfg.staticSubNetId).getD [], ∀ s ∈ pm.cfg.staticNodes, n.ID ≠ s.ID) :
    ({ pm with randoms := rs } : PeerManager).StaticsAgree :=
  { h with randoms := hr }

/-! ### Changes that keep the view -/

variable (pm)

@[simp] theorem staticView_sendInst (p : Nat) (m : PiMsg) :
    (pm.sendInst p m).staticView = pm.staticView := rfl
@[simp] theorem staticView_send (m : PeMgrOut) : (pm.send m).staticView = pm.staticView := rfl
@[simp] theorem staticView_schKillTimer (tid : Int) :
    (pm.schKillTimer tid).staticView = pm.staticView := rfl
@[simp] theorem staticView_schSetTimer (t : PeTimer) :
    (pm.schSetTimer t).1.staticView = pm.staticView := by
  unfold schSetTimer; split_ifs <;> rfl
@[simp] theorem staticView_randIntn (n : Nat) : (pm.randIntn n).1.staticView = pm.staticView := rfl
@[simp] theorem staticView_randCoin : pm.randCoin.1.staticView = pm.staticView := rfl
@[simp] theorem staticView_schCreateTask : pm.schCreateTask.1.staticView = pm.staticView := rfl
@[simp] theorem staticView_resumeAccepter : pm.resumeAccepter.staticView = pm.staticView := by
  unfold resumeAccepter; split_ifs <;> rfl

/-- Writing an instance that reads as the old one keeps the view. -/
theorem staticView_setInst {p : Nat} {i : PeerInstance} (h : outView i = outView (pm.inst p)) :
    (pm.setInst p i).staticView = pm.staticView := by
  have hm : (pm.sch.insts.set p i).map outView = pm.sch.insts.map outView := by
    rw [List.map_set, h, inst, ← List.getD_map _ _ outView, set_getD_self]
  unfold staticView
  rw [show (pm.setInst p i).sch.insts = pm.sch.insts.set p i from rfl, hm]
  rfl

@[simp] theorem staticView_setInst_state (p : Nat) (st : Int) :
    (pm.setInst p { pm.inst p with state := st }).staticView = pm.staticView :=
  staticView_setInst pm rfl

@[simp] theorem staticView_killPingpong (p : Nat) :
    (pm.killPingpong p).staticView = pm.staticView := by
  unfold killPingpong; dsimp only; split_ifs
  · refine (staticView_setInst _ ?_).trans (staticView_schKillTimer _ _)
    rfl
  · rfl

theorem staticView_of_schSetTimer_eq {X pm' : PeerManager} {t : PeTimer} {o : Option Int}
    (h : X.schSetTimer t = (pm', o)) : pm'.staticView = X.staticView := by
  rw [← staticView_schSetTimer X t, h]

@[simp] theorem staticView_peMgrAsk4More (snid : SubNetworkID) :
    (pm.peMgrAsk4More snid).1.staticView = pm.staticView := by
  unfold peMgrAsk4More
  dsimp only
  split_ifs
  · rfl
  all_goals
    split <;> rename_i heq <;>
      exact (staticView_of_schSetTimer_eq heq).trans (by split <;> (try split_ifs) <;> rfl)

/-- `peMgrStartReq` keeps the view of the state with its command to the listener and its
`EvPeMgrOutboundReq` sent. -/
theorem staticView_peMgrStartReq : pm.peMgrStartReq.1.staticView =
    ((if !pm.cfg.noAccept then pm.send .lsnStartReq else pm).sendSelf
      (.outboundReq none)).staticView := by
  unfold peMgrStartReq
  dsimp only
  generalize (if !pm.cfg.noAccept then pm.send .lsnStartReq else pm).sendSelf
    (.outboundReq none) = X
  split <;> rename_i heq <;> refine (staticView_of_schSetTimer_eq heq).trans ?_ <;>
    split_ifs <;> rfl

/-! ### Status updates -/

@[simp] theorem updateStaticStatus_cfg (snid : SubNetworkID) (idEx : PeerIdEx) (st : Int) :
    (pm.updateStaticStatus snid idEx st).cfg = pm.cfg := by
  unfold updateStaticStatus; split_ifs <;> rfl
@[simp] theorem updateStaticStatus_sch (snid : SubNetworkID) (idEx : PeerIdEx) (st : Int) :
    (pm.updateStaticStatus snid idEx st).sch = pm.sch := by
  unfold updateStaticStatus; split_ifs <;> rfl
@[simp] theorem updateStaticStatus_randoms (snid : SubNetworkID) (idEx : PeerIdEx) (st : Int) :
    (pm.updateStaticStatus snid idEx st).randoms = pm.randoms := by
  unfold updateStaticStatus; split_ifs <;> rfl

theorem staticEntry_updateStaticStatus (snid : SubNetworkID) (idEx : PeerIdEx) (st : Int)
    (s : Node) : (pm.updateStaticStatus snid idEx st).staticEntry s =
      if snid = pm.cfg.staticSubNetId ∧ pm.staticsStatus.contains idEx ∧
          (⟨s.ID, PeInstOutPos⟩ : PeerIdEx) = idEx then
        { pm.staticEntry s with status := some st } else pm.staticEntry s := by
  unfold updateStaticStatus
  by_cases hc : snid = pm.cfg.staticSubNetId ∧ pm.staticsStatus.contains idEx
  · by_cases hk : (⟨s.ID, PeInstOutPos⟩ : PeerIdEx) = idEx
    · rw [if_pos hc, if_pos ⟨hc.1, hc.2, hk⟩]
      simp only [staticEntry, GoMap.get?_set, if_pos hk]
    · rw [if_pos hc, if_neg fun h' => hk h'.2.2]
      simp only [staticEntry, GoMap.get?_set, if_neg hk]
  · rw [if_neg hc, if_neg fun h' => hc ⟨h'.1, h'.2.1⟩]

variable {pm}

theorem StaticTables.setStatus (h : pm.StaticTables) (k : PeerIdEx) (st : Int) :
    ({ pm with staticsStatus := pm.staticsStatus.set k st } : PeerManager).StaticTables :=
  h.of_eq rfl rfl rfl rfl rfl (fun _ _ => rfl) h.worker fun s hs => by
    simp only [staticEntry, GoMap.get?_set]
    split_ifs
    · rfl
    · exact h.known s hs

theorem StaticTables.updateStaticStatus (h : pm.StaticTables) (snid : SubNetworkID)
    (idEx : PeerIdEx) (st : Int) : (pm.updateStaticStatus snid idEx st).StaticTables := by
  unfold PeerManager.updateStaticStatus
  split_ifs
  · exact h.setStatus _ _
  · exact h

/-- A status written for the key `k` keeps the invariant when the static node of that key agrees
with it, and every other static node agrees as before. -/
theorem StaticTables.setStatus_agrees (h : pm.StaticTables) {k : PeerIdEx} {st : Int}
    (hs : ∀ s ∈ pm.cfg.staticNodes, (⟨s.ID, PeInstOutPos⟩ : PeerIdEx) ≠ k →
      (pm.staticEntry s).Agrees)
    (hok : ∀ s ∈ pm.cfg.staticNodes, (⟨s.ID, PeInstOutPos⟩ : PeerIdEx) = k →
      ({ pm.staticEntry s with status := some st } : StaticEntry).Agrees) :
    ({ pm with staticsStatus := pm.staticsStatus.set k st } : PeerManager).StaticsAgree := by
  refine ⟨h.setStatus k st, fun s hs' => ?_⟩
  by_cases hk : (⟨s.ID, PeInstOutPos⟩ : PeerIdEx) = k
  · have := hok s hs' hk
    simp only [staticEntry, GoMap.get?_set, if_pos hk]
    exact this
  · have := hs s hs' hk
    simp only [staticEntry, GoMap.get?_set, if_neg hk]
    exact this

/-- `updateStaticStatus` keeps the invariant when the static node whose status it writes agrees
with the new status, and every other static node agrees as before. -/
theorem StaticTables.updateStaticStatus_agrees (h : pm.StaticTables) {snid : SubNetworkID}
    {idEx : PeerIdEx} {st : Int}
    (hs : ∀ s ∈ pm.cfg.staticNodes, ¬ (snid = pm.cfg.staticSubNetId ∧
      (⟨s.ID, PeInstOutPos⟩ : PeerIdEx) = idEx) → (pm.staticEntry s).Agrees)
    (hok : ∀ s ∈ pm.cfg.staticNodes, snid = pm.cfg.staticSubNetId →
      (⟨s.ID, PeInstOutPos⟩ : PeerIdEx) = idEx →
        ({ pm.staticEntry s with status := some st } : StaticEntry).Agrees) :
    (pm.updateStaticStatus snid idEx st).StaticsAgree := by
  unfold PeerManager.updateStaticStatus
  split_ifs with hc
  · exact h.setStatus_agrees (fun s hs' hk => hs s hs' fun h' => hk h'.2)
      fun s hs' hk => hok s hs' hc.1 hk
  · refine ⟨h, fun s hs' => hs s hs' fun ⟨h1, h2⟩ => hc ⟨h1, ?_⟩⟩
    rw [← h2]
    exact h.known s hs'

/-! ### A kill -/

variable (pm)

@[simp] theorem killInstMaps_cfg (ptn : Nat) (i : PeerInstance) :
    (pm.killInstMaps ptn i).cfg = pm.cfg := by
  simp only [killInstMaps, dropWorker, dropOutbound, dropInbound, apply_ite PeerManager.cfg,
    ite_self]
@[simp] theorem killInstMaps_sch (ptn : Nat) (i : PeerInstance) :
    (pm.killInstMaps ptn i).sch = pm.sch := by
  simp only [killInstMaps, dropWorker, dropOutbound, dropInbound, apply_ite PeerManager.sch,
    ite_self]
@[simp] theorem killInstMaps_randoms (ptn : Nat) (i : PeerInstance) :
    (pm.killInstMaps ptn i).randoms = pm.randoms := by
  simp only [killInstMaps, dropWorker, dropOutbound, dropInbound, apply_ite PeerManager.randoms,
    ite_self]
@[simp] theorem killInstMaps_staticsStatus (ptn : Nat) (i : PeerInstance) :
    (pm.killInstMaps ptn i).staticsStatus = pm.staticsStatus := by
  simp only [killInstMaps, dropWorker, dropOutbound, dropInbound,
    apply_ite PeerManager.staticsStatus, ite_self]

theorem killInstMaps_peers_get? (ptn : Nat) (i : PeerInstance) (a : Nat) :
    (pm.killInstMaps ptn i).peers.get? a =
      if (i.dir = PeInstDirOutbound ∨ i.dir = PeInstDirInbound) ∧ a = ptn then none
      else pm.peers.get? a := by
  simp only [killInstMaps, dropWorker, dropOutbound, dropInbound, apply_ite PeerManager.peers,
    ite_self]
  split_ifs <;> simp_all

theorem killInstMaps_nodes_get? (ptn : Nat) (i : PeerInstance) (snid : SubNetworkID)
    (idEx : PeerIdEx) : (pm.killInstMaps ptn i).nodes.get? snid idEx =
      if (i.dir = PeInstDirOutbound ∨ i.dir = PeInstDirInbound) ∧ snid = i.snid ∧
          idEx = ⟨i.node.ID, i.dir⟩ then none
      else pm.nodes.get? snid idEx := by
  simp only [killInstMaps, dropWorker, dropOutbound, dropInbound, apply_ite PeerManager.nodes,
    ite_self]
  split_ifs <;> simp_all

theorem killInstMaps_workers_get? (ptn : Nat) (i : PeerInstance) (snid : SubNetworkID)
    (idEx : PeerIdEx) : (pm.killInstMaps ptn i).workers.get? snid idEx =
      if snid = i.snid ∧ idEx = ⟨i.node.ID, i.dir⟩ then none else pm.workers.get? snid idEx := by
  simp only [killInstMaps, dropWorker, dropOutbound, dropInbound, apply_ite PeerManager.workers,
    ite_self]
  split_ifs <;> simp_all

/-- The kill of the task node `ptn` in direction `dir` removes the static outbound of `id`. -/
def KillsStatic (ptn : Nat) (dir : Int) (id : NodeID) : Prop :=
  ∃ q, pm.peers.get? ptn = some q ∧ (pm.inst q).dir = dir ∧ pm.StaticOutOf q id

variable {pm}

theorem staticOutOf_iff_of_outView {ptn : Nat} {i : PeerInstance}
    (hi : outView i = outView (pm.inst ptn)) (id : NodeID) : pm.StaticOutOf ptn id ↔
      i.dir = PeInstDirOutbound ∧ i.snid = pm.cfg.staticSubNetId ∧ i.node.ID = id := by
  rw [StaticOutOf, ← hi, outView_snd_eq_iff]

/-- The entry of a static node after the kill of the instance `i` at `ptn`: empty and idle when
`i` is its outbound, unchanged otherwise. -/
theorem StaticTables.staticEntry_kill (h : pm.StaticTables) {ptn : Nat} {i : PeerInstance}
    (hi : outView i = outView (pm.inst ptn)) {s : Node} (hs : s ∈ pm.cfg.staticNodes) :
    ((pm.killInstMaps ptn i).updateStaticStatus i.snid ⟨i.node.ID, i.dir⟩
        peerIdle).staticEntry s =
      if pm.StaticOutOf ptn s.ID then ⟨none, none, some peerIdle⟩ else pm.staticEntry s := by
  rw [staticEntry_updateStaticStatus]
  by_cases hk : pm.StaticOutOf ptn s.ID
  · obtain ⟨h1, h2, h3⟩ := (staticOutOf_iff_of_outView hi s.ID).mp hk
    have hkey : (⟨s.ID, PeInstOutPos⟩ : PeerIdEx) = ⟨i.node.ID, i.dir⟩ := by rw [h1, h3]; rfl
    have hkn : pm.staticsStatus.contains ⟨i.node.ID, i.dir⟩ := hkey ▸ h.known s hs
    rw [if_pos ⟨by simpa using h2, by simpa using hkn, hkey⟩, if_pos hk]
    ext <;> simp [staticEntry, killInstMaps_nodes_get?, killInstMaps_workers_get?, h1, h2, hkey]
  · have hne : ¬ (pm.cfg.staticSubNetId = i.snid ∧
        (⟨s.ID, PeInstOutPos⟩ : PeerIdEx) = ⟨i.node.ID, i.dir⟩) := by
      rintro ⟨h2, hkey⟩
      simp only [PeerIdEx.mk.injEq] at hkey
      exact hk ((staticOutOf_iff_of_outView hi s.ID).mpr
        ⟨hkey.2.symm.trans rfl, h2.symm, hkey.1.symm⟩)
    have hne' : ¬ ((i.dir = PeInstDirOutbound ∨ i.dir = PeInstDirInbound) ∧
        pm.cfg.staticSubNetId = i.snid ∧
        (⟨s.ID, PeInstOutPos⟩ : PeerIdEx) = ⟨i.node.ID, i.dir⟩) :=
      fun h' => hne h'.2
    rw [if_neg fun h' => hne ⟨by simpa using h'.1.symm, h'.2.2⟩, if_neg hk]
    ext
    · simp only [staticEntry, killInstMaps_cfg, killInstMaps_nodes_get?, if_neg hne']
    · simp only [staticEntry, killInstMaps_cfg, killInstMaps_workers_get?, if_neg hne]
    · simp only [staticEntry, killInstMaps_staticsStatus]

/-- The instance `i` at `ptn` removed from the maps and its status set idle: the static node
whose outbound it is loses its entries and becomes idle, and nothing else a static node reads
changes. -/
theorem StaticTables.killInstMaps (h : pm.StaticTables) {ptn : Nat}
    (hp : pm.peers.get? ptn = some ptn) {i : PeerInstance} (hi : outView i = outView (pm.inst ptn))
    (hs : ∀ s ∈ pm.cfg.staticNodes, ¬ pm.StaticOutOf ptn s.ID → (pm.staticEntry s).Agrees) :
    ((pm.killInstMaps ptn i).updateStaticStatus i.snid ⟨i.node.ID, i.dir⟩
      peerIdle).StaticsAgree := by
  have he := fun s (hs : s ∈ pm.cfg.staticNodes) => h.staticEntry_kill hi hs
  generalize hY : (pm.killInstMaps ptn i).updateStaticStatus i.snid ⟨i.node.ID, i.dir⟩ peerIdle = Y
    at he
  have hc : Y.cfg = pm.cfg := by rw [← hY]; simp
  have hsch : Y.sch = pm.sch := by rw [← hY]; simp
  have hr : Y.randoms = pm.randoms := by rw [← hY]; simp
  have hpe : ∀ a, Y.peers.get? a =
      if (i.dir = PeInstDirOutbound ∨ i.dir = PeInstDirInbound) ∧ a = ptn then none
      else pm.peers.get? a := fun a => by
    rw [← hY, updateStaticStatus_peers, killInstMaps_peers_get?]
  have hsub : ∀ a b, Y.peers.get? a = some b → pm.peers.get? a = some b := fun a b hab => by
    rw [hpe] at hab
    split_ifs at hab
    exact hab
  have hio : ∀ q, Y.inst q = pm.inst q := fun q => by rw [inst, inst, hsch]
  have ho : ∀ q id, Y.StaticOutOf q id ↔ pm.StaticOutOf q id := fun q id => by
    rw [StaticOutOf, StaticOutOf, hio, hc]
  have hgone : ∀ id, pm.StaticOutOf ptn id → Y.peers.get? ptn = none := fun id hk => by
    rw [hpe, if_pos ⟨Or.inl ((staticOutOf_iff_of_outView hi id).mp hk).1, rfl⟩]
  refine ⟨⟨hc ▸ h.distinct, fun a b hab => ?_, fun p hp' => ?_, fun s hs' => ?_,
    fun s hs' p hw => ?_, fun s hs' p hn => ?_, fun s hs' p hpp hpo => ?_, fun n hn s hs' => ?_,
    fun m hm => ?_⟩, fun s hs' => ?_⟩
  · rw [hsch]
    exact h.heap a b (hsub a b hab)
  · rw [hsch] at hp'
    rw [hio]
    exact h.ptnMe p hp'
  · rw [hc] at hs'
    rw [he s hs']
    split_ifs
    · rfl
    · exact h.known s hs'
  · rw [hc] at hs'
    rw [he s hs'] at hw ⊢
    by_cases hk : pm.StaticOutOf ptn s.ID
    · rw [if_pos hk] at hw
      cases hw
    · rw [if_neg hk] at hw ⊢
      exact h.worker s hs' p hw
  · rw [hc] at hs'
    rw [he s hs'] at hn
    by_cases hk : pm.StaticOutOf ptn s.ID
    · rw [if_pos hk] at hn
      cases hn
    rw [if_neg hk] at hn
    obtain ⟨h1, h2⟩ := h.node s hs' p hn
    refine ⟨?_, (ho p s.ID).mpr h2⟩
    rw [hpe, if_neg]
    · exact h1
    · rintro ⟨-, rfl⟩
      exact hk h2
  · rw [hc] at hs'
    rw [ho] at hpo
    rw [he s hs']
    have hpp' := hsub p p hpp
    split_ifs with hk
    · have hpt : ptn = p :=
        Option.some.inj ((h.unique s hs' ptn hp hk).symm.trans (h.unique s hs' p hpp' hpo))
      rw [← hpt, hgone s.ID hk] at hpp
      cases hpp
    · exact h.unique s hs' p hpp' hpo
  · rw [hr, hc] at hn
    rw [hc] at hs'
    exact h.randoms n hn s hs'
  · rw [hsch] at hm
    exact (h.answers m hm).mono (by rw [hsch]) fun a b _ hab => ⟨hsub a b hab, by rw [hio]⟩
  · rw [hc] at hs'
    rw [he s hs']
    split_ifs with hk
    · exact ⟨by simp [peerIdle], by simp [peerIdle, peerActivated, peerKilling]⟩
    · exact hs s hs' hk

/-- **A kill keeps the tables**, and the statuses when every static node agrees but the one whose
outbound it kills. -/
theorem StaticTables.peMgrKillInst (h : pm.StaticTables) {ptn : Nat} {dir : Int}
    (hs : ∀ s ∈ pm.cfg.staticNodes, ¬ pm.KillsStatic ptn dir s.ID → (pm.staticEntry s).Agrees)
    (node : Node) : (pm.peMgrKillInst ptn node dir).1.StaticsAgree := by
  unfold PeerManager.peMgrKillInst
  split
  · next hn =>
    exact ⟨h, fun s hs' => hs s hs' fun ⟨q, hq, _⟩ => by rw [hn] at hq; cases hq⟩
  · next p hg =>
    obtain ⟨rfl, -⟩ := h.heap _ _ hg
    dsimp only
    split_ifs with hd
    · refine ⟨h, fun s hs' => hs s hs' fun ⟨q, hq, hqd, _⟩ => hd ?_⟩
      rw [hg] at hq
      cases hq
      exact hqd
    · have hv := staticView_killPingpong pm p
      have hc : (pm.killPingpong p).cfg = pm.cfg := congrArg StaticView.cfg hv
      have hout := outView_inst_eq (congrArg StaticView.outs hv)
      have hk := (h.of_view hv).killInstMaps (by rw [killPingpong_peers]; exact hg) (hout p).symm
        fun s hs' ho => by
          rw [hc] at hs'
          rw [staticEntry_eq_of_view hv s hs']
          refine hs s hs' fun ⟨q, hq, _, hqo⟩ => ho ?_
          rw [hg] at hq
          cases hq
          rw [StaticOutOf, hout, hc]
          exact hqo
      exact (hk.of_view (staticView_resumeAccepter _)).of_view (staticView_setInst _ rfl)

theorem StaticsAgree.peMgrKillInst (h : pm.StaticsAgree) (ptn : Nat) (node : Node) (dir : Int) :
    (pm.peMgrKillInst ptn node dir).1.StaticsAgree :=
  h.toStaticTables.peMgrKillInst (fun s hs _ => h.status s hs) node

/-- **A status set for the peer of a handshake answer, then the kill of its instance, keeps the
invariant**: when the answer is about a static outbound, the kill sets its status idle again. -/
theorem StaticsAgree.kill_updateStaticStatus (h : pm.StaticsAgree) {p ptn : Nat}
    (hp : pm.peers.get? ptn = some p) {r : PeMgrErrno} {dir : Int} {snid : SubNetworkID}
    {peNode : Node} (hsn : (pm.inst p).snid = snid) (hd : (pm.inst p).dir = dir)
    (hm : pm.AnswerNames (.handshakeRsp r dir snid peNode ptn)) (node : Node) (st : Int) :
    ((pm.updateStaticStatus snid ⟨peNode.ID, dir⟩ st).peMgrKillInst ptn node
      (pm.inst p).dir).1.StaticsAgree := by
  refine (h.toStaticTables.updateStaticStatus _ _ _).peMgrKillInst (fun s hs' hk => ?_) node
  rw [updateStaticStatus_cfg] at hs'
  rw [staticEntry_updateStaticStatus]
  split_ifs with hc
  · obtain ⟨h1, -, h2⟩ := hc
    simp only [PeerIdEx.mk.injEq] at h2
    have hdo : (pm.inst p).dir = PeInstDirOutbound := hd.trans (h2.2.symm.trans rfl)
    have hid : (pm.inst p).node.ID = peNode.ID :=
      hm.2 p snid _ hp (outView_snd_eq_iff.mpr ⟨hdo, hsn, rfl⟩)
    unfold KillsStatic at hk
    refine absurd ⟨p, by rw [updateStaticStatus_peers]; exact hp,
      by rw [inst, updateStaticStatus_sch]; rfl, ?_⟩ hk
    rw [StaticOutOf, inst, updateStaticStatus_sch, updateStaticStatus_cfg, outView_snd_eq_iff]
    exact ⟨hdo, hsn.trans h1, hid.trans h2.1.symm⟩
  · exact h.status s hs'

/-! ### New instances -/

/-- A new instance `i` entered in `peers` under the heap's next task node keeps the tables, when
`nodes` holds it for the static node whose outbound it is, and held nothing there before. -/
theorem StaticTables.enter (h : pm.StaticTables) {pm' : PeerManager} (i : PeerInstance)
    (hptn : i.ptnMe = pm.sch.insts.length) (hc : pm'.cfg = pm.cfg)
    (hi : pm'.sch.insts = pm.sch.insts ++ [i])
    (hp : pm'.peers = pm.peers.set pm.sch.insts.length pm.sch.insts.length)
    (hr : pm'.randoms = pm.randoms) (hb : pm'.sch.mbox = pm.sch.mbox)
    (he : ∀ s ∈ pm.cfg.staticNodes, pm'.staticEntry s =
      if (outView i).2 = (PeInstDirOutbound, some (pm.cfg.staticSubNetId, s.ID)) then
        { pm.staticEntry s with node := some pm.sch.insts.length } else pm.staticEntry s)
    (hfresh : ∀ s ∈ pm.cfg.staticNodes,
      (outView i).2 = (PeInstDirOutbound, some (pm.cfg.staticSubNetId, s.ID)) →
        (pm.staticEntry s).node = none) :
    pm'.StaticTables := by
  have hinst : ∀ q < pm.sch.insts.length, pm'.inst q = pm.inst q := fun q hq => by
    rw [inst, inst, hi, List.getD_append _ _ _ _ hq]
  have hnew : pm'.inst pm.sch.insts.length = i := by
    rw [inst, hi, List.getD_append_right _ _ _ _ le_rfl, Nat.sub_self]
    rfl
  have hpeer : ∀ a, pm'.peers.get? a =
      if a = pm.sch.insts.length then some pm.sch.insts.length else pm.peers.get? a := fun a => by
    rw [hp, GoMap.get?_set]
  have hlen : pm'.sch.insts.length = pm.sch.insts.length + 1 := by simp [hi]
  refine ⟨hc ▸ h.distinct, fun a b hab => ?_, fun q hq => ?_, fun s hs => ?_, fun s hs q hw => ?_,
    fun s hs q hn => ?_, fun s hs q hpq hpo => ?_, fun n hn s hs => ?_, fun m hm => ?_⟩
  · rw [hlen]
    rw [hpeer] at hab
    split_ifs at hab with ha
    · cases hab
      exact ⟨ha.symm, by omega⟩
    · obtain ⟨hba, hlt⟩ := h.heap a b hab
      exact ⟨hba, by omega⟩
  · rw [hlen] at hq
    rcases Nat.lt_succ_iff_lt_or_eq.mp hq with hq | rfl
    · rw [hinst q hq]
      exact h.ptnMe q hq
    · rw [hnew]
      exact hptn
  · rw [hc] at hs
    rw [he s hs]
    split_ifs <;> exact h.known s hs
  · rw [hc] at hs
    rw [he s hs] at hw ⊢
    split_ifs at hw ⊢ with hk
    · exact absurd ((h.worker s hs q hw).symm.trans (hfresh s hs hk)) (by simp)
    · exact h.worker s hs q hw
  · rw [hc] at hs
    rw [he s hs] at hn
    split_ifs at hn with hk
    · cases hn
      refine ⟨by rw [hpeer, if_pos rfl], ?_⟩
      rw [StaticOutOf, hnew, hc]
      exact hk
    · obtain ⟨h1, h2⟩ := h.node s hs q hn
      have hlt := (h.heap q q h1).2
      refine ⟨by rw [hpeer, if_neg (Nat.ne_of_lt hlt)]; exact h1, ?_⟩
      rw [StaticOutOf, hinst q hlt, hc]
      exact h2
  · rw [hc] at hs
    rw [he s hs]
    rw [hpeer] at hpq
    split_ifs at hpq with hq
    · subst hq
      rw [StaticOutOf, hnew, hc] at hpo
      rw [if_pos hpo]
    · have hlt := (h.heap q q hpq).2
      rw [StaticOutOf, hinst q hlt, hc] at hpo
      split_ifs with hk
      · exact absurd ((h.unique s hs q hpq hpo).symm.trans (hfresh s hs hk)) (by simp)
      · exact h.unique s hs q hpq hpo
  · rw [hr, hc] at hn
    rw [hc] at hs
    exact h.randoms n hn s hs
  · rw [hb] at hm
    refine (h.answers m hm).mono (by omega) fun a b ha hab => ?_
    rw [hpeer, if_neg (Nat.ne_of_lt ha)] at hab
    exact ⟨hab, by rw [hinst b ((h.heap a b hab).1 ▸ ha)]⟩

/-- **An outbound instance's creation keeps the tables** when `nodes` holds nothing for the static
node of its peer in the static sub-network; `nodes` then holds the new instance there. -/
theorem StaticTables.peMgrCreateOutboundInst (h : pm.StaticTables) (snid : SubNetworkID)
    (node : Node) (hfresh : ∀ s ∈ pm.cfg.staticNodes, snid = pm.cfg.staticSubNetId →
      node.ID = s.ID → (pm.staticEntry s).node = none) :
    (pm.peMgrCreateOutboundInst snid node).Post fun r => r.1.StaticTables ∧ r.1.cfg = pm.cfg ∧
      ∀ s ∈ pm.cfg.staticNodes, r.1.staticEntry s =
        if r.2 = .none ∧ snid = pm.cfg.staticSubNetId ∧ node.ID = s.ID then
          { pm.staticEntry s with node := some pm.sch.insts.length } else pm.staticEntry s := by
  unfold PeerManager.peMgrCreateOutboundInst
  dsimp only
  split_ifs
  · exact ⟨h.of_view rfl, rfl, fun s _ => by rw [if_neg fun h' => by cases h'.1]; rfl⟩
  · split
    · next nodes hn =>
      have hhit : ∀ (s : Node) (t : Nat), (outView { peerInstDefault with
          ptnMe := t, state := peInstStateConnOut, dir := PeInstDirOutbound,
          snid := snid, node := node }).2 =
          (PeInstDirOutbound, some (pm.cfg.staticSubNetId, s.ID)) ↔
          snid = pm.cfg.staticSubNetId ∧ node.ID = s.ID := fun s t => by
        rw [outView_snd_eq_iff]
        simp
      have he : ∀ s : Node, (⟨nodes.get? pm.cfg.staticSubNetId ⟨s.ID, PeInstOutPos⟩,
          pm.workers.get? pm.cfg.staticSubNetId ⟨s.ID, PeInstOutPos⟩,
          pm.staticsStatus.get? ⟨s.ID, PeInstOutPos⟩⟩ : StaticEntry) =
          if snid = pm.cfg.staticSubNetId ∧ node.ID = s.ID then
            { pm.staticEntry s with node := some pm.sch.insts.length } else pm.staticEntry s :=
        fun s => by
          rw [PeerTab.get?_of_set hn]
          by_cases hk : snid = pm.cfg.staticSubNetId ∧ node.ID = s.ID
          · rw [if_pos hk, if_pos ⟨hk.1.symm, by rw [hk.2]; rfl⟩]
            rfl
          · rw [if_neg hk, if_neg fun h' => hk ⟨h'.1.symm, ?_⟩]
            · rfl
            · simp only [PeerIdEx.mk.injEq] at h'
              exact h'.2.1.symm
      refine ⟨h.enter _ rfl rfl rfl rfl rfl rfl (fun s _ => ?_) (fun s hs hk => ?_), rfl,
        fun s _ => ?_⟩
      · rw [if_congr (hhit s _) rfl rfl]
        exact he s
      · exact hfresh s hs ((hhit s _).mp hk).1 ((hhit s _).mp hk).2
      · rw [if_congr (and_iff_right rfl) rfl rfl]
        exact he s
    · trivial

theorem StaticsAgree.peMgrCreateOutboundInst (h : pm.StaticsAgree) (snid : SubNetworkID)
    (node : Node) (hn : ∀ s ∈ pm.cfg.staticNodes, snid = pm.cfg.staticSubNetId → node.ID ≠ s.ID) :
    (pm.peMgrCreateOutboundInst snid node).Post fun r => r.1.StaticsAgree ∧ r.1.cfg = pm.cfg :=
  (h.toStaticTables.peMgrCreateOutboundInst snid node fun s hs h1 h2 => absurd h2 (hn s hs h1)).mono
    fun _ ⟨ht, hc, he⟩ => ⟨h.of_tables ht hc fun s hs => by
      rw [he s hs, if_neg fun h' => hn s hs h'.2.1 h'.2.2], hc⟩

/-- **An accepted inbound keeps the invariant**: it is not an outbound. -/
theorem StaticsAgree.peMgrLsnConnAcceptedInd (h : pm.StaticsAgree) :
    pm.peMgrLsnConnAcceptedInd.1.StaticsAgree := by
  have hnot : ∀ (s : Node) (t : Nat), ¬ (outView { peerInstDefault with
      ptnMe := t, state := peInstStateAccepted, dir := PeInstDirInbound }).2 =
        (PeInstDirOutbound, some (pm.cfg.staticSubNetId, s.ID)) := fun s t h' => by
    have hd := (outView_snd_eq_iff.mp h').1
    simp [PeInstDirInbound, PeInstDirOutbound] at hd
  unfold PeerManager.peMgrLsnConnAcceptedInd
  dsimp only
  split_ifs
  · exact h.of_view rfl
  all_goals
    exact h.of_tables (h.toStaticTables.enter { peerInstDefault with
        ptnMe := pm.sch.insts.length, state := peInstStateAccepted, dir := PeInstDirInbound }
      rfl rfl rfl rfl rfl rfl
      (fun s _ => by rw [if_neg (hnot s _)]; rfl) fun s _ hk => absurd hk (hnot s _)) rfl
      fun _ _ => rfl

/-! ### Status updates of the handlers -/

/-- `workers` written for the live outbound of `id` in `snid`, and the status of that key set
activated, keep the invariant. -/
theorem StaticsAgree.enterOutbound (h : pm.StaticsAgree) {p : Nat} (hp : pm.peers.get? p = some p)
    {snid : SubNetworkID} {id : NodeID}
    (ho : (outView (pm.inst p)).2 = (PeInstDirOutbound, some (snid, id))) {workers : PeerTab}
    (hw : ∀ sn k, workers.get? sn k =
      if sn = snid ∧ k = ⟨id, PeInstDirOutbound⟩ then some p else pm.workers.get? sn k) :
    ({ pm with workers := workers }.updateStaticStatus snid ⟨id, PeInstDirOutbound⟩
      peerActivated).StaticsAgree := by
  have hkey : ∀ s : Node, (pm.cfg.staticSubNetId = snid ∧
      (⟨s.ID, PeInstOutPos⟩ : PeerIdEx) = ⟨id, PeInstDirOutbound⟩) ↔
        (snid = pm.cfg.staticSubNetId ∧
          (⟨s.ID, PeInstOutPos⟩ : PeerIdEx) = ⟨id, PeInstDirOutbound⟩) :=
    fun s => by rw [eq_comm]
  have hnode : ∀ s ∈ pm.cfg.staticNodes, snid = pm.cfg.staticSubNetId →
      (⟨s.ID, PeInstOutPos⟩ : PeerIdEx) = ⟨id, PeInstDirOutbound⟩ →
        (pm.staticEntry s).node = some p :=
    fun s hs h1 h2 => by
      simp only [PeerIdEx.mk.injEq] at h2
      exact h.unique s hs p hp (by rw [StaticOutOf, ho, h1, h2.1])
  have hwe : ∀ s : Node, ({ pm with workers := workers } : PeerManager).staticEntry s =
      if snid = pm.cfg.staticSubNetId ∧ (⟨s.ID, PeInstOutPos⟩ : PeerIdEx) = ⟨id, PeInstDirOutbound⟩
      then { pm.staticEntry s with worker := some p } else pm.staticEntry s := fun s => by
    simp only [staticEntry, hw, if_congr (hkey s) rfl rfl]
    split_ifs <;> rfl
  have ht : ({ pm with workers := workers } : PeerManager).StaticTables :=
    h.of_eq rfl rfl rfl rfl rfl (fun s _ => by rw [hwe]; split_ifs <;> rfl)
      (fun s hs q hq => by
        rw [hwe] at hq ⊢
        split_ifs at hq ⊢ with hk
        · cases hq
          exact hnode s hs hk.1 hk.2
        · exact h.worker s hs q hq)
      fun s hs => by rw [hwe]; split_ifs <;> exact h.known s hs
  refine ht.updateStaticStatus_agrees (fun s hs hk => ?_) fun s hs h1 h2 => ?_
  · rw [hwe, if_neg hk]
    exact h.status s hs
  · rw [hwe, if_pos ⟨h1, h2⟩]
    have hn := hnode s hs h1 h2
    exact ⟨by simp [hn, peerActivated, peerIdle], by simp [peerActivated]⟩

/-- A status set to killing for a key that `workers` holds keeps the invariant. -/
theorem StaticsAgree.markKilling (h : pm.StaticsAgree) {snid : SubNetworkID} {idEx : PeerIdEx}
    {p : Nat} (hw : pm.workers.get? snid idEx = some p) :
    (pm.updateStaticStatus snid idEx peerKilling).StaticsAgree := by
  refine h.toStaticTables.updateStaticStatus_agrees (fun s hs _ => h.status s hs)
    fun s hs h1 h2 => ?_
  have hw' : (pm.staticEntry s).worker = some p := by
    rw [staticEntry, h2, ← h1]
    exact hw
  have hn := h.worker s hs p hw'
  exact ⟨by simp [hn, peerKilling, peerIdle], by simp [hw', peerKilling]⟩

/-- Tables written only at keys of no static node's outbound keep the view. -/
theorem staticView_setTables (nodes workers : PeerTab)
    (hn : ∀ s ∈ pm.cfg.staticNodes, nodes.get? pm.cfg.staticSubNetId ⟨s.ID, PeInstOutPos⟩ =
      pm.nodes.get? pm.cfg.staticSubNetId ⟨s.ID, PeInstOutPos⟩)
    (hw : ∀ s ∈ pm.cfg.staticNodes, workers.get? pm.cfg.staticSubNetId ⟨s.ID, PeInstOutPos⟩ =
      pm.workers.get? pm.cfg.staticSubNetId ⟨s.ID, PeInstOutPos⟩) :
    ({ pm with nodes := nodes, workers := workers } : PeerManager).staticView = pm.staticView := by
  unfold staticView
  congr 1
  exact List.map_congr_left fun s hs => by simp only [staticEntry, hn s hs, hw s hs]

theorem get?_of_set_inPos {m m' : PeerTab} {snid : SubNetworkID} {id : NodeID} {v : Nat}
    (h : ∀ sn k, m'.get? sn k = if sn = snid ∧ k = ⟨id, PeInstInPos⟩ then some v else m.get? sn k)
    (sn : SubNetworkID) (x : NodeID) :
    m'.get? sn ⟨x, PeInstOutPos⟩ = m.get? sn ⟨x, PeInstOutPos⟩ := by
  rw [h, if_neg fun h' => by simp [PeInstOutPos, PeInstInPos] at h']

/-! ### The handlers -/

theorem StaticsAgree.indEnque (h : pm.StaticsAgree) (ind : PeInd) :
    (pm.peMgrIndEnque ind).Post StaticsAgree := by
  unfold peMgrIndEnque
  split_ifs
  · trivial
  · exact h.of_view rfl

theorem StaticsAgree.dynamicOutboundLoop (snid : SubNetworkID) (maxOutbound : Int) :
    ∀ (ns : List Node) {pm : PeerManager}, pm.StaticsAgree →
      (∀ n ∈ ns, ∀ s ∈ pm.cfg.staticNodes, snid = pm.cfg.staticSubNetId → n.ID ≠ s.ID) →
      (dynamicOutboundLoop snid maxOutbound ns pm).Post StaticsAgree
  | [], _, h, _ => h
  | n :: ns, pm, h, hns => by
    unfold PeerManager.dynamicOutboundLoop
    refine (h.peMgrCreateOutboundInst snid n (hns n (List.mem_cons_self _ _))).bind
      fun ⟨pm', eno⟩ ⟨h', hc⟩ => ?_
    have hns' : ∀ m ∈ ns, ∀ s ∈ pm'.cfg.staticNodes, snid = pm'.cfg.staticSubNetId → m.ID ≠ s.ID :=
      hc ▸ fun m hm => hns m (List.mem_cons_of_mem _ hm)
    dsimp only
    split_ifs
    · exact StaticsAgree.dynamicOutboundLoop snid maxOutbound ns h' hns'
    · exact h'
    · exact StaticsAgree.dynamicOutboundLoop snid maxOutbound ns h' hns'

theorem StaticsAgree.dynamicSubNetOutbound (h : pm.StaticsAgree) (snid : SubNetworkID) :
    (pm.peMgrDynamicSubNetOutbound snid).Post (·.1.StaticsAgree) := by
  unfold peMgrDynamicSubNetOutbound
  dsimp only
  split_ifs
  · exact h
  · exact h
  · have hr : ({ pm with randoms := pm.randoms.set snid [] } : PeerManager).StaticsAgree :=
      h.setRandoms fun n hn s hs => by
        rw [GoMap.get?_set] at hn
        split_ifs at hn
        · simp at hn
        · exact h.randoms n hn s hs
    refine Run.Post.bind (hr.dynamicOutboundLoop snid _ _ fun n hn s hs hS => ?_) fun pm' h' => ?_
    · rw [List.mem_filter] at hn
      rw [hS] at hn
      exact h.randoms n hn.1 s hs
    · split_ifs
      · exact h'.of_view (staticView_peMgrAsk4More _ _)
      · exact h'.of_view (staticView_peMgrAsk4More _ _)
      · exact h'

theorem staticEntry_congr {s t : Node} (h : s.ID = t.ID) : pm.staticEntry s = pm.staticEntry t := by
  rw [staticEntry, staticEntry, h]

/-- Of nodes with distinct identities, the one at `k` and one left after erasing `k` differ in
identity. -/
theorem id_ne_of_mem_eraseIdx {l : List Node} (hl : (l.map (·.ID)).Nodup) {k : Nat} {n c : Node}
    (hn : l[k]? = some n) (hc : c ∈ l.eraseIdx k) : c.ID ≠ n.ID := by
  obtain ⟨i, hik, hi⟩ := List.mem_eraseIdx_iff_getElem?.mp hc
  intro he
  have hi' : (l.map (·.ID))[i]? = some n.ID := by rw [List.getElem?_map, hi, Option.map_some', he]
  have hk' : (l.map (·.ID))[k]? = some n.ID := by rw [List.getElem?_map, hn, Option.map_some']
  have hil := (List.getElem?_eq_some_iff.mp hi').1
  have hkl := (List.getElem?_eq_some_iff.mp hk').1
  rcases Nat.lt_or_gt_of_ne hik with h | h
  · exact List.nodup_iff_getElem?_ne_getElem?.mp hl i k h hkl (hi'.trans hk'.symm)
  · exact List.nodup_iff_getElem?_ne_getElem?.mp hl k i h hil (hk'.trans hi'.symm)

/-- A static node that `nodes` holds nothing for has no worker. -/
theorem StaticTables.worker_eq_none (h : pm.StaticTables) {s : Node}
    (hs : s ∈ pm.cfg.staticNodes) (hn : (pm.staticEntry s).node = none) :
    (pm.staticEntry s).worker = none := by
  cases hq : (pm.staticEntry s).worker with
  | none => rfl
  | some q => exact absurd ((h.worker s hs q hq).symm.trans hn) (by simp)

section Round

/-! One round of the static outbound loop: the creation for the candidate `n` has returned
`(pm', eno)`, where `nodes` holds the new instance for `n` when `eno` is `PeMgrEnoNone` and nothing
else a static node reads has changed; the loop then sets the status of `n`. -/

variable (h : pm.StaticsAgree) {n : Node} (hns : n ∈ pm.cfg.staticNodes)
  (hnn : (pm.staticEntry n).node = none) {pm' : PeerManager} {eno : PeMgrErrno}
  (ht : pm'.StaticTables) (hc : pm'.cfg = pm.cfg)
  (he : ∀ s ∈ pm.cfg.staticNodes, pm'.staticEntry s =
    if eno = .none ∧ s.ID = n.ID then { pm.staticEntry s with node := some pm.sch.insts.length }
    else pm.staticEntry s)
include h ht hc he

/-- A failed creation changes no entry. -/
theorem StaticsAgree.created_failed (heno : eno ≠ .none) : pm'.StaticsAgree :=
  h.of_tables ht hc fun s hs => by rw [he s hs, if_neg fun hk => heno hk.1]

include hns hnn in
/-- After a failed creation, `n` set idle agrees. -/
theorem StaticsAgree.created_idle (heno : eno ≠ .none) :
    ({ pm' with staticsStatus := pm'.staticsStatus.set ⟨n.ID, PeInstOutPos⟩ peerIdle } :
      PeerManager).StaticsAgree := by
  have hA := h.created_failed ht hc he heno
  refine hA.toStaticTables.setStatus_agrees (fun s hs _ => hA.status s hs) fun s hs hk => ?_
  rw [hc] at hs
  have hid : s.ID = n.ID := by simpa using hk
  rw [he s hs, if_neg fun h' => heno h'.1, staticEntry_congr hid]
  exact StaticEntry.agrees_idle hnn (h.worker_eq_none hns hnn)

include hns hnn in
/-- After a creation, `n` set dialing agrees: `nodes` holds its new instance. -/
theorem StaticsAgree.created_dialing (heno : eno = .none) :
    ({ pm' with staticsStatus := pm'.staticsStatus.set ⟨n.ID, PeInstOutPos⟩ peerConnectOutInited } :
      PeerManager).StaticsAgree := by
  refine ht.setStatus_agrees (fun s hs hk => ?_) fun s hs hk => ?_
  · rw [hc] at hs
    rw [he s hs, if_neg fun h' => hk (by rw [h'.2])]
    exact h.status s hs
  · rw [hc] at hs
    have hid : s.ID = n.ID := by simpa using hk
    rw [he s hs, if_pos ⟨heno, hid⟩, staticEntry_congr hid]
    exact StaticEntry.agrees_dialing (h.worker_eq_none hns hnn)

end Round

/-- **The static outbound loop keeps the invariant** while its candidates are static nodes of
distinct identities that `nodes` holds nothing for: each creation is followed by its status. -/
theorem StaticsAgree.staticOutboundLoop (snid : SubNetworkID) :
    ∀ (cdNum : Nat) (candidates : List Node) {pm : PeerManager}, pm.StaticsAgree →
      snid = pm.cfg.staticSubNetId →
      (∀ c ∈ candidates, c ∈ pm.cfg.staticNodes ∧ (pm.staticEntry c).node = none) →
      (candidates.map (·.ID)).Nodup →
      (staticOutboundLoop snid cdNum candidates pm).Post StaticsAgree
  | 0, _, _, h, _, _, _ => h
  | cdNum + 1, candidates, pm, h, hS, hcand, hnd => by
    unfold PeerManager.staticOutboundLoop
    dsimp only
    split
    · trivial
    next n hn =>
    have hv := staticView_randIntn pm (cdNum + 1)
    have hr := h.of_view hv
    have he0 := staticEntry_eq_of_view hv
    obtain ⟨hns, hnn⟩ := hcand n (List.getElem?_mem hn)
    have hrest : ∀ c ∈ candidates.eraseIdx (pm.randIntn (cdNum + 1)).2,
        c ∈ pm.cfg.staticNodes ∧ (pm.staticEntry c).node = none ∧ c.ID ≠ n.ID := fun c hc =>
      ⟨(hcand c (List.mem_of_mem_eraseIdx hc)).1, (hcand c (List.mem_of_mem_eraseIdx hc)).2,
        id_ne_of_mem_eraseIdx hnd hn hc⟩
    have hnd' := hnd.sublist
      ((List.eraseIdx_sublist candidates (pm.randIntn (cdNum + 1)).2).map fun c : Node => c.ID)
    refine (hr.toStaticTables.peMgrCreateOutboundInst snid n fun s hs _ hid => ?_).bind
      fun ⟨pm', eno⟩ ⟨ht, hc, he⟩ => ?_
    · rw [he0 s hs, staticEntry_congr hid.symm]
      exact hnn
    have hc' : pm'.cfg = pm.cfg := hc.trans (congrArg StaticView.cfg hv)
    have he' : ∀ s ∈ pm.cfg.staticNodes, pm'.staticEntry s =
        if eno = .none ∧ s.ID = n.ID then { pm.staticEntry s with node := some pm.sch.insts.length }
        else pm.staticEntry s := fun s hs => by
      rw [he s hs, he0 s hs]
      split_ifs with h1 h2 h2
      · rfl
      · exact (h2 ⟨h1.1, h1.2.2.symm⟩).elim
      · exact (h1 ⟨h2.1, hS, h2.2.symm⟩).elim
      · rfl
    have hsame : ∀ s ∈ pm.cfg.staticNodes, s.ID ≠ n.ID → pm'.staticEntry s = pm.staticEntry s :=
      fun s hs hk => by rw [he' s hs, if_neg fun h' => hk h'.2]
    have hrec : ∀ X : PeerManager, X.StaticsAgree → X.cfg = pm.cfg →
        (∀ c ∈ candidates.eraseIdx (pm.randIntn (cdNum + 1)).2, (X.staticEntry c).node = none) →
        (PeerManager.staticOutboundLoop snid cdNum (candidates.eraseIdx (pm.randIntn (cdNum + 1)).2)
          X).Post StaticsAgree := fun X hX hXc hXn =>
      StaticsAgree.staticOutboundLoop snid cdNum _ hX (by rw [hXc]; exact hS)
        (fun c hc => ⟨by rw [hXc]; exact (hrest c hc).1, hXn c hc⟩) hnd'
    have hnone : ∀ c ∈ candidates.eraseIdx (pm.randIntn (cdNum + 1)).2,
        (pm'.staticEntry c).node = none := fun c hc => by
      rw [hsame c (hrest c hc).1 (hrest c hc).2.2]
      exact (hrest c hc).2.1
    dsimp only
    split_ifs with heno hcon hcnt
    · exact hrec _ (h.created_idle hns hnn ht hc' he' heno) hc' hnone
    · exact hrec _ (h.created_failed ht hc' he' heno) hc' hnone
    · exact h.created_dialing hns hnn ht hc' he' (not_not.mp heno)
    · exact hrec _ (h.created_dialing hns hnn ht hc' he' (not_not.mp heno)) hc' hnone

theorem StaticsAgree.staticSubNetOutbound (h : pm.StaticsAgree) :
    pm.peMgrStaticSubNetOutbound.Post (·.1.StaticsAgree) := by
  unfold peMgrStaticSubNetOutbound
  dsimp only
  split_ifs
  · exact h
  · exact h
  · exact h
  · refine Run.Post.bind (h.staticOutboundLoop _ _ _ rfl (fun c hc => ?_)
      (h.distinct.sublist ((List.filter_sublist _).map _))) fun pm' h' => ?_
    · simp only [List.mem_filter, decide_eq_true_eq, Option.isNone_iff_eq_none] at hc
      exact ⟨hc.1, hc.2.1⟩
    · split_ifs
      · exact h'.of_view (staticView_peMgrAsk4More _ _)
      · exact h'.of_view (staticView_peMgrAsk4More _ _)
      · exact h'

theorem StaticsAgree.dynamicOutboundAll :
    ∀ (ids : List SubNetworkID) {pm : PeerManager}, pm.StaticsAgree →
      (dynamicOutboundAll ids pm).Post (·.1.StaticsAgree)
  | [], _, h => h
  | id :: ids, pm, h => by
    unfold PeerManager.dynamicOutboundAll
    refine (h.dynamicSubNetOutbound id).bind fun ⟨pm', eno⟩ h' => ?_
    dsimp only
    split_ifs
    · exact h'
    · exact StaticsAgree.dynamicOutboundAll ids h'

theorem StaticsAgree.outboundReq (h : pm.StaticsAgree) (snid : Option SubNetworkID) :
    (pm.peMgrOutboundReq snid).Post (·.1.StaticsAgree) := by
  unfold peMgrOutboundReq
  split
  · exact h
  · cases snid with
    | none =>
      refine h.staticSubNetOutbound.bind fun ⟨pm', eno⟩ h' => ?_
      dsimp only
      split_ifs
      · exact h'
      · exact (StaticsAgree.dynamicOutboundAll _ h').bind fun ⟨pm'', eno'⟩ h'' => by
          dsimp only; split_ifs <;> exact h''
      · exact h'
    | some snid =>
      dsimp only
      split_ifs
      · exact h.staticSubNetOutbound
      · exact h.dynamicSubNetOutbound _
      · exact h.staticSubNetOutbound
      · exact h
      · exact h

theorem StaticsAgree.foldl_dcvFindNodeAdd (snid : SubNetworkID) :
    ∀ (nodes : List Node) (acc : PeerManager × Nat), acc.1.StaticsAgree →
      (nodes.foldl (dcvFindNodeAdd snid) acc).1.StaticsAgree
  | [], _, h => h
  | n :: nodes, acc, h => by
    rw [List.foldl_cons]
    refine StaticsAgree.foldl_dcvFindNodeAdd snid nodes _ ?_
    unfold dcvFindNodeAdd
    dsimp only
    split_ifs with h1 h2 h3
    · exact h
    · exact h
    · exact h
    · exact h
    · refine h.setRandoms fun m hm s hs => ?_
      rw [GoMap.get?_set] at hm
      split_ifs at hm with hS
      · rw [Option.getD_some, List.mem_append, List.mem_singleton] at hm
        rcases hm with hm | rfl
        · rw [← hS] at hm
          exact h.randoms m hm s hs
        · intro hid
          exact h3 (List.any_eq_true.mpr ⟨s, hs, by simp [hid, hS]⟩)
      · exact h.randoms m hm s hs

theorem StaticsAgree.dcvFindNodeRsp (h : pm.StaticsAgree) (snid : SubNetworkID)
    (nodes : List Node) : (pm.peMgrDcvFindNodeRsp snid nodes).1.StaticsAgree := by
  have hf := StaticsAgree.foldl_dcvFindNodeAdd snid nodes (pm, 0) h
  unfold peMgrDcvFindNodeRsp
  dsimp only
  split_ifs
  · exact h
  · exact hf.sendSelf trivial
  · exact hf

theorem StaticsAgree.dcvFindNodeTimerHandler (h : pm.StaticsAgree) (snid : SubNetworkID) :
    (pm.peMgrDcvFindNodeTimerHandler snid).1.StaticsAgree := by
  unfold peMgrDcvFindNodeTimerHandler
  dsimp only
  split_ifs
  · exact h
  · exact h.sendSelf trivial

theorem StaticsAgree.closeReq (h : pm.StaticsAgree) (snid : SubNetworkID) (node : Node)
    (dir : Int) : (pm.peMgrCloseReq snid node dir).1.StaticsAgree := by
  unfold peMgrCloseReq
  dsimp only
  split
  · exact h
  · next p hw =>
    split_ifs
    · exact h
    · exact (h.markKilling hw).of_view (staticView_sendInst _ _ _)

theorem StaticsAgree.connOutRsp (h : pm.StaticsAgree) (result : PeMgrErrno) (snid : SubNetworkID)
    (peNode : Node) (ptn : Nat) : (pm.peMgrConnOutRsp result snid peNode ptn).1.StaticsAgree := by
  unfold peMgrConnOutRsp
  dsimp only
  split_ifs
  · exact h.peMgrKillInst _ _ _
  · exact (h.peMgrKillInst _ _ _).sendSelf trivial
  · exact h
  · exact h.of_view rfl

theorem StaticsAgree.pingpongRsp (h : pm.StaticsAgree) (result : PeMgrErrno) (dir : Int)
    (peNode : Node) (ptn : Nat) : (pm.peMgrPingpongRsp result dir peNode ptn).1.StaticsAgree := by
  unfold peMgrPingpongRsp
  dsimp only
  split_ifs
  · exact h.peMgrKillInst _ _ _
  · exact h.peMgrKillInst _ _ _
  · exact h

theorem StaticsAgree.connClose (h : pm.StaticsAgree) (dir : Int) (snid : SubNetworkID)
    (peNode : Node) (ptn : Nat) :
    (pm.peMgrConnClose dir snid peNode ptn).Post (·.1.StaticsAgree) := by
  unfold peMgrConnClose
  dsimp only
  split_ifs
  · exact h.peMgrKillInst _ _ _
  · exact ((h.peMgrKillInst _ _ _).indEnque _).bind fun _ h' => h'.sendSelf trivial

theorem StaticsAgree.instStateCmpKill (h : pm.StaticsAgree) (p ptn : Nat) (snid : SubNetworkID)
    (node : Node) (idEx : PeerIdEx) : (pm.instStateCmpKill p ptn snid node idEx).Post fun r =>
      r.1.StaticsAgree ∧ (r.2 ≠ .duplicated → r.1 = pm) := by
  unfold PeerManager.instStateCmpKill
  split
  · exact ⟨h, fun _ => rfl⟩
  · refine Run.Post.bind (Run.post_true _) fun cmp _ => ?_
    dsimp only
    have hq : (if cmp < 0 then (pm, true) else if cmp > 0 then (pm, false)
        else pm.randCoin).1.StaticsAgree := by
      split_ifs
      · exact h
      · exact h
      · exact h.of_view (staticView_randCoin pm)
    generalize (if cmp < 0 then (pm, true) else if cmp > 0 then (pm, false) else pm.randCoin) = q
      at hq ⊢
    split_ifs <;> first
      | exact ⟨(hq.peMgrKillInst _ _ _).sendSelf trivial, fun h' => absurd rfl h'⟩
      | exact ⟨hq.peMgrKillInst _ _ _, fun h' => absurd rfl h'⟩

theorem StaticsAgree.handshakeRspAdmit (h : pm.StaticsAgree) (p ptn : Nat) (snid : SubNetworkID) :
    (pm.peMgrHandshakeRspAdmit p ptn snid).Post (·.1.StaticsAgree) := by
  unfold peMgrHandshakeRspAdmit
  dsimp only
  refine Run.Post.bind (StaticsAgree.indEnque ?_ _) fun _ h' => h'
  exact h.of_view ((staticView_setInst_state (pm.sendInst ptn .establishedInd) p
    peInstStateActivated).trans (staticView_sendInst pm ptn .establishedInd))

theorem StaticsAgree.handshakeRspInbound (h : pm.StaticsAgree) (p ptn : Nat) (snid : SubNetworkID)
    (peNode : Node) (maxInbound : Int) :
    (pm.peMgrHandshakeRspInbound p ptn snid peNode maxInbound).Post (·.1.StaticsAgree) := by
  have enter : ∀ X : PeerManager, X.StaticsAgree → (do
      let nodes ← X.nodes.set snid ⟨peNode.ID, PeInstInPos⟩ p
      let workers ← X.workers.set snid ⟨peNode.ID, PeInstInPos⟩ p
      ({ X with nodes := nodes, workers := workers, ibpNum := bump X.ibpNum snid 1 } :
        PeerManager).peMgrHandshakeRspAdmit p ptn snid : Run (PeerManager × PeMgrErrno)).Post
        (·.1.StaticsAgree) := fun X hX =>
    (PeerTab.post_set _ _ _ _).bind fun nodes hn =>
      (PeerTab.post_set _ _ _ _).bind fun workers hw =>
        StaticsAgree.handshakeRspAdmit (show ({ X with
          nodes := nodes, workers := workers, ibpNum := bump X.ibpNum snid 1 } :
            PeerManager).StaticsAgree from
            hX.of_view (staticView_setTables nodes workers (fun _ _ => get?_of_set_inPos hn _ _)
              fun _ _ => get?_of_set_inPos hw _ _)) _ _ _
  unfold peMgrHandshakeRspInbound
  dsimp only
  split_ifs
  · exact h.peMgrKillInst _ _ _
  · exact (PeerTab.post_set _ _ _ _).bind fun w1 hw1 => enter { pm with workers := w1 }
      (h.of_view (staticView_setTables pm.nodes w1 (fun _ _ => rfl)
        fun _ _ => get?_of_set_inPos hw1 _ _))
  · exact h.peMgrKillInst _ _ _
  · exact h.peMgrKillInst _ _ _
  · refine (h.instStateCmpKill _ _ _ _ _).bind fun ⟨x, e⟩ hx => ?_
    dsimp only
    split_ifs
    · exact hx.1
    · exact enter x hx.1

theorem StaticsAgree.handshakeRspOutbound (h : pm.StaticsAgree) {p ptn : Nat}
    (hp : pm.peers.get? p = some p) {snid : SubNetworkID} {peNode : Node}
    (ho : (outView (pm.inst p)).2 = (PeInstDirOutbound, some (snid, peNode.ID)))
    (maxOutbound : Int) :
    (pm.peMgrHandshakeRspOutbound p ptn snid peNode maxOutbound).Post (·.1.StaticsAgree) := by
  have enter : ∀ w0 : PeerTab, (∀ sn k, ¬ (sn = snid ∧ k = ⟨peNode.ID, PeInstDirOutbound⟩) →
      w0.get? sn k = pm.workers.get? sn k) → (do
      let workers ← w0.set snid ⟨peNode.ID, PeInstDirOutbound⟩ p
      ({ pm with workers := workers }.updateStaticStatus snid ⟨peNode.ID, PeInstDirOutbound⟩
        peerActivated).peMgrHandshakeRspAdmit p ptn snid : Run (PeerManager × PeMgrErrno)).Post
        (·.1.StaticsAgree) := fun w0 hw0 =>
    (PeerTab.post_set _ _ _ _).bind fun w hw => StaticsAgree.handshakeRspAdmit
      (h.enterOutbound hp ho fun sn k => by
        rw [hw]
        split_ifs with hk
        · rfl
        · exact hw0 sn k hk) _ _ _
  unfold peMgrHandshakeRspOutbound
  dsimp only
  split_ifs
  · exact h.peMgrKillInst _ _ _
  · exact (PeerTab.post_set _ _ _ _).bind fun w1 hw1 => enter w1 fun sn k hk => by
      rw [hw1]
      exact if_neg hk
  · exact h.peMgrKillInst _ _ _
  · exact h.peMgrKillInst _ _ _
  · refine (h.instStateCmpKill _ _ _ _ _).bind fun ⟨x, e⟩ hx => ?_
    dsimp only
    split_ifs with hd
    · exact hx.1
    · have hxe : x = pm := hx.2 hd
      subst hxe
      exact enter x.workers fun _ _ _ => rfl

/-- **A handshake answer's handler keeps the invariant** when the answer names its peer. -/
theorem StaticsAgree.handshakeRsp (h : pm.StaticsAgree) {result : PeMgrErrno} {dir : Int}
    {snid : SubNetworkID} {peNode : Node} {ptn : Nat}
    (hm : pm.AnswerNames (.handshakeRsp result dir snid peNode ptn)) :
    (pm.peMgrHandshakeRsp result dir snid peNode ptn).Post (·.1.StaticsAgree) := by
  unfold peMgrHandshakeRsp
  split
  · exact h
  · next p hp =>
    dsimp only
    by_cases h1 : (pm.inst p).snid ≠ snid ∨ (pm.inst p).dir ≠ dir
    · rw [if_pos h1]
      exact h
    rw [if_neg h1]
    obtain ⟨hsn, hd⟩ := not_or.mp h1
    have hsn := not_not.mp hsn
    have hd := not_not.mp hd
    have hk := h.kill_updateStaticStatus hp hsn hd hm peNode peerKilling
    have hpp : pm.peers.get? p = some p := (h.heap _ _ hp).1 ▸ hp
    split_ifs with h2 h3 h4 h5 h6
    · exact hk.sendSelf trivial
    · exact hk
    · exact hk
    · exact h.handshakeRspInbound _ _ _ _ _
    · refine h.handshakeRspOutbound hpp (outView_snd_eq_iff.mpr ⟨h6, hsn, ?_⟩) _
      exact hm.2 p snid _ hp (outView_snd_eq_iff.mpr ⟨h6, hsn, rfl⟩)
    · exact h.handshakeRspAdmit _ _ _

theorem StaticsAgree.peMgrStartReq (h : pm.StaticsAgree) : pm.peMgrStartReq.1.StaticsAgree :=
  StaticsAgree.of_view (by
    split_ifs
    · exact (h.of_view (staticView_send pm _)).sendSelf trivial
    · exact h.sendSelf trivial) (staticView_peMgrStartReq pm)

/-- **Every handler keeps the invariant.** -/
theorem StaticsAgree.peerMgrProc (h : pm.StaticsAgree) (m : PeMgrMsg) (hm : pm.AnswerNames m) :
    (pm.peerMgrProc m).Post (·.2.StaticsAgree) := by
  have key : ∀ r : Run (PeerManager × PeMgrErrno), r.Post (·.1.StaticsAgree) →
      (r >>= fun d => match d with
        | (pm, eno) => pure (if eno ≠ .none then SchErrno.userTask else .none, pm)).Post
          (·.2.StaticsAgree) :=
    fun r hr => by rw [Run.post_bind]; exact hr.mono fun ⟨_, _⟩ h' => h'
  unfold PeerManager.peerMgrProc
  cases m with
  | startReq => exact key _ h.peMgrStartReq
  | dcvFindNodeRsp snid nodes => exact key _ (h.dcvFindNodeRsp snid nodes)
  | dcvFindNodeTimer snid => exact key _ (h.dcvFindNodeTimerHandler snid)
  | lsnConnAcceptedInd => exact key _ h.peMgrLsnConnAcceptedInd
  | outboundReq snid => exact key _ (h.outboundReq snid)
  | connOutRsp result snid peNode ptn => exact key _ (h.connOutRsp result snid peNode ptn)
  | handshakeRsp result dir snid peNode ptn => exact key _ (h.handshakeRsp hm)
  | pingpongRsp result dir peNode ptn => exact key _ (h.pingpongRsp result dir peNode ptn)
  | closeReq snid node dir => exact key _ (h.closeReq snid node dir)
  | closeCfm _ dir snid peNode ptn => exact key _ (h.connClose dir snid peNode ptn)
  | closeInd _ dir snid peNode ptn => exact key _ (h.connClose dir snid peNode ptn)

/-! ### The steps of the other tasks -/

theorem length_eq_of_view {pm' : PeerManager} (hv : pm'.staticView = pm.staticView) :
    pm'.sch.insts.length = pm.sch.insts.length := by
  have hm : pm'.sch.insts.map outView = pm.sch.insts.map outView := congrArg StaticView.outs hv
  simpa using congrArg List.length hm

/-- The handshake answer of the instance at `p` names its peer. -/
theorem StaticsAgree.sendAnswer (h : pm.StaticsAgree) {p : Nat} (hp : p < pm.sch.insts.length)
    (r : PeMgrErrno) : (pm.sendSelf (.handshakeRsp r (pm.inst p).dir (pm.inst p).snid
      (pm.inst p).node (pm.inst p).ptnMe)).StaticsAgree := by
  have hme := h.ptnMe p hp
  refine h.sendSelf ⟨by rw [hme]; exact hp, fun q sn id hq ho => ?_⟩
  rw [hme] at hq
  obtain ⟨rfl, -⟩ := h.heap p q hq
  exact ((outView_snd_eq_iff.mp ho).2.2).symm

variable (pm) in
theorem staticView_piHandshakeInbound {p : Nat} (hd : (pm.inst p).dir = PeInstDirInbound)
    (rd : Except PeMgrErrno (SubNetworkID × NodeID)) (wr : PeMgrErrno) :
    (pm.piHandshakeInbound p rd wr).1.staticView = pm.staticView := by
  have ho : ∀ i : PeerInstance, i.ptnMe = (pm.inst p).ptnMe → i.dir = (pm.inst p).dir →
      outView i = outView (pm.inst p) := fun i h1 h2 => by
    have hne : ¬ (pm.inst p).dir = PeInstDirOutbound := by rw [hd]; decide
    simp only [outView, h1, h2, if_neg hne]
  unfold piHandshakeInbound
  split
  · rfl
  · dsimp only
    split_ifs
    · rfl
    · exact staticView_setInst _ (ho _ rfl rfl)
    · exact staticView_setInst _ (ho _ rfl rfl)

variable (pm) in
theorem staticView_piHandshakeOutbound (p : Nat) (rd : Except PeMgrErrno (SubNetworkID × NodeID))
    (wr : PeMgrErrno) : (pm.piHandshakeOutbound p rd wr).1.staticView = pm.staticView := by
  unfold piHandshakeOutbound
  split_ifs
  · rfl
  · split
    · rfl
    · dsimp only
      split_ifs
      · rfl
      · rfl
      · exact staticView_setInst_state _ _ _

theorem StaticsAgree.piHandshakeReq (h : pm.StaticsAgree) {p : Nat} (hp : p < pm.sch.insts.length)
    (rd : Except PeMgrErrno (SubNetworkID × NodeID)) (wr : PeMgrErrno) :
    (pm.piHandshakeReq p rd wr).StaticsAgree := by
  unfold PeerManager.piHandshakeReq
  dsimp only
  split_ifs with h1 h2
  · exact h
  · have hv := staticView_piHandshakeInbound pm h2 rd wr
    exact (h.of_view hv).sendAnswer (by rw [length_eq_of_view hv]; exact hp) _
  · have hv := staticView_piHandshakeOutbound pm p rd wr
    exact (h.of_view hv).sendAnswer (by rw [length_eq_of_view hv]; exact hp) _
  · exact h.sendAnswer hp _

theorem StaticsAgree.piProc (h : pm.StaticsAgree) (p : Nat) (a : PiAnswers) {pm' : PeerManager}
    (hs : pm.piProc p a = some pm') : pm'.StaticsAgree := by
  unfold PeerManager.piProc at hs
  split_ifs at hs with hp
  split at hs
  · cases hs
  next _ m _ =>
  obtain rfl := Option.some.inj hs
  have hpX : p < ({ pm with sch := { pm.sch with ibox := pm.sch.ibox.erase (p, m) } } :
      PeerManager).sch.insts.length := by
    show p < pm.sch.insts.length
    omega
  have he : StaticsAgree { pm with sch := { pm.sch with ibox := pm.sch.ibox.erase (p, m) } } :=
    h.of_view rfl
  generalize { pm with sch := { pm.sch with ibox := pm.sch.ibox.erase (p, m) } } = X at he hpX ⊢
  cases m with
  | connOutReq =>
    unfold PeerManager.piConnOutReq
    dsimp only
    split_ifs
    · exact he
    all_goals exact (he.of_view (staticView_setInst_state _ _ _)).sendSelf trivial
  | handshakeReq => exact he.piHandshakeReq hpX _ _
  | establishedInd =>
    unfold PeerManager.piEstablishedInd
    dsimp only
    split_ifs
    · exact he
    · refine StaticsAgree.sendSelf (he.of_view ((staticView_setInst _ ?_).trans ?_)) ?_
      all_goals first | rfl | trivial
    · refine he.of_view ((staticView_setInst _ ?_).trans ?_)
      all_goals rfl
  | closeReq =>
    unfold PeerManager.piCloseReq
    dsimp only
    split_ifs
    · exact he
    · refine StaticsAgree.sendSelf (he.of_view (staticView_setInst _ ?_)) ?_
      all_goals first | rfl | trivial

/-- **Every step keeps the invariant.** -/
theorem StaticsAgree.step (h : pm.StaticsAgree) {ev : PeEvent} {r : Run PeerManager}
    (hs : pm.step ev = some r) : r.Post StaticsAgree := by
  cases ev with
  | mgrProc ans =>
    cases hbox : pm.sch.mbox with
    | nil => simp [PeerManager.step, PeerManager.mgrProc, hbox] at hs
    | cons m ms =>
      simp only [PeerManager.step, PeerManager.mgrProc, hbox, Option.some.injEq] at hs
      subst hs
      rw [Run.post_map]
      have hpop : StaticsAgree { pm with sch := { pm.sch with mbox := ms, ans := ans } } :=
        { h with
          answers := fun m' hm' => h.answers m' (by rw [hbox]; exact List.mem_cons_of_mem _ hm') }
      exact hpop.peerMgrProc m (h.answers m (by rw [hbox]; exact List.mem_cons_self _ _))
  | piProc p a =>
    obtain ⟨pm', hp, rfl⟩ := Option.map_eq_some'.mp hs
    exact h.piProc p a hp
  | piIoFailure p =>
    obtain ⟨pm', hp, rfl⟩ := Option.map_eq_some'.mp hs
    unfold PeerManager.piIoFailure at hp
    dsimp only at hp
    split_ifs at hp
    cases hp
    refine h.sendSelf ?_
    trivial
  | lsnConnAccepted => cases hs; refine h.sendSelf ?_; trivial
  | dcvFindNodeRsp snid nodes => cases hs; refine h.sendSelf ?_; trivial
  | closePeer snid id => cases hs; refine (h.sendSelf ?_).sendSelf ?_ <;> trivial
  | findNodeTimer tid =>
    obtain ⟨pm', hp, rfl⟩ := Option.map_eq_some'.mp hs
    unfold PeerManager.findNodeTimer at hp
    split at hp
    · cases hp
      refine StaticsAgree.sendSelf (h.of_view ?_) ?_
      all_goals first | rfl | trivial
    · cases hp
  | indTake =>
    unfold PeerManager.step at hs
    split_ifs at hs
    cases hs
    exact h.of_view rfl

/-! ### The configuration is constant -/

variable (pm) in
@[simp] theorem resumeAccepter_cfg : pm.resumeAccepter.cfg = pm.cfg := by
  unfold resumeAccepter; split_ifs <;> rfl

variable (pm) in
@[simp] theorem peMgrKillInst_cfg (ptn : Nat) (node : Node) (dir : Int) :
    (pm.peMgrKillInst ptn node dir).1.cfg = pm.cfg := by
  unfold peMgrKillInst
  split
  · rfl
  · dsimp only
    split_ifs
    · rfl
    · simp only [setInst, resumeAccepter_cfg, updateStaticStatus_cfg, killInstMaps_cfg]
      exact congrArg Ledger.cfg (ledger_killPingpong pm _)

variable (pm) in
@[simp] theorem peMgrLsnConnAcceptedInd_cfg : pm.peMgrLsnConnAcceptedInd.1.cfg = pm.cfg := by
  unfold peMgrLsnConnAcceptedInd; dsimp only; split_ifs <;> rfl

/-- No handler writes the configuration. -/
theorem stable_cfg (c : PeMgrConfig) : Stable (·.cfg = c) where
  ledger h he := (congrArg Ledger.cfg he).trans h
  sendSelf _ _ h := h
  kill ptn node dir h := (peMgrKillInst_cfg _ ptn node dir).trans h
  create _ _ h := by
    unfold peMgrCreateOutboundInst; dsimp only
    split_ifs
    · exact h
    · split
      · exact h
      · trivial
  accept h := (peMgrLsnConnAcceptedInd_cfg _).trans h

/-- **No step writes the configuration.** -/
theorem step_cfg {ev : PeEvent} {r : Run PeerManager} (hs : pm.step ev = some r) :
    r.Post (·.cfg = pm.cfg) := by
  cases ev with
  | mgrProc ans =>
    cases hbox : pm.sch.mbox with
    | nil => simp [PeerManager.step, PeerManager.mgrProc, hbox] at hs
    | cons m ms =>
      cases hm : m.isStartReq
      · exact (stable_cfg pm.cfg).mgrProc hbox hm rfl hs
      · cases m <;> simp only [PeMgrMsg.isStartReq, Bool.false_eq_true] at hm
        cases step_mgrProc_startReq hbox hs
        exact (congrArg Ledger.cfg (ledger_peMgrStartReq _)).trans (by split_ifs <;> rfl)
  | _ => exact (stable_cfg pm.cfg).step_of_not_mgrProc rfl (fun _ => PeEvent.noConfusion) hs

/-! ### Power-on -/

/-- The tables at power-on hold an empty map for each sub-network. -/
theorem get?_foldl_set_empty (snids : List SubNetworkID) :
    ∀ m : PeerTab, (∀ snid idEx, m.get? snid idEx = none) →
      ∀ snid idEx, PeerTab.get? (snids.foldl (fun m s => GoMap.set m s ∅) m) snid idEx = none := by
  induction snids with
  | nil => exact fun _ h => h
  | cons t ts ih =>
    refine fun m h => ih _ fun snid idEx => ?_
    simp only [PeerTab.get?, GoMap.get?_set]
    split_ifs
    · rfl
    · exact h snid idEx

/-- The statuses at power-on: each static node is idle outbound. -/
theorem get?_foldl_set_idle (l : List Node) (m : GoMap PeerIdEx Int) (x : NodeID) :
    (l.foldl (fun m sn => (m.set ⟨sn.ID, PeInstOutPos⟩ peerIdle).set ⟨sn.ID, PeInstInPos⟩ peerIdle)
      m).get? ⟨x, PeInstOutPos⟩ =
      if x ∈ l.map (·.ID) then some peerIdle else m.get? ⟨x, PeInstOutPos⟩ := by
  induction l generalizing m with
  | nil => simp
  | cons t ts ih =>
    rw [List.foldl_cons, ih]
    by_cases hx : x = t.ID <;> simp [hx, PeInstOutPos, PeInstInPos]

theorem staticsAgree_peMgrPoweron (cfg : Cfg4PeerManager) (dflt : SubNetDefaults)
    (hd : ((peMgrPoweron cfg dflt).cfg.staticNodes.map (·.ID)).Nodup) :
    (peMgrPoweron cfg dflt).StaticsAgree := by
  have hn := get?_foldl_set_empty (poweronSubNets (poweronConfig cfg dflt)) ∅ fun _ _ => rfl
  have he : ∀ s ∈ (peMgrPoweron cfg dflt).cfg.staticNodes,
      (peMgrPoweron cfg dflt).staticEntry s = ⟨none, none, some peerIdle⟩ := fun s hs => by
    have hs' : s.ID ∈ (peMgrPoweron cfg dflt).cfg.staticNodes.map (·.ID) := List.mem_map_of_mem _ hs
    simp only [staticEntry, StaticEntry.mk.injEq]
    exact ⟨hn _ _, hn _ _, (get?_foldl_set_idle _ ∅ s.ID).trans (if_pos hs')⟩
  exact
    { distinct := hd
      heap := fun _ _ h => nomatch h
      ptnMe := fun _ h => absurd h (Nat.not_lt_zero _)
      known := fun s hs => by rw [he s hs]; rfl
      worker := fun s hs _ hw => by rw [he s hs] at hw; cases hw
      node := fun s hs _ hw => by rw [he s hs] at hw; cases hw
      unique := fun _ _ _ h => nomatch h
      randoms := fun _ h => nomatch h
      answers := fun m hm => by rw [List.mem_singleton.mp hm]; trivial
      status := fun s hs => by
        rw [he s hs]
        exact @StaticEntry.agrees_idle ⟨none, none, none⟩ rfl rfl }

/-! ### Every reachable state -/

/-- **The static invariant holds in every reachable state** of a manager whose static nodes have
distinct identities. -/
theorem reachable_staticsAgree {pm : PeerManager} (h : Reachable pm)
    (hd : (pm.cfg.staticNodes.map (·.ID)).Nodup) : pm.StaticsAgree := by
  induction h with
  | init cfg dflt => exact staticsAgree_peMgrPoweron cfg dflt hd
  | @step pm pm' ev _ hs ih =>
    have hc : pm'.cfg = pm.cfg := step_cfg hs
    exact (ih (hc ▸ hd)).step hs

/-- A static node has an outbound in `nodes` exactly when it has a live outbound instance. -/
theorem StaticsAgree.node_eq_none_iff (h : pm.StaticsAgree) {s : Node}
    (hs : s ∈ pm.cfg.staticNodes) :
    (pm.staticEntry s).node = none ↔ ¬ ∃ p, pm.live p ∧ (pm.inst p).dir = PeInstDirOutbound ∧
      (pm.inst p).snid = pm.cfg.staticSubNetId ∧ (pm.inst p).node.ID = s.ID := by
  constructor
  · rintro hn ⟨p, hl, ho⟩
    obtain ⟨v, hv⟩ := (GoMap.contains_iff _ _).mp hl
    obtain ⟨rfl, -⟩ := h.heap p v hv
    rw [h.unique s hs v hv ((staticOutOf_iff pm).mpr ho)] at hn
    cases hn
  · intro hno
    cases hn : (pm.staticEntry s).node with
    | none => rfl
    | some p =>
      obtain ⟨hp, ho⟩ := h.node s hs p hn
      exact absurd ⟨p, (GoMap.contains_iff _ _).mpr ⟨p, hp⟩, (staticOutOf_iff pm).mp ho⟩ hno

end PeerManager

open PeerManager in
/-- **The statuses of the static nodes follow their outbound instances**: in every reachable
state of a manager whose static nodes have distinct identities, a static node's outbound status is
idle exactly when `nodes` holds no outbound of it, activated or killing exactly when `workers`
holds the outbound `nodes` holds, and it passes the candidate test of `peMgrStaticSubNetOutbound`
exactly when it has no live outbound instance. -/
theorem reachable_staticsStatus {pm : PeerManager} (h : Reachable pm)
    (hd : (pm.cfg.staticNodes.map (·.ID)).Nodup) : ∀ s ∈ pm.cfg.staticNodes,
      ((pm.staticsStatus.get? ⟨s.ID, PeInstOutPos⟩).getD 0 = peerIdle ↔
          pm.nodes.get? pm.cfg.staticSubNetId ⟨s.ID, PeInstOutPos⟩ = none) ∧
      ((pm.staticsStatus.get? ⟨s.ID, PeInstOutPos⟩).getD 0 = peerActivated ∨
          (pm.staticsStatus.get? ⟨s.ID, PeInstOutPos⟩).getD 0 = peerKilling ↔
        ∃ p, pm.nodes.get? pm.cfg.staticSubNetId ⟨s.ID, PeInstOutPos⟩ = some p ∧
          pm.workers.get? pm.cfg.staticSubNetId ⟨s.ID, PeInstOutPos⟩ = some p) ∧
      ((pm.nodes.get? pm.cfg.staticSubNetId ⟨s.ID, PeInstOutPos⟩).isNone ∧
          (pm.staticsStatus.get? ⟨s.ID, PeInstOutPos⟩).getD 0 = peerIdle ↔
        ¬ ∃ p, pm.live p ∧ (pm.inst p).dir = PeInstDirOutbound ∧
          (pm.inst p).snid = pm.cfg.staticSubNetId ∧ (pm.inst p).node.ID = s.ID) := by
  intro s hs
  have hA := reachable_staticsAgree h hd
  have hag := hA.status s hs
  have hw : (pm.staticEntry s).worker.isSome ↔
      ∃ p, (pm.staticEntry s).node = some p ∧ (pm.staticEntry s).worker = some p := by
    refine ⟨fun hw => ?_, fun ⟨p, _, hp⟩ => by rw [hp]; rfl⟩
    obtain ⟨p, hp⟩ := Option.isSome_iff_exists.mp hw
    exact ⟨p, hA.worker s hs p hp, hp⟩
  refine ⟨hag.idle, hag.active.trans hw, ?_⟩
  rw [← hA.node_eq_none_iff hs, Option.isNone_iff_eq_none]
  exact ⟨And.left, fun hn => ⟨hn, hag.idle.mpr hn⟩⟩

/-- A dynamic node of `exampleSnid` with the one static node `peerId 9` in `staticSnid`, where it
dials one outbound. -/
def staticDialCfg : Cfg4PeerManager :=
  { exampleCfg with
    StaticMaxPeers := 4, StaticMaxOutbounds := 1, StaticMaxInBounds := 1,
    StaticNodes := [Node.ofId (peerId 9)], StaticNetId := staticSnid }

/-- The start dials the static node; the dial and the handshake succeed and the instance is
activated. -/
def staticDialRun : List PeEvent :=
  startRun ++ [.piProc 0 dialSucceeds, .mgrProc allGranted, .piProc 0 (staticHandshakeWith 9),
    .mgrProc allGranted]

/-- After `staticDialRun`, a user closes the static peer: the manager marks it killing, the
instance closes, and its close confirmation kills it. -/
def staticCloseRun : List PeEvent :=
  staticDialRun ++ [.closePeer staticSnid (peerId 9), .mgrProc allGranted, .mgrProc allGranted,
    .piProc 0 dialSucceeds, .piProc 0 dialSucceeds, .mgrProc allGranted]

/-- The static node's status follows its outbound: activated with its worker once dialed and
handshaken, and idle with no instance once closed and killed. -/
theorem reachable_staticsStatus_dialed :
    (∃ pm, Reachable pm ∧ pm.cfg.staticNodes = [Node.ofId (peerId 9)] ∧
      (pm.staticsStatus.get? ⟨peerId 9, PeInstOutPos⟩).getD 0 = peerActivated ∧
      (pm.cfg.staticNodes.map (·.ID)).Nodup ∧ ∀ s ∈ pm.cfg.staticNodes,
      ((pm.staticsStatus.get? ⟨s.ID, PeInstOutPos⟩).getD 0 = peerIdle ↔
          pm.nodes.get? pm.cfg.staticSubNetId ⟨s.ID, PeInstOutPos⟩ = none) ∧
      ((pm.staticsStatus.get? ⟨s.ID, PeInstOutPos⟩).getD 0 = peerActivated ∨
          (pm.staticsStatus.get? ⟨s.ID, PeInstOutPos⟩).getD 0 = peerKilling ↔
        ∃ p, pm.nodes.get? pm.cfg.staticSubNetId ⟨s.ID, PeInstOutPos⟩ = some p ∧
          pm.workers.get? pm.cfg.staticSubNetId ⟨s.ID, PeInstOutPos⟩ = some p) ∧
      ((pm.nodes.get? pm.cfg.staticSubNetId ⟨s.ID, PeInstOutPos⟩).isNone ∧
          (pm.staticsStatus.get? ⟨s.ID, PeInstOutPos⟩).getD 0 = peerIdle ↔
        ¬ ∃ p, pm.live p ∧ (pm.inst p).dir = PeInstDirOutbound ∧
          (pm.inst p).snid = pm.cfg.staticSubNetId ∧ (pm.inst p).node.ID = s.ID)) ∧
    (∃ pm, Reachable pm ∧ pm.cfg.staticNodes = [Node.ofId (peerId 9)] ∧
      (pm.inst 0).state = peInstStateKilled ∧
      (pm.staticsStatus.get? ⟨peerId 9, PeInstOutPos⟩).getD 0 = peerIdle ∧
      (pm.cfg.staticNodes.map (·.ID)).Nodup ∧ ∀ s ∈ pm.cfg.staticNodes,
      ((pm.staticsStatus.get? ⟨s.ID, PeInstOutPos⟩).getD 0 = peerIdle ↔
          pm.nodes.get? pm.cfg.staticSubNetId ⟨s.ID, PeInstOutPos⟩ = none) ∧
      ((pm.staticsStatus.get? ⟨s.ID, PeInstOutPos⟩).getD 0 = peerActivated ∨
          (pm.staticsStatus.get? ⟨s.ID, PeInstOutPos⟩).getD 0 = peerKilling ↔
        ∃ p, pm.nodes.get? pm.cfg.staticSubNetId ⟨s.ID, PeInstOutPos⟩ = some p ∧
          pm.workers.get? pm.cfg.staticSubNetId ⟨s.ID, PeInstOutPos⟩ = some p) ∧
      ((pm.nodes.get? pm.cfg.staticSubNetId ⟨s.ID, PeInstOutPos⟩).isNone ∧
          (pm.staticsStatus.get? ⟨s.ID, PeInstOutPos⟩).getD 0 = peerIdle ↔
        ¬ ∃ p, pm.live p ∧ (pm.inst p).dir = PeInstDirOutbound ∧
          (pm.inst p).snid = pm.cfg.staticSubNetId ∧ (pm.inst p).node.ID = s.ID)) := by
  have hdial : (runEvents (peMgrPoweron staticDialCfg exampleDefaults) staticDialRun).map
      (fun pm => decide (pm.cfg.staticNodes = [Node.ofId (peerId 9)]) &&
        decide ((pm.staticsStatus.get? ⟨peerId 9, PeInstOutPos⟩).getD 0 = peerActivated)) =
          some true := by
    decide
  have hclose : (runEvents (peMgrPoweron staticDialCfg exampleDefaults) staticCloseRun).map
      (fun pm => decide (pm.cfg.staticNodes = [Node.ofId (peerId 9)]) &&
        decide ((pm.inst 0).state = peInstStateKilled) &&
        decide ((pm.staticsStatus.get? ⟨peerId 9, PeInstOutPos⟩).getD 0 = peerIdle)) =
          some true := by
    decide
  obtain ⟨pm, h, hc⟩ := (Reachable.init _ _).exists_of_runEvents _ hdial
  obtain ⟨pm', h', hc'⟩ := (Reachable.init _ _).exists_of_runEvents _ hclose
  simp only [Bool.and_eq_true, decide_eq_true_eq] at hc hc'
  have hd : (pm.cfg.staticNodes.map (·.ID)).Nodup := by rw [hc.1]; exact List.nodup_singleton _
  have hd' : (pm'.cfg.staticNodes.map (·.ID)).Nodup := by
    rw [hc'.1.1]; exact List.nodup_singleton _
  exact ⟨⟨pm, h, hc.1, hc.2, hd, reachable_staticsStatus h hd⟩,
    ⟨pm', h', hc'.1.1, hc'.1.2, hc'.2, hd', reachable_staticsStatus h' hd'⟩⟩

end Gyee.Peer
