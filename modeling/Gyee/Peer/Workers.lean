import Gyee.Peer.Frame
import Gyee.Peer.Statics

/-! # The worker tables

`workers[snid]` holds the instances `peMgrHandshakeRsp` admitted to `snid`, keyed by peer and
direction, and `wrkNum[snid]` counts them: in every reachable state `wrkNum[snid]` is the number of
entries of `workers[snid]`, and that number is within the peer cap `hsCaps` resolves for `snid`
(`reachable_workers_counted`). An admission writes a key that is not there and adds one, and a
kill deletes the key of the killed instance and takes one off only when the key is there. The
count is of the table, not of the live activated instances, which a kill can leave unlisted.

Outside the static sub-network the admitted outbounds stay below the outbound cap
(`reachable_outbounds_below_cap`): `peMgrHandshakeRsp` rejects an outbound when `obpNum[snid]` is
at the cap, and `obpNum[snid]` counts every live outbound of `snid`, the one handshaking included.
So the last outbound slot of a dynamic sub-network is never filled.

The invariant (`TablesOk`) reads little of the state (`tableView`): `peers`, what each instance is
for the counters and whether it was admitted or killed (`tabView`), `workers`, `wrkNum`, the
configuration, and the instances the instance tasks' mailboxes ask to close. A change that keeps
the view keeps the invariant. The changes that do not are proved once each: an instance written,
a new instance, a kill, a new worker, an admission and a close request. -/

namespace Gyee.Peer

open Gyee

/-- An admitted instance: activated, or killing since. -/
def admitted (i : PeerInstance) : Bool :=
  i.state = peInstStateActivated ∨ i.state = peInstStateKilling

/-- An instance that no step takes back to before its admission: admitted or killed. -/
def settled (i : PeerInstance) : Bool := admitted i || decide (i.state = peInstStateKilled)

/-- An admitted outbound instance of the sub-network `snid`. -/
def isAdmittedOutboundOf (snid : SubNetworkID) (i : PeerInstance) : Bool :=
  isOutboundOf snid i && admitted i

/-- What the tables invariant reads of an instance: its task node, what the counters read of it,
whether it was admitted and whether it was killed. -/
def tabView (i : PeerInstance) : Nat × (Int × Option SubNetworkID) × Bool × Bool :=
  (i.ptnMe, acct i, admitted i, decide (i.state = peInstStateKilled))

theorem settled_congr {i j : PeerInstance} (h : tabView i = tabView j) : settled i = settled j := by
  simp only [tabView, Prod.mk.injEq] at h
  rw [settled, settled, h.2.2.1, h.2.2.2]

theorem isAdmittedOutboundOf_congr {i j : PeerInstance} (h : tabView i = tabView j)
    (snid : SubNetworkID) : isAdmittedOutboundOf snid i = isAdmittedOutboundOf snid j := by
  simp only [tabView, Prod.mk.injEq] at h
  rw [isAdmittedOutboundOf, isAdmittedOutboundOf, isOutboundOf_congr h.2.1 snid, h.2.2.1]

/-- The view of an instance whose state is written depends on the state only. -/
theorem tabView_with_state {i j : PeerInstance} (h : tabView i = tabView j) (s : Int) :
    tabView { i with state := s } = tabView { j with state := s } := by
  simp only [tabView, Prod.mk.injEq, and_true] at h ⊢
  exact ⟨h.1, h.2.1, rfl⟩

/-- What the tables invariant reads of the state. -/
structure TableView where
  cfg : PeMgrConfig
  peers : GoMap Nat Nat
  insts : List (Nat × (Int × Option SubNetworkID) × Bool × Bool)
  workers : PeerTab
  wrkNum : GoMap SubNetworkID Int
  closes : List Nat

namespace PeerManager

variable (pm : PeerManager)

/-- The view of the state. -/
def tableView : TableView :=
  ⟨pm.cfg, pm.peers, pm.sch.insts.map tabView, pm.workers, pm.wrkNum, pm.closeTargets⟩

/-- The number of live admitted outbound instances of `snid`. -/
def admittedOutboundCount (snid : SubNetworkID) : Nat := pm.liveCount (isAdmittedOutboundOf snid)

/-- The worker tables: each live task node is its own instance on the heap, each instance knows
its task node and is inbound or outbound, `wrkNum[snid]` counts `workers[snid]`, which stays
within the peer cap, the workers and the instances asked to close are admitted or killed, and
outside the static sub-network fewer outbounds than the cap are admitted. -/
structure TablesOk : Prop where
  heap : ∀ b ∈ pm.peers.bindings, b.2 = b.1 ∧ b.1 < pm.sch.insts.length
  ptnMe : ∀ p < pm.sch.insts.length, (pm.inst p).ptnMe = p
  dirs : ∀ p < pm.sch.insts.length,
    (pm.inst p).dir = PeInstDirInbound ∨ (pm.inst p).dir = PeInstDirOutbound
  counted : ∀ snid, cnt pm.wrkNum snid = pm.workers.size snid
  capped : ∀ snid, (pm.workers.size snid : Int) ≤ max (pm.hsCaps snid).2.2 0
  workers : ∀ snid k p, pm.workers.get? snid k = some p →
    p < pm.sch.insts.length ∧ settled (pm.inst p)
  closes : ∀ p ∈ pm.closeTargets, p < pm.sch.insts.length ∧ settled (pm.inst p)
  outbounds : ∀ snid, pm.isStaticSubNetId snid = false →
    pm.admittedOutboundCount snid = 0 ∨
      (pm.admittedOutboundCount snid : Int) < (pm.hsCaps snid).2.1

variable {pm}

/-! ### Transport along changes that keep what the invariant reads -/

theorem hsCaps_congr {pm' : PeerManager} (hc : pm'.cfg = pm.cfg) (snid : SubNetworkID) :
    pm'.hsCaps snid = pm.hsCaps snid := by
  simp only [hsCaps, staticSubNetIdExist, dynamicSubNetIdExist, hc]

theorem isStaticSubNetId_congr {pm' : PeerManager} (hc : pm'.cfg = pm.cfg) (snid : SubNetworkID) :
    pm'.isStaticSubNetId snid = pm.isStaticSubNetId snid := by
  simp only [isStaticSubNetId, staticSubNetIdExist, hc]

theorem tabView_inst_eq {pm' : PeerManager}
    (h : pm'.sch.insts.map tabView = pm.sch.insts.map tabView) (p : Nat) :
    tabView (pm'.inst p) = tabView (pm.inst p) := by
  rw [inst, inst, ← List.getD_map _ _ tabView, ← List.getD_map _ _ tabView, h]

theorem liveCount_eq_of_view {pm' : PeerManager} {Q : PeerInstance → Bool}
    (hQ : ∀ i j, tabView i = tabView j → Q i = Q j) (hv : pm'.tableView = pm.tableView) :
    pm'.liveCount Q = pm.liveCount Q := by
  have hp : pm'.peers = pm.peers := congrArg TableView.peers hv
  have hi : pm'.sch.insts.map tabView = pm.sch.insts.map tabView := congrArg TableView.insts hv
  simp only [liveCount, hp]
  exact List.countP_congr fun b _ => by rw [hQ _ _ (tabView_inst_eq hi b.2)]

theorem TablesOk.of_view {pm' : PeerManager} (h : pm.TablesOk) (hv : pm'.tableView = pm.tableView) :
    pm'.TablesOk := by
  have hc : pm'.cfg = pm.cfg := congrArg TableView.cfg hv
  have hp : pm'.peers = pm.peers := congrArg TableView.peers hv
  have hi : pm'.sch.insts.map tabView = pm.sch.insts.map tabView := congrArg TableView.insts hv
  have hw : pm'.workers = pm.workers := congrArg TableView.workers hv
  have hn : pm'.wrkNum = pm.wrkNum := congrArg TableView.wrkNum hv
  have hcl : pm'.closeTargets = pm.closeTargets := congrArg TableView.closes hv
  have hl : pm'.sch.insts.length = pm.sch.insts.length := by simpa using congrArg List.length hi
  have ht := tabView_inst_eq hi
  have hpt : ∀ p, (pm'.inst p).ptnMe = (pm.inst p).ptnMe := fun p => congrArg Prod.fst (ht p)
  have hd : ∀ p, (pm'.inst p).dir = (pm.inst p).dir := fun p => congrArg (·.2.1.1) (ht p)
  have hs : ∀ p, settled (pm'.inst p) = settled (pm.inst p) := fun p => settled_congr (ht p)
  refine ⟨fun b hb => ?_, fun p hlt => ?_, fun p hlt => ?_, fun snid => ?_, fun snid => ?_,
    fun snid k p hk => ?_, fun p hm => ?_, fun snid hS => ?_⟩
  · rw [hl]; exact h.heap b (hp ▸ hb)
  · rw [hpt]; exact h.ptnMe p (hl ▸ hlt)
  · rw [hd]; exact h.dirs p (hl ▸ hlt)
  · rw [hn, hw]; exact h.counted snid
  · rw [hw, hsCaps_congr hc]; exact h.capped snid
  · rw [hl, hs]; exact h.workers snid k p (hw ▸ hk)
  · rw [hl, hs]; exact h.closes p (hcl ▸ hm)
  · rw [admittedOutboundCount,
      liveCount_eq_of_view (fun _ _ hij => isAdmittedOutboundOf_congr hij snid) hv, hsCaps_congr hc]
    exact h.outbounds snid (by rwa [isStaticSubNetId_congr hc] at hS)

/-! ### Changes that keep the view -/

/-- What the invariant reads is part of the core view. -/
theorem tableView_of_core {pm' : PeerManager} (h : pm'.coreView = pm.coreView) :
    pm'.tableView = pm.tableView := by
  have hi : (pm'.sch.insts.map instCore).map (fun c => (c.1, (c.2.1,
      if c.2.1 = PeInstDirOutbound then some c.2.2.1 else none),
      decide (c.2.2.2.2 = peInstStateActivated ∨ c.2.2.2.2 = peInstStateKilling),
      decide (c.2.2.2.2 = peInstStateKilled))) = (pm.sch.insts.map instCore).map _ :=
    congrArg _ (congrArg CoreView.insts h)
  simp only [List.map_map] at hi
  simp only [tableView, TableView.mk.injEq]
  exact ⟨congrArg CoreView.cfg h, congrArg CoreView.peers h, hi, congrArg CoreView.workers h,
    congrArg CoreView.wrkNum h, congrArg CoreView.closes h⟩

theorem TablesOk.of_core {pm' : PeerManager} (h : pm.TablesOk) (hv : pm'.coreView = pm.coreView) :
    pm'.TablesOk :=
  h.of_view (tableView_of_core hv)

variable (pm)

@[simp] theorem tableView_sendSelf (m : PeMgrMsg) : (pm.sendSelf m).tableView = pm.tableView := rfl

/-- A message other than a close request to an instance task keeps the view. -/
theorem tableView_sendInst (p : Nat) {m : PiMsg} (hm : m ≠ .closeReq) :
    (pm.sendInst p m).tableView = pm.tableView := by
  simp only [tableView, closeTargets_sendInst, if_neg hm, List.append_nil]
  rfl

/-- Writing an instance that reads as the old one keeps the view. -/
theorem tableView_setInst {p : Nat} {i : PeerInstance} (h : tabView i = tabView (pm.inst p)) :
    (pm.setInst p i).tableView = pm.tableView := by
  have hm : (pm.sch.insts.set p i).map tabView = pm.sch.insts.map tabView := by
    rw [List.map_set, h, inst, ← List.getD_map _ _ tabView, set_getD_self]
  unfold tableView
  rw [show (pm.setInst p i).sch.insts = pm.sch.insts.set p i from rfl, hm]
  rfl

/-! ### Counting live instances -/

theorem inst_setInst (p q : Nat) (i : PeerInstance) :
    (pm.setInst p i).inst q = if q = p ∧ p < pm.sch.insts.length then i else pm.inst q := by
  by_cases hq : q = p
  · subst hq
    by_cases hl : q < pm.sch.insts.length
    · simp [inst, setInst, hl]
    · rw [if_neg fun h => hl h.2, inst, inst, setInst,
        List.set_eq_of_length_le (Nat.le_of_not_lt hl)]
  · simp only [inst, setInst, hq, false_and, if_false, List.getD_eq_getElem?_getD,
      List.getElem?_set_ne (Ne.symm hq)]

variable {pm}

theorem liveCount_setInst_le {p : Nat} {i : PeerInstance} {Q : PeerInstance → Bool}
    (hq : Q i = true → Q (pm.inst p) = true) : (pm.setInst p i).liveCount Q ≤ pm.liveCount Q :=
  List.countP_mono_left fun b _ hb => by
    rw [inst_setInst] at hb
    split_ifs at hb with h
    · exact h.1 ▸ hq hb
    · exact hb

theorem liveCount_setInst {p : Nat} {i : PeerInstance} {Q : PeerInstance → Bool}
    (hq : Q i = Q (pm.inst p)) : (pm.setInst p i).liveCount Q = pm.liveCount Q :=
  List.countP_congr fun b _ => by
    rw [inst_setInst]
    split_ifs with h
    · rw [hq, h.1]
    · rfl

theorem admittedOutboundCount_le (snid : SubNetworkID) :
    pm.admittedOutboundCount snid ≤ pm.liveCount (isOutboundOf snid) :=
  List.countP_mono_left fun _ _ h => by
    rw [isAdmittedOutboundOf, Bool.and_eq_true] at h
    exact h.1

/-! ### An instance written -/

/-- **Writing an instance keeps the invariant** when it keeps the instance's task node and what
the counters read of it, does not take it back before its admission, and, when it makes it an
admitted outbound of a sub-network outside the static one, the live outbounds of that sub-network
are below its cap or it was admitted already. -/
theorem TablesOk.setInst (h : pm.TablesOk) {p : Nat} {i : PeerInstance}
    (hpt : i.ptnMe = (pm.inst p).ptnMe) (ha : acct i = acct (pm.inst p))
    (hs : settled (pm.inst p) = true → settled i = true)
    (ho : ∀ snid, pm.isStaticSubNetId snid = false → isAdmittedOutboundOf snid i = true →
      isAdmittedOutboundOf snid (pm.inst p) = true ∨
        (pm.liveCount (isOutboundOf snid) : Int) < (pm.hsCaps snid).2.1) :
    (pm.setInst p i).TablesOk := by
  have hl : (pm.setInst p i).sch.insts.length = pm.sch.insts.length := List.length_set _ _ _
  have hsq : ∀ q, settled (pm.inst q) = true → settled ((pm.setInst p i).inst q) = true :=
    fun q hq => by
      rw [inst_setInst]
      split_ifs with hqp
      · exact hs (hqp.1 ▸ hq)
      · exact hq
  refine ⟨fun b hb => hl ▸ h.heap b hb, fun q hq => ?_, fun q hq => ?_, h.counted, h.capped,
    fun snid k q hk => ?_, fun q hq => ?_, fun snid hS => ?_⟩
  · rw [inst_setInst]; split_ifs with hqp
    · rw [hpt, ← hqp.1]; exact h.ptnMe q (hl ▸ hq)
    · exact h.ptnMe q (hl ▸ hq)
  · have hd : i.dir = (pm.inst p).dir := congrArg Prod.fst ha
    rw [inst_setInst]; split_ifs with hqp
    · rw [hd, ← hqp.1]; exact h.dirs q (hl ▸ hq)
    · exact h.dirs q (hl ▸ hq)
  · obtain ⟨hlt, hq⟩ := h.workers snid k q hk
    exact ⟨hl ▸ hlt, hsq q hq⟩
  · obtain ⟨hlt, hq'⟩ := h.closes q hq
    exact ⟨hl ▸ hlt, hsq q hq'⟩
  · have hout := h.outbounds snid hS
    have hob : (pm.setInst p i).liveCount (isOutboundOf snid) = pm.liveCount (isOutboundOf snid) :=
      liveCount_setInst (isOutboundOf_congr ha snid)
    by_cases hi : isAdmittedOutboundOf snid i = true
    · rcases ho snid hS hi with hp | hlt
      · rw [admittedOutboundCount, liveCount_setInst (hi.trans hp.symm)]
        exact hout
      · have := @admittedOutboundCount_le (pm.setInst p i) snid
        right
        show ((pm.setInst p i).admittedOutboundCount snid : Int) < (pm.hsCaps snid).2.1
        omega
    · have := @liveCount_setInst_le pm p i (isAdmittedOutboundOf snid) fun h' => absurd h' hi
      show (pm.setInst p i).admittedOutboundCount snid = 0 ∨
        ((pm.setInst p i).admittedOutboundCount snid : Int) < (pm.hsCaps snid).2.1
      unfold admittedOutboundCount at hout ⊢
      omega

theorem TablesOk.heap_get? (h : pm.TablesOk) {a b : Nat} (hg : pm.peers.get? a = some b) :
    b = a ∧ a < pm.sch.insts.length :=
  h.heap (a, b) (GoMap.mem_of_get? hg)

/-! ### A new instance -/

theorem inst_append_of_lt {pm' : PeerManager} {i : PeerInstance}
    (hi : pm'.sch.insts = pm.sch.insts ++ [i]) {q : Nat} (hq : q < pm.sch.insts.length) :
    pm'.inst q = pm.inst q := by
  simp only [inst, hi]
  exact List.getD_append _ _ _ _ hq

theorem inst_append_self {pm' : PeerManager} {i : PeerInstance}
    (hi : pm'.sch.insts = pm.sch.insts ++ [i]) : pm'.inst pm.sch.insts.length = i := by
  simp only [inst, hi]
  rw [List.getD_append_right _ _ _ _ le_rfl, Nat.sub_self]
  rfl

/-- The heap's next task node is not live. -/
theorem TablesOk.get?_length (h : pm.TablesOk) : pm.peers.get? pm.sch.insts.length = none := by
  cases hg : pm.peers.get? pm.sch.insts.length with
  | none => rfl
  | some v => exact absurd (h.heap_get? hg).2 (lt_irrefl _)

/-- A new instance entered under the heap's next task node is counted once more when it passes
`Q`. -/
theorem TablesOk.liveCount_enter (h : pm.TablesOk) {pm' : PeerManager} {i : PeerInstance}
    (hi : pm'.sch.insts = pm.sch.insts ++ [i])
    (hp : pm'.peers = pm.peers.set pm.sch.insts.length pm.sch.insts.length)
    (Q : PeerInstance → Bool) : pm'.liveCount Q = pm.liveCount Q + if Q i then 1 else 0 := by
  simp only [liveCount, hp, GoMap.countP_set_of_get?_none _ h.get?_length, inst_append_self hi]
  congr 1
  exact List.countP_congr fun b hb => by
    rw [inst_append_of_lt hi ((h.heap b hb).1 ▸ (h.heap b hb).2)]

/-- **A new instance keeps the invariant**: entered in `peers` under the heap's next task node,
knowing it, inbound or outbound, and neither admitted nor killed. -/
theorem TablesOk.enter (h : pm.TablesOk) {pm' : PeerManager} {i : PeerInstance}
    (hi : pm'.sch.insts = pm.sch.insts ++ [i])
    (hp : pm'.peers = pm.peers.set pm.sch.insts.length pm.sch.insts.length)
    (hc : pm'.cfg = pm.cfg) (hw : pm'.workers = pm.workers) (hn : pm'.wrkNum = pm.wrkNum)
    (hcl : pm'.closeTargets = pm.closeTargets) (hpt : i.ptnMe = pm.sch.insts.length)
    (hd : i.dir = PeInstDirInbound ∨ i.dir = PeInstDirOutbound) (hs : settled i = false) :
    pm'.TablesOk := by
  have hl : pm'.sch.insts.length = pm.sch.insts.length + 1 := by simp [hi]
  have hat : ∀ q < pm.sch.insts.length + 1, ∀ P : PeerInstance → Prop,
      (q < pm.sch.insts.length → P (pm.inst q)) → (q = pm.sch.insts.length → P i) →
        P (pm'.inst q) := fun q hq P hlt heq => by
    rcases Nat.lt_or_ge q pm.sch.insts.length with hq' | hq'
    · rw [inst_append_of_lt hi hq']; exact hlt hq'
    · rw [show q = pm.sch.insts.length by omega, inst_append_self hi]; exact heq (by omega)
  refine ⟨fun b hb => ?_, fun q hq => hat q (hl ▸ hq) (·.ptnMe = q) (h.ptnMe q) (· ▸ hpt),
    fun q hq => hat q (hl ▸ hq) (fun j => j.dir = PeInstDirInbound ∨ j.dir = PeInstDirOutbound)
      (h.dirs q) fun _ => hd, by rw [hn, hw]; exact h.counted,
    by rw [hw, funext (hsCaps_congr hc)]; exact h.capped, fun snid k q hk => ?_, fun q hq => ?_,
    fun snid hS => ?_⟩
  · rw [hp] at hb
    simp only [GoMap.set, GoMap.delete, List.mem_append, List.mem_filter, List.mem_singleton] at hb
    rcases hb with ⟨hb, -⟩ | rfl
    · exact ⟨(h.heap b hb).1, by have := (h.heap b hb).2; omega⟩
    · exact ⟨rfl, by omega⟩
  · obtain ⟨hlt, hq⟩ := h.workers snid k q (hw ▸ hk)
    exact ⟨by omega, inst_append_of_lt hi hlt ▸ hq⟩
  · obtain ⟨hlt, hq'⟩ := h.closes q (hcl ▸ hq)
    exact ⟨by omega, inst_append_of_lt hi hlt ▸ hq'⟩
  · have hQ : isAdmittedOutboundOf snid i = false := by
      simp only [settled, Bool.or_eq_false_iff] at hs
      simp [isAdmittedOutboundOf, hs.1]
    rw [admittedOutboundCount, h.liveCount_enter hi hp, hQ, funext (hsCaps_congr hc)]
    exact h.outbounds snid (by rwa [isStaticSubNetId_congr hc] at hS)

/-! ### A kill -/

variable (pm) in
theorem killInstMaps_peers (ptn : Nat) (i : PeerInstance) :
    (pm.killInstMaps ptn i).peers =
      if i.dir = PeInstDirOutbound ∨ i.dir = PeInstDirInbound then pm.peers.delete ptn
      else pm.peers := by
  simp only [killInstMaps, dropWorker, dropOutbound, dropInbound, apply_ite PeerManager.peers,
    ite_self]
  split_ifs <;> simp_all

variable (pm) in
theorem killInstMaps_work (ptn : Nat) (i : PeerInstance) :
    (pm.killInstMaps ptn i).workers = (pm.dropWorker i.snid ⟨i.node.ID, i.dir⟩).workers ∧
      (pm.killInstMaps ptn i).wrkNum = (pm.dropWorker i.snid ⟨i.node.ID, i.dir⟩).wrkNum := by
  simp only [killInstMaps, dropOutbound, dropInbound, apply_ite PeerManager.workers,
    apply_ite PeerManager.wrkNum, ite_self, and_self]

/-- Deleting a worker's key and taking one off its count keep the count. -/
theorem dropWorker_counted (hc : ∀ snid, cnt pm.wrkNum snid = pm.workers.size snid)
    (snid : SubNetworkID) (idEx : PeerIdEx) (s : SubNetworkID) :
    cnt (pm.dropWorker snid idEx).wrkNum s = (pm.dropWorker snid idEx).workers.size s ∧
      (pm.dropWorker snid idEx).workers.size s ≤ pm.workers.size s := by
  have hd := PeerTab.size_delete pm.workers snid idEx s
  unfold dropWorker
  split_ifs with hw
  · simp only [cnt_bump, hc]
    by_cases hs : s = snid
    · subst hs
      simp only [hw, and_self, if_true] at hd ⊢
      constructor <;> omega
    · simp only [hs, false_and, if_false, Nat.add_zero] at hd ⊢
      exact ⟨by rw [hd], hd.le⟩
  · exact ⟨hc s, le_rfl⟩

/-- **The cleaning of a kill keeps the invariant**, whatever instance it is given: it deletes
`peers` entries, and a worker's key with its count. -/
theorem TablesOk.killInstMaps (h : pm.TablesOk) (ptn : Nat) (i : PeerInstance) :
    (pm.killInstMaps ptn i).TablesOk := by
  have hsch := killInstMaps_sch pm ptn i
  have hsub : (pm.killInstMaps ptn i).peers.bindings.Sublist pm.peers.bindings := by
    rw [killInstMaps_peers]
    split_ifs
    · exact List.filter_sublist _
    · exact List.Sublist.refl _
  have hinst : ∀ q, (pm.killInstMaps ptn i).inst q = pm.inst q := fun q => by
    simp only [inst, hsch]
  obtain ⟨hw, hn⟩ := killInstMaps_work pm ptn i
  have hcnt := dropWorker_counted h.counted i.snid ⟨i.node.ID, i.dir⟩
  refine ⟨fun b hb => hsch ▸ h.heap b (hsub.subset hb), fun q hq => ?_, fun q hq => ?_,
    fun s => ?_, fun s => ?_, fun s k q hk => ?_, fun q hq => ?_, fun s hS => ?_⟩
  · rw [hinst]; exact h.ptnMe q (hsch ▸ hq)
  · rw [hinst]; exact h.dirs q (hsch ▸ hq)
  · rw [hw, hn]; exact (hcnt s).1
  · rw [hw, hsCaps_congr (killInstMaps_cfg pm ptn i)]
    exact le_trans (Int.ofNat_le.mpr (hcnt s).2) (h.capped s)
  · rw [killInstMaps_workers_get?] at hk
    split_ifs at hk
    rw [hinst, hsch]
    exact h.workers s k q hk
  · rw [hinst, hsch]
    exact h.closes q (by rwa [closeTargets, hsch] at hq)
  · have hle : (pm.killInstMaps ptn i).admittedOutboundCount s ≤ pm.admittedOutboundCount s := by
      unfold admittedOutboundCount liveCount
      simp only [hinst]
      exact hsub.countP_le _
    rw [hsCaps_congr (killInstMaps_cfg pm ptn i)]
    rw [isStaticSubNetId_congr (killInstMaps_cfg pm ptn i)] at hS
    have := h.outbounds s hS
    omega

/-- **A kill keeps the invariant**: its cleaning, and the killed instance marked killed. -/
theorem TablesOk.peMgrKillInst (h : pm.TablesOk) (ptn : Nat) (node : Node) (dir : Int) :
    (pm.peMgrKillInst ptn node dir).1.TablesOk := by
  unfold PeerManager.peMgrKillInst
  split
  · exact h
  · next p _ =>
    dsimp only
    split_ifs
    · exact h
    · refine TablesOk.setInst ?_ rfl rfl (fun _ => by simp [settled]) fun _ _ hq => ?_
      · exact ((h.of_core (coreView_killPingpong pm p)).killInstMaps ptn (pm.inst p)).of_core
          (by simp)
      · simp [isAdmittedOutboundOf, admitted, peInstStateKilled, peInstStateActivated,
          peInstStateKilling] at hq

theorem TablesOk.indEnque (h : pm.TablesOk) (ind : PeInd) : (pm.peMgrIndEnque ind).Post TablesOk := by
  unfold peMgrIndEnque
  split_ifs
  · trivial
  · exact h.of_view rfl

/-! ### New instances and close requests -/

theorem TablesOk.sendSelf (h : pm.TablesOk) (m : PeMgrMsg) : (pm.sendSelf m).TablesOk :=
  h.of_view rfl

theorem TablesOk.send (h : pm.TablesOk) (m : PeMgrOut) : (pm.send m).TablesOk := h.of_view rfl

theorem TablesOk.peMgrCreateOutboundInst (h : pm.TablesOk) (snid : SubNetworkID) (node : Node) :
    (pm.peMgrCreateOutboundInst snid node).Post (·.1.TablesOk) := by
  unfold PeerManager.peMgrCreateOutboundInst
  dsimp only
  split_ifs
  · exact h.of_view rfl
  · split
    · exact h.enter rfl rfl rfl rfl rfl
        (congrArg TableView.closes (tableView_sendInst _ _ (m := .connOutReq) nofun)) rfl (.inr rfl)
        rfl
    · trivial

theorem TablesOk.peMgrLsnConnAcceptedInd (h : pm.TablesOk) :
    pm.peMgrLsnConnAcceptedInd.1.TablesOk := by
  unfold PeerManager.peMgrLsnConnAcceptedInd
  dsimp only
  split_ifs
  · exact h.of_view rfl
  on_goal 1 => refine .send ?_ _
  all_goals
    exact h.enter (i := { peerInstDefault with
        ptnMe := pm.sch.insts.length, state := peInstStateAccepted, dir := PeInstDirInbound })
      rfl rfl rfl rfl rfl (by simp [closeTargets, sendInst, schCreateTask]) rfl (.inl rfl) rfl

/-- A close request to an admitted or killed instance of the heap keeps the invariant. -/
theorem TablesOk.sendClose (h : pm.TablesOk) {p : Nat} (hp : p < pm.sch.insts.length)
    (hs : settled (pm.inst p) = true) : (pm.sendInst p .closeReq).TablesOk := by
  refine ⟨h.heap, h.ptnMe, h.dirs, h.counted, h.capped, h.workers, fun q hq => ?_, h.outbounds⟩
  rw [closeTargets_sendInst, if_pos rfl, List.mem_append, List.mem_singleton] at hq
  rcases hq with hq | rfl
  · exact h.closes q hq
  · exact ⟨hp, hs⟩

/-- **A close request keeps the invariant**: it goes to a worker, which is admitted or killed. -/
theorem TablesOk.closeReq (h : pm.TablesOk) (snid : SubNetworkID) (node : Node) (dir : Int) :
    (pm.peMgrCloseReq snid node dir).1.TablesOk := by
  unfold peMgrCloseReq
  dsimp only
  split
  · exact h
  · next p hp =>
    obtain ⟨hlt, hs⟩ := h.workers _ _ p hp
    split_ifs
    · exact h
    · rw [h.ptnMe p hlt]
      refine (h.of_core (coreView_updateStaticStatus pm _ _ _)).sendClose ?_ ?_
      · rwa [updateStaticStatus_sch]
      · rwa [inst, updateStaticStatus_sch]

/-- **The invariant is kept**: a kill, a new instance and a close request keep it. -/
theorem kept_tablesOk : Kept TablesOk :=
  .of_core (fun h hv => h.of_core hv) (fun ptn node dir h => h.peMgrKillInst ptn node dir)
    (fun snid node h => h.peMgrCreateOutboundInst snid node) (fun h => h.peMgrLsnConnAcceptedInd)
    fun snid node dir h => h.closeReq snid node dir

/-! ### An admission -/

/-- **A new worker keeps the invariant** when its key is new, the peer cap has room, and it is an
admitted instance of the heap: `workers[snid]` gains the key and `wrkNum[snid]` one. -/
theorem TablesOk.enterWorker (h : pm.TablesOk) {snid : SubNetworkID} {k : PeerIdEx} {p : Nat}
    {w : PeerTab}
    (hget : ∀ s k', w.get? s k' = if s = snid ∧ k' = k then some p else pm.workers.get? s k')
    (hsize : ∀ s, w.size s = pm.workers.size s + if s = snid then 1 else 0)
    (hcap : cnt pm.wrkNum snid < (pm.hsCaps snid).2.2) (hp : p < pm.sch.insts.length)
    (hs : settled (pm.inst p) = true) :
    ({ pm with workers := w, wrkNum := bump pm.wrkNum snid 1 } : PeerManager).TablesOk := by
  refine ⟨h.heap, h.ptnMe, h.dirs, fun s => ?_, fun s => ?_, fun s k' q hk => ?_, h.closes,
    h.outbounds⟩
  · show cnt (bump pm.wrkNum snid 1) s = w.size s
    rw [cnt_bump, hsize]
    split_ifs with hs' <;> simp [hs', h.counted]
  · show (w.size s : Int) ≤ max (pm.hsCaps s).2.2 0
    rw [hsize]
    split_ifs with hs'
    · subst hs'
      have := h.counted s
      push_cast
      omega
    · simpa using h.capped s
  · show q < _ ∧ _
    rw [hget] at hk
    split_ifs at hk
    · cases hk; exact ⟨hp, hs⟩
    · exact h.workers s k' q hk

/-- **An admission keeps the invariant**: `peMgrHandshakeRspAdmit` after the new worker is written
to the tables, for an instance of the heap whose key is new, with room under the peer cap and, when
it makes an admitted outbound outside the static sub-network, under that sub-network's outbound
cap. -/
theorem TablesOk.handshakeRspAdmit (h : pm.TablesOk) {pm1 : PeerManager} {p ptn : Nat}
    {snid : SubNetworkID} {k : PeerIdEx} {w : PeerTab} (hp : p < pm.sch.insts.length)
    (hget : ∀ s k', w.get? s k' = if s = snid ∧ k' = k then some p else pm.workers.get? s k')
    (hsize : ∀ s, w.size s = pm.workers.size s + if s = snid then 1 else 0)
    (hcap : cnt pm.wrkNum snid < (pm.hsCaps snid).2.2)
    (ho : ∀ s, pm.isStaticSubNetId s = false →
      isAdmittedOutboundOf s { pm.inst p with state := peInstStateActivated } = true →
      isAdmittedOutboundOf s (pm.inst p) = true ∨
        (pm.liveCount (isOutboundOf s) : Int) < (pm.hsCaps s).2.1)
    (hv : pm1.tableView = { pm.tableView with workers := w }) :
    (pm1.peMgrHandshakeRspAdmit p ptn snid).Post (·.1.TablesOk) := by
  have hA := h.setInst (i := { pm.inst p with state := peInstStateActivated }) rfl rfl
    (fun _ => by simp [settled, admitted]) ho
  have hB := hA.enterWorker (k := k) hget hsize hcap ((List.length_set _ _ _).symm ▸ hp)
    (by rw [inst_setInst, if_pos ⟨rfl, hp⟩]; simp [settled, admitted])
  have hI : pm1.sch.insts.map tabView = pm.sch.insts.map tabView := congrArg TableView.insts hv
  unfold peMgrHandshakeRspAdmit
  dsimp only
  refine Run.Post.bind ((hB.of_view ?_).indEnque _) fun _ h' => h'
  simp only [tableView, TableView.mk.injEq]
  refine ⟨congrArg TableView.cfg hv, congrArg TableView.peers hv, ?_, congrArg TableView.workers hv,
    congrArg (bump · snid 1) (congrArg TableView.wrkNum hv),
    congrArg TableView.closes ((tableView_sendInst pm1 ptn (m := .establishedInd) nofun).trans hv)⟩
  show (pm1.sch.insts.set p _).map tabView = (pm.sch.insts.set p _).map tabView
  rw [List.map_set, List.map_set, hI]
  exact congrArg _ (tabView_with_state (tabView_inst_eq hI p) _)

/-- **The inbound part of the handshake keeps the invariant**, for a live inbound instance with
room under the peer cap: a duplicate or an instance beyond the inbound cap is killed, and an
admitted one is written under a new key. -/
theorem TablesOk.handshakeRspInbound (h : pm.TablesOk) {p ptn : Nat}
    (hp : pm.peers.get? ptn = some p) (hd : (pm.inst p).dir = PeInstDirInbound)
    {snid : SubNetworkID} (hcap : cnt pm.wrkNum snid < (pm.hsCaps snid).2.2) (peNode : Node)
    (maxInbound : Int) :
    (pm.peMgrHandshakeRspInbound p ptn snid peNode maxInbound).Post (·.1.TablesOk) := by
  have hlt : p < pm.sch.insts.length := (h.heap_get? hp).1 ▸ (h.heap_get? hp).2
  refine kept_tablesOk.handshakeRspInbound h id fun n w hg hs _ =>
    h.handshakeRspAdmit hlt hg hs hcap (fun s _ hq => ?_) rfl
  simp [isAdmittedOutboundOf, isOutboundOf, hd, PeInstDirInbound, PeInstDirOutbound] at hq

/-- **The outbound part of the handshake keeps the invariant**, for a live outbound instance of
`snid` with room under the peer cap: outside the static sub-network it is killed when `obpNum`,
which counts the live outbounds, is at the outbound cap, so an admitted one finds room. -/
theorem TablesOk.handshakeRspOutbound (h : pm.TablesOk)
    (hob : ∀ s, cnt pm.obpNum s = pm.liveCount (isOutboundOf s)) {p ptn : Nat}
    (hp : pm.peers.get? ptn = some p) {snid : SubNetworkID} (hsn : (pm.inst p).snid = snid)
    (hcap : cnt pm.wrkNum snid < (pm.hsCaps snid).2.2) (peNode : Node) :
    (pm.peMgrHandshakeRspOutbound p ptn snid peNode (pm.hsCaps snid).2.1).Post (·.1.TablesOk) := by
  have hlt : p < pm.sch.insts.length := (h.heap_get? hp).1 ▸ (h.heap_get? hp).2
  have hsnid : ∀ s, isAdmittedOutboundOf s { pm.inst p with state := peInstStateActivated } = true →
      s = snid := fun s hq => by
    simp only [isAdmittedOutboundOf, isOutboundOf, Bool.and_eq_true, decide_eq_true_eq] at hq
    exact hq.1.2.symm.trans hsn
  refine kept_tablesOk.handshakeRspOutbound h id fun w hg hs hroom =>
    h.handshakeRspAdmit hlt hg hs hcap (fun s hs' hq => .inr ?_)
      ((tableView_of_core (coreView_updateStaticStatus _ _ _ _)).trans rfl)
  obtain rfl := hsnid s hq
  rw [← hob]
  exact hroom hs'

/-- **A handshake answer keeps the invariant**: a failure or a full sub-network kills the
instance, and a success goes to the part of its direction. -/
theorem TablesOk.handshakeRsp (h : pm.TablesOk)
    (hob : ∀ s, cnt pm.obpNum s = pm.liveCount (isOutboundOf s)) (result : PeMgrErrno) (dir : Int)
    (snid : SubNetworkID) (peNode : Node) (ptn : Nat) :
    (pm.peMgrHandshakeRsp result dir snid peNode ptn).Post (·.1.TablesOk) :=
  kept_tablesOk.handshakeRsp h id (fun _ hp _ hd hc => h.handshakeRspInbound hp hd hc _ _)
    (fun _ hp hsn _ _ hc => h.handshakeRspOutbound hob hp hsn hc _)
    fun p hp h5 h6 => absurd (h.dirs p ((h.heap_get? hp).1 ▸ (h.heap_get? hp).2)) (by tauto)

/-- **Every handler keeps the invariant**, given that `obpNum` counts the live outbounds. -/
theorem TablesOk.peerMgrProc (h : pm.TablesOk)
    (hob : ∀ s, cnt pm.obpNum s = pm.liveCount (isOutboundOf s)) (m : PeMgrMsg) :
    (pm.peerMgrProc m).Post (·.2.TablesOk) :=
  kept_tablesOk.peerMgrProc h m (fun _ => h.of_core (coreView_peMgrStartReq pm))
    (fun _ _ _ ptn _ _ => h.of_view (tableView_sendInst pm ptn nofun))
    fun result dir snid peNode ptn _ => h.handshakeRsp hob result dir snid peNode ptn

/-! ### The instance tasks

An instance task moves its instance between `peInstStateConnOut` and `peInstStateHandshook`,
which the view does not tell apart, and a close request moves an activated instance to
`peInstStateKilling`, which is admitted as well. The inbound handshake names the sub-network,
which an inbound's account does not read. -/

/-- Taking a message off an instance task's mailbox keeps the invariant. -/
theorem TablesOk.eraseInbox (h : pm.TablesOk) (x : Nat × PiMsg) :
    ({ pm with sch := { pm.sch with ibox := pm.sch.ibox.erase x } } : PeerManager).TablesOk :=
  ⟨h.heap, h.ptnMe, h.dirs, h.counted, h.capped, h.workers,
    fun q hq => h.closes q ((((List.erase_sublist _ _).filter _).map _).subset hq), h.outbounds⟩

/-- Between its creation and its admission, the view of an instance is its task node and its
account. -/
theorem tabView_of_pending {i j : PeerInstance} (hp : j.ptnMe = i.ptnMe) (ha : acct j = acct i)
    (hi : 0 < i.state ∧ i.state < peInstStateActivated)
    (hj : 0 < j.state ∧ j.state < peInstStateActivated) : tabView j = tabView i := by
  have hu : ∀ k : PeerInstance, 0 < k.state ∧ k.state < peInstStateActivated →
      admitted k = false ∧ decide (k.state = peInstStateKilled) = false := fun k hk => by
    simp only [admitted, peInstStateActivated, peInstStateKilling, peInstStateKilled,
      decide_eq_false_iff_not] at hk ⊢
    omega
  simp only [tabView, hp, ha, (hu i hi).1, (hu i hi).2, (hu j hj).1, (hu j hj).2]

/-- Once admitted, the view of an instance is its task node and its account. -/
theorem tabView_of_admitted {i j : PeerInstance} (hp : j.ptnMe = i.ptnMe) (ha : acct j = acct i)
    (hi : admitted i = true) (hj : admitted j = true) : tabView j = tabView i := by
  have hk : ∀ k : PeerInstance, admitted k = true → decide (k.state = peInstStateKilled) = false :=
    fun k hk => by
      simp only [admitted, peInstStateActivated, peInstStateKilling, peInstStateKilled,
        decide_eq_true_eq, decide_eq_false_iff_not] at hk ⊢
      omega
  simp only [tabView, hp, ha, hi, hj, hk i hi, hk j hj]

/-- Writing an instance the view does not tell apart from the old one, in a state of the same
view, keeps the invariant. -/
theorem TablesOk.setInst_of_view {X : PeerManager} {p : Nat} {i : PeerInstance} (h : pm.TablesOk)
    (hX : X.tableView = pm.tableView) (hv : tabView i = tabView (X.inst p)) :
    (X.setInst p i).TablesOk :=
  (h.of_view hX).of_view (tableView_setInst _ hv)

theorem TablesOk.sendSelf_setInst {X : PeerManager} {p : Nat} {i : PeerInstance} {m : PeMgrMsg}
    (h : pm.TablesOk) (hX : X.tableView = pm.tableView) (hv : tabView i = tabView (X.inst p)) :
    ((X.setInst p i).sendSelf m).TablesOk :=
  (h.setInst_of_view hX hv).sendSelf m

theorem TablesOk.piConnOutReq (h : pm.TablesOk) (p : Nat) (dialOk : Bool) :
    (pm.piConnOutReq p dialOk).TablesOk := by
  unfold PeerManager.piConnOutReq
  dsimp only
  split_ifs with h1
  · exact h
  · have hs : (pm.inst p).state = peInstStateConnOut := not_not.mp (not_or.mp h1).2
    exact h.sendSelf_setInst rfl (tabView_of_pending rfl rfl (by rw [hs]; decide)
      (show 0 < peInstStateConnected ∧ peInstStateConnected < peInstStateActivated by decide))
  · exact h.sendSelf_setInst rfl rfl

theorem TablesOk.piHandshakeInbound (h : pm.TablesOk) {p : Nat}
    (hd : (pm.inst p).dir = PeInstDirInbound)
    (hs : 0 < (pm.inst p).state ∧ (pm.inst p).state < peInstStateActivated)
    (rd : Except PeMgrErrno (SubNetworkID × NodeID)) (wr : PeMgrErrno) :
    (pm.piHandshakeInbound p rd wr).1.TablesOk := by
  have ha : ∀ {i : PeerInstance}, i.dir = PeInstDirInbound → acct i = acct (pm.inst p) :=
    fun hi => by simp [acct, hi, hd, PeInstDirInbound, PeInstDirOutbound]
  unfold PeerManager.piHandshakeInbound
  split
  · exact h
  · dsimp only
    split_ifs
    · exact h
    · exact h.setInst_of_view rfl (tabView_of_pending rfl (ha hd) hs hs)
    · exact h.setInst_of_view rfl (tabView_of_pending rfl (ha hd) hs
        (show 0 < peInstStateHandshook ∧ peInstStateHandshook < peInstStateActivated by decide))

theorem TablesOk.piHandshakeOutbound (h : pm.TablesOk) {p : Nat}
    (hs : 0 < (pm.inst p).state ∧ (pm.inst p).state < peInstStateActivated)
    (rd : Except PeMgrErrno (SubNetworkID × NodeID)) (wr : PeMgrErrno) :
    (pm.piHandshakeOutbound p rd wr).1.TablesOk := by
  unfold PeerManager.piHandshakeOutbound
  split_ifs
  · exact h
  · split
    · exact h
    · dsimp only
      split_ifs
      · exact h
      · exact h
      · exact h.setInst_of_view rfl (tabView_of_pending rfl rfl hs
          (show 0 < peInstStateHandshook ∧ peInstStateHandshook < peInstStateActivated by decide))

theorem TablesOk.piHandshakeReq (h : pm.TablesOk) (p : Nat)
    (rd : Except PeMgrErrno (SubNetworkID × NodeID)) (wr : PeMgrErrno) :
    (pm.piHandshakeReq p rd wr).TablesOk := by
  unfold PeerManager.piHandshakeReq
  dsimp only
  split_ifs with h1 h2
  · exact h
  all_goals
    have hs : 0 < (pm.inst p).state ∧ (pm.inst p).state < peInstStateActivated := by
      simp only [peInstStateConnected, peInstStateAccepted, peInstStateActivated] at h1 ⊢
      omega
  · exact (h.piHandshakeInbound h2 hs rd wr).sendSelf _
  · exact (h.piHandshakeOutbound hs rd wr).sendSelf _
  · exact h.sendSelf _

theorem TablesOk.piEstablishedInd (h : pm.TablesOk) (p : Nat) (timerOk deadlineOk : Bool) :
    (pm.piEstablishedInd p timerOk deadlineOk).TablesOk := by
  unfold PeerManager.piEstablishedInd
  dsimp only
  split_ifs
  · exact h
  · exact h.sendSelf_setInst rfl rfl
  · exact h.setInst_of_view rfl rfl

/-- A close request reaches an admitted instance, which stays admitted. -/
theorem TablesOk.piCloseReq (h : pm.TablesOk) {p : Nat} (ha : admitted (pm.inst p) = true) :
    (pm.piCloseReq p).TablesOk := by
  unfold PeerManager.piCloseReq
  dsimp only
  split_ifs
  · exact h
  · exact h.sendSelf_setInst rfl (tabView_of_admitted rfl rfl ha rfl)

/-- The message an instance task takes is addressed to it. -/
theorem mem_ibox_of_find? {p x : Nat} {m : PiMsg}
    (hf : pm.sch.ibox.find? (·.1 = p) = some (x, m)) : x = p ∧ (x, m) ∈ pm.sch.ibox :=
  ⟨by simpa using List.find?_some hf, List.mem_of_find?_eq_some hf⟩

/-- A close request to an instance that is not killed is to an admitted one. -/
theorem TablesOk.admitted_of_closeReq (h : pm.TablesOk) {p : Nat}
    (hm : (p, PiMsg.closeReq) ∈ pm.sch.ibox) (hk : (pm.inst p).state ≠ peInstStateKilled) :
    admitted (pm.inst p) = true := by
  have hc := (h.closes p (List.mem_map.mpr ⟨(p, .closeReq), List.mem_filter.mpr ⟨hm, rfl⟩, rfl⟩)).2
  simp only [settled, Bool.or_eq_true, decide_eq_true_eq] at hc
  exact hc.resolve_right hk

/-- **An instance task's step keeps the invariant**: a close request it takes was asked of an
admitted or killed instance, and a killed instance's task is stopped. -/
theorem TablesOk.piProc (h : pm.TablesOk) (p : Nat) (a : PiAnswers) {pm' : PeerManager}
    (hs : pm.piProc p a = some pm') : pm'.TablesOk := by
  unfold PeerManager.piProc at hs
  split_ifs at hs with hg
  split at hs
  · cases hs
  next x m hf =>
  obtain rfl := Option.some.inj hs
  obtain ⟨rfl, hmem⟩ := mem_ibox_of_find? hf
  have he := h.eraseInbox (x, m)
  cases m with
  | connOutReq => exact he.piConnOutReq x a.dialOk
  | handshakeReq => exact he.piHandshakeReq x a.hsRead a.hsWrite
  | establishedInd => exact he.piEstablishedInd x a.timerOk a.deadlineOk
  | closeReq => exact he.piCloseReq (h.admitted_of_closeReq hmem fun hk => hg (.inr hk))

/-! ### Runs -/

/-- **Every step keeps the invariant** of a state whose counters count its live instances. -/
theorem TablesOk.step (h : pm.TablesOk) (hA : pm.Accounted) {ev : PeEvent} {r : Run PeerManager}
    (hs : pm.step ev = some r) : r.Post TablesOk := by
  cases ev with
  | mgrProc ans =>
    cases hbox : pm.sch.mbox with
    | nil => simp [PeerManager.step, PeerManager.mgrProc, hbox] at hs
    | cons m ms =>
      simp only [PeerManager.step, PeerManager.mgrProc, hbox, Option.some.injEq] at hs
      subst hs
      rw [Run.post_map]
      have hpop : TablesOk { pm with sch := { pm.sch with mbox := ms, ans := ans } } := h.of_view rfl
      exact hpop.peerMgrProc (hA.of_eq rfl rfl rfl rfl).obpNum m
  | piProc p a =>
    obtain ⟨pm', hp, rfl⟩ := Option.map_eq_some'.mp hs
    exact h.piProc p a hp
  | piIoFailure p =>
    obtain ⟨pm', hp, rfl⟩ := Option.map_eq_some'.mp hs
    unfold PeerManager.piIoFailure at hp
    dsimp only at hp
    split_ifs at hp
    cases hp
    exact h.sendSelf _
  | lsnConnAccepted => cases hs; exact h.sendSelf _
  | dcvFindNodeRsp snid nodes => cases hs; exact h.sendSelf _
  | closePeer snid id => cases hs; exact (h.sendSelf _).sendSelf _
  | findNodeTimer tid =>
    obtain ⟨pm', hp, rfl⟩ := Option.map_eq_some'.mp hs
    unfold PeerManager.findNodeTimer at hp
    split at hp
    · cases hp
      refine TablesOk.sendSelf ?_ _
      exact h.of_view rfl
    · cases hp
  | indTake =>
    unfold PeerManager.step at hs
    split_ifs at hs
    cases hs
    exact h.of_view rfl

theorem size_foldl_set_empty (snids : List SubNetworkID) :
    ∀ m : PeerTab, (∀ s, m.size s = 0) →
      ∀ s, PeerTab.size (snids.foldl (fun m s => GoMap.set m s ∅) m) s = 0 := by
  induction snids with
  | nil => exact fun _ h => h
  | cons t ts ih =>
    refine fun m h => ih _ fun s => ?_
    simp only [PeerTab.size, GoMap.get?_set]
    split_ifs
    · rfl
    · exact h s

/-- Power-on leaves every table empty. -/
theorem tablesOk_peMgrPoweron (cfg : Cfg4PeerManager) (dflt : SubNetDefaults) :
    (peMgrPoweron cfg dflt).TablesOk := by
  have hn := get?_foldl_set_empty (poweronSubNets (poweronConfig cfg dflt)) ∅ fun _ _ => rfl
  have hz := size_foldl_set_empty (poweronSubNets (poweronConfig cfg dflt)) ∅ fun _ => rfl
  refine ⟨fun _ hb => absurd hb (List.not_mem_nil _), fun _ h => absurd h (Nat.not_lt_zero _),
    fun _ h => absurd h (Nat.not_lt_zero _), fun s => ?_, fun s => ?_,
    fun s k p hk => absurd ((hn s k).symm.trans hk) nofun, fun _ h => absurd h (List.not_mem_nil _),
    fun _ _ => .inl rfl⟩
  · rw [show (peMgrPoweron cfg dflt).workers.size s = 0 from hz s]
    exact cnt_foldl_set_zero _ ∅ (fun _ => rfl) s
  · rw [show (peMgrPoweron cfg dflt).workers.size s = 0 from hz s]
    exact le_max_right _ _

end PeerManager

open PeerManager in
/-- Every reachable state counts its live instances and keeps the worker tables. -/
theorem reachable_tablesOk {pm : PeerManager} (h : Reachable pm) : pm.Accounted ∧ pm.TablesOk := by
  induction h with
  | init cfg dflt => exact ⟨accounted_peMgrPoweron cfg dflt, tablesOk_peMgrPoweron cfg dflt⟩
  | step _ hs ih =>
    exact ⟨stable_accounted.step (fun _ _ _ h => h.of_eq rfl rfl rfl rfl) (fun _ h => h.peMgrStartReq)
      ih.1 hs, ih.2.step ih.1 hs⟩

open PeerManager in
/-- **`wrkNum` counts the worker table, within the peer cap**: in every reachable state and for
every sub-network `snid`, `wrkNum[snid]` is the number of entries of `workers[snid]`, and that
number is at most the peer cap `hsCaps` resolves for `snid`, or zero. -/
theorem reachable_workers_counted {pm : PeerManager} (h : Reachable pm) (snid : SubNetworkID) :
    cnt pm.wrkNum snid = pm.workers.size snid ∧
      (pm.workers.size snid : Int) ≤ max (pm.hsCaps snid).2.2 0 :=
  ⟨(reachable_tablesOk h).2.counted snid, (reachable_tablesOk h).2.capped snid⟩

/-- After an outbound is activated, the worker table holds it and `wrkNum` counts it. -/
theorem reachable_workers_counted_activated :
    ∃ pm, Reachable pm ∧ pm.workers.size exampleSnid = 1 ∧
      (cnt pm.wrkNum exampleSnid = pm.workers.size exampleSnid ∧
        (pm.workers.size exampleSnid : Int) ≤ max (pm.hsCaps exampleSnid).2.2 0) := by
  have hrun : (runEvents (peMgrPoweron exampleCfg exampleDefaults) activatedOutboundRun).map
      (fun pm => decide (pm.workers.size exampleSnid = 1)) = some true := by
    decide
  obtain ⟨pm, h, hc⟩ := (Reachable.init _ _).exists_of_runEvents _ hrun
  exact ⟨pm, h, of_decide_eq_true hc, reachable_workers_counted h exampleSnid⟩

open PeerManager in
/-- **The last outbound slot stays empty**: in every reachable state and for every sub-network
`snid` other than the static one, the live admitted outbounds of `snid` are fewer than its
outbound cap, or there are none. `peMgrHandshakeRsp` admits an outbound only while `obpNum[snid]`,
which counts the handshaking instance too, is below the cap. -/
theorem reachable_outbounds_below_cap {pm : PeerManager} (h : Reachable pm) {snid : SubNetworkID}
    (hS : pm.isStaticSubNetId snid = false) :
    pm.admittedOutboundCount snid = 0 ∨
      (pm.admittedOutboundCount snid : Int) < (pm.hsCaps snid).2.1 :=
  (reachable_tablesOk h).2.outbounds snid hS

/-- After an outbound of `exampleSnid` is admitted, the one admitted outbound is below the cap of
eight. -/
theorem reachable_outbounds_below_cap_activated :
    ∃ pm, Reachable pm ∧ pm.admittedOutboundCount exampleSnid = 1 ∧
      pm.isStaticSubNetId exampleSnid = false ∧
      (pm.admittedOutboundCount exampleSnid = 0 ∨
        (pm.admittedOutboundCount exampleSnid : Int) < (pm.hsCaps exampleSnid).2.1) := by
  have hrun : (runEvents (peMgrPoweron exampleCfg exampleDefaults) activatedOutboundRun).map
      (fun pm => decide (pm.admittedOutboundCount exampleSnid = 1) &&
        !pm.isStaticSubNetId exampleSnid) = some true := by
    decide
  obtain ⟨pm, h, hc⟩ := (Reachable.init _ _).exists_of_runEvents _ hrun
  simp only [Bool.and_eq_true, decide_eq_true_eq, Bool.not_eq_true'] at hc
  exact ⟨pm, h, hc.1, hc.2, reachable_outbounds_below_cap h hc.2⟩

end Gyee.Peer
