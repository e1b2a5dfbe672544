import Gyee.Peer.Inbounds

/-! # The timers

The manager arms timers with the scheduler and records each identity where it will look for it to
kill the timer. The discovery timer of a sub-network is recorded in `tidFindNode[snid]`
(`peMgrAsk4More`, an absolute timer); the statistics timer in `ssTid` (`peMgrStartReq`,
periodic); an instance's pingpong timer in its `ppTid` (`piEstablishedInd`, periodic). Each is
killed by the identity recorded: `peMgrAsk4More` and `peMgrStartReq` kill the recorded timer before
they arm a new one, and `peMgrKillInst` kills the instance's pingpong timer before it marks the
instance killed. A discovery timer that expires leaves the armed timers.

* `reachable_timers_owned`: in every reachable state, every armed timer is the one its owner
  records: `tidFindNode[snid]`, `ssTid`, or the `ppTid` of an instance of the heap that is not
  killed. So no pingpong timer of a killed instance runs on.
* `reachable_timer_once`: in every reachable state, each owner has at most one timer armed.

The invariant (`TimersOk`) ties every armed timer to its owner's record (`owns`). The identities
are below `nextTid`, so they are distinct and never the invalid one. A pending instance has no
pingpong timer. An instance whose task's mailbox tells it is established is told once, is no longer
pending and has no pingpong timer yet, so the timer it arms then is its first. Arming records the
new identity, which no owner held (`TimersOk.arm`); a record is written only while its owner has no
timer armed (`TimersOk.setFindNode`, `TimersOk.setSsTid`, `TimersOk.setInst`). The invariant is
kept by every handler (`kept_timers`) and every step (`TimersOk.step`). The worker tables and the
exchanges are side invariants there: the handshake's answer admits a pending instance under its own
task node. -/

namespace Gyee.Peer

open Gyee

namespace PeerManager

variable (pm : PeerManager)

/-- Whether the armed timer `e` is the one its owner records: the discovery timer of `snid` in
`tidFindNode[snid]`, the statistics timer in `ssTid`, and the pingpong timer of `p` in the `ppTid`
of `p`, an instance of the heap that is not killed. -/
def owns : Int × PeTimer → Bool
  | (tid, .findNode snid) => pm.tidFindNode.get? snid = some tid
  | (tid, .stat) => pm.ssTid = tid
  | (tid, .pingpong p) => p < pm.sch.insts.length ∧ (pm.inst p).ppTid = tid ∧
      (pm.inst p).state ≠ peInstStateKilled

/-- What the timer invariant reads besides the armed timers and the next identity: the instances'
states and pingpong timers, the recorded discovery and statistics timers, and the instances told
they are established. -/
def timerRecords : List Int × List Int × GoMap SubNetworkID Int × Int × List Nat :=
  (pm.sch.insts.map (·.state), pm.sch.insts.map (·.ppTid), pm.tidFindNode, pm.ssTid,
    pm.establishTargets)

/-- The timers: the identities are below `nextTid` and distinct, and each armed timer is its
owner's; a pending instance has no pingpong timer; the instances told they are established are
told once, are of the heap, are no longer pending and have no pingpong timer. -/
structure TimersOk : Prop where
  started : 0 ≤ pm.sch.nextTid
  fresh : ∀ e ∈ pm.sch.timers, 0 ≤ e.1 ∧ e.1 < pm.sch.nextTid
  nodup : (pm.sch.timers.map (·.1)).Nodup
  owned : ∀ e ∈ pm.sch.timers, pm.owns e = true
  unarmed : ∀ p, pending (pm.inst p) = true → (pm.inst p).ppTid = schInvalidTid
  establishes : pm.establishTargets.Nodup
  established : ∀ p ∈ pm.establishTargets, p < pm.sch.insts.length ∧
    pending (pm.inst p) = false ∧ (pm.inst p).ppTid = schInvalidTid

variable {pm}

/-! ### Owners -/

/-- An owner records one identity. -/
theorem owns_unique {a b : Int} {t : PeTimer} (ha : pm.owns (a, t) = true)
    (hb : pm.owns (b, t) = true) : a = b := by
  cases t <;> simp only [owns, decide_eq_true_eq] at ha hb
  · exact Option.some.inj (ha.symm.trans hb)
  · exact ha.symm.trans hb
  · exact ha.2.1.symm.trans hb.2.1

/-- An instance of no task node is not pending. -/
theorem lt_of_pending {p : Nat} (hp : pending (pm.inst p) = true) : p < pm.sch.insts.length := by
  by_contra hl
  rw [inst, List.getD_eq_default _ _ (Nat.le_of_not_lt hl)] at hp
  exact absurd hp (by decide)

theorem pending_congr {i j : PeerInstance} (h : i.state = j.state) : pending i = pending j := by
  simp only [pending, h]

theorem map_inst_eq {α : Type} {pm' : PeerManager} {f : PeerInstance → α}
    (h : pm'.sch.insts.map f = pm.sch.insts.map f) (p : Nat) : f (pm'.inst p) = f (pm.inst p) := by
  rw [inst, inst, ← List.getD_map _ _ f, ← List.getD_map _ _ f, h]

theorem owns_congr {pm' : PeerManager} (hr : pm'.timerRecords = pm.timerRecords) :
    pm'.owns = pm.owns := by
  simp only [timerRecords, Prod.mk.injEq] at hr
  obtain ⟨hs, hp, hf, hss, -⟩ := hr
  have hl : pm'.sch.insts.length = pm.sch.insts.length := by simpa using congrArg List.length hs
  have hs' : ∀ q, (pm'.inst q).state = (pm.inst q).state := map_inst_eq hs
  have hp' : ∀ q, (pm'.inst q).ppTid = (pm.inst q).ppTid := map_inst_eq hp
  funext ⟨tid, t⟩
  cases t <;> simp only [owns, hf, hss, hl, hs', hp']

/-! ### Transport along changes that keep what the invariant reads -/

theorem TimersOk.of_records {pm' : PeerManager} (h : pm.TimersOk)
    (hr : pm'.timerRecords = pm.timerRecords) (hs : pm'.sch.timers = pm.sch.timers)
    (hn : pm'.sch.nextTid = pm.sch.nextTid) : pm'.TimersOk := by
  have ho := owns_congr hr
  simp only [timerRecords, Prod.mk.injEq] at hr
  obtain ⟨hst, hpp, -, -, hb⟩ := hr
  have hl : pm'.sch.insts.length = pm.sch.insts.length := by simpa using congrArg List.length hst
  have hs' : ∀ q, (pm'.inst q).state = (pm.inst q).state := map_inst_eq hst
  have hp' : ∀ q, (pm'.inst q).ppTid = (pm.inst q).ppTid := map_inst_eq hpp
  refine ⟨hn ▸ h.started, by rw [hs, hn]; exact h.fresh, by rw [hs]; exact h.nodup,
    by rw [hs, ho]; exact h.owned, fun q hq => ?_, hb ▸ h.establishes, fun q hq => ?_⟩
  · rw [hp']
    exact h.unarmed q (by simpa only [pending, hs'] using hq)
  · simp only [hl, pending, hs', hp']
    exact h.established q (hb ▸ hq)

theorem timerRecords_of_quiet {pm' : PeerManager} (hq : pm.Quiet pm') :
    pm'.timerRecords = pm.timerRecords := by
  have hi := congrArg (List.map (·.2.2.2.2)) (congrArg CoreView.insts hq.1)
  simp only [coreView, List.map_map] at hi
  simp only [timerRecords, Prod.mk.injEq]
  exact ⟨hi, congrArg TimerView.ppTids hq.2, congrArg TimerView.tidFindNode hq.2,
    congrArg TimerView.ssTid hq.2, congrArg TimerView.establishes hq.2⟩

theorem TimersOk.of_quiet {pm' : PeerManager} (h : pm.TimersOk) (hq : pm.Quiet pm') :
    pm'.TimersOk :=
  h.of_records (timerRecords_of_quiet hq) (congrArg TimerView.timers hq.2)
    (congrArg TimerView.nextTid hq.2)

theorem TimersOk.sendSelf (h : pm.TimersOk) (m : PeMgrMsg) : (pm.sendSelf m).TimersOk :=
  h.of_records rfl rfl rfl

theorem TimersOk.send (h : pm.TimersOk) (m : PeMgrOut) : (pm.send m).TimersOk :=
  h.of_records rfl rfl rfl

theorem TimersOk.resumeAccepter (h : pm.TimersOk) : pm.resumeAccepter.TimersOk := by
  unfold PeerManager.resumeAccepter
  split_ifs
  · exact h.send _
  · exact h

theorem TimersOk.updateStaticStatus (h : pm.TimersOk) (snid : SubNetworkID) (idEx : PeerIdEx)
    (st : Int) : (pm.updateStaticStatus snid idEx st).TimersOk :=
  h.of_quiet ⟨coreView_updateStaticStatus pm snid idEx st, timerView_updateStaticStatus pm snid idEx st⟩

variable (pm) in
theorem establishTargets_sendInst (p : Nat) (m : PiMsg) :
    (pm.sendInst p m).establishTargets =
      pm.establishTargets ++ if m = .establishedInd then [p] else [] := by
  simp only [establishTargets, sendInst, List.filter_append, List.map_append]
  split_ifs with h <;> simp [h]

theorem TimersOk.sendInst (h : pm.TimersOk) (p : Nat) {m : PiMsg} (hm : m ≠ .establishedInd) :
    (pm.sendInst p m).TimersOk := by
  refine h.of_records ?_ rfl rfl
  simp only [timerRecords, establishTargets_sendInst, if_neg hm, List.append_nil]
  rfl

variable (pm) in
@[simp] theorem killInstMaps_tidFindNode (ptn : Nat) (i : PeerInstance) :
    (pm.killInstMaps ptn i).tidFindNode = pm.tidFindNode := by
  simp only [killInstMaps, dropWorker, dropOutbound, dropInbound,
    apply_ite PeerManager.tidFindNode, ite_self]

variable (pm) in
@[simp] theorem killInstMaps_ssTid (ptn : Nat) (i : PeerInstance) :
    (pm.killInstMaps ptn i).ssTid = pm.ssTid := by
  simp only [killInstMaps, dropWorker, dropOutbound, dropInbound, apply_ite PeerManager.ssTid,
    ite_self]

variable (pm) in
@[simp] theorem resumeAccepter_sch : pm.resumeAccepter.sch = pm.sch := by
  unfold resumeAccepter; split_ifs <;> rfl

theorem TimersOk.killInstMaps (h : pm.TimersOk) (ptn : Nat) (i : PeerInstance) :
    (pm.killInstMaps ptn i).TimersOk := by
  have hs := killInstMaps_sch pm ptn i
  refine h.of_records ?_ (by rw [hs]) (by rw [hs])
  simp only [timerRecords, establishTargets, hs, killInstMaps_tidFindNode, killInstMaps_ssTid]

/-! ### Timers killed and armed -/

/-- No timer is armed for an owner that records no identity from `0` on. -/
theorem TimersOk.free_of_owns (h : pm.TimersOk) {t : PeTimer}
    (hno : ∀ n, 0 ≤ n → pm.owns (n, t) = false) : ∀ e ∈ pm.sch.timers, e.2 ≠ t := by
  rintro ⟨n, t'⟩ he rfl
  exact Bool.false_ne_true ((hno n (h.fresh _ he).1).symm.trans (h.owned _ he))

/-- An instance whose `ppTid` is invalid has no pingpong timer. -/
theorem TimersOk.free_pingpong (h : pm.TimersOk) {p : Nat}
    (hp : (pm.inst p).ppTid = schInvalidTid) : ∀ e ∈ pm.sch.timers, e.2 ≠ .pingpong p :=
  h.free_of_owns fun n hn => by
    simp only [owns, hp, schInvalidTid, decide_eq_false_iff_not]
    omega

/-- A pending instance is not yet told it is established. -/
theorem TimersOk.not_establishTarget (h : pm.TimersOk) {p : Nat} (hp : pending (pm.inst p) = true) :
    p ∉ pm.establishTargets := fun hq =>
  absurd (h.established p hq).2.1 (by rw [hp]; decide)

theorem TimersOk.schKillTimer (h : pm.TimersOk) (tid : Int) : (pm.schKillTimer tid).TimersOk :=
  ⟨h.started, fun e he => h.fresh e (List.mem_filter.mp he).1,
    h.nodup.sublist ((List.filter_sublist _).map _), fun e he => h.owned e (List.mem_filter.mp he).1,
    h.unarmed, h.establishes, h.established⟩

/-- Killing the identity an owner records leaves it no timer. -/
theorem TimersOk.free_schKillTimer (h : pm.TimersOk) {t : PeTimer} {tid : Int}
    (hr : ∀ n, pm.owns (n, t) = true → n = tid) :
    ∀ e ∈ (pm.schKillTimer tid).sch.timers, e.2 ≠ t := by
  rintro ⟨n, t'⟩ he rfl
  obtain ⟨he, hne⟩ := List.mem_filter.mp he
  exact absurd (hr n (h.owned _ he)) (by simpa using hne)

/-- Recording a discovery timer of `snid` keeps the invariant while none is armed. -/
theorem TimersOk.setFindNode (h : pm.TimersOk) {snid : SubNetworkID}
    (hf : ∀ e ∈ pm.sch.timers, e.2 ≠ .findNode snid) (tid : Int) :
    ({ pm with tidFindNode := pm.tidFindNode.set snid tid } : PeerManager).TimersOk := by
  refine ⟨h.started, h.fresh, h.nodup, fun ⟨n, t⟩ he => ?_, h.unarmed, h.establishes,
    h.established⟩
  have ho := h.owned _ he
  cases t with
  | findNode s =>
    have hs : s ≠ snid := fun hs => hf _ he (by rw [hs])
    simpa [owns, hs] using ho
  | stat => exact ho
  | pingpong p => exact ho

/-- Recording a statistics timer keeps the invariant while none is armed. -/
theorem TimersOk.setSsTid (h : pm.TimersOk) (hf : ∀ e ∈ pm.sch.timers, e.2 ≠ .stat) (tid : Int) :
    ({ pm with ssTid := tid } : PeerManager).TimersOk := by
  refine ⟨h.started, h.fresh, h.nodup, fun ⟨n, t⟩ he => ?_, h.unarmed, h.establishes,
    h.established⟩
  cases t with
  | stat => exact absurd rfl (hf _ he)
  | findNode s => exact h.owned _ he
  | pingpong p => exact h.owned _ he

/-- **Arming a timer under the next identity keeps the invariant** when its owner records that
identity already: the identity is new, so the identities stay distinct. -/
theorem TimersOk.arm (h : pm.TimersOk) {pm' : PeerManager} {t : PeTimer}
    (hs : pm'.sch.timers = pm.sch.timers ++ [(pm.sch.nextTid, t)])
    (hn : pm'.sch.nextTid = pm.sch.nextTid + 1) (hr : pm'.timerRecords = pm.timerRecords)
    (ht : pm.owns (pm.sch.nextTid, t) = true) : pm'.TimersOk := by
  have hq : TimersOk ({ pm' with
      sch := { pm'.sch with timers := pm.sch.timers, nextTid := pm.sch.nextTid } } : PeerManager) :=
    h.of_records hr rfl rfl
  have ho := owns_congr hr
  have h0 := h.started
  refine ⟨by omega, fun e he => ?_, ?_, fun e he => ?_, hq.unarmed, hq.establishes,
    hq.established⟩
  · rw [hs, List.mem_append, List.mem_singleton] at he
    rcases he with he | rfl
    · have := h.fresh e he
      exact ⟨this.1, by omega⟩
    · exact ⟨h0, by omega⟩
  · rw [hs, List.map_append]
    refine List.nodup_append.mpr ⟨h.nodup, List.nodup_singleton _, fun a ha hb => ?_⟩
    obtain ⟨e, he, rfl⟩ := List.mem_map.mp ha
    exact absurd (List.mem_singleton.mp hb) (h.fresh e he).2.ne
  · rw [ho]
    rw [hs, List.mem_append, List.mem_singleton] at he
    rcases he with he | rfl
    · exact h.owned e he
    · exact ht

/-! ### An instance written -/

/-- **Writing an instance keeps the invariant** when the pingpong timers armed for it stay its own
and it is not killed while one is, it has none while pending, and, when its task's mailbox tells
it is established, it is not pending and has none. -/
theorem TimersOk.setInst (h : pm.TimersOk) {p : Nat} {i : PeerInstance}
    (ho : ∀ n, (n, PeTimer.pingpong p) ∈ pm.sch.timers →
      i.ppTid = n ∧ i.state ≠ peInstStateKilled)
    (hu : pending i = true → i.ppTid = schInvalidTid)
    (he : p ∈ pm.establishTargets → pending i = false ∧ i.ppTid = schInvalidTid) :
    (pm.setInst p i).TimersOk := by
  have hl : (pm.setInst p i).sch.insts.length = pm.sch.insts.length := List.length_set _ _ _
  refine ⟨h.started, h.fresh, h.nodup, fun ⟨n, t⟩ hn => ?_, fun q hq => ?_, h.establishes,
    fun q hq => ?_⟩
  · have hown := h.owned _ hn
    cases t with
    | findNode s => exact hown
    | stat => exact hown
    | pingpong q =>
      simp only [owns, hl, inst_setInst, decide_eq_true_eq] at hown ⊢
      split_ifs with hqp
      · obtain ⟨rfl, -⟩ := hqp
        exact ⟨hown.1, ho n hn⟩
      · exact hown
  · rw [inst_setInst] at hq ⊢
    split_ifs at hq ⊢
    · exact hu hq
    · exact h.unarmed q hq
  · rw [hl, inst_setInst]
    split_ifs with hqp
    · obtain ⟨rfl, hlt⟩ := hqp
      exact ⟨hlt, he hq⟩
    · exact h.established q hq

/-- A pending instance rewritten with its pingpong timer kept keeps the invariant. -/
theorem TimersOk.setPending (h : pm.TimersOk) {p : Nat} {i : PeerInstance}
    (hp : pending (pm.inst p) = true) (hpp : i.ppTid = (pm.inst p).ppTid) :
    (pm.setInst p i).TimersOk := by
  have hinv := h.unarmed p hp
  exact h.setInst (fun n hn => (h.free_pingpong hinv _ hn rfl).elim) (fun _ => hpp.trans hinv)
    fun hq => absurd hq (h.not_establishTarget hp)

/-! ### A kill -/

/-- `killPingpong` leaves the instance no pingpong timer. -/
theorem TimersOk.killPingpong (h : pm.TimersOk) (p : Nat) :
    (pm.killPingpong p).TimersOk ∧ ∀ e ∈ (pm.killPingpong p).sch.timers, e.2 ≠ .pingpong p := by
  unfold PeerManager.killPingpong
  dsimp only
  split_ifs with hv
  · have hf := h.free_schKillTimer (t := .pingpong p) fun n hn => by
      simp only [owns, decide_eq_true_eq] at hn
      exact hn.2.1.symm
    exact ⟨(h.schKillTimer _).setInst (fun n hn => (hf _ hn rfl).elim) (fun _ => rfl)
      fun hq => ⟨(h.established p hq).2.1, rfl⟩, hf⟩
  · exact ⟨h, h.free_pingpong (not_not.mp hv)⟩

/-- **A kill keeps the invariant**: the instance's pingpong timer is killed before the instance is
marked killed. -/
theorem TimersOk.peMgrKillInst (h : pm.TimersOk) (ptn : Nat) (node : Node) (dir : Int) :
    (pm.peMgrKillInst ptn node dir).1.TimersOk := by
  unfold PeerManager.peMgrKillInst
  split
  · exact h
  · next p _ =>
    dsimp only
    split_ifs
    · exact h
    · obtain ⟨hk, hf⟩ := h.killPingpong p
      have hX := ((hk.killInstMaps ptn (pm.inst p)).updateStaticStatus (pm.inst p).snid
        ⟨(pm.inst p).node.ID, (pm.inst p).dir⟩ peerIdle).resumeAccepter
      refine hX.setInst (fun n hn => (hf (n, .pingpong p) ?_ rfl).elim) (fun hq => by cases hq)
        fun hq => ⟨by rfl, (hX.established p hq).2.2⟩
      simpa only [resumeAccepter_sch, updateStaticStatus_sch, killInstMaps_sch] using hn

/-! ### New instances and close requests -/

/-- A new instance with no pingpong timer keeps the invariant. -/
theorem TimersOk.enter (h : pm.TimersOk) {pm' : PeerManager} {i : PeerInstance}
    (hi : pm'.sch.insts = pm.sch.insts ++ [i]) (ht : pm'.sch.timers = pm.sch.timers)
    (hn : pm'.sch.nextTid = pm.sch.nextTid) (hf : pm'.tidFindNode = pm.tidFindNode)
    (hs : pm'.ssTid = pm.ssTid) (hb : pm'.establishTargets = pm.establishTargets)
    (hpp : i.ppTid = schInvalidTid) : pm'.TimersOk := by
  have hl : pm'.sch.insts.length = pm.sch.insts.length + 1 := by simp [hi]
  refine ⟨hn ▸ h.started, by rw [ht, hn]; exact h.fresh, by rw [ht]; exact h.nodup,
    fun ⟨n, t⟩ he => ?_, fun q hq => ?_, hb ▸ h.establishes, fun q hq => ?_⟩
  · rw [ht] at he
    have hown := h.owned _ he
    cases t with
    | findNode s => simpa only [owns, hf] using hown
    | stat => simpa only [owns, hs] using hown
    | pingpong q =>
      simp only [owns, decide_eq_true_eq] at hown ⊢
      rw [hl, inst_append_of_lt hi hown.1]
      exact ⟨by omega, hown.2⟩
  · rcases Nat.lt_trichotomy q pm.sch.insts.length with hq' | rfl | hq'
    · rw [inst_append_of_lt hi hq'] at hq ⊢
      exact h.unarmed q hq
    · rw [inst_append_self hi]
      exact hpp
    · rw [inst, List.getD_eq_default _ _ (by omega)]
      rfl
  · obtain ⟨hlt, hst⟩ := h.established q (hb ▸ hq)
    rw [hl, inst_append_of_lt hi hlt]
    exact ⟨by omega, hst⟩

theorem TimersOk.peMgrCreateOutboundInst (h : pm.TimersOk) (snid : SubNetworkID) (node : Node) :
    (pm.peMgrCreateOutboundInst snid node).Post (·.1.TimersOk) := by
  unfold PeerManager.peMgrCreateOutboundInst
  dsimp only
  split_ifs
  · exact h.of_records rfl rfl rfl
  · split
    · exact h.enter rfl rfl rfl rfl rfl
        (by rw [establishTargets_sendInst, if_neg nofun, List.append_nil]; rfl) rfl
    · trivial

theorem TimersOk.peMgrLsnConnAcceptedInd (h : pm.TimersOk) :
    pm.peMgrLsnConnAcceptedInd.1.TimersOk := by
  unfold PeerManager.peMgrLsnConnAcceptedInd
  dsimp only
  split_ifs
  · exact h.of_records rfl rfl rfl
  on_goal 1 => refine .send ?_ _
  all_goals
    exact h.enter (i := { peerInstDefault with
        ptnMe := pm.sch.insts.length, state := peInstStateAccepted, dir := PeInstDirInbound })
      rfl rfl rfl rfl rfl (by simp [establishTargets, PeerManager.sendInst, schCreateTask]) rfl

theorem TimersOk.closeReq (h : pm.TimersOk) (snid : SubNetworkID) (node : Node) (dir : Int) :
    (pm.peMgrCloseReq snid node dir).1.TimersOk := by
  unfold PeerManager.peMgrCloseReq
  dsimp only
  split
  · exact h
  · split_ifs
    · exact h
    · exact (h.updateStaticStatus _ _ _).sendInst _ nofun

/-! ### The manager's timers -/

variable (pm) in
/-- The part of `peMgrAsk4More` that kills the discovery timer `tidFindNode[snid]` records and
makes the record invalid. -/
def ask4MoreKill (snid : SubNetworkID) : PeerManager :=
  match pm.tidFindNode.get? snid with
  | some tid => if tid ≠ schInvalidTid then
      { pm.schKillTimer tid with tidFindNode := pm.tidFindNode.set snid schInvalidTid }
    else pm
  | none => pm

variable (pm) in
/-- The part of `peMgrAsk4More` that arms the discovery timer of `snid` and records it. -/
def ask4MoreArm (snid : SubNetworkID) : PeerManager × PeMgrErrno :=
  match pm.schSetTimer (.findNode snid) with
  | (pm, some tid) => ({ pm with tidFindNode := pm.tidFindNode.set snid tid }, .none)
  | (pm, none) => (pm, .scheduler)

variable (pm) in
theorem peMgrAsk4More_eq (snid : SubNetworkID) : pm.peMgrAsk4More snid =
    if snid ≠ pm.cfg.staticSubNetId ∧
      cnt pm.cfg.subNetMaxOutbounds snid - cnt pm.obpNum snid ≤ 0 then (pm, .none)
    else ((if snid ≠ pm.cfg.staticSubNetId then
      pm.send (.dcvFindNodeReq snid (cnt pm.cfg.subNetMaxOutbounds snid - cnt pm.obpNum snid))
      else pm).ask4MoreKill snid).ask4MoreArm snid := rfl

theorem schSetTimer_some {X Y : PeerManager} {t : PeTimer} {tid : Int}
    (heq : X.schSetTimer t = (Y, some tid)) : tid = X.sch.nextTid ∧
      Y = { X with
        sch := { X.sch with
          ans := { X.sch.ans with timers := X.sch.ans.timers.tail },
          timers := X.sch.timers ++ [(X.sch.nextTid, t)], nextTid := X.sch.nextTid + 1 } } := by
  unfold schSetTimer at heq
  split_ifs at heq
  · simp only [Prod.mk.injEq, Option.some.injEq] at heq
    exact ⟨heq.2.symm, heq.1.symm⟩
  · simp at heq

theorem schSetTimer_none {X Y : PeerManager} {t : PeTimer} (heq : X.schSetTimer t = (Y, none)) :
    Y = { X with sch := { X.sch with ans := { X.sch.ans with timers := X.sch.ans.timers.tail } } } := by
  unfold schSetTimer at heq
  split_ifs at heq
  · simp at heq
  · simp only [Prod.mk.injEq] at heq
    exact heq.1.symm

theorem TimersOk.ask4MoreKill (h : pm.TimersOk) (snid : SubNetworkID) :
    (pm.ask4MoreKill snid).TimersOk ∧
      ∀ e ∈ (pm.ask4MoreKill snid).sch.timers, e.2 ≠ .findNode snid := by
  unfold PeerManager.ask4MoreKill
  split
  · next tid hg =>
    split_ifs with hv
    · have hf := h.free_schKillTimer (t := .findNode snid) fun n hn => by
        simp only [owns, hg, decide_eq_true_eq, Option.some.injEq] at hn
        exact hn.symm
      exact ⟨(h.schKillTimer tid).setFindNode hf _, hf⟩
    · refine ⟨h, h.free_of_owns fun n hn => ?_⟩
      simp only [owns, hg, not_not.mp hv, schInvalidTid, Option.some.injEq, decide_eq_false_iff_not]
      omega
  · next hg => exact ⟨h, h.free_of_owns fun n _ => by simp [owns, hg]⟩

theorem TimersOk.ask4MoreArm (h : pm.TimersOk) {snid : SubNetworkID}
    (hf : ∀ e ∈ pm.sch.timers, e.2 ≠ .findNode snid) : (pm.ask4MoreArm snid).1.TimersOk := by
  unfold PeerManager.ask4MoreArm
  split
  · next heq =>
    obtain ⟨rfl, rfl⟩ := schSetTimer_some heq
    exact (h.setFindNode hf pm.sch.nextTid).arm rfl rfl rfl (by simp [owns])
  · next heq =>
    obtain rfl := schSetTimer_none heq
    exact h.of_records rfl rfl rfl

/-- **Re-arming a discovery timer keeps the invariant**: the timer `tidFindNode[snid]` records is
killed and the record made invalid before the new one is armed and recorded. -/
theorem TimersOk.peMgrAsk4More (h : pm.TimersOk) (snid : SubNetworkID) :
    (pm.peMgrAsk4More snid).1.TimersOk := by
  rw [peMgrAsk4More_eq]
  have hX : (if snid ≠ pm.cfg.staticSubNetId then
      pm.send (.dcvFindNodeReq snid (cnt pm.cfg.subNetMaxOutbounds snid - cnt pm.obpNum snid))
      else pm).TimersOk := by
    split_ifs
    · exact h.send _
    · exact h
  generalize (if snid ≠ pm.cfg.staticSubNetId then
    pm.send (.dcvFindNodeReq snid (cnt pm.cfg.subNetMaxOutbounds snid - cnt pm.obpNum snid))
    else pm) = X at hX
  split_ifs
  · exact h
  · obtain ⟨hk, hf⟩ := hX.ask4MoreKill snid
    exact hk.ask4MoreArm hf

/-- **The start keeps the invariant**: the statistics timer `ssTid` records is killed and the
record made invalid before the new one is armed and recorded. -/
theorem TimersOk.peMgrStartReq (h : pm.TimersOk) : pm.peMgrStartReq.1.TimersOk := by
  unfold PeerManager.peMgrStartReq
  dsimp only
  have hX : ((if !pm.cfg.noAccept then pm.send .lsnStartReq else pm).sendSelf
      (.outboundReq none)).TimersOk := by
    split_ifs
    · exact (h.send _).sendSelf _
    · exact h.sendSelf _
  generalize (if !pm.cfg.noAccept then pm.send .lsnStartReq else pm).sendSelf
    (.outboundReq none) = X at hX
  have hY : (if X.ssTid ≠ schInvalidTid then
      { X.schKillTimer X.ssTid with ssTid := schInvalidTid } else X).TimersOk ∧
      ∀ e ∈ (if X.ssTid ≠ schInvalidTid then
        { X.schKillTimer X.ssTid with ssTid := schInvalidTid } else X).sch.timers,
        e.2 ≠ .stat := by
    split_ifs with hv
    · have hf := hX.free_schKillTimer (t := .stat) fun n hn => by
        simp only [owns, decide_eq_true_eq] at hn
        exact hn.symm
      exact ⟨(hX.schKillTimer _).setSsTid hf _, hf⟩
    · refine ⟨hX, hX.free_of_owns fun n hn => ?_⟩
      simp only [owns, not_not.mp hv, schInvalidTid, decide_eq_false_iff_not]
      omega
  generalize (if X.ssTid ≠ schInvalidTid then
    { X.schKillTimer X.ssTid with ssTid := schInvalidTid } else X) = Y at hY
  obtain ⟨hY, hf⟩ := hY
  split
  · next heq =>
    obtain ⟨rfl, rfl⟩ := schSetTimer_some heq
    exact (hY.setSsTid hf Y.sch.nextTid).arm rfl rfl rfl (by simp [owns])
  · next heq =>
    obtain rfl := schSetTimer_none heq
    exact (hY.setSsTid hf schInvalidTid).of_records rfl rfl rfl

/-- **The invariant is kept**: a message to the manager, a kill, a new instance, a close request and
the re-arming of a discovery timer keep it. -/
theorem kept_timers : Kept TimersOk :=
  ⟨fun h hq _ => h.of_quiet hq, fun h _ _ => h.sendSelf _,
    fun ptn node dir h => h.peMgrKillInst ptn node dir, fun snid node h => h.peMgrCreateOutboundInst snid node, fun h => h.peMgrLsnConnAcceptedInd,
    fun snid node dir h => h.closeReq snid node dir, fun snid h => h.peMgrAsk4More snid⟩

/-! ### An admission -/

/-- Telling an instance of the heap it is established keeps the invariant when it is not pending,
has no pingpong timer and is not told already. -/
theorem TimersOk.sendEstablished (h : pm.TimersOk) {p : Nat} (hlt : p < pm.sch.insts.length)
    (hn : p ∉ pm.establishTargets) (hp : pending (pm.inst p) = false)
    (hpp : (pm.inst p).ppTid = schInvalidTid) : (pm.sendInst p .establishedInd).TimersOk := by
  have hb : (pm.sendInst p .establishedInd).establishTargets = pm.establishTargets ++ [p] := by
    rw [establishTargets_sendInst, if_pos rfl]
  refine ⟨h.started, h.fresh, h.nodup, h.owned, h.unarmed, ?_, fun q hq => ?_⟩
  · rw [hb]
    exact List.nodup_append.mpr ⟨h.establishes, List.nodup_singleton _,
      fun a ha hb' => hn (List.mem_singleton.mp hb' ▸ ha)⟩
  · rw [hb, List.mem_append, List.mem_singleton] at hq
    rcases hq with hq | rfl
    · exact h.established q hq
    · exact ⟨hlt, hp, hpp⟩

/-- **An admission keeps the invariant**: the instance, pending and so with no pingpong timer, is
activated and told it is established, once. -/
theorem TimersOk.handshakeRspAdmit (h : pm.TimersOk) {p : Nat} (hp : pending (pm.inst p) = true)
    (snid : SubNetworkID) : (pm.peMgrHandshakeRspAdmit p p snid).Post (·.1.TimersOk) := by
  have hlt := lt_of_pending hp
  have hpp := h.unarmed p hp
  have hn := h.not_establishTarget hp
  have hA : (pm.setInst p { pm.inst p with state := peInstStateActivated }).TimersOk :=
    h.setInst (fun n hn => (h.free_pingpong hpp _ hn rfl).elim) (fun hq => by cases hq)
      fun hq => absurd hq hn
  have hB := hA.sendEstablished ((List.length_set _ _ _).symm ▸ hlt) hn
    (by rw [inst_setInst, if_pos ⟨rfl, hlt⟩]; rfl)
    (by rw [inst_setInst, if_pos ⟨rfl, hlt⟩]; exact hpp)
  unfold peMgrHandshakeRspAdmit
  dsimp only
  refine Run.Post.bind (kept_timers.indEnque ?_ _) fun _ h' => h'
  exact hB.of_records rfl rfl rfl

/-- **A handshake answer keeps the invariant** when its instance is pending or killed: an admitted
instance is pending and entered under its own task node. -/
theorem TimersOk.handshakeRsp (h : pm.TimersOk) (ht : pm.TablesOk) (hi : pm.InboundsOk) {ptn : Nat}
    (hs : pending (pm.inst ptn) = true ∨ (pm.inst ptn).state = peInstStateKilled)
    (result : PeMgrErrno) (dir : Int) (snid : SubNetworkID) (peNode : Node) :
    (pm.peMgrHandshakeRsp result dir snid peNode ptn).Post (·.1.TimersOk) := by
  refine kept_timers.handshakeRsp h id (fun p hp _ _ _ => ?_) (fun p hp _ _ _ _ => ?_)
    fun p hp _ _ => ?_
  all_goals obtain ⟨rfl, hpend⟩ := hi.live_of_get? ht hs hp
  · exact kept_timers.handshakeRspInbound h id fun n w _ _ _ =>
      TimersOk.handshakeRspAdmit (h.of_records rfl rfl rfl :
        TimersOk ({ pm with nodes := n, workers := w, ibpNum := bump pm.ibpNum snid 1 } :
          PeerManager)) hpend snid
  · exact kept_timers.handshakeRspOutbound h id fun w _ _ _ =>
      TimersOk.handshakeRspAdmit ((h.of_records rfl rfl rfl :
        TimersOk ({ pm with workers := w } : PeerManager)).updateStaticStatus snid
          ⟨peNode.ID, PeInstDirOutbound⟩ peerActivated) (by rwa [inst, updateStaticStatus_sch]) snid
  · exact h.handshakeRspAdmit hpend _

/-! ### The instance tasks -/

theorem TimersOk.piConnOutReq (h : pm.TimersOk) (p : Nat) (dialOk : Bool) :
    (pm.piConnOutReq p dialOk).TimersOk := by
  unfold PeerManager.piConnOutReq
  dsimp only
  split_ifs with h1
  · exact h
  all_goals
    have hp : pending (pm.inst p) = true := by
      simp only [pending, not_not.mp (not_or.mp h1).2]
      decide
  · exact (h.setPending hp (by rfl)).sendSelf _
  · exact (h.setPending hp rfl).sendSelf _

/-- A handshake hands its answer back with the instance pending and its pingpong timer kept. -/
theorem TimersOk.handshakeBack {X : PeerManager} (h : pm.TimersOk) {p : Nat}
    (hp : pending (pm.inst p) = true) (hX : HandshakeStep pm X p) (m : PeMgrMsg) :
    (X.sendSelf m).TimersOk := by
  rcases hX with rfl | ⟨i, rfl, -, hpp, -⟩
  · exact h.sendSelf m
  · exact (h.setPending hp hpp).sendSelf m

theorem TimersOk.piHandshakeReq (h : pm.TimersOk) (p : Nat)
    (rd : Except PeMgrErrno (SubNetworkID × NodeID)) (wr : PeMgrErrno) :
    (pm.piHandshakeReq p rd wr).TimersOk := by
  unfold PeerManager.piHandshakeReq
  dsimp only
  split_ifs with h1 h2 h3
  · exact h
  all_goals
    have hp : pending (pm.inst p) = true := decide_eq_true (by
      simp only [peInstStateConnected, peInstStateAccepted, peInstStateActivated] at h1 ⊢
      omega)
  · exact h.handshakeBack hp (handshakeStep_piHandshakeInbound pm p rd wr) _
  · exact h.handshakeBack hp (handshakeStep_piHandshakeOutbound pm p rd wr) _
  · exact h.handshakeBack hp (.inl rfl) _

/-- **An instance told it is established arms its first pingpong timer**: it was told once, so it
is told no more, and it had none. -/
theorem TimersOk.piEstablishedInd (h : pm.TimersOk) {p : Nat}
    (hx : (p, PiMsg.establishedInd) ∈ pm.sch.ibox) (hk : (pm.inst p).state ≠ peInstStateKilled)
    (timerOk deadlineOk : Bool) :
    (({ pm with sch := { pm.sch with ibox := pm.sch.ibox.erase (p, .establishedInd) } } :
      PeerManager).piEstablishedInd p timerOk deadlineOk).TimersOk := by
  have hperm := ((perm_erase_ibox hx).filter fun y : Nat × PiMsg => y.2 = .establishedInd).map (·.1)
  rw [List.filter_cons_of_pos (p := fun y : Nat × PiMsg => decide (y.2 = .establishedInd))
    (a := (p, .establishedInd)) rfl, List.map_cons] at hperm
  obtain ⟨hlt, hpend, hpp⟩ := h.established p (hperm.mem_iff.mpr (List.mem_cons_self _ _))
  have hnd := hperm.nodup_iff.mp h.establishes
  set X : PeerManager := { pm with sch := { pm.sch with ibox := pm.sch.ibox.erase (p, .establishedInd) } }
  have hX : X.TimersOk := ⟨h.started, h.fresh, h.nodup, h.owned, h.unarmed, hnd.of_cons,
    fun q hq => h.established q (hperm.symm.subset (List.mem_cons_of_mem _ hq))⟩
  have hY : ∀ i : PeerInstance, i.state = (pm.inst p).state → i.ppTid = pm.sch.nextTid →
      (X.setInst p i).TimersOk ∧ (X.setInst p i).owns (pm.sch.nextTid, .pingpong p) = true :=
    fun i hs hi => ⟨hX.setInst (fun n hn => (hX.free_pingpong hpp _ hn rfl).elim)
      (fun hq => by rw [pending_congr hs, hpend] at hq; cases hq)
      fun hq => absurd hq (List.nodup_cons.mp hnd).1, by
    simp only [owns, inst_setInst, true_and, hlt, if_true, decide_eq_true_eq, hs, hi, ne_eq, hk,
      not_false_eq_true, and_true]
    exact (List.length_set _ _ _).symm ▸ hlt⟩
  unfold PeerManager.piEstablishedInd
  dsimp only
  split_ifs
  · exact hX
  · have hi := hY { pm.inst p with ppTid := pm.sch.nextTid } rfl rfl
    refine TimersOk.sendSelf ?_ _
    exact hi.1.arm rfl rfl rfl hi.2
  · have hi := hY { pm.inst p with ppTid := pm.sch.nextTid, rxtxRuning := true } rfl rfl
    exact hi.1.arm rfl rfl rfl hi.2

/-- A close request makes the instance killing, with its pingpong timer. -/
theorem TimersOk.piCloseReq (h : pm.TimersOk) (p : Nat) : (pm.piCloseReq p).TimersOk := by
  unfold PeerManager.piCloseReq
  dsimp only
  split_ifs
  · exact h
  · refine (h.setInst (i := { pm.inst p with state := peInstStateKilling, rxtxRuning := false })
      (fun n hn => ⟨?_, show peInstStateKilling ≠ peInstStateKilled by decide⟩)
      (fun hq => by cases hq) fun hq => ⟨rfl, (h.established p hq).2.2⟩).sendSelf _
    have hown := h.owned _ hn
    simp only [owns, decide_eq_true_eq] at hown
    exact hown.2.1

/-- Taking a message other than `EvPeEstablishedInd` off an instance task's mailbox keeps the
invariant. -/
theorem TimersOk.eraseInbox (h : pm.TimersOk) (x : Nat × PiMsg) (hm : x.2 ≠ .establishedInd) :
    ({ pm with sch := { pm.sch with ibox := pm.sch.ibox.erase x } } : PeerManager).TimersOk := by
  refine h.of_records ?_ rfl rfl
  simp only [timerRecords, establishTargets, ← List.erase_filter]
  rw [List.erase_of_not_mem fun hx => hm (by simpa using (List.mem_filter.mp hx).2)]

/-- **An instance task's step keeps the invariant**: an instance told it is established is live. -/
theorem TimersOk.piProc (h : pm.TimersOk) (p : Nat) (a : PiAnswers) {pm' : PeerManager}
    (hs : pm.piProc p a = some pm') : pm'.TimersOk := by
  unfold PeerManager.piProc at hs
  split_ifs at hs with hg
  split at hs
  · cases hs
  next x m hf =>
  obtain rfl := Option.some.inj hs
  obtain ⟨rfl, hmem⟩ := mem_ibox_of_find? hf
  cases m with
  | connOutReq => exact (h.eraseInbox (x, .connOutReq) nofun).piConnOutReq x a.dialOk
  | handshakeReq => exact (h.eraseInbox (x, .handshakeReq) nofun).piHandshakeReq x a.hsRead a.hsWrite
  | establishedInd => exact h.piEstablishedInd hmem (fun hk => hg (.inr hk)) a.timerOk a.deadlineOk
  | closeReq => exact (h.eraseInbox (x, .closeReq) nofun).piCloseReq x

/-! ### Runs -/

/-- **Every step keeps the invariant** of a state that keeps the worker tables and the exchanges. -/
theorem TimersOk.step (h : pm.TimersOk) (ht : pm.TablesOk) (hi : pm.InboundsOk) {ev : PeEvent}
    {r : Run PeerManager} (hs : pm.step ev = some r) : r.Post TimersOk := by
  cases ev with
  | mgrProc ans =>
    cases hbox : pm.sch.mbox with
    | nil => simp [PeerManager.step, PeerManager.mgrProc, hbox] at hs
    | cons m ms =>
      simp only [PeerManager.step, PeerManager.mgrProc, hbox, Option.some.injEq] at hs
      subst hs
      rw [Run.post_map]
      have hpop : TimersOk { pm with sch := { pm.sch with mbox := ms, ans := ans } } :=
        h.of_records rfl rfl rfl
      refine kept_timers.peerMgrProc hpop m (fun _ => hpop.peMgrStartReq)
        (fun _ _ _ ptn _ _ => hpop.sendInst ptn nofun) ?_
      rintro result dir snid peNode ptn rfl
      obtain ⟨-, -, hst⟩ := hi.pop_exchange hbox rfl ans
      exact hpop.handshakeRsp (ht.of_view rfl) (hi.pop hbox ans) hst result dir snid peNode
  | piProc p a =>
    obtain ⟨pm', hp, rfl⟩ := Option.map_eq_some'.mp hs
    exact h.piProc p a hp
  | piIoFailure p =>
    obtain ⟨pm', hp, rfl⟩ := Option.map_eq_some'.mp hs
    unfold PeerManager.piIoFailure at hp
    dsimp only at hp
    split_ifs at hp
    cases hp
    exact h.sendSelf _
  | lsnConnAccepted => cases hs; exact h.sendSelf _
  | dcvFindNodeRsp snid nodes => cases hs; exact h.sendSelf _
  | closePeer snid id => cases hs; exact (h.sendSelf _).sendSelf _
  | findNodeTimer tid =>
    obtain ⟨pm', hp, rfl⟩ := Option.map_eq_some'.mp hs
    unfold PeerManager.findNodeTimer at hp
    split at hp
    · cases hp
      exact (h.schKillTimer tid).sendSelf _
    · cases hp
  | indTake =>
    unfold PeerManager.step at hs
    split_ifs at hs
    cases hs
    exact h.of_records rfl rfl rfl

/-- Power-on has no timer armed, no instance and no identity given. -/
theorem timersOk_peMgrPoweron (cfg : Cfg4PeerManager) (dflt : SubNetDefaults) :
    (peMgrPoweron cfg dflt).TimersOk :=
  ⟨le_rfl, nofun, List.nodup_nil, nofun, fun _ hp => absurd (lt_of_pending hp) (Nat.not_lt_zero _),
    List.nodup_nil, nofun⟩

/-- Distinct identities, all one, are at most one. -/
theorem length_le_one_of_nodup {l : List (Int × PeTimer)} (hn : (l.map (·.1)).Nodup)
    (hs : ∀ e ∈ l, ∀ e' ∈ l, e.1 = e'.1) : l.length ≤ 1 := by
  cases l with
  | nil => exact Nat.zero_le _
  | cons e l =>
    have hr : (e :: l).map (·.1) = List.replicate (e :: l).length e.1 :=
      List.eq_replicate_iff.mpr ⟨List.length_map _ _, by
        simpa using fun e' he' => hs e' he' e (List.mem_cons_self _ _)⟩
    rw [hr, List.nodup_replicate] at hn
    exact hn

/-- Each owner has at most one timer armed: its timers' identities are the one it records. -/
theorem TimersOk.once (h : pm.TimersOk) (t : PeTimer) :
    (pm.sch.timers.filter (·.2 = t)).length ≤ 1 := by
  refine length_le_one_of_nodup (h.nodup.sublist ((List.filter_sublist _).map _)) ?_
  rintro ⟨a, ta⟩ ha ⟨b, tb⟩ hb
  simp only [List.mem_filter, decide_eq_true_eq] at ha hb
  obtain ⟨ha, rfl⟩ := ha
  obtain ⟨hb, rfl⟩ := hb
  exact owns_unique (h.owned _ ha) (h.owned _ hb)

end PeerManager

open PeerManager in
/-- Every reachable state keeps the timers. -/
theorem reachable_timersOk {pm : PeerManager} (h : Reachable pm) : pm.TimersOk := by
  induction h with
  | init cfg dflt => exact timersOk_peMgrPoweron cfg dflt
  | step hr hs ih => exact ih.step (reachable_tablesOk hr).2 (reachable_inboundsOk hr) hs

open PeerManager in
/-- **Every armed timer is its owner's**: in every reachable state, a discovery timer of `snid`
armed is the one `tidFindNode[snid]` records, a statistics timer the one `ssTid` records, and a
pingpong timer of `p` the one that `p`, an instance of the heap that is not killed, records in
its `ppTid`. So a killed instance has no pingpong timer left, and a timer killed by its recorded
identity is gone. -/
theorem reachable_timers_owned {pm : PeerManager} (h : Reachable pm) :
    (∀ snid tid, (tid, PeTimer.findNode snid) ∈ pm.sch.timers →
      pm.tidFindNode.get? snid = some tid) ∧
    (∀ tid, (tid, PeTimer.stat) ∈ pm.sch.timers → pm.ssTid = tid) ∧
    ∀ p tid, (tid, PeTimer.pingpong p) ∈ pm.sch.timers →
      p < pm.sch.insts.length ∧ (pm.inst p).ppTid = tid ∧ (pm.inst p).state ≠ peInstStateKilled := by
  have ho := (reachable_timersOk h).owned
  refine ⟨fun snid tid he => ?_, fun tid he => ?_, fun p tid he => ?_⟩ <;>
    simpa only [owns, decide_eq_true_eq] using ho _ he

/-- After an outbound is activated, the statistics timer, the re-armed discovery timer of
`exampleSnid` and the instance's pingpong timer are armed, each named by its owner. -/
theorem reachable_timers_owned_activated :
    ∃ pm, Reachable pm ∧
      pm.sch.timers = [(0, .stat), (2, .findNode exampleSnid), (3, .pingpong 0)] ∧
      ((∀ snid tid, (tid, PeTimer.findNode snid) ∈ pm.sch.timers →
        pm.tidFindNode.get? snid = some tid) ∧
      (∀ tid, (tid, PeTimer.stat) ∈ pm.sch.timers → pm.ssTid = tid) ∧
      ∀ p tid, (tid, PeTimer.pingpong p) ∈ pm.sch.timers →
        p < pm.sch.insts.length ∧ (pm.inst p).ppTid = tid ∧
          (pm.inst p).state ≠ peInstStateKilled) := by
  have hrun : (runEvents (peMgrPoweron exampleCfg exampleDefaults) activatedOutboundRun).map
      (fun pm => decide (pm.sch.timers = [(0, .stat), (2, .findNode exampleSnid), (3, .pingpong 0)])) =
        some true := by
    decide
  obtain ⟨pm, h, hc⟩ := (Reachable.init _ _).exists_of_runEvents _ hrun
  exact ⟨pm, h, of_decide_eq_true hc, reachable_timers_owned h⟩

/-- **Each owner has at most one timer armed**: in every reachable state and for every timer `t`,
at most one timer of `t` is armed: one discovery timer per sub-network, one statistics timer and
one pingpong timer per instance. -/
theorem reachable_timer_once {pm : PeerManager} (h : Reachable pm) (t : PeTimer) :
    (pm.sch.timers.filter (·.2 = t)).length ≤ 1 :=
  (reachable_timersOk h).once t

/-- After an outbound is activated, four timers were set and the first discovery timer (`1`) was
killed when discovery re-armed it, so each timer is armed once. -/
theorem reachable_timer_once_rearmed :
    ∃ pm, Reachable pm ∧ pm.sch.nextTid = 4 ∧ pm.sch.timers.map (·.1) = [0, 2, 3] ∧
      pm.tidFindNode.get? exampleSnid = some 2 ∧
      ∀ t, (pm.sch.timers.filter (·.2 = t)).length ≤ 1 := by
  have hrun : (runEvents (peMgrPoweron exampleCfg exampleDefaults) activatedOutboundRun).map
      (fun pm => decide (pm.sch.nextTid = 4) && decide (pm.sch.timers.map (·.1) = [0, 2, 3]) &&
        decide (pm.tidFindNode.get? exampleSnid = some 2)) = some true := by
    decide
  obtain ⟨pm, h, hc⟩ := (Reachable.init _ _).exists_of_runEvents _ hrun
  simp only [Bool.and_eq_true, decide_eq_true_eq] at hc
  exact ⟨pm, h, hc.1.1, hc.1.2, hc.2, reachable_timer_once h⟩

end Gyee.Peer
