import Gyee.Peer.System

/-! # Killing instances and resolving duplicates

`peMgrKillInst` cleans the maps by key: it deletes the entries of `workers` and `nodes` under the
killed instance's sub-network, identity and direction, whichever instance they hold
(`peMgrKillInst_unlists`). So the kill of a handshook inbound instance of a peer whose activated
inbound is a worker deletes that worker's entry and count (`peMgrKillInst_unlists_other`), and when
the second instance is rejected as a duplicate, its kill unlists the activated one, which stays live
(`duplicateInbound_unlists_worker`).

`instStateCmpKill` answers `PeMgrEnoDuplicated` as soon as it finds the other instance, whichever of
the two it kills (`instStateCmpKill_duplicated`), and `peMgrHandshakeRsp` then returns: an inbound
instance whose handshake beats a connecting outbound of the same peer outlives it without being
admitted (`cmpKill_leaves_responder_unadmitted`).

Only `peMgrConnCloseCfm` and `peMgrConnCloseInd` enqueue `PeerClosed`, and only when their kill
succeeds: the confirmation of an instance that is no longer live enqueues nothing
(`peMgrConnCloseCfm_of_not_live`). An activated outbound killed by `instStateCmpKill` while it closes
is announced activated and never closed (`cmpKilled_worker_gets_no_peerClosed`). -/

namespace Gyee.Peer

open Gyee

namespace PeerManager

variable (pm : PeerManager)

theorem dropWorker_workers (snid : SubNetworkID) (idEx : PeerIdEx) :
    (pm.dropWorker snid idEx).workers.get? snid idEx = none := by
  unfold dropWorker
  split_ifs with h
  · simp
  · simpa using h

@[simp] theorem dropWorker_nodes (snid : SubNetworkID) (idEx : PeerIdEx) :
    (pm.dropWorker snid idEx).nodes = pm.nodes := by
  unfold dropWorker; split_ifs <;> rfl

@[simp] theorem dropWorker_peers (snid : SubNetworkID) (idEx : PeerIdEx) :
    (pm.dropWorker snid idEx).peers = pm.peers := by
  unfold dropWorker; split_ifs <;> rfl

theorem dropInbound_nodes (ptn : Nat) (state : Int) (snid : SubNetworkID) (idEx : PeerIdEx) :
    (pm.dropInbound ptn state snid idEx).nodes.get? snid idEx = none ∧
      (pm.dropInbound ptn state snid idEx).peers.get? ptn = none ∧
      (pm.dropInbound ptn state snid idEx).workers = pm.workers := by
  unfold dropInbound
  split_ifs with h1 h2 <;> simp_all

/-- **The maps lose the killed instance's keys**: its worker and node entries and its `peers`
entry, for an inbound or an outbound instance. -/
theorem killInstMaps_unlists (ptn : Nat) (i : PeerInstance)
    (hd : i.dir = PeInstDirInbound ∨ i.dir = PeInstDirOutbound) :
    let pm' := pm.killInstMaps ptn i
    pm'.workers.get? i.snid ⟨i.node.ID, i.dir⟩ = none ∧
      pm'.nodes.get? i.snid ⟨i.node.ID, i.dir⟩ = none ∧ pm'.peers.get? ptn = none := by
  have hw := (pm.dropWorker_workers i.snid ⟨i.node.ID, i.dir⟩)
  unfold killInstMaps
  rcases hd with hd | hd
  · rw [if_neg (by rw [hd]; decide), if_pos hd]
    obtain ⟨h1, h2, h3⟩ := (pm.dropWorker i.snid ⟨i.node.ID, i.dir⟩).dropInbound_nodes ptn i.state
      i.snid ⟨i.node.ID, i.dir⟩
    exact ⟨h3 ▸ hw, h1, h2⟩
  · rw [if_pos hd]
    exact ⟨hw, by simp [dropOutbound], by simp [dropOutbound]⟩

/-- **`peMgrKillInst` unlists the killed instance's keys, whichever instance they hold**: the
worker and node entries under its sub-network, identity and direction, and its task node. -/
theorem peMgrKillInst_unlists {ptn p : Nat} (node : Node) {dir : Int}
    (hp : pm.peers.get? ptn = some p) (hd : (pm.inst p).dir = dir)
    (hio : dir = PeInstDirInbound ∨ dir = PeInstDirOutbound) :
    let i := pm.inst p
    let r := pm.peMgrKillInst ptn node dir
    r.2 = .none ∧ r.1.workers.get? i.snid ⟨i.node.ID, dir⟩ = none ∧
      r.1.nodes.get? i.snid ⟨i.node.ID, dir⟩ = none ∧ r.1.live ptn = false := by
  unfold peMgrKillInst
  simp only [hp, hd, ne_eq, not_true_eq_false, if_false]
  obtain ⟨h1, h2, h3⟩ := killInstMaps_unlists (pm.killPingpong p) ptn (pm.inst p) (hd ▸ hio)
  rw [hd] at h1 h2
  refine ⟨trivial, ?_, ?_, ?_⟩ <;> simpa [live, GoMap.contains]

/-- **`instStateCmpKill` answers `PeMgrEnoDuplicated` whichever instance it kills**, as soon as
`nodes[snid][idEx]` holds an instance (and the responder's state is not negative). -/
theorem instStateCmpKill_duplicated {p ptn d : Nat} {snid : SubNetworkID} (node : Node)
    {idEx : PeerIdEx} (hd : pm.nodes.get? snid idEx = some d) (hs : 0 ≤ (pm.inst p).state) :
    ∃ pm', pm.instStateCmpKill p ptn snid node idEx = .ret (pm', .duplicated) := by
  unfold instStateCmpKill
  simp only [hd, peerInstStateCompare, if_neg (not_lt.mpr hs)]
  exact ⟨_, rfl⟩

/-- **The close confirmation of an instance that is no longer live enqueues nothing**: the kill
answers `PeMgrEnoNotfound`, and the handler answers `PeMgrEnoScheduler` with the state unchanged. -/
theorem peMgrConnCloseCfm_of_not_live {ptn : Nat} (h : pm.live ptn = false) (dir : Int)
    (snid : SubNetworkID) (node : Node) :
    pm.peMgrConnCloseCfm dir snid node ptn = .ret (pm, .scheduler) := by
  have hn : pm.peers.get? ptn = none := by
    simpa [live, GoMap.contains] using h
  simp [peMgrConnCloseCfm, peMgrConnClose, peMgrKillInst, hn]

end PeerManager

/-! ### Runs that show the duplicates' defects -/

/-- A sub-network. -/
def exampleSnid : SubNetworkID := ⟨[0, 1], rfl⟩

/-- The identity whose first byte is `k` and whose other bytes are `0`. -/
def peerId (k : UInt8) : NodeID := ⟨k :: List.replicate 63 0, by simp⟩

/-- The caps of `exampleSnid`: eight of each. -/
def exampleCaps : GoMap SubNetworkID Int := (∅ : GoMap SubNetworkID Int).set exampleSnid 8

/-- A dynamic node of the one sub-network `exampleSnid`, with no static node. -/
def exampleCfg : Cfg4PeerManager :=
  ⟨false, false, false, .dynamic, 0, 0, 0, [], Bytes.fill 2 0, exampleCaps, exampleCaps,
    exampleCaps, [exampleSnid]⟩

/-- Defaults for `AnySubNet`, which `exampleCfg` does not use. -/
def exampleDefaults : SubNetDefaults := ⟨Bytes.fill 2 0, 0, 0, 0⟩

/-- The scheduler creates every task and sets every timer; `rand` gives `0`. -/
def allGranted : SchAnswers := ⟨[], [], [], []⟩

/-- A handshake with the peer `peerId k` of `exampleSnid` that succeeds. -/
def handshakeWith (k : UInt8) : PiAnswers := ⟨true, .ok (exampleSnid, peerId k), .none, true, true⟩

/-- A dial that succeeds. -/
def dialSucceeds : PiAnswers := ⟨true, .error .os, .os, true, true⟩

/-- The peer manager of `exampleCfg` after `PeMgrStart`'s request and the first outbound drive. -/
def startRun : List PeEvent := [.mgrProc allGranted, .mgrProc allGranted]

/-- Two inbound connections from the peer `peerId 1`: the first is admitted, the second is a
duplicate. -/
def duplicateInboundRun : List PeEvent :=
  startRun ++ [.lsnConnAccepted, .mgrProc allGranted, .piProc 0 (handshakeWith 1),
    .mgrProc allGranted, .lsnConnAccepted, .mgrProc allGranted, .piProc 1 (handshakeWith 1),
    .mgrProc allGranted]

/-- **A rejected duplicate inbound unlists the activated inbound of the same peer**: the first
instance is live and activated, and no worker is listed for its peer and direction. -/
theorem duplicateInbound_unlists_worker :
    ∃ pm, Reachable pm ∧ pm.live 0 = true ∧ (pm.inst 0).state = peInstStateActivated ∧
      (pm.inst 0).snid = exampleSnid ∧ (pm.inst 0).node.ID = peerId 1 ∧
      (pm.inst 0).dir = PeInstDirInbound ∧ pm.workers.get? exampleSnid ⟨peerId 1, PeInstInPos⟩ = none := by
  have hrun : (runEvents (peMgrPoweron exampleCfg exampleDefaults) duplicateInboundRun).map
      (fun pm => pm.live 0 && decide ((pm.inst 0).state = peInstStateActivated) &&
        decide ((pm.inst 0).snid = exampleSnid) && decide ((pm.inst 0).node.ID = peerId 1) &&
        decide ((pm.inst 0).dir = PeInstDirInbound) &&
        decide (pm.workers.get? exampleSnid ⟨peerId 1, PeInstInPos⟩ = none)) = some true := by
    decide
  obtain ⟨pm, h, hc⟩ := (Reachable.init _ _).exists_of_runEvents duplicateInboundRun hrun
  simp only [Bool.and_eq_true, decide_eq_true_eq] at hc
  exact ⟨pm, h, hc.1.1.1.1.1, hc.1.1.1.1.2, hc.1.1.1.2, hc.1.1.2, hc.1.2, hc.2⟩

/-- **A kill reaches past its instance**: in a reachable state where the inbound instance `1` of the
peer `peerId 1` waits, handshook, behind the activated inbound instance `0` of the same peer,
killing instance `1` deletes the worker entry under its key, which holds instance `0`, and takes
one off `wrkNum`, while instance `0` stays live and activated. -/
theorem peMgrKillInst_unlists_other :
    ∃ pm, Reachable pm ∧ pm.live 1 = true ∧ pm.live 0 = true ∧
      (pm.inst 0).state = peInstStateActivated ∧
      pm.workers.get? (pm.inst 1).snid ⟨(pm.inst 1).node.ID, (pm.inst 1).dir⟩ = some 0 ∧
      let r := (pm.peMgrKillInst (pm.inst 1).ptnMe (pm.inst 1).node (pm.inst 1).dir).1
      r.workers.get? (pm.inst 1).snid ⟨(pm.inst 1).node.ID, (pm.inst 1).dir⟩ = none ∧
        cnt r.wrkNum (pm.inst 1).snid = cnt pm.wrkNum (pm.inst 1).snid - 1 ∧
        r.live 0 = true ∧ (r.inst 0).state = peInstStateActivated := by
  have hrun : (runEvents (peMgrPoweron exampleCfg exampleDefaults) duplicateInboundRun.dropLast).map
      (fun pm =>
        let i := pm.inst 1
        let r := (pm.peMgrKillInst i.ptnMe i.node i.dir).1
        pm.live 1 && pm.live 0 && decide ((pm.inst 0).state = peInstStateActivated) &&
          decide (pm.workers.get? i.snid ⟨i.node.ID, i.dir⟩ = some 0) &&
          decide (r.workers.get? i.snid ⟨i.node.ID, i.dir⟩ = none) &&
          decide (cnt r.wrkNum i.snid = cnt pm.wrkNum i.snid - 1) && r.live 0 &&
          decide ((r.inst 0).state = peInstStateActivated)) = some true := by
    decide
  obtain ⟨pm, h, hc⟩ := (Reachable.init _ _).exists_of_runEvents _ hrun
  simp only [Bool.and_eq_true, decide_eq_true_eq] at hc
  obtain ⟨⟨⟨⟨⟨⟨⟨h1, h0⟩, hs⟩, hw⟩, hw'⟩, hn⟩, hl⟩, hs'⟩ := hc
  exact ⟨pm, h, h1, h0, hs, hw, hw', hn, hl, hs'⟩

/-- The peer `peerId 1` is found by discovery and dialed, and it connects in at the same time; its
inbound handshake succeeds while the outbound is still connecting. -/
def crossedConnectRun : List PeEvent :=
  startRun ++ [.dcvFindNodeRsp exampleSnid [Node.ofId (peerId 1)], .mgrProc allGranted,
    .mgrProc allGranted, .lsnConnAccepted, .mgrProc allGranted, .piProc 1 (handshakeWith 1)]

/-- **The inbound whose handshake beats a connecting outbound outlives it unadmitted**: both
instances of the peer are live, and the inbound's handshake response is next; the handler kills the
outbound and answers `PeMgrEnoDuplicated`, leaving the inbound live, handshook and not a worker. -/
theorem cmpKill_leaves_responder_unadmitted :
    ∃ pm, Reachable pm ∧ pm.live 0 = true ∧ pm.live 1 = true ∧
      (pm.inst 0).dir = PeInstDirOutbound ∧ (pm.inst 0).state = peInstStateConnOut ∧
      pm.sch.mbox.head? =
        some (.handshakeRsp .none PeInstDirInbound exampleSnid (Node.ofId (peerId 1)) 1) ∧
      ∃ pm', pm.peMgrHandshakeRsp .none PeInstDirInbound exampleSnid (Node.ofId (peerId 1)) 1 =
          .ret (pm', .duplicated) ∧
        pm'.live 1 = true ∧ pm'.live 0 = false ∧ (pm'.inst 1).state = peInstStateHandshook ∧
        pm'.workers.get? exampleSnid ⟨peerId 1, PeInstInPos⟩ = none := by
  have hrun : (runEvents (peMgrPoweron exampleCfg exampleDefaults) crossedConnectRun).map
      (fun pm => pm.live 0 && pm.live 1 && decide ((pm.inst 0).dir = PeInstDirOutbound) &&
        decide ((pm.inst 0).state = peInstStateConnOut) &&
        decide (pm.sch.mbox.head? =
          some (.handshakeRsp .none PeInstDirInbound exampleSnid (Node.ofId (peerId 1)) 1)) &&
        (pm.peMgrHandshakeRsp .none PeInstDirInbound exampleSnid (Node.ofId (peerId 1)) 1).retCheck
          fun r => decide (r.2 = .duplicated) && r.1.live 1 && !r.1.live 0 &&
            decide ((r.1.inst 1).state = peInstStateHandshook) &&
            decide (r.1.workers.get? exampleSnid ⟨peerId 1, PeInstInPos⟩ = none)) = some true := by
    decide
  obtain ⟨pm, h, hc⟩ := (Reachable.init _ _).exists_of_runEvents crossedConnectRun hrun
  simp only [Bool.and_eq_true, decide_eq_true_eq] at hc
  obtain ⟨⟨pm', e⟩, heq, hc'⟩ := Run.retCheck_eq_true hc.2
  simp only [Bool.and_eq_true, decide_eq_true_eq, Bool.not_eq_true'] at hc'
  obtain ⟨⟨⟨⟨he, h1⟩, h0⟩, hs⟩, hw⟩ := hc'
  subst he
  exact ⟨pm, h, hc.1.1.1.1.1, hc.1.1.1.1.2, hc.1.1.1.2, hc.1.1.2, hc.1.2, pm', heq, h1, h0, hs, hw⟩

/-- The peer `peerId 1` is found by discovery, dialed, handshakes and is activated, and its instance
arms its pingpong timer. Discovery arms its retry timer at the start and re-arms it when the dial
leaves the outbounds short. -/
def activatedOutboundRun : List PeEvent :=
  startRun ++ [.dcvFindNodeRsp exampleSnid [Node.ofId (peerId 1)], .mgrProc allGranted,
    .mgrProc allGranted, .piProc 0 dialSucceeds, .mgrProc allGranted, .piProc 0 (handshakeWith 1),
    .mgrProc allGranted, .piProc 0 dialSucceeds]

/-- The peer `peerId 1` is dialed, handshakes and is activated; a user closes it, and its instance
starts closing; meanwhile the peer connects in, and that inbound's handshake response reaches the
manager before the outbound's close confirmation. -/
def closingWorkerRun : List PeEvent :=
  startRun ++ [.dcvFindNodeRsp exampleSnid [Node.ofId (peerId 1)], .mgrProc allGranted,
    .mgrProc allGranted, .piProc 0 dialSucceeds, .mgrProc allGranted, .piProc 0 (handshakeWith 1),
    .mgrProc allGranted, .closePeer exampleSnid (peerId 1), .mgrProc allGranted, .mgrProc allGranted,
    .lsnConnAccepted, .mgrProc allGranted, .piProc 1 (handshakeWith 1), .piProc 0 dialSucceeds,
    .piProc 0 dialSucceeds, .mgrProc allGranted]

/-- **A worker killed by `instStateCmpKill` while it closes never gets `PeerClosed`**: the
outbound was announced activated and is no longer live, no `PeerClosed` was enqueued, and its close
confirmation, next in the mailbox, answers `PeMgrEnoScheduler` and enqueues nothing. -/
theorem cmpKilled_worker_gets_no_peerClosed :
    ∃ pm, Reachable pm ∧
      PeInd.peerActivated 0 exampleSnid PeInstDirOutbound (peerId 1) ∈ pm.indChan ∧
      pm.indChan.length = 1 ∧ pm.live 0 = false ∧
      pm.sch.mbox.head? =
        some (.closeCfm .none PeInstDirOutbound exampleSnid (Node.ofId (peerId 1)) 0) ∧
      pm.peMgrConnCloseCfm PeInstDirOutbound exampleSnid (Node.ofId (peerId 1)) 0 =
        .ret (pm, .scheduler) := by
  have hrun : (runEvents (peMgrPoweron exampleCfg exampleDefaults) closingWorkerRun).map
      (fun pm => decide (PeInd.peerActivated 0 exampleSnid PeInstDirOutbound (peerId 1) ∈ pm.indChan) &&
        decide (pm.indChan.length = 1) && !pm.live 0 &&
        decide (pm.sch.mbox.head? =
          some (.closeCfm .none PeInstDirOutbound exampleSnid (Node.ofId (peerId 1)) 0))) =
      some true := by
    decide
  obtain ⟨pm, h, hc⟩ := (Reachable.init _ _).exists_of_runEvents closingWorkerRun hrun
  simp only [Bool.and_eq_true, decide_eq_true_eq, Bool.not_eq_true'] at hc
  exact ⟨pm, h, hc.1.1.1, hc.1.1.2, hc.1.2, hc.2,
    pm.peMgrConnCloseCfm_of_not_live hc.1.2 _ _ _⟩

end Gyee.Peer
