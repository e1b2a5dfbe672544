import Gyee.Peer.Accounts

/-! # The caps of a sub-network

`peMgrHandshakeRsp` resolves three caps for the sub-network of a handshake (`hsCaps`): the static
caps for the static sub-network, the `subNetMax*` caps for a dynamic one. It checks the peer cap
against `wrkNum`, and in a dynamic sub-network the inbound cap against `ibpNum` and the outbound
cap against `obpNum`; in the static sub-network it checks only for a duplicate worker.

So a dynamic node with static nodes admits inbound instances of the static sub-network past its
inbound cap: two peers that connect in and handshake in the static sub-network are both admitted
with `StaticMaxInBounds = 1`, while the listener stays open for the dynamic sub-network's inbounds
(`caps_not_invariant`). -/

namespace Gyee.Peer

open Gyee

namespace PeerManager

variable (pm : PeerManager)

/-- The number of live activated instances of `snid`. -/
def activatedCount (snid : SubNetworkID) : Nat :=
  pm.liveCount fun i => i.snid = snid ∧ i.state = peInstStateActivated

/-- The number of live inbound instances of `snid` that were admitted: activated or killing. -/
def admittedInboundCount (snid : SubNetworkID) : Nat :=
  pm.liveCount fun i => i.dir = PeInstDirInbound ∧ i.snid = snid ∧
    (i.state = peInstStateActivated ∨ i.state = peInstStateKilling)

/-- The caps hold for `snid`: at most `maxPeers` activated instances, `maxOutbounds` outbound
instances and `maxInbounds` admitted inbound instances, as `hsCaps` resolves them. -/
def WithinCaps (snid : SubNetworkID) : Prop :=
  pm.activatedCount snid ≤ (pm.hsCaps snid).2.2 ∧
    pm.liveCount (isOutboundOf snid) ≤ (pm.hsCaps snid).2.1 ∧
    pm.admittedInboundCount snid ≤ (pm.hsCaps snid).1

end PeerManager

/-- The static sub-network of `mixedCfg`. -/
def staticSnid : SubNetworkID := ⟨[0, 2], rfl⟩

/-- A dynamic node of `exampleSnid`, eight of each, with one static node in `staticSnid`, where it
takes four peers, no outbound and one inbound. -/
def mixedCfg : Cfg4PeerManager :=
  { exampleCfg with
    StaticMaxPeers := 4, StaticMaxOutbounds := 0, StaticMaxInBounds := 1,
    StaticNodes := [Node.ofId (peerId 9)], StaticNetId := staticSnid }

/-- A handshake with the peer `peerId k` in `staticSnid` that succeeds. -/
def staticHandshakeWith (k : UInt8) : PiAnswers := ⟨true, .ok (staticSnid, peerId k), .none, true, true⟩

/-- Two peers connect in and handshake in the static sub-network. -/
def staticInboundsRun : List PeEvent :=
  startRun ++ [.lsnConnAccepted, .mgrProc allGranted, .piProc 0 (staticHandshakeWith 1),
    .mgrProc allGranted, .lsnConnAccepted, .mgrProc allGranted, .piProc 1 (staticHandshakeWith 2),
    .mgrProc allGranted]

/-- **The inbound cap of the static sub-network is not enforced**: in a reachable state of a
dynamic node with a static node, two inbound instances of the static sub-network are admitted
while `hsCaps` resolves its inbound cap to `1`. -/
theorem caps_not_invariant :
    ¬ ∀ pm, Reachable pm → ∀ snid, pm.WithinCaps snid := by
  intro hall
  have hrun : (runEvents (peMgrPoweron mixedCfg exampleDefaults) staticInboundsRun).map
      (fun pm => decide (pm.admittedInboundCount staticSnid = 2) &&
        decide ((pm.hsCaps staticSnid).1 = 1)) = some true := by
    decide
  obtain ⟨pm, h, hc⟩ := (Reachable.init _ _).exists_of_runEvents staticInboundsRun hrun
  simp only [Bool.and_eq_true, decide_eq_true_eq] at hc
  have hw := (hall pm h staticSnid).2.2
  rw [hc.1, hc.2] at hw
  omega

end Gyee.Peer
