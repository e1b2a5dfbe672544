import Gyee.Peer.Kill

/-! # The handshake's data

The system model reads of a handshake only its sub-network and node identity. Here the two halves
of the handshake are modelled with all the data they exchange: `piHandshakeOutbound` writes the
local node's identity, address and protocol table (`hsOutbound`) and reads the remote's;
`piHandshakeInbound` reads first, records the remote's data, and writes back the handshake it read
with the local node's data put in (`hsReply`). The codec that carries a handshake across the
connection is outside the repository; `handshakePair` runs an outbound instance of a node A against
the accepted instance of a node B, each reading what the other wrote.

Both sides build addresses with `append`: the inbound side appends its own IP to the IP it read,
and the outbound side appends the IP it reads to the address it dialed. So B's instance records
A's IP (its node record starts empty), but A's instance records the dialed address, then A's own
IP, then B's (`handshakePair_spec`); identities, ports, protocol tables and the sub-network are
exchanged as advertised. -/

namespace Gyee.Peer

open Gyee

/-- `Protocol`, an entry of a protocol table: its identity and version. The handshake copies the
tables whole. -/
structure Protocol where
  Pid : UInt32
  Ver : List UInt8
  deriving DecidableEq

/-- `Handshake`, the message of the handshake. -/
structure Handshake where
  Snid : SubNetworkID
  NodeId : NodeID
  IP : List UInt8
  UDP : UInt32
  TCP : UInt32
  ProtoNum : UInt32
  Protocols : List Protocol
  deriving DecidableEq

/-- The fields of `peMgrConfig` the handshake reads: the local node's address, identity and
protocol table. -/
structure HsConfig where
  ip : List UInt8
  port : UInt16
  udp : UInt16
  nodeId : NodeID
  protoNum : UInt32
  protocols : List Protocol
  deriving DecidableEq

/-- A `peerInstance` with the protocol table the handshake records. -/
structure HsInstance where
  inst : PeerInstance
  protoNum : UInt32
  protocols : List Protocol
  deriving DecidableEq

/-- The handshake `piHandshakeOutbound` writes: the instance's sub-network and the local node. -/
def hsOutbound (cfg : HsConfig) (snid : SubNetworkID) : Handshake :=
  ⟨snid, cfg.nodeId, [] ++ cfg.ip, cfg.udp.toUInt32, cfg.port.toUInt32, cfg.protoNum,
    [] ++ cfg.protocols⟩

/-- The handshake `piHandshakeInbound` writes back: the one it read, with the local node's data,
the local IP appended to the IP it read. -/
def hsReply (cfg : HsConfig) (snid : SubNetworkID) (hs : Handshake) : Handshake :=
  { hs with
    Snid := snid, NodeId := cfg.nodeId, IP := hs.IP ++ cfg.ip, UDP := cfg.udp.toUInt32,
    TCP := cfg.port.toUInt32, ProtoNum := cfg.protoNum, Protocols := cfg.protocols }

/-- `piHandshakeOutbound` of the instance `x`: `wr` is the result of writing `hsOutbound` of the
local configuration, and `rd` the handshake read, which must name the instance's sub-network and
peer. -/
def piHandshakeOutbound (x : HsInstance) (wr : PeMgrErrno)
    (rd : Except PeMgrErrno Handshake) : HsInstance × PeMgrErrno :=
  if wr ≠ .none then (x, wr)
  else match rd with
  | .error e => (x, e)
  | .ok hs =>
    if hs.Snid ≠ x.inst.snid then (x, .message)
    else if hs.NodeId ≠ x.inst.node.ID then (x, .message)
    else
      let node := { x.inst.node with
        TCP := hs.TCP.toUInt16.toNat, UDP := hs.UDP.toUInt16.toNat, IP := x.inst.node.IP ++ hs.IP }
      let x := { x with
        inst := { x.inst with node := node, state := peInstStateHandshook },
        protoNum := hs.ProtoNum, protocols := hs.Protocols }
      (x, .none)

/-- `piHandshakeInbound` of the instance `x` of the manager `pm`: the handshake read (`rd`) must
name one of the manager's sub-networks and gives the instance its sub-network, peer, address and
protocols; the instance, the handshake it writes back and the result (`wr` is the result of the
write). -/
def piHandshakeInbound (pm : PeerManager) (cfg : HsConfig) (x : HsInstance)
    (rd : Except PeMgrErrno Handshake) (wr : PeMgrErrno) :
    HsInstance × Option Handshake × PeMgrErrno :=
  match rd with
  | .error e => (x, none, e)
  | .ok hs =>
    if !pm.dynamicSubNetIdExist hs.Snid ∧ !pm.staticSubNetIdExist hs.Snid then (x, none, .notfound)
    else
      let node := { x.inst.node with
        ID := hs.NodeId, IP := x.inst.node.IP ++ hs.IP, TCP := hs.TCP.toUInt16.toNat,
        UDP := hs.UDP.toUInt16.toNat }
      let x := { x with
        protoNum := hs.ProtoNum, protocols := hs.Protocols,
        inst := { x.inst with snid := hs.Snid, node := node } }
      let hs := hsReply cfg x.inst.snid hs
      if wr ≠ .none then (x, some hs, wr)
      else ({ x with inst := { x.inst with state := peInstStateHandshook } }, some hs, .none)

/-- The handshake of A's outbound instance `a` with B's accepted instance `b`, with both writes
succeeding and each side reading what the other wrote: the two instances after it, when both
sides succeed. -/
def handshakePair (pmB : PeerManager) (cfgA cfgB : HsConfig) (a b : HsInstance) :
    Option (HsInstance × HsInstance) :=
  match piHandshakeInbound pmB cfgB b (.ok (hsOutbound cfgA a.inst.snid)) .none with
  | (b', some hsB, .none) =>
    match piHandshakeOutbound a .none (.ok hsB) with
    | (a', .none) => some (a', b')
    | _ => none
  | _ => none

theorem toUInt16_toUInt32 (v : UInt16) : v.toUInt32.toUInt16.toNat = v.toNat := by
  simp only [UInt32.toUInt16, UInt16.toUInt32, UInt32.toNat, Nat.toUInt16, UInt16.toNat,
    UInt16.ofNat, BitVec.toNat_ofNat]
  exact Nat.mod_eq_of_lt v.toBitVec.isLt

/-- **What the handshake exchanges**: when both sides succeed, A's instance keeps the peer's
identity, which is B's, and records B's ports and protocol table, but its IP is the dialed
address followed by A's own IP and then B's; B's instance records A's identity, ports and
protocol table and its IP followed by A's; both are handshook in A's sub-network. -/
theorem handshakePair_spec {pmB : PeerManager} {cfgA cfgB : HsConfig} {a b a' b' : HsInstance}
    (h : handshakePair pmB cfgA cfgB a b = some (a', b')) :
    a.inst.node.ID = cfgB.nodeId ∧
      a'.inst.node = ⟨a.inst.node.ID, a.inst.node.IP ++ (cfgA.ip ++ cfgB.ip), cfgB.udp.toNat,
        cfgB.port.toNat⟩ ∧
      a'.protocols = cfgB.protocols ∧ a'.inst.snid = a.inst.snid ∧
      b'.inst.node = ⟨cfgA.nodeId, b.inst.node.IP ++ cfgA.ip, cfgA.udp.toNat, cfgA.port.toNat⟩ ∧
      b'.protocols = cfgA.protocols ∧ b'.inst.snid = a.inst.snid ∧
      a'.inst.state = peInstStateHandshook ∧ b'.inst.state = peInstStateHandshook := by
  unfold handshakePair at h
  by_cases hsn : pmB.dynamicSubNetIdExist a.inst.snid = false ∧
      pmB.staticSubNetIdExist a.inst.snid = false
  · simp [piHandshakeInbound, hsOutbound, hsn] at h
  by_cases hid : cfgB.nodeId = a.inst.node.ID
  · simp only [piHandshakeInbound, hsOutbound, List.nil_append, Bool.not_eq_eq_eq_not,
      Bool.not_true, hsn, ↓reduceIte, ne_eq, not_true_eq_false, hsReply, hid, piHandshakeOutbound,
      Option.some.injEq, Prod.mk.injEq] at h
    obtain ⟨rfl, rfl⟩ := h
    simp only [hid, toUInt16_toUInt32, and_self]
  · simp [piHandshakeInbound, piHandshakeOutbound, hsOutbound, hsReply, hsn, hid] at h

/-- The handshake succeeds when B attaches to A's sub-network and A's instance holds B's
identity. -/
theorem handshakePair_isSome {pmB : PeerManager} {cfgA cfgB : HsConfig} {a b : HsInstance}
    (hsn : pmB.dynamicSubNetIdExist a.inst.snid ∨ pmB.staticSubNetIdExist a.inst.snid)
    (hid : a.inst.node.ID = cfgB.nodeId) : (handshakePair pmB cfgA cfgB a b).isSome := by
  have hsn' : ¬(pmB.dynamicSubNetIdExist a.inst.snid = false ∧
      pmB.staticSubNetIdExist a.inst.snid = false) := by
    cases hsn <;> simp_all
  simp [handshakePair, piHandshakeInbound, piHandshakeOutbound, hsOutbound, hsReply, hsn', hid]

/-! ### The system model's handshake

The instance steps of the system model read of a handshake its sub-network and node identity
(`hsKey`) and leave the peer's address as it was. Each is the data-level function above with the
address it records forgotten. -/

/-- What the system model reads of a handshake. -/
def hsKey (hs : Handshake) : SubNetworkID × NodeID := (hs.Snid, hs.NodeId)

/-- An instance record with the address of `node`. -/
def withAddress (i : PeerInstance) (node : Node) : PeerInstance :=
  { i with node := { i.node with IP := node.IP, UDP := node.UDP, TCP := node.TCP } }

theorem withAddress_self (i : PeerInstance) : withAddress i i.node = i := rfl

theorem setInst_withAddress_self (pm : PeerManager) (p : Nat) :
    pm.setInst p (withAddress (pm.inst p) (pm.inst p).node) = pm := by
  rw [withAddress_self]
  show { pm with sch := { pm.sch with insts := pm.sch.insts.set p (pm.sch.insts.getD p _) } } = pm
  rw [set_getD_self]

/-- **The system model's outbound handshake forgets the address**: it is `piHandshakeOutbound` on
the instance at `p`, with the dialed address kept. -/
theorem piHandshakeOutbound_refines (pm : PeerManager) (p : Nat) (n : UInt32)
    (ps : List Protocol) (wr : PeMgrErrno) (rd : Except PeMgrErrno Handshake) :
    let r := piHandshakeOutbound ⟨pm.inst p, n, ps⟩ wr rd
    pm.piHandshakeOutbound p (rd.map hsKey) wr =
      (pm.setInst p (withAddress r.1.inst (pm.inst p).node), r.2) := by
  unfold PeerManager.piHandshakeOutbound piHandshakeOutbound
  split_ifs with hw
  · exact congrArg (·, wr) (setInst_withAddress_self pm p).symm
  · cases rd with
    | error e => exact congrArg (·, e) (setInst_withAddress_self pm p).symm
    | ok hs =>
      simp only [Except.map, hsKey]
      split_ifs <;> first | exact congrArg (·, _) (setInst_withAddress_self pm p).symm | rfl

/-- **The system model's inbound handshake forgets the address**: it is `piHandshakeInbound` on
the instance at `p`, with the instance's address kept. -/
theorem piHandshakeInbound_refines (pm : PeerManager) (cfg : HsConfig) (p : Nat) (n : UInt32)
    (ps : List Protocol) (rd : Except PeMgrErrno Handshake) (wr : PeMgrErrno) :
    let r := piHandshakeInbound pm cfg ⟨pm.inst p, n, ps⟩ rd wr
    pm.piHandshakeInbound p (rd.map hsKey) wr =
      (pm.setInst p (withAddress r.1.inst (pm.inst p).node), r.2.2) := by
  unfold PeerManager.piHandshakeInbound piHandshakeInbound
  cases rd with
  | error e => exact congrArg (·, e) (setInst_withAddress_self pm p).symm
  | ok hs =>
    simp only [Except.map, hsKey]
    split_ifs <;> first | exact congrArg (·, _) (setInst_withAddress_self pm p).symm | rfl

/-! ### Two nodes' handshake -/

/-- A's instance for the peer `peerId 2`, dialed at `10.0.0.2`. -/
def dialedInst : HsInstance :=
  ⟨{ peerInstDefault with
      state := peInstStateConnected, dir := PeInstDirOutbound, snid := exampleSnid,
      node := ⟨peerId 2, [10, 0, 0, 2], 30303, 30303⟩ }, 0, []⟩

/-- B's instance for a connection it accepted. -/
def acceptedInst : HsInstance :=
  ⟨{ peerInstDefault with state := peInstStateAccepted, dir := PeInstDirInbound }, 0, [⟨0, []⟩]⟩

/-- Node A, at `10.0.0.1`. -/
def nodeACfg : HsConfig := ⟨[10, 0, 0, 1], 30303, 30303, peerId 1, 1, [⟨1, [1]⟩]⟩

/-- Node B, at `10.0.0.2`. -/
def nodeBCfg : HsConfig := ⟨[10, 0, 0, 2], 30303, 30303, peerId 2, 1, [⟨1, [1]⟩]⟩

/-- **A's instance does not record B's advertised address**: A dials B at B's own address
`10.0.0.2`, B accepts, and both sides succeed; A's instance ends with the IP
`10.0.0.2 10.0.0.1 10.0.0.2`. -/
theorem handshake_records_advertised :
    ¬ ∀ (pmB : PeerManager) (cfgA cfgB : HsConfig) (a b a' b' : HsInstance),
      a.inst.dir = PeInstDirOutbound → a.inst.node.ID = cfgB.nodeId →
      b.inst.dir = PeInstDirInbound → b.inst.node = peerInstDefault.node →
      handshakePair pmB cfgA cfgB a b = some (a', b') →
      a'.inst.node = ⟨cfgB.nodeId, cfgB.ip, cfgB.udp.toNat, cfgB.port.toNat⟩ ∧
        a'.protocols = cfgB.protocols ∧
        b'.inst.node = ⟨cfgA.nodeId, cfgA.ip, cfgA.udp.toNat, cfgA.port.toNat⟩ ∧
        b'.protocols = cfgA.protocols ∧ a'.inst.snid = b'.inst.snid := by
  intro hall
  let pmB := peMgrPoweron exampleCfg exampleDefaults
  obtain ⟨⟨a', b'⟩, hp⟩ := Option.isSome_iff_exists.mp
    (@handshakePair_isSome pmB nodeACfg nodeBCfg dialedInst acceptedInst (.inl (by decide)) rfl)
  have h := (hall pmB nodeACfg nodeBCfg dialedInst acceptedInst a' b' rfl rfl rfl rfl hp).1
  rw [(handshakePair_spec hp).2.1] at h
  simp [dialedInst, nodeACfg, nodeBCfg] at h

end Gyee.Peer
