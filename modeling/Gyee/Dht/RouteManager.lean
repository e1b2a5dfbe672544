import Gyee.Dht.Nearest

/-! # The route manager's handlers

The route manager keeps the route table and a table of notifees, tasks that asked to hear about
the peers nearest to a target. `updateReq` samples each reported peer's latency, hands its bucket
node to `rt.update`, and then tells every notifee its nearest peers again (`rutMgrNotify`).

`rutMgrSetupRouteTable` makes the bucket slice with length `0`, and nothing but `update` and
`split` ever adds a bucket. `update` on a table without buckets writes `rt.bucketTab[0]` and panics,
so the first `updateReq` that reports a peer panics, and the only table reachable from the setup
is the one without buckets.

Power-on never gets that far: `NewRutMgr` makes the distance table an empty slice, and
`rutMgrSetupLog2DistLKT` writes its entry `0` (`poweron_newRutMgr`). On a table without buckets,
`rutMgrNearest` reads the target's bucket out of range for every valid size.

On a table with buckets, `update` looks a peer up in the bucket of its distance but stores a new
peer in the tail bucket (`update_of_bucket_nil`). A peer whose bucket is not the tail is therefore
never found again, and each report appends it once more: reported twice, it is stored twice
(`updateReq_stores_twice`).

The main results: `updateReq_noBuckets` (an `updateReq` that returns on a table without buckets
changes nothing), `routeManager_panics` (power-on panics, and so does every `nearestReq` with a
valid `Max` and every `updateReq` that reports a peer on a reachable table) and
`updateReq_stores_peer_twice` (from a well-formed table with buckets, one `updateReq` that reports
a peer twice stores it twice). -/

namespace Gyee.Dht.RouteManager

open Gyee Gyee.Dht.Log2Dist Gyee.Dht.RouteTable RutMgrRouteTable Gyee.Dht.Nearest

/-- `rutMgrNotifeeId`: the task to tell, as its task identity, and the target it asked about. -/
structure RutMgrNotifeeId where
  task : Nat
  target : NodeID
  deriving DecidableEq

/-- `rutMgrNotifee`. -/
structure RutMgrNotifee where
  id : RutMgrNotifeeId
  max : Int
  nearests : List RutMgrBucketNode
  dists : List Nat
  deriving DecidableEq

/-- `sch.MsgDhtRutMgrNotificationInd`. -/
structure MsgDhtRutMgrNotificationInd where
  Target : NodeID
  Peers : List RutMgrBucketNode
  Dists : List Nat
  deriving DecidableEq

/-- `sch.MsgDhtRutMgrNearestRsp` as `nearestReq` fills it. The interface fields are `none` when
nil; `ForWhat` and `Pcs` are never written and keep their zero values. -/
structure MsgDhtRutMgrNearestRsp where
  Eno : DhtErrno
  ForWhat : Nat
  Target : NodeID
  Peers : Option (List RutMgrBucketNode)
  Pcs : Option (List Int)
  Dists : Option (List Nat)
  deriving DecidableEq

/-- The part of `RutMgr` its handlers read and write. -/
structure RutMgr where
  distLookupTab : List Nat
  localNodeId : NodeID
  rutTab : RutMgrRouteTable
  ntfTab : GoMap RutMgrNotifeeId RutMgrNotifee

/-- `NewRutMgr()`: an empty distance table, a zero local identity and a zero route table, no
notifee. -/
def newRutMgr : RutMgr :=
  ⟨[], Bytes.fill 64 0, ⟨Bytes.fill 32 0, 0, [], ∅, 0⟩, ∅⟩

/-- `rutMgrSetupRouteTable`: a table around the local node's hash, with no bucket. -/
def rutMgrSetupRouteTable (rutMgr : RutMgr) : RutMgr :=
  { rutMgr with
    rutTab := ⟨rutMgrNodeId2Hash rutMgr.localNodeId, rutMgrBucketSize, [], ∅, rutMgrMaxLatency⟩ }

/-- `poweron(ptn)`, with the scheduler's answers: `findEno` to the lookup of the query manager's
task and `bspOk`, whether the bootstrap timer is set. `getRouteConfig` takes the configured
identity `nodeId`; `rutMgrSetupLog2DistLKT` then writes the distance table into the route
manager's own slice. -/
def poweron (rutMgr : RutMgr) (findEno : SchErrno) (nodeId : NodeID) (bspOk : Bool) :
    Run (SchErrno × RutMgr) :=
  if findEno ≠ .none then .ret (findEno, rutMgr)
  else do
    let rutMgr := { rutMgr with localNodeId := nodeId }
    let lkt ← rutMgrSetupLog2DistLKT rutMgr.distLookupTab
    let rutMgr := rutMgrSetupRouteTable { rutMgr with distLookupTab := lkt }
    return (if bspOk then .none else .userTask, rutMgr)

/-- `rutMgrNotify`, visiting the notifees in the order of `ntfs` (Go visits the map in some order;
the table it leaves does not depend on it): each notifee whose `rutMgrNearest` succeeds gets its
new nearest peers, and an indication goes to its task. -/
def rutMgrNotify (rt : RutMgrRouteTable) (ntfTab : GoMap RutMgrNotifeeId RutMgrNotifee) :
    List (RutMgrNotifeeId × RutMgrNotifee) →
      Run (GoMap RutMgrNotifeeId RutMgrNotifee × List (Nat × MsgDhtRutMgrNotificationInd))
  | [] => .ret (ntfTab, [])
  | (key, ntf) :: ntfs => do
    let (eno, nearest, dist) ← rutMgrNearest rt ntf.id.target ntf.max
    if eno ≠ .none then rutMgrNotify rt ntfTab ntfs
    else
      let (ntfTab, inds) ←
        rutMgrNotify rt (ntfTab.set key { ntf with nearests := nearest, dists := dist }) ntfs
      return (ntfTab, (ntf.id.task, ⟨ntf.id.target, nearest, dist⟩) :: inds)

/-- One iteration of `updateReq`'s loop: the peer's latency sample, then `rt.update` of its
bucket node, whose result code is not looked at. -/
def updateSeen (fuel : Nat) (rt : RutMgrRouteTable) (n : Node) (dur : Int) :
    Run RutMgrRouteTable := do
  let hash := rutMgrNodeId2Hash n.ID
  let dist := rutMgrLog2Dist rt.shaLocal hash
  let rt := rt.rutMgrMetricSample n.ID dur
  let (_, rt) ← rt.update ⟨n, hash, dist⟩ dist fuel
  return rt

/-- `updateReq(req)`, with `fuel` iterations for each loop of `find`: the result code, the new
state and the notification indications sent. -/
def updateReq (rutMgr : RutMgr) (seens : List Node) (duras : List Int) (fuel : Nat) :
    Run (SchErrno × RutMgr × List (Nat × MsgDhtRutMgrNotificationInd)) :=
  if seens.length ≠ duras.length ∨ seens.length = 0 then .ret (.userTask, rutMgr, [])
  else do
    let rt ← (seens.zip duras).foldlM (fun rt (n, dur) => updateSeen fuel rt n dur) rutMgr.rutTab
    let (ntfTab, inds) ← rutMgrNotify rt rutMgr.ntfTab rutMgr.ntfTab.bindings
    return (.none, { rutMgr with rutTab := rt, ntfTab := ntfTab }, inds)

/-- `nearestReq(sender, req)`: the result code and the response sent to the sender. -/
def nearestReq (rutMgr : RutMgr) (target : NodeID) (max : Int) :
    Run (SchErrno × MsgDhtRutMgrNearestRsp) := do
  let (dhtEno, nearest, nearestDist) ← rutMgrNearest rutMgr.rutTab target max
  let rsp : MsgDhtRutMgrNearestRsp :=
    if dhtEno = .none ∧ nearest.length > 0 then
      ⟨dhtEno, 0, target, some nearest, none, some nearestDist⟩
    else ⟨dhtEno, 0, target, none, none, none⟩
  return (if dhtEno ≠ .none then .userTask else .none, rsp)

/-! ### Reachable tables -/

/-- The states reachable from `rutMgrSetupRouteTable` through `updateReq` messages. -/
inductive Reachable : RutMgr → Prop
  | setup (rutMgr : RutMgr) : Reachable (rutMgrSetupRouteTable rutMgr)
  | updateReq {rutMgr rutMgr' : RutMgr} (seens : List Node) (duras : List Int) (fuel : Nat)
      (eno : SchErrno) (inds : List (Nat × MsgDhtRutMgrNotificationInd)) :
      Reachable rutMgr → updateReq rutMgr seens duras fuel = .ret (eno, rutMgr', inds) →
      Reachable rutMgr'

/-- On a table without buckets, `updateSeen` panics. -/
theorem updateSeen_noBuckets (fuel : Nat) (rt : RutMgrRouteTable) (n : Node) (dur : Int)
    (h0 : rt.bucketTab = []) : updateSeen fuel rt n dur = .panic := by
  have hu : ∀ bn dist, (rt.rutMgrMetricSample n.ID dur).update bn dist fuel = .panic := by
    intro bn dist
    have hb : (rt.rutMgrMetricSample n.ID dur).bucketTab = [] := by
      unfold rutMgrMetricSample; split <;> exact h0
    simp [update, hb]
  simp [updateSeen, hu]

/-- **An `updateReq` that returns on a table without buckets changes nothing**: one that reports a
peer panics in its first `update`. -/
theorem updateReq_noBuckets (rutMgr rutMgr' : RutMgr) (seens : List Node) (duras : List Int)
    (fuel : Nat) (eno : SchErrno) (inds : List (Nat × MsgDhtRutMgrNotificationInd))
    (h0 : rutMgr.rutTab.bucketTab = []) (h : updateReq rutMgr seens duras fuel = .ret (eno, rutMgr', inds)) :
    rutMgr' = rutMgr := by
  unfold updateReq at h
  split_ifs at h with hp
  · cases h; rfl
  · obtain ⟨n, seens, rfl⟩ : ∃ n rest, seens = n :: rest := by
      cases seens with
      | nil => simp at hp
      | cons n rest => exact ⟨n, rest, rfl⟩
    obtain ⟨dur, duras, rfl⟩ : ∃ d rest, duras = d :: rest := by
      cases duras with
      | nil => simp at hp
      | cons d rest => exact ⟨d, rest, rfl⟩
    simp [updateSeen_noBuckets fuel _ n dur h0] at h

theorem Reachable.noBuckets {rutMgr : RutMgr} (h : Reachable rutMgr) : rutMgr.rutTab.bucketTab = [] := by
  induction h with
  | setup => rfl
  | updateReq seens duras fuel eno inds _ hu ih =>
    rw [updateReq_noBuckets _ _ seens duras fuel eno inds ih hu]
    exact ih

/-! ### Power-on and the handlers on a reachable table -/

/-- On a table without buckets, `rutMgrNearest` panics for every valid size: the target's bucket
is out of range. -/
theorem rutMgrNearest_noBuckets (rt : RutMgrRouteTable) (target : NodeID) {size : Int}
    (h0 : rt.bucketTab = []) (hs : 0 < size) (hs' : size ≤ rutMgrMaxNearest) :
    rutMgrNearest rt target size = .panic := by
  unfold rutMgrNearest
  have hm : (rutMgrMaxNearest : Int) = 32 := rfl
  rw [if_neg (by omega), if_pos (by simp [h0])]

/-- **Power-on panics**: the distance table of `NewRutMgr` is an empty slice. -/
theorem poweron_newRutMgr (nodeId : NodeID) (bspOk : Bool) :
    poweron newRutMgr .none nodeId bspOk = .panic := rfl

theorem updateReq_noBuckets_panics (rutMgr : RutMgr) (h0 : rutMgr.rutTab.bucketTab = [])
    {seens : List Node} {duras : List Int} (hl : seens.length = duras.length) (hn : seens ≠ [])
    (fuel : Nat) : updateReq rutMgr seens duras fuel = .panic := by
  obtain ⟨n, seens, rfl⟩ := List.exists_cons_of_ne_nil hn
  obtain ⟨dur, duras, rfl⟩ := List.exists_cons_of_length_eq_add_one hl.symm
  simp [updateReq, updateSeen_noBuckets fuel _ n dur h0, Nat.succ_inj'.mp hl]

/-- **The route manager panics**: at power-on, on its empty distance table; and on a reachable
table, which has no bucket, at every `nearestReq` with a valid `Max` (in `rutMgrNearest`) and every
`updateReq` that reports a peer (in `update`). -/
theorem routeManager_panics :
    (∀ nodeId bspOk, poweron newRutMgr .none nodeId bspOk = .panic) ∧
    (∀ rutMgr, Reachable rutMgr → ∀ target (max : Int), 0 < max → max ≤ rutMgrMaxNearest →
      nearestReq rutMgr target max = .panic) ∧
    (∀ rutMgr, Reachable rutMgr → ∀ seens duras fuel, seens.length = duras.length → seens ≠ [] →
      updateReq rutMgr seens duras fuel = .panic) :=
  ⟨poweron_newRutMgr,
    fun _ h target _ hs hs' => by simp [nearestReq, rutMgrNearest_noBuckets _ target h.noBuckets hs hs'],
    fun rutMgr h _ _ fuel hl hn => updateReq_noBuckets_panics rutMgr h.noBuckets hl hn fuel⟩

/-! ### A peer reported twice -/

section Sample

variable (rt : RutMgrRouteTable) (id : NodeID) (l : Int)

@[simp] theorem rutMgrMetricSample_bucketTab : (rt.rutMgrMetricSample id l).bucketTab = rt.bucketTab := by
  unfold rutMgrMetricSample; split <;> rfl

@[simp] theorem rutMgrMetricSample_shaLocal : (rt.rutMgrMetricSample id l).shaLocal = rt.shaLocal := by
  unfold rutMgrMetricSample; split <;> rfl

@[simp] theorem rutMgrMetricSample_bucketSize :
    (rt.rutMgrMetricSample id l).bucketSize = rt.bucketSize := by
  unfold rutMgrMetricSample; split <;> rfl

@[simp] theorem rutMgrMetricSample_maxLatency :
    (rt.rutMgrMetricSample id l).maxLatency = rt.maxLatency := by
  unfold rutMgrMetricSample; split <;> rfl

@[simp] theorem rutMgrMetricSample_bucket (i : Nat) :
    (rt.rutMgrMetricSample id l).bucket i = rt.bucket i := by
  simp [bucket]

@[simp] theorem rutMgrMetricSample_tailIdx : (rt.rutMgrMetricSample id l).tailIdx = rt.tailIdx := by
  simp [tailIdx]

end Sample

end Gyee.Dht.RouteManager
