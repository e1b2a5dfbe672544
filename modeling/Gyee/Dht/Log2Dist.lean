import Gyee.Dht.Sha256
import Mathlib.Data.Nat.Bitwise
import Mathlib.Data.List.GetD

/-! # Log-distance between hashes

`rutMgrLog2Dist(h1, h2)` walks the two hashes byte by byte and adds up, from a 256 entry table, the
number of leading zero bits of each xor'ed byte, stopping after the first byte that is not zero; a
larger value means the two hashes share a longer prefix. The table is what
`rutMgrSetupLog2DistLKT` writes: `8` at `0`, and `8 - n - 1` on `[2^n, 2^(n+1))`.

`NewRutMgr` gives the route manager an empty slice for the table, and `rutMgrSetupLog2DistLKT`
panics on it at its first write (`rutMgrSetupLog2DistLKT_nil`); the distances below are the ones
the table computes when the slice has its 256 entries, which is the table every other function of
the route manager expects.

With that table the distance is the number of leading zero bits of the 256-bit value `h1 XOR h2`
(`rutMgrLog2Dist_counts_leading_zeros`): each table entry is `7 - ⌊log2 b⌋` (`distLookupTab_eq`),
and the loop adds eight for each equal byte and stops at the first differing one
(`log2DistLoop_firstDiff`, `log2DistLoop_leadingZeros`). Equal hashes are at distance `256`, not
`0`. -/

namespace Gyee.Dht.Log2Dist

open Gyee Gyee.Dht.Sha256

/-- `rutMgrNodeId2Hash`. Irreducible, so that only a proof that means to evaluates a digest. -/
@[irreducible] def rutMgrNodeId2Hash (id : NodeID) : Hash := sum256 id.data

/-- `rutMgrSetupLog2DistLKT`. -/
def rutMgrSetupLog2DistLKT (lkt : List Nat) : Run (List Nat) := do
  let lkt ← setIdx lkt 0 8
  (List.range 8).foldlM (fun lkt n =>
    (List.range' (2 ^ n) (2 ^ n)).foldlM (fun lkt b => setIdx lkt b (8 - n - 1)) lkt) lkt

theorem rutMgrSetupLog2DistLKT_nil : rutMgrSetupLog2DistLKT [] = .panic := rfl

/-- The table `rutMgrSetupLog2DistLKT` writes into a slice of 256 entries
(`rutMgrSetupLog2DistLKT_fills`): `8` at `0`, then `8 - n - 1` on each `[2^n, 2^(n+1))`. -/
def distLookupTab : List Nat :=
  8 :: 7 :: List.replicate 2 6 ++ List.replicate 4 5 ++ List.replicate 8 4 ++ List.replicate 16 3 ++
    List.replicate 32 2 ++ List.replicate 64 1 ++ List.replicate 128 0

set_option maxRecDepth 2000 in
theorem distLookupTab_tail_lt : ∀ v ∈ distLookupTab.tail, v < 8 := by decide

theorem distLookupTab_succ_lt (i : Nat) : distLookupTab.getD (i + 1) 0 < 8 := by
  have h : distLookupTab.getD (i + 1) 0 = distLookupTab.tail.getD i 0 := rfl
  rw [h, List.getD_eq_getElem?_getD]
  cases hv : distLookupTab.tail[i]? with
  | none => simp
  | some v => exact distLookupTab_tail_lt v (List.getElem?_mem hv)

theorem distLookupTab_at (x : UInt8) :
    distLookupTab.getD x.toNat 0 ≤ 8 ∧ (distLookupTab.getD x.toNat 0 = 8 → x.toNat = 0) := by
  rcases hx : x.toNat with _ | i
  · exact ⟨by decide, fun _ => rfl⟩
  · have := distLookupTab_succ_lt i
    omega

theorem toNat_xor (a b : UInt8) : (a ^^^ b).toNat = a.toNat ^^^ b.toNat := BitVec.toNat_xor _ _

theorem distLookupTab_xor_eq_eight (a b : UInt8) :
    distLookupTab.getD (a ^^^ b).toNat 0 = 8 ↔ a = b := by
  constructor
  · intro h8
    have h := (distLookupTab_at (a ^^^ b)).2 h8
    rw [toNat_xor, Nat.xor_eq_zero] at h
    exact UInt8.toNat.inj h
  · rintro rfl
    rw [toNat_xor, Nat.xor_self]
    rfl

/-- The byte loop of `rutMgrLog2Dist`, from the distance `d` counted so far. -/
def log2DistLoop : List (UInt8 × UInt8) → Nat → Nat
  | [], d => d
  | (a, b) :: rest, d =>
    let delta := distLookupTab.getD (a ^^^ b).toNat 0
    if delta ≠ 8 then d + delta else log2DistLoop rest (d + delta)

/-- `rutMgrLog2Dist`. -/
def rutMgrLog2Dist (h1 h2 : Hash) : Nat := log2DistLoop (h1.data.zip h2.data) 0

theorem log2DistLoop_le : ∀ (l : List (UInt8 × UInt8)) (d : Nat),
    log2DistLoop l d ≤ d + 8 * l.length
  | [], d => by simp [log2DistLoop]
  | (a, b) :: rest, d => by
    have h8 := (distLookupTab_at (a ^^^ b)).1
    have ih := log2DistLoop_le rest (d + distLookupTab.getD (a ^^^ b).toNat 0)
    simp only [log2DistLoop, List.length_cons]
    split_ifs <;> omega

theorem log2DistLoop_eq_iff : ∀ (l : List (UInt8 × UInt8)) (d : Nat),
    log2DistLoop l d = d + 8 * l.length ↔ ∀ p ∈ l, p.1 = p.2
  | [], d => by simp [log2DistLoop]
  | (a, b) :: rest, d => by
    have h8 := (distLookupTab_at (a ^^^ b)).1
    have hle := log2DistLoop_le rest (d + distLookupTab.getD (a ^^^ b).toNat 0)
    have ih := log2DistLoop_eq_iff rest (d + distLookupTab.getD (a ^^^ b).toNat 0)
    simp only [log2DistLoop, List.length_cons, List.mem_cons, forall_eq_or_imp]
    by_cases hab : a = b
    · subst hab
      have h := (distLookupTab_xor_eq_eight a a).mpr rfl
      simp only [h, ne_eq, not_true_eq_false, if_false, true_and] at ih ⊢
      rw [← ih]; omega
    · have h : distLookupTab.getD (a ^^^ b).toNat 0 ≠ 8 := fun h =>
        hab ((distLookupTab_xor_eq_eight a b).mp h)
      simp only [h, ne_eq, not_false_eq_true, if_true, hab, false_and, iff_false]
      omega

theorem length_zip_hash (h1 h2 : Hash) : (h1.data.zip h2.data).length = 32 := by
  simp [h1.len, h2.len]

theorem rutMgrLog2Dist_le (h1 h2 : Hash) : rutMgrLog2Dist h1 h2 ≤ 256 := by
  have := log2DistLoop_le (h1.data.zip h2.data) 0
  rw [length_zip_hash] at this
  exact this

theorem eq_of_zip_fst_eq_snd : ∀ (l1 l2 : List UInt8), l1.length = l2.length →
    (∀ p ∈ l1.zip l2, p.1 = p.2) → l1 = l2
  | [], [], _, _ => rfl
  | a :: l1, b :: l2, hl, h => by
    simp only [List.zip_cons_cons, List.mem_cons, forall_eq_or_imp] at h
    rw [h.1, eq_of_zip_fst_eq_snd l1 l2 (by simpa using hl) h.2]

theorem rutMgrLog2Dist_eq_256_iff (h1 h2 : Hash) : rutMgrLog2Dist h1 h2 = 256 ↔ h1 = h2 := by
  have h := log2DistLoop_eq_iff (h1.data.zip h2.data) 0
  rw [length_zip_hash] at h
  unfold rutMgrLog2Dist
  rw [h]
  constructor
  · intro hp
    obtain ⟨d1, l1⟩ := h1
    obtain ⟨d2, l2⟩ := h2
    have := eq_of_zip_fst_eq_snd d1 d2 (by rw [l1, l2]) hp
    subst this; rfl
  · rintro rfl p hp
    obtain ⟨i, hi, rfl⟩ := List.getElem_of_mem hp
    simp

theorem rutMgrLog2Dist_self (h : Hash) : rutMgrLog2Dist h h = 256 :=
  (rutMgrLog2Dist_eq_256_iff h h).mpr rfl

/-! ### The distance at the bit level -/

/-- The value of a big-endian byte string. -/
def bytesToNat : List UInt8 → Nat
  | [] => 0
  | b :: bs => b.toNat * 256 ^ bs.length + bytesToNat bs

/-- The 256-bit value `h1 XOR h2`. -/
def hashXor (h1 h2 : Hash) : Nat := bytesToNat (List.zipWith (· ^^^ ·) h1.data h2.data)

/-- The number of leading zero bits of `x` as a `w`-bit value. -/
def leadingZeros (w x : Nat) : Nat := if x = 0 then w else w - 1 - Nat.log2 x

theorem bytesToNat_lt : ∀ l : List UInt8, bytesToNat l < 2 ^ (8 * l.length)
  | [] => by simp [bytesToNat]
  | b :: bs => by
    have hb : b.toNat < 256 := b.toNat_lt_size
    have ih := bytesToNat_lt bs
    have hp : 2 ^ (8 * (bs.length + 1)) = 256 * 2 ^ (8 * bs.length) := by
      rw [Nat.mul_succ, Nat.pow_add, Nat.mul_comm]
    have h256 : (256 : Nat) ^ bs.length = 2 ^ (8 * bs.length) := by
      rw [Nat.pow_mul]
    simp only [bytesToNat, List.length_cons, hp, h256]
    have : b.toNat * 2 ^ (8 * bs.length) + 2 ^ (8 * bs.length) ≤ 256 * 2 ^ (8 * bs.length) := by
      rw [← Nat.succ_mul]; exact Nat.mul_le_mul_right _ hb
    omega

theorem log2_eq_of_bounds {n k : Nat} (h1 : 2 ^ k ≤ n) (h2 : n < 2 ^ (k + 1)) : n.log2 = k := by
  have hn : n ≠ 0 := by have := Nat.one_le_two_pow (n := k); omega
  exact Nat.le_antisymm (Nat.lt_succ_iff.mp ((Nat.log2_lt hn).mpr h2)) ((Nat.le_log2 hn).mpr h1)

set_option maxRecDepth 4000 in
theorem distLookupTab_bounds : ∀ p ∈ distLookupTab.enum, p.1 ≠ 0 →
    p.2 ≤ 7 ∧ 2 ^ (7 - p.2) ≤ p.1 ∧ p.1 < 2 ^ (7 - p.2 + 1) := by
  decide

set_option maxRecDepth 4000 in
theorem distLookupTab_length : distLookupTab.length = 256 := rfl

theorem distLookupTab_getD {i : Nat} (hi : i < 256) :
    distLookupTab.getD i 0 = if i = 0 then 8 else 7 - Nat.log2 i := by
  split_ifs with h0
  · rw [h0]; rfl
  · have hmem : (i, distLookupTab.getD i 0) ∈ distLookupTab.enum :=
      List.mem_enum_iff_getElem?.mpr (by
        rw [List.getD_eq_getElem?_getD, List.getElem?_eq_getElem (distLookupTab_length ▸ hi)]; rfl)
    obtain ⟨h7, hlo, hhi⟩ := distLookupTab_bounds _ hmem h0
    rw [log2_eq_of_bounds hlo hhi]
    omega

theorem distLookupTab_eq (x : UInt8) :
    distLookupTab.getD x.toNat 0 = if x.toNat = 0 then 8 else 7 - Nat.log2 x.toNat :=
  distLookupTab_getD x.toNat_lt_size

/-! ### The table `rutMgrSetupLog2DistLKT` writes -/

theorem getD_set_nat (l : List Nat) (s i v : Nat) (hs : s < l.length) :
    (l.set s v).getD i 0 = if i = s then v else l.getD i 0 := by
  simp only [List.getD_eq_getElem?_getD, List.getElem?_set]
  split_ifs with h1 h2 h2
  · rfl
  · exact absurd h1.symm h2
  · exact absurd h2.symm h1
  · rfl

/-- The inner loop of `rutMgrSetupLog2DistLKT` writes `v` on `[s, s + k)`. -/
theorem foldlM_setIdx (v : Nat) : ∀ (k s : Nat) (lkt : List Nat), s + k ≤ lkt.length →
    ∃ r, (List.range' s k).foldlM (fun lkt b => setIdx lkt b v) lkt = .ret r ∧
      r.length = lkt.length ∧ ∀ i, r.getD i 0 = if s ≤ i ∧ i < s + k then v else lkt.getD i 0
  | 0, s, lkt, _ => ⟨lkt, rfl, rfl, fun i => by rw [if_neg (by omega)]⟩
  | k + 1, s, lkt, hk => by
    obtain ⟨r, hr, hl, hg⟩ := foldlM_setIdx v k (s + 1) (lkt.set s v) (by simp; omega)
    refine ⟨r, ?_, by simpa using hl, fun i => ?_⟩
    · rw [List.range'_succ, List.foldlM_cons, setIdx, if_pos (by omega)]
      exact hr
    · rw [hg, getD_set_nat _ _ _ _ (by omega)]
      split_ifs <;> first | rfl | omega

/-- The table after the outer loop's first `n` rounds: `8` at `0`, `7 - ⌊log2 i⌋` below `2^n`. -/
def lktAfter (n i : Nat) : Nat :=
  if i = 0 then 8 else if i < 2 ^ n then 7 - Nat.log2 i else 0

theorem outer_round {n : Nat} (hn : n < 8) {lkt : List Nat} (hl : lkt.length = 256)
    (hg : ∀ i, lkt.getD i 0 = lktAfter n i) :
    ∃ r, (List.range' (2 ^ n) (2 ^ n)).foldlM (fun lkt b => setIdx lkt b (8 - n - 1)) lkt = .ret r ∧
      r.length = 256 ∧ ∀ i, r.getD i 0 = lktAfter (n + 1) i := by
  have hp : 2 ^ (n + 1) ≤ 256 := Nat.pow_le_pow_right (by decide) (by omega : n + 1 ≤ 8)
  have hp' : 2 ^ (n + 1) = 2 ^ n + 2 ^ n := by rw [Nat.pow_succ]; omega
  obtain ⟨r, hr, hrl, hrg⟩ := foldlM_setIdx (8 - n - 1) (2 ^ n) (2 ^ n) lkt (by omega)
  refine ⟨r, hr, hrl.trans hl, fun i => ?_⟩
  rw [hrg, hg, lktAfter, lktAfter]
  by_cases hi : 2 ^ n ≤ i ∧ i < 2 ^ n + 2 ^ n
  · have h0 : i ≠ 0 := by have := Nat.one_le_two_pow (n := n); omega
    rw [if_pos hi, if_neg h0, if_pos (by omega), log2_eq_of_bounds hi.1 (by omega)]
    omega
  · rw [if_neg hi]
    split_ifs <;> first | rfl | omega

theorem outer_rounds : ∀ (k n : Nat) (lkt : List Nat), n + k ≤ 8 → lkt.length = 256 →
    (∀ i, lkt.getD i 0 = lktAfter n i) →
    ∃ r, (List.range' n k).foldlM (fun lkt n =>
        (List.range' (2 ^ n) (2 ^ n)).foldlM (fun lkt b => setIdx lkt b (8 - n - 1)) lkt) lkt =
        .ret r ∧ r.length = 256 ∧ ∀ i, r.getD i 0 = lktAfter (n + k) i
  | 0, n, lkt, _, hl, hg => ⟨lkt, rfl, hl, hg⟩
  | k + 1, n, lkt, hk, hl, hg => by
    obtain ⟨r, hr, hrl, hrg⟩ := outer_round (by omega) hl hg
    obtain ⟨r', hr', hrl', hrg'⟩ := outer_rounds k (n + 1) r (by omega) hrl hrg
    refine ⟨r', ?_, hrl', fun i => by rw [hrg', Nat.add_assoc, Nat.add_comm 1 k]⟩
    rw [List.range'_succ, List.foldlM_cons, hr]
    exact hr'

/-- **`rutMgrSetupLog2DistLKT` fills a slice of 256 entries with `distLookupTab`.** -/
theorem rutMgrSetupLog2DistLKT_fills :
    rutMgrSetupLog2DistLKT (List.replicate 256 0) = .ret distLookupTab := by
  have h0 : ∀ i, ((List.replicate 256 0).set 0 8).getD i 0 = lktAfter 0 i := fun i => by
    rw [getD_set_nat _ _ _ _ (by rw [List.length_replicate]; decide), List.getD_eq_getElem?_getD,
      List.getElem?_getD_replicate_default_eq, lktAfter, Nat.pow_zero]
    split_ifs <;> first | rfl | omega
  obtain ⟨r, hr, hl, hg⟩ :=
    outer_rounds 8 0 _ le_rfl (by rw [List.length_set, List.length_replicate]) h0
  have hr' : r = distLookupTab :=
    List.ext_getElem (hl.trans distLookupTab_length.symm) fun i h1 h2 => by
      have := hg i
      rw [List.getD_eq_getElem _ _ h1] at this
      rw [this, ← List.getD_eq_getElem _ 0 h2, distLookupTab_getD (hl ▸ h1), lktAfter]
      split_ifs <;> first | rfl | omega
  rw [rutMgrSetupLog2DistLKT, setIdx, if_pos (by rw [List.length_replicate]; decide), Run.ret_bind,
    List.range_eq_range', hr, hr']

theorem pow_256 (n : Nat) : (256 : Nat) ^ n = 2 ^ (8 * n) := by
  rw [Nat.pow_mul]

theorem leadingZeros_zero_byte {n v : Nat} (hv : v < 2 ^ (8 * n)) :
    leadingZeros (8 * (n + 1)) v = 8 + leadingZeros (8 * n) v := by
  unfold leadingZeros
  split_ifs with h0
  · omega
  · have := (Nat.log2_lt h0).mpr hv
    omega

theorem leadingZeros_byte {c n v : Nat} (hc0 : c ≠ 0) (hc : c < 256) (hv : v < 2 ^ (8 * n)) :
    leadingZeros (8 * (n + 1)) (c * 256 ^ n + v) = 7 - Nat.log2 c := by
  have hlog := (Nat.log2_lt hc0).mpr (show c < 2 ^ 8 from hc)
  have hlo : 2 ^ (8 * n + Nat.log2 c) ≤ c * 256 ^ n + v := by
    rw [Nat.pow_add, pow_256, Nat.mul_comm]
    exact Nat.le_add_right_of_le (Nat.mul_le_mul_right _ (Nat.log2_self_le hc0))
  have hhi : c * 256 ^ n + v < 2 ^ (8 * n + Nat.log2 c + 1) := by
    rw [Nat.add_assoc, Nat.pow_add, pow_256]
    calc c * 2 ^ (8 * n) + v < (c + 1) * 2 ^ (8 * n) := by rw [Nat.add_mul, Nat.one_mul]; omega
      _ ≤ 2 ^ (Nat.log2 c + 1) * 2 ^ (8 * n) := Nat.mul_le_mul_right _ Nat.lt_log2_self
      _ = 2 ^ (8 * n) * 2 ^ (Nat.log2 c + 1) := Nat.mul_comm _ _
  have hne : c * 256 ^ n + v ≠ 0 := by have := Nat.one_le_two_pow (n := 8 * n + Nat.log2 c); omega
  unfold leadingZeros
  rw [if_neg hne, log2_eq_of_bounds hlo hhi]
  omega

theorem toNat_xor_ne_zero {a b : UInt8} (h : a ≠ b) : (a ^^^ b).toNat ≠ 0 := fun h0 =>
  h (UInt8.toNat.inj (Nat.xor_eq_zero.mp ((toNat_xor a b).symm.trans h0)))

theorem xor_self_u8 (a : UInt8) : a ^^^ a = 0 := UInt8.toNat.inj (by rw [toNat_xor, Nat.xor_self]; rfl)

/-- **The byte loop counts the leading zero bits of the xor'ed bytes.** -/
theorem log2DistLoop_leadingZeros : ∀ (l1 l2 : List UInt8) (d : Nat), l1.length = l2.length →
    log2DistLoop (l1.zip l2) d =
      d + leadingZeros (8 * l1.length) (bytesToNat (List.zipWith (· ^^^ ·) l1 l2))
  | [], [], d, _ => by simp [log2DistLoop, leadingZeros, bytesToNat]
  | [], _ :: _, _, hl => by simp at hl
  | _ :: _, [], _, hl => by simp at hl
  | a :: l1, b :: l2, d, hl => by
    have hl' : l1.length = l2.length := by simpa using hl
    have ih := log2DistLoop_leadingZeros l1 l2 (d + distLookupTab.getD (a ^^^ b).toNat 0) hl'
    have hlt := bytesToNat_lt (List.zipWith (· ^^^ ·) l1 l2)
    rw [List.length_zipWith, hl', Nat.min_self] at hlt
    rw [List.zip_cons_cons]
    simp only [log2DistLoop, List.zipWith_cons_cons, bytesToNat, List.length_cons,
      List.length_zipWith, hl', Nat.min_self] at ih ⊢
    by_cases hab : a = b
    · subst hab
      rw [xor_self_u8] at ih ⊢
      have hz : (0 : UInt8).toNat = 0 := rfl
      have h8 : distLookupTab.getD 0 0 = 8 := rfl
      rw [hz, h8] at ih
      rw [hz, h8, if_neg (by decide), ih, Nat.zero_mul, Nat.zero_add, leadingZeros_zero_byte hlt]
      omega
    · have hc0 := toNat_xor_ne_zero hab
      have hd : distLookupTab.getD (a ^^^ b).toNat 0 ≠ 8 := by
        rw [distLookupTab_eq, if_neg hc0]; omega
      rw [if_pos hd, leadingZeros_byte hc0 (a ^^^ b).toNat_lt_size hlt, distLookupTab_eq, if_neg hc0]

/-- **The byte loop stops at the first differing byte**, adding its leading zero bits to eight
for each equal byte before it. -/
theorem log2DistLoop_firstDiff : ∀ (l1 l2 : List UInt8) (d i : Nat), l1.length = l2.length →
    (∀ j < i, l1.getD j 0 = l2.getD j 0) → l1.getD i 0 ≠ l2.getD i 0 →
    log2DistLoop (l1.zip l2) d = d + 8 * i + (7 - Nat.log2 (l1.getD i 0 ^^^ l2.getD i 0).toNat)
  | [], [], _, _, _, _, hne => absurd rfl hne
  | [], _ :: _, _, _, hl, _, _ => by simp at hl
  | _ :: _, [], _, _, hl, _, _ => by simp at hl
  | a :: l1, b :: l2, d, 0, _, _, hne => by
    have hc0 : (a ^^^ b).toNat ≠ 0 := toNat_xor_ne_zero hne
    rw [List.zip_cons_cons]
    simp only [log2DistLoop, List.getD_cons_zero]
    rw [distLookupTab_eq, if_neg hc0, if_pos (by omega)]
    rfl
  | a :: l1, b :: l2, d, i + 1, hl, hpre, hne => by
    obtain rfl : a = b := hpre 0 (Nat.succ_pos i)
    have ih := log2DistLoop_firstDiff l1 l2 (d + 8) i (by simpa using hl)
      (fun j hj => hpre (j + 1) (by omega)) hne
    have h8 : distLookupTab.getD (a ^^^ a).toNat 0 = 8 := by rw [xor_self_u8]; rfl
    rw [List.zip_cons_cons]
    simp only [log2DistLoop, List.getD_cons_succ, h8, ne_eq, not_true_eq_false, if_false]
    rw [ih]
    omega

theorem xor_comm_u8 (a b : UInt8) : a ^^^ b = b ^^^ a :=
  UInt8.toNat.inj (by rw [toNat_xor, toNat_xor, Nat.xor_comm])

theorem hashXor_comm (h1 h2 : Hash) : hashXor h1 h2 = hashXor h2 h1 :=
  congrArg bytesToNat (List.zipWith_comm_of_comm _ xor_comm_u8 _ _)

theorem rutMgrLog2Dist_eq_leadingZeros (h1 h2 : Hash) :
    rutMgrLog2Dist h1 h2 = leadingZeros 256 (hashXor h1 h2) := by
  have h := log2DistLoop_leadingZeros h1.data h2.data 0 (by rw [h1.len, h2.len])
  rw [h1.len] at h
  rw [rutMgrLog2Dist, h, Nat.zero_add]
  rfl

/-- **`rutMgrLog2Dist` counts the leading zero bits of `h1 XOR h2`**: with the table
`rutMgrSetupLog2DistLKT` writes, it is the number of leading zero bits of the 256-bit value
`h1 XOR h2`, that is `8*i + 7 - ⌊log2 (h1[i] XOR h2[i])⌋` at the first byte `i` where the hashes
differ and `256` when they are equal; so it is symmetric and at most `256`. -/
theorem rutMgrLog2Dist_counts_leading_zeros (h1 h2 : Hash) :
    rutMgrLog2Dist h1 h2 = leadingZeros 256 (hashXor h1 h2) ∧
      (∀ i, (∀ j < i, h1.data.getD j 0 = h2.data.getD j 0) → h1.data.getD i 0 ≠ h2.data.getD i 0 →
        rutMgrLog2Dist h1 h2 = 8 * i + 7 - Nat.log2 (h1.data.getD i 0 ^^^ h2.data.getD i 0).toNat) ∧
      (h1 = h2 → rutMgrLog2Dist h1 h2 = 256) ∧
      rutMgrLog2Dist h1 h2 = rutMgrLog2Dist h2 h1 ∧ rutMgrLog2Dist h1 h2 ≤ 256 := by
  refine ⟨rutMgrLog2Dist_eq_leadingZeros h1 h2, fun i hpre hne => ?_, fun h => h ▸ rutMgrLog2Dist_self h1,
    by rw [rutMgrLog2Dist_eq_leadingZeros, rutMgrLog2Dist_eq_leadingZeros, hashXor_comm],
    rutMgrLog2Dist_le h1 h2⟩
  have hlog := (Nat.log2_lt (toNat_xor_ne_zero hne)).mpr
    (show _ < 2 ^ 8 from (h1.data.getD i 0 ^^^ h2.data.getD i 0).toNat_lt_size)
  rw [rutMgrLog2Dist, log2DistLoop_firstDiff _ _ 0 i (by rw [h1.len, h2.len]) hpre hne]
  omega

end Gyee.Dht.Log2Dist
