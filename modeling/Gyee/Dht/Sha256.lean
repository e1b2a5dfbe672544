import Gyee.Basic

/-! # SHA-256

`rutMgrNodeId2Hash` hashes a node identity with Go's `sha256.Sum256`. The digest is computed here
as the standard does it: the message is padded to a multiple of 64 bytes (a `0x80` byte, zeros, the
bit length in 8 big-endian bytes), each block is expanded to 64 schedule words, and 64 rounds of
the compression function fold the blocks into eight 32-bit words, written out big-endian.

Nothing is proved of the digest: the route table's results hold for any function from identities
to hashes, and the counterexamples evaluate it on fixed identities. -/

namespace Gyee.Dht.Sha256

/-- The round constants. -/
def K : List UInt32 := [
  0x428a2f98, 0x71374491, 0xb5c0fbcf, 0xe9b5dba5, 0x3956c25b, 0x59f111f1, 0x923f82a4, 0xab1c5ed5,
  0xd807aa98, 0x12835b01, 0x243185be, 0x550c7dc3, 0x72be5d74, 0x80deb1fe, 0x9bdc06a7, 0xc19bf174,
  0xe49b69c1, 0xefbe4786, 0x0fc19dc6, 0x240ca1cc, 0x2de92c6f, 0x4a7484aa, 0x5cb0a9dc, 0x76f988da,
  0x983e5152, 0xa831c66d, 0xb00327c8, 0xbf597fc7, 0xc6e00bf3, 0xd5a79147, 0x06ca6351, 0x14292967,
  0x27b70a85, 0x2e1b2138, 0x4d2c6dfc, 0x53380d13, 0x650a7354, 0x766a0abb, 0x81c2c92e, 0x92722c85,
  0xa2bfe8a1, 0xa81a664b, 0xc24b8b70, 0xc76c51a3, 0xd192e819, 0xd6990624, 0xf40e3585, 0x106aa070,
  0x19a4c116, 0x1e376c08, 0x2748774c, 0x34b0bcb5, 0x391c0cb3, 0x4ed8aa4a, 0x5b9cca4f, 0x682e6ff3,
  0x748f82ee, 0x78a5636f, 0x84c87814, 0x8cc70208, 0x90befffa, 0xa4506ceb, 0xbef9a3f7, 0xc67178f2]

/-- The eight working words. -/
structure State where
  a : UInt32
  b : UInt32
  c : UInt32
  d : UInt32
  e : UInt32
  f : UInt32
  g : UInt32
  h : UInt32

/-- The initial hash value. -/
def H0 : State :=
  ⟨0x6a09e667, 0xbb67ae85, 0x3c6ef372, 0xa54ff53a, 0x510e527f, 0x9b05688c, 0x1f83d9ab, 0x5be0cd19⟩

/-- Rotation to the right. -/
def rotr (x n : UInt32) : UInt32 := (x >>> n) ||| (x <<< (32 - n))

/-- Big-endian words of a block. -/
def words : List UInt8 → List UInt32
  | a :: b :: c :: d :: rest =>
    ((a.toUInt32 <<< 24) ||| (b.toUInt32 <<< 16) ||| (c.toUInt32 <<< 8) ||| d.toUInt32) :: words rest
  | _ => []

/-- One more word of the message schedule. -/
def scheduleStep (w : List UInt32) : List UInt32 :=
  let n := w.length
  let w15 := w.getD (n - 15) 0
  let w2 := w.getD (n - 2) 0
  let s0 := rotr w15 7 ^^^ rotr w15 18 ^^^ (w15 >>> 3)
  let s1 := rotr w2 17 ^^^ rotr w2 19 ^^^ (w2 >>> 10)
  w ++ [w.getD (n - 16) 0 + s0 + w.getD (n - 7) 0 + s1]

/-- The 64 schedule words of a block. -/
def schedule (blk : List UInt8) : List UInt32 :=
  (List.range 48).foldl (fun w _ => scheduleStep w) (words blk)

/-- One round of the compression function, with a round constant and a schedule word. -/
def round (s : State) (kw : UInt32 × UInt32) : State :=
  let S1 := rotr s.e 6 ^^^ rotr s.e 11 ^^^ rotr s.e 25
  let ch := (s.e &&& s.f) ^^^ ((~~~ s.e) &&& s.g)
  let t1 := s.h + S1 + ch + kw.1 + kw.2
  let S0 := rotr s.a 2 ^^^ rotr s.a 13 ^^^ rotr s.a 22
  let maj := (s.a &&& s.b) ^^^ (s.a &&& s.c) ^^^ (s.b &&& s.c)
  ⟨t1 + (S0 + maj), s.a, s.b, s.c, s.d + t1, s.e, s.f, s.g⟩

/-- The compression of one block into the hash value. -/
def compress (hs : State) (blk : List UInt8) : State :=
  let s := (K.zip (schedule blk)).foldl round hs
  ⟨hs.a + s.a, hs.b + s.b, hs.c + s.c, hs.d + s.d, hs.e + s.e, hs.f + s.f, hs.g + s.g, hs.h + s.h⟩

/-- A 64-bit length, big-endian. -/
def be64 (n : Nat) : List UInt8 :=
  (List.range 8).reverse.map fun i => (n / Nat.pow 256 i % 256).toUInt8

/-- The padded message: a multiple of 64 bytes. -/
def pad (m : List UInt8) : List UInt8 :=
  m ++ [0x80] ++ List.replicate ((119 - m.length % 64) % 64) 0 ++ be64 (8 * m.length)

/-- The blocks folded in, with one unit of fuel a block. -/
def compressBlocks : Nat → State → List UInt8 → State
  | 0, hs, _ => hs
  | n + 1, hs, m => compressBlocks n (compress hs (m.take 64)) (m.drop 64)

/-- A word, big-endian. -/
def be32 (x : UInt32) : List UInt8 :=
  [(x >>> 24).toUInt8, (x >>> 16).toUInt8, (x >>> 8).toUInt8, x.toUInt8]

theorem length_be32 (x : UInt32) : (be32 x).length = 4 := rfl

/-- The digest of a hash value. -/
def State.digest (s : State) : Hash :=
  ⟨be32 s.a ++ be32 s.b ++ be32 s.c ++ be32 s.d ++ be32 s.e ++ be32 s.f ++ be32 s.g ++ be32 s.h,
    by simp [length_be32]⟩

/-- `sha256.Sum256`. -/
def sum256 (m : List UInt8) : Hash :=
  let p := pad m
  (compressBlocks (p.length / 64) H0 p).digest

end Gyee.Dht.Sha256
