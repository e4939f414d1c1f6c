import Dibs.Lib.Sha1

/-!
# SHA-256

`sha256 s` is `hashlib.sha256(s.encode()).digest()`: the digest of the UTF-8 bytes of a string. Words are
numbers below `2^32`, whose arithmetic the kernel evaluates quickly.
-/

namespace Dibs

namespace Sha256

/-- The words. -/
def modulus : ℕ := 2^32

/-- Rotation of a word to the right. -/
def rotr (x n : ℕ) : ℕ := (x >>> n) ||| (x <<< (32 - n)) % modulus

/-- The complement of a word. -/
def complement (x : ℕ) : ℕ := modulus - 1 - x

/-- Big-endian words from bytes. -/
def words : List UInt8 → List ℕ
  | a :: b :: c :: d :: rest =>
    (a.toNat * 2^24 + b.toNat * 2^16 + c.toNat * 2^8 + d.toNat) :: words rest
  | _ => []

/-- The first thirty-two bits of the fractional parts of the cube roots of the first sixty-four primes. -/
def constants : List ℕ :=
  [0x428a2f98, 0x71374491, 0xb5c0fbcf, 0xe9b5dba5, 0x3956c25b, 0x59f111f1, 0x923f82a4, 0xab1c5ed5,
    0xd807aa98, 0x12835b01, 0x243185be, 0x550c7dc3, 0x72be5d74, 0x80deb1fe, 0x9bdc06a7, 0xc19bf174,
    0xe49b69c1, 0xefbe4786, 0x0fc19dc6, 0x240ca1cc, 0x2de92c6f, 0x4a7484aa, 0x5cb0a9dc, 0x76f988da,
    0x983e5152, 0xa831c66d, 0xb00327c8, 0xbf597fc7, 0xc6e00bf3, 0xd5a79147, 0x06ca6351, 0x14292967,
    0x27b70a85, 0x2e1b2138, 0x4d2c6dfc, 0x53380d13, 0x650a7354, 0x766a0abb, 0x81c2c92e, 0x92722c85,
    0xa2bfe8a1, 0xa81a664b, 0xc24b8b70, 0xc76c51a3, 0xd192e819, 0xd6990624, 0xf40e3585, 0x106aa070,
    0x19a4c116, 0x1e376c08, 0x2748774c, 0x34b0bcb5, 0x391c0cb3, 0x4ed8aa4a, 0x5b9cca4f, 0x682e6ff3,
    0x748f82ee, 0x78a5636f, 0x84c87814, 0x8cc70208, 0x90befffa, 0xa4506ceb, 0xbef9a3f7, 0xc67178f2]

/-- One more word of the message schedule, whose words so far are given newest first. -/
def nextWord (ws : List ℕ) : ℕ :=
  let w2 := ws.getD 1 0
  let w15 := ws.getD 14 0
  let s0 := rotr w15 7 ^^^ rotr w15 18 ^^^ (w15 >>> 3)
  let s1 := rotr w2 17 ^^^ rotr w2 19 ^^^ (w2 >>> 10)
  (ws.getD 15 0 + s0 + ws.getD 6 0 + s1) % modulus

/-- `n` more words of the message schedule, newest first. -/
def extend : ℕ → List ℕ → List ℕ
  | 0, ws => ws
  | n + 1, ws => extend n (nextWord ws :: ws)

/-- The eight chaining words. -/
structure Digest where
  a : ℕ
  b : ℕ
  c : ℕ
  d : ℕ
  e : ℕ
  f : ℕ
  g : ℕ
  h : ℕ

/-- The initial chaining words. -/
def Digest.start : Digest :=
  ⟨0x6a09e667, 0xbb67ae85, 0x3c6ef372, 0xa54ff53a, 0x510e527f, 0x9b05688c, 0x1f83d9ab, 0x5be0cd19⟩

/-- One round, with its constant and its word of the schedule. -/
def round (r : Digest) (k w : ℕ) : Digest :=
  let s1 := rotr r.e 6 ^^^ rotr r.e 11 ^^^ rotr r.e 25
  let choice := (r.e &&& r.f) ^^^ (complement r.e &&& r.g)
  let t1 := r.h + s1 + choice + k + w
  let s0 := rotr r.a 2 ^^^ rotr r.a 13 ^^^ rotr r.a 22
  let majority := (r.a &&& r.b) ^^^ (r.a &&& r.c) ^^^ (r.b &&& r.c)
  ⟨(t1 + (s0 + majority)) % modulus, r.a, r.b, r.c, (r.d + t1) % modulus, r.e, r.f, r.g⟩

/-- The rounds, one per constant and word. -/
def rounds : List ℕ → List ℕ → Digest → Digest
  | k :: ks, w :: ws, r => rounds ks ws (round r k w)
  | _, _, r => r

/-- The chaining words after one block of sixteen words. -/
def compress (d : Digest) (block : List ℕ) : Digest :=
  let r := rounds constants (extend 48 block.reverse).reverse d
  ⟨(d.a + r.a) % modulus, (d.b + r.b) % modulus, (d.c + r.c) % modulus, (d.d + r.d) % modulus,
    (d.e + r.e) % modulus, (d.f + r.f) % modulus, (d.g + r.g) % modulus, (d.h + r.h) % modulus⟩

/-- The blocks of a padded message; the first argument bounds their number. -/
def blocks : ℕ → List ℕ → Digest → Digest
  | 0, _, d => d
  | n + 1, ws, d => if ws.isEmpty then d else blocks n (ws.drop 16) (compress d (ws.take 16))

end Sha256

/-- The eight words of the SHA-256 digest of a string. -/
def sha256Words (s : String) : List ℕ :=
  let ws := Sha256.words (Sha1.pad s.toUTF8.toList)
  let d := Sha256.blocks ws.length ws Sha256.Digest.start
  [d.a, d.b, d.c, d.d, d.e, d.f, d.g, d.h]

end Dibs
