import Mathlib.Algebra.Ring.Nat

/-!
# SHA-1

`sha1Hex` is `hashlib.sha1(s.encode()).hexdigest()`: the digest of the UTF-8 bytes of a string, as 40
lower-case hexadecimal digits. Everything is structural recursion, so the kernel can evaluate it.
-/

namespace Dibs

namespace Sha1

/-- Rotation of a word to the left. -/
def rotl (x n : UInt32) : UInt32 := (x <<< n) ||| (x >>> (32 - n))

/-- The low `n` bytes of a number, most significant first. -/
def bigEndian : ℕ → ℕ → List UInt8
  | 0, _ => []
  | n + 1, x => UInt8.ofNat (x / 256^n) :: bigEndian n x

/-- The padding: a one bit, zeros up to eight bytes below a multiple of 64, and the bit length. -/
def pad (message : List UInt8) : List UInt8 :=
  message ++ 0x80 :: List.replicate ((119 - message.length % 64) % 64) 0 ++
    bigEndian 8 (8 * message.length)

/-- Big-endian words from bytes. -/
def words : List UInt8 → List UInt32
  | a :: b :: c :: d :: rest =>
    ((a.toUInt32 <<< 24) ||| (b.toUInt32 <<< 16) ||| (c.toUInt32 <<< 8) ||| d.toUInt32) ::
      words rest
  | _ => []

/-- One more word of the message schedule, whose words so far are given newest first. -/
def nextWord (ws : List UInt32) : UInt32 :=
  rotl (ws.getD 2 0 ^^^ ws.getD 7 0 ^^^ ws.getD 13 0 ^^^ ws.getD 15 0) 1

/-- `n` more words of the message schedule, newest first. -/
def extend : ℕ → List UInt32 → List UInt32
  | 0, ws => ws
  | n + 1, ws => extend n (nextWord ws :: ws)

/-- The five chaining words. -/
structure Digest where
  a : UInt32
  b : UInt32
  c : UInt32
  d : UInt32
  e : UInt32

/-- The initial chaining words. -/
def Digest.start : Digest := ⟨0x67452301, 0xEFCDAB89, 0x98BADCFE, 0x10325476, 0xC3D2E1F0⟩

/-- The function and constant of round `t`. -/
def roundParts (t : ℕ) (h : Digest) : UInt32 × UInt32 :=
  if t < 20 then ((h.b &&& h.c) ||| (~~~h.b &&& h.d), 0x5A827999)
  else if t < 40 then (h.b ^^^ h.c ^^^ h.d, 0x6ED9EBA1)
  else if t < 60 then ((h.b &&& h.c) ||| (h.b &&& h.d) ||| (h.c &&& h.d), 0x8F1BBCDC)
  else (h.b ^^^ h.c ^^^ h.d, 0xCA62C1D6)

/-- The rounds from `t` on, one per word. -/
def rounds : ℕ → List UInt32 → Digest → Digest
  | _, [], h => h
  | t, w :: ws, h =>
    let (f, k) := roundParts t h
    rounds (t + 1) ws ⟨rotl h.a 5 + f + h.e + k + w, h.a, rotl h.b 30, h.c, h.d⟩

/-- The chaining words after one block of sixteen words. -/
def compress (h : Digest) (block : List UInt32) : Digest :=
  let r := rounds 0 (extend 64 block.reverse).reverse h
  ⟨h.a + r.a, h.b + r.b, h.c + r.c, h.d + r.d, h.e + r.e⟩

/-- The blocks of a padded message; the first argument bounds their number. -/
def blocks : ℕ → List UInt32 → Digest → Digest
  | 0, _, h => h
  | n + 1, ws, h => if ws.isEmpty then h else blocks n (ws.drop 16) (compress h (ws.take 16))

/-- A word as eight hexadecimal digits. -/
def hexWord (w : UInt32) : List Char :=
  (List.range 8).map fun i => Nat.digitChar (w.toNat / 16^(7 - i) % 16)

end Sha1

/-- `hashlib.sha1(s.encode()).hexdigest()`. -/
def sha1Hex (s : String) : String :=
  let ws := Sha1.words (Sha1.pad s.toUTF8.toList)
  let h := Sha1.blocks ws.length ws Sha1.Digest.start
  String.ofList ([h.a, h.b, h.c, h.d, h.e].flatMap Sha1.hexWord)

end Dibs
