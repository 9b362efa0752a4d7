/-!
# SHA-256

`Digest.sha256` computes the digest of a list of bytes: the message is padded to whole blocks of 64
bytes, each block is expanded to 64 words, and the eight words of the state go through one round
for each of them. Words are numbers below `2 ^ 32`, with which the kernel computes too.
-/

namespace SchemaMigration

/-- A SHA-256 digest. -/
structure Digest where
  bytes : List UInt8
  deriving DecidableEq, Repr, Inhabited

namespace Digest

/-- The eight words of the state. -/
structure Words where
  a : Nat
  b : Nat
  c : Nat
  d : Nat
  e : Nat
  f : Nat
  g : Nat
  h : Nat

/-- The state before the first block. -/
def start : Words :=
  ⟨0x6a09e667, 0xbb67ae85, 0x3c6ef372, 0xa54ff53a, 0x510e527f, 0x9b05688c, 0x1f83d9ab, 0x5be0cd19⟩

/-- The constants of the 64 rounds. -/
def roundConstants : List Nat := [
  0x428a2f98, 0x71374491, 0xb5c0fbcf, 0xe9b5dba5, 0x3956c25b, 0x59f111f1, 0x923f82a4, 0xab1c5ed5,
  0xd807aa98, 0x12835b01, 0x243185be, 0x550c7dc3, 0x72be5d74, 0x80deb1fe, 0x9bdc06a7, 0xc19bf174,
  0xe49b69c1, 0xefbe4786, 0x0fc19dc6, 0x240ca1cc, 0x2de92c6f, 0x4a7484aa, 0x5cb0a9dc, 0x76f988da,
  0x983e5152, 0xa831c66d, 0xb00327c8, 0xbf597fc7, 0xc6e00bf3, 0xd5a79147, 0x06ca6351, 0x14292967,
  0x27b70a85, 0x2e1b2138, 0x4d2c6dfc, 0x53380d13, 0x650a7354, 0x766a0abb, 0x81c2c92e, 0x92722c85,
  0xa2bfe8a1, 0xa81a664b, 0xc24b8b70, 0xc76c51a3, 0xd192e819, 0xd6990624, 0xf40e3585, 0x106aa070,
  0x19a4c116, 0x1e376c08, 0x2748774c, 0x34b0bcb5, 0x391c0cb3, 0x4ed8aa4a, 0x5b9cca4f, 0x682e6ff3,
  0x748f82ee, 0x78a5636f, 0x84c87814, 0x8cc70208, 0x90befffa, 0xa4506ceb, 0xbef9a3f7, 0xc67178f2]

/-- The word that a number leaves. -/
def wrap (n : Nat) : Nat := n % 0x100000000

/-- Rotation to the right. -/
def rotate (x n : Nat) : Nat := (x >>> n) ||| wrap (x <<< (32 - n))

/-- One round with the constant `k` and the word `w`. -/
def round (s : Words) (k w : Nat) : Words :=
  let s1 := rotate s.e 6 ^^^ rotate s.e 11 ^^^ rotate s.e 25
  let choice := (s.e &&& s.f) ^^^ ((0xffffffff ^^^ s.e) &&& s.g)
  let t1 := s.h + s1 + choice + k + w
  let s0 := rotate s.a 2 ^^^ rotate s.a 13 ^^^ rotate s.a 22
  let majority := (s.a &&& s.b) ^^^ (s.a &&& s.c) ^^^ (s.b &&& s.c)
  ⟨wrap (t1 + s0 + majority), s.a, s.b, s.c, wrap (s.d + t1), s.e, s.f, s.g⟩

/-- The word of four bytes, the first one leading. -/
def word (b₀ b₁ b₂ b₃ : UInt8) : Nat :=
  (b₀.toNat <<< 24) ||| (b₁.toNat <<< 16) ||| (b₂.toNat <<< 8) ||| b₃.toNat

/-- The words of a list of bytes. -/
def words : List UInt8 → List Nat
  | b₀ :: b₁ :: b₂ :: b₃ :: rest => word b₀ b₁ b₂ b₃ :: words rest
  | _ => []

/-- The next word of the schedule, whose words come with the last one first. -/
def scheduleNext (ws : List Nat) : Nat :=
  let x := ws.getD 14 0
  let y := ws.getD 1 0
  let s0 := rotate x 7 ^^^ rotate x 18 ^^^ (x >>> 3)
  let s1 := rotate y 17 ^^^ rotate y 19 ^^^ (y >>> 10)
  wrap (ws.getD 15 0 + s0 + ws.getD 6 0 + s1)

/-- The 64 words of a block of 16 words. -/
def schedule (block : List Nat) : List Nat :=
  (Nat.repeat (fun ws => scheduleNext ws :: ws) 48 block.reverse).reverse

/-- The state after one block. -/
def compress (s : Words) (block : List Nat) : Words :=
  let t := (roundConstants.zip (schedule block)).foldl (fun t (k, w) => round t k w) s
  ⟨wrap (s.a + t.a), wrap (s.b + t.b), wrap (s.c + t.c), wrap (s.d + t.d), wrap (s.e + t.e),
    wrap (s.f + t.f), wrap (s.g + t.g), wrap (s.h + t.h)⟩

/-- The bytes of a word, the leading one first. -/
def wordBytes (w : Nat) : List UInt8 :=
  [(w >>> 24).toUInt8, (w >>> 16).toUInt8, (w >>> 8).toUInt8, w.toUInt8]

/-- A message with a one bit, zeros and its length in bits behind it, up to a whole block. -/
def pad (message : List UInt8) : List UInt8 :=
  let size := message.length
  let zeros := (119 - size % 64) % 64
  let bits := size * 8
  message ++ 0x80 :: List.replicate zeros (0 : UInt8) ++ wordBytes (bits >>> 32) ++ wordBytes bits

/-- Goes through the blocks of a padded message; the number bounds their count. -/
def run : Nat → Words → List Nat → Words
  | 0, s, _ => s
  | _ + 1, s, [] => s
  | n + 1, s, ws => run n (compress s (ws.take 16)) (ws.drop 16)

/-- The digest of a message. -/
def sha256 (message : List UInt8) : Digest :=
  let ws := words (pad message)
  let s := run ws.length start ws
  ⟨[s.a, s.b, s.c, s.d, s.e, s.f, s.g, s.h].flatMap wordBytes⟩

/-- The hexadecimal text of a digest. -/
def hex (d : Digest) : String :=
  let digit (n : Nat) : Char := "0123456789abcdef".toList.getD n '0'
  String.ofList <| d.bytes.flatMap fun b => [digit (b.toNat / 16), digit (b.toNat % 16)]

/-- A digest has 32 bytes. -/
theorem length_bytes_sha256 (message : List UInt8) : (sha256 message).bytes.length = 32 := by
  simp [sha256, wordBytes]

end Digest

end SchemaMigration
