import VersionInfo.Text.Hexadecimal

/-!
# SHA-256

The digest of a byte sequence. The message is padded with a one bit, zeros and its bit length to
whole blocks of 64 bytes; each block is expanded to 64 words and mixed into a state of eight
words. A digest is written as 64 lower case hexadecimal digits.

* `hexText`: `sha256_hex`, the digest of some bytes; `ofText` is that of a text.
* `length_digest`: a digest has 32 bytes.
* `length_hexText`: its text has 64 characters.
-/

namespace VersionInfo.Digest

/-- The eight words that a block is mixed into. -/
structure State where
  a : UInt32
  b : UInt32
  c : UInt32
  d : UInt32
  e : UInt32
  f : UInt32
  g : UInt32
  h : UInt32

/-- The fractional parts of the square roots of the first eight primes. -/
def start : State :=
  ⟨0x6a09e667, 0xbb67ae85, 0x3c6ef372, 0xa54ff53a, 0x510e527f, 0x9b05688c, 0x1f83d9ab, 0x5be0cd19⟩

/-- The fractional parts of the cube roots of the first 64 primes. -/
def roundConstants : List UInt32 :=
  [0x428a2f98, 0x71374491, 0xb5c0fbcf, 0xe9b5dba5, 0x3956c25b, 0x59f111f1, 0x923f82a4, 0xab1c5ed5,
    0xd807aa98, 0x12835b01, 0x243185be, 0x550c7dc3, 0x72be5d74, 0x80deb1fe, 0x9bdc06a7, 0xc19bf174,
    0xe49b69c1, 0xefbe4786, 0x0fc19dc6, 0x240ca1cc, 0x2de92c6f, 0x4a7484aa, 0x5cb0a9dc, 0x76f988da,
    0x983e5152, 0xa831c66d, 0xb00327c8, 0xbf597fc7, 0xc6e00bf3, 0xd5a79147, 0x06ca6351, 0x14292967,
    0x27b70a85, 0x2e1b2138, 0x4d2c6dfc, 0x53380d13, 0x650a7354, 0x766a0abb, 0x81c2c92e, 0x92722c85,
    0xa2bfe8a1, 0xa81a664b, 0xc24b8b70, 0xc76c51a3, 0xd192e819, 0xd6990624, 0xf40e3585, 0x106aa070,
    0x19a4c116, 0x1e376c08, 0x2748774c, 0x34b0bcb5, 0x391c0cb3, 0x4ed8aa4a, 0x5b9cca4f, 0x682e6ff3,
    0x748f82ee, 0x78a5636f, 0x84c87814, 0x8cc70208, 0x90befffa, 0xa4506ceb, 0xbef9a3f7, 0xc67178f2]

/-! ## Words and bytes -/

/-- Rotation to the right by `n` bits, for `0 < n < 32`. -/
def rotate (w n : UInt32) : UInt32 := (w >>> n) ||| (w <<< (32 - n))

/-- The word that four bytes denote, the most significant first. -/
def word (a b c d : UInt8) : UInt32 :=
  (a.toUInt32 <<< 24) ||| (b.toUInt32 <<< 16) ||| (c.toUInt32 <<< 8) ||| d.toUInt32

/-- The big-endian words of a byte sequence whose length is a multiple of four. -/
def words : List UInt8 → List UInt32
  | a :: b :: c :: d :: rest => word a b c d :: words rest
  | _ => []

/-- The four bytes of a word, the most significant first. -/
def wordBytes (w : UInt32) : List UInt8 :=
  [(w >>> 24).toUInt8, (w >>> 16).toUInt8, (w >>> 8).toUInt8, w.toUInt8]

/-- The low `k` bytes of a number, the most significant first. -/
def lengthBytes (k n : Nat) : List UInt8 :=
  (List.range k).map fun i => UInt8.ofNat (n >>> (8 * (k - 1 - i)))

/-- The message, a one bit, zeros up to eight bytes short of a whole block, and the bit length. -/
def pad (message : List UInt8) : List UInt8 :=
  let zeros := (119 - message.length % 64) % 64
  message ++ 0x80 :: List.replicate zeros 0 ++ lengthBytes 8 (8 * message.length)

/-- The words in blocks of sixteen. -/
def blocks : List UInt32 → List (List UInt32)
  | [] => []
  | w :: ws => (w :: ws).take 16 :: blocks ((w :: ws).drop 16)
termination_by ws => ws.length
decreasing_by
  simp only [List.length_drop, List.length_cons]
  omega

/-! ## Mixing -/

/-- The next word of an expansion whose words so far stand newest first. -/
def nextWord (ws : List UInt32) : UInt32 :=
  let w2 := ws.getD 1 0
  let w15 := ws.getD 14 0
  (rotate w2 17 ^^^ rotate w2 19 ^^^ (w2 >>> 10)) + ws.getD 6 0
    + (rotate w15 7 ^^^ rotate w15 18 ^^^ (w15 >>> 3)) + ws.getD 15 0

/-- `n` more words of an expansion, newest first. -/
def expand : Nat → List UInt32 → List UInt32
  | 0, ws => ws
  | n + 1, ws => expand n (nextWord ws :: ws)

/-- The 64 words of a block, in order. -/
def schedule (block : List UInt32) : List UInt32 := (expand 48 block.reverse).reverse

/-- One round: mix in a round constant and a word. -/
def round (s : State) (kw : UInt32 × UInt32) : State :=
  let sum1 := rotate s.e 6 ^^^ rotate s.e 11 ^^^ rotate s.e 25
  let choice := (s.e &&& s.f) ^^^ (~~~s.e &&& s.g)
  let t1 := s.h + sum1 + choice + kw.1 + kw.2
  let sum0 := rotate s.a 2 ^^^ rotate s.a 13 ^^^ rotate s.a 22
  let majority := (s.a &&& s.b) ^^^ (s.a &&& s.c) ^^^ (s.b &&& s.c)
  ⟨t1 + sum0 + majority, s.a, s.b, s.c, s.d + t1, s.e, s.f, s.g⟩

/-- The state after one block. -/
def compress (s : State) (block : List UInt32) : State :=
  let t := (roundConstants.zip (schedule block)).foldl round s
  ⟨s.a + t.a, s.b + t.b, s.c + t.c, s.d + t.d, s.e + t.e, s.f + t.f, s.g + t.g, s.h + t.h⟩

/-- The bytes of a state. -/
def State.bytes (s : State) : List UInt8 :=
  [s.a, s.b, s.c, s.d, s.e, s.f, s.g, s.h].flatMap wordBytes

/-- The SHA-256 digest of a message. -/
def digest (message : List UInt8) : List UInt8 :=
  ((blocks (words (pad message))).foldl compress start).bytes

/-- The digest as hexadecimal text. -/
def hexText (message : List UInt8) : String :=
  String.ofList ((digest message).flatMap Text.hexByte)

/-- The digest of a text's UTF-8 bytes, as hexadecimal text. -/
def ofText (s : String) : String := hexText s.toUTF8.toList

/-! ## Lemmas -/

theorem length_digest (message : List UInt8) : (digest message).length = 32 := rfl

/-- The text of a digest is 64 characters long: two digits stand for each byte. -/
theorem length_hexText (message : List UInt8) : (hexText message).length = 64 := by
  have two : ∀ bytes : List UInt8, (bytes.flatMap Text.hexByte).length = 2 * bytes.length := by
    intro bytes
    induction bytes with
    | nil => rfl
    | cons b rest ih => simp [List.flatMap_cons, ih, Text.hexByte]; omega
  simp [hexText, two, length_digest]

end VersionInfo.Digest
