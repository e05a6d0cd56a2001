import Mathlib.Data.Nat.Find
import Mathlib.Data.Nat.Prime.Basic

/-!
# The SHA-256 standard

SHA-256 as its standard puts it, with bit strings for messages and indexed words in place of the
byte lists that `Digest.digest` runs over. Nothing here is shared with that program: the constants
are the fractions of roots of primes, the padding is the least that fills a block, and the words of
a block are given by their recurrence.

* `padded`, `blockWord`: a message in blocks of sixteen words.
* `expanded`, `step`, `compress`: what a block does to the eight words.
* `digest`, `hexText`: the eight words at the end, and how they are written.
* `IsHexDigest`: what it is for a text to be the digest of some bytes.

Out of scope: messages of 2⁶⁴ bits and more, for which the standard defines nothing. Their length is
taken modulo 2⁶⁴ here.
-/

namespace VersionInfo.Digest.Standard

/-- A word of 32 bits. -/
abbrev Word := BitVec 32

/-! ## Constants -/

/-- The first 32 bits of the fraction of the `k`-th root of `n`. -/
def rootFraction (k n : Nat) : Word :=
  BitVec.ofNat 32 (Nat.findGreatest (fun r => r ^ k ≤ n * 2 ^ (32 * k)) (n * 2 ^ (32 * k)))

/-- The first 64 primes. -/
def primes : List Nat := (List.range 312).filter fun n => n.Prime

/-- The constant of round `t`. -/
def roundConstant (t : Nat) : Word := rootFraction 3 (primes.getD t 0)

/-! ## Functions on words -/

def choice (x y z : Word) : Word := (x &&& y) ^^^ (~~~x &&& z)

def majority (x y z : Word) : Word := (x &&& y) ^^^ (x &&& z) ^^^ (y &&& z)

def bigSigma0 (x : Word) : Word := x.rotateRight 2 ^^^ x.rotateRight 13 ^^^ x.rotateRight 22

def bigSigma1 (x : Word) : Word := x.rotateRight 6 ^^^ x.rotateRight 11 ^^^ x.rotateRight 25

def smallSigma0 (x : Word) : Word := x.rotateRight 7 ^^^ x.rotateRight 18 ^^^ x >>> 3

def smallSigma1 (x : Word) : Word := x.rotateRight 17 ^^^ x.rotateRight 19 ^^^ x >>> 10

/-! ## Messages -/

/-- The bits of some bytes, each byte from its highest bit on. -/
def bitsOf (bytes : List UInt8) : List Bool :=
  bytes.flatMap fun b => (List.range 8).map fun i => b.toNat.testBit (7 - i)

/-- The number that bits denote, from the highest bit on. -/
def value (bits : List Bool) : Nat := bits.foldl (fun n b => 2 * n + b.toNat) 0

/-- There is a number of zeros that leaves 64 bits for the length in the last block. -/
theorem exists_zeros (l : Nat) : ∃ k, (l + 1 + k) % 512 = 448 :=
  ⟨(959 - l % 512) % 512, by omega⟩

/-- The message, a one, as few zeros as leave 64 bits of a whole block, and in these its length. -/
def padded (message : List Bool) : List Bool :=
  message ++ true :: List.replicate (Nat.find (exists_zeros message.length)) false ++
    (List.range 64).map fun i => message.length.testBit (63 - i)

/-- Word `t` of block `i`. -/
def blockWord (bits : List Bool) (i t : Nat) : Word :=
  BitVec.ofNat 32 (value ((bits.drop (512 * i + 32 * t)).take 32))

/-! ## Computation -/

/-- The words of a block, continued by their recurrence. -/
def expanded (block : Nat → Word) (t : Nat) : Word :=
  if t < 16 then block t
  else smallSigma1 (expanded block (t - 2)) + expanded block (t - 7) +
    smallSigma0 (expanded block (t - 15)) + expanded block (t - 16)
termination_by t
decreasing_by all_goals omega

/-- Eight words. -/
structure Words where
  a : Word
  b : Word
  c : Word
  d : Word
  e : Word
  f : Word
  g : Word
  h : Word

/-- The words before the first block. -/
def initial : Words :=
  ⟨rootFraction 2 2, rootFraction 2 3, rootFraction 2 5, rootFraction 2 7, rootFraction 2 11,
    rootFraction 2 13, rootFraction 2 17, rootFraction 2 19⟩

/-- One round, with its constant `k` and its word `w`. -/
def step (k w : Word) (v : Words) : Words :=
  let t1 := v.h + bigSigma1 v.e + choice v.e v.f v.g + k + w
  let t2 := bigSigma0 v.a + majority v.a v.b v.c
  ⟨t1 + t2, v.a, v.b, v.c, v.d + t1, v.e, v.f, v.g⟩

/-- Word by word. -/
def Words.add (v w : Words) : Words :=
  ⟨v.a + w.a, v.b + w.b, v.c + w.c, v.d + w.d, v.e + w.e, v.f + w.f, v.g + w.g, v.h + w.h⟩

/-- The words after a block. -/
def compress (v : Words) (block : Nat → Word) : Words :=
  v.add ((List.range 64).foldl (fun v t => step (roundConstant t) (expanded block t) v) v)

/-- The words after the last block. -/
def digest (message : List Bool) : Words :=
  let bits := padded message
  (List.range (bits.length / 512)).foldl (fun v i => compress v (blockWord bits i)) initial

/-- The eight hexadecimal digits of a word, from the highest on. -/
def wordHex (w : Word) : List Char :=
  (List.range 8).map fun i => Nat.digitChar (w.toNat / 16 ^ (7 - i) % 16)

/-- The words as hexadecimal text. -/
def hexText (v : Words) : String :=
  String.ofList ([v.a, v.b, v.c, v.d, v.e, v.f, v.g, v.h].flatMap wordHex)

/-- `text` is the digest of `message` in 64 lower case hexadecimal digits. -/
structure IsHexDigest (text : String) (message : List UInt8) : Prop where
  length : text.length = 64
  digits : ∀ c ∈ text.toList, c ∈ "0123456789abcdef".toList
  eq_hexText : text = hexText (digest (bitsOf message))

/-! ## Lemmas -/

/-- Which prime constants stand in the rounds. -/
theorem primes_eq : primes =
    [2, 3, 5, 7, 11, 13, 17, 19, 23, 29, 31, 37, 41, 43, 47, 53, 59, 61, 67, 71, 73, 79, 83, 89, 97,
      101, 103, 107, 109, 113, 127, 131, 137, 139, 149, 151, 157, 163, 167, 173, 179, 181, 191, 193,
      197, 199, 211, 223, 227, 229, 233, 239, 241, 251, 257, 263, 269, 271, 277, 281, 283, 293, 307,
      311] := by
  simp only [primes, Nat.prime_def_lt]
  decide +kernel

/-- A root is found by the powers of its neighbours. -/
theorem rootFraction_eq {k n r : Nat} (positive : k ≠ 0) (low : r ^ k ≤ n * 2 ^ (32 * k))
    (high : n * 2 ^ (32 * k) < (r + 1) ^ k) : rootFraction k n = BitVec.ofNat 32 r := by
  have greatest : Nat.findGreatest (fun r => r ^ k ≤ n * 2 ^ (32 * k)) (n * 2 ^ (32 * k)) = r := by
    refine Nat.findGreatest_eq_iff.mpr ⟨?_, fun _ => low, fun m above _ atMost => ?_⟩
    · exact (Nat.le_self_pow positive r).trans low
    · have below : (r + 1) ^ k ≤ m ^ k := Nat.pow_le_pow_left above k
      omega
  rw [rootFraction, greatest]

/-- The padding fills whole blocks and uses the fewest zeros that do. -/
theorem find_zeros_eq (l : Nat) : Nat.find (exists_zeros l) = (959 - l % 512) % 512 := by
  rw [Nat.find_eq_iff]
  refine ⟨by omega, fun k fewer => ?_⟩
  omega

theorem length_padded_mod (message : List Bool) : (padded message).length % 512 = 0 := by
  have filled := Nat.find_spec (exists_zeros message.length)
  simp only [padded, List.length_append, List.length_cons, List.length_replicate, List.length_map,
    List.length_range]
  omega

theorem expanded_of_lt {block : Nat → Word} {t : Nat} (first : t < 16) :
    expanded block t = block t := by
  rw [expanded, if_pos first]

theorem expanded_of_le {block : Nat → Word} {t : Nat} (later : 16 ≤ t) :
    expanded block t =
      smallSigma1 (expanded block (t - 2)) + expanded block (t - 7) +
        smallSigma0 (expanded block (t - 15)) + expanded block (t - 16) := by
  rw [expanded, if_neg (by omega)]

end VersionInfo.Digest.Standard
