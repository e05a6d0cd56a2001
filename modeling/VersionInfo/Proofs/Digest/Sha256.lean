import Mathlib.Tactic.Ring
import VersionInfo.Digest.Sha256
import VersionInfo.Proofs.Digest.Standard

/-!
# The digest is that of the standard

The program runs over bytes and lists, the standard over bits and indices.

* `words_start`, `map_roundConstants`: the tables hold the fractions of the roots.
* `bitsOf_pad`, `map_words`: the padded bytes are the padded bits, and their words the same.
* `words_compress`: a block does the same to the eight words.
* `words_foldl_blocks`, `isHexDigest_hexText`: so the digest is the same, written in 64 digits.
-/

namespace VersionInfo.Digest

open Standard (Word Words bitsOf blockWord expanded primes rootFraction roundConstant value)

/-! ## Constants -/

/-- `w` is the fraction of the `k`-th root of `n`, behind a whole part below 8. -/
def IsFraction (k n : Nat) (w : UInt32) : Prop :=
  ∃ whole < 8, (whole * 2 ^ 32 + w.toNat) ^ k ≤ n * 2 ^ (32 * k) ∧
    n * 2 ^ (32 * k) < (whole * 2 ^ 32 + w.toNat + 1) ^ k

instance (k n : Nat) (w : UInt32) : Decidable (IsFraction k n w) :=
  inferInstanceAs (Decidable (∃ whole < 8, _ ∧ _))

/-- A word that satisfies the inequalities of a fraction is that fraction: the root lies in one
interval. -/
theorem IsFraction.toBitVec_eq {k n : Nat} {w : UInt32} (h : IsFraction k n w)
    (positive : k ≠ 0) : w.toBitVec = rootFraction k n := by
  obtain ⟨whole, -, low, high⟩ := h
  rw [Standard.rootFraction_eq positive low high]
  apply BitVec.eq_of_toNat_eq
  have small := w.toNat_lt
  rw [BitVec.toNat_ofNat, UInt32.toNat_toBitVec]
  omega

/-- The words of a state. -/
def State.words (s : State) : Words :=
  ⟨s.a.toBitVec, s.b.toBitVec, s.c.toBitVec, s.d.toBitVec, s.e.toBitVec, s.f.toBitVec,
    s.g.toBitVec, s.h.toBitVec⟩

theorem words_start : start.words = Standard.initial := by
  have fraction {n : Nat} {w : UInt32} (h : IsFraction 2 n w) : w.toBitVec = rootFraction 2 n :=
    h.toBitVec_eq (by decide)
  rw [State.words, Standard.initial, Words.mk.injEq]
  refine ⟨fraction ?_, fraction ?_, fraction ?_, fraction ?_, fraction ?_, fraction ?_, fraction ?_,
    fraction ?_⟩ <;> decide +kernel

theorem isFraction_roundConstants :
    ∀ t < 64, IsFraction 3 (primes.getD t 0) (roundConstants.getD t 0) := by
  rw [Standard.primes_eq]
  decide +kernel

/-- The table holds the round constants, in their order. -/
theorem map_roundConstants :
    roundConstants.map UInt32.toBitVec = (List.range 64).map roundConstant := by
  have listed : roundConstants = (List.range 64).map fun t => roundConstants.getD t 0 := rfl
  rw [listed, List.map_map]
  refine List.map_congr_left fun t mem => ?_
  exact (isFraction_roundConstants t (List.mem_range.mp mem)).toBitVec_eq (by decide)

/-! ## Words of bytes -/

theorem bitsOf_cons (b : UInt8) (bytes : List UInt8) :
    bitsOf (b :: bytes) = bitsOf [b] ++ bitsOf bytes := by
  simp [bitsOf]

@[simp]
theorem bitsOf_append (bytes more : List UInt8) :
    bitsOf (bytes ++ more) = bitsOf bytes ++ bitsOf more := List.flatMap_append

@[simp]
theorem length_bitsOf (bytes : List UInt8) : (bitsOf bytes).length = 8 * bytes.length := by
  induction bytes with
  | nil => rfl
  | cons b rest ih =>
    rw [bitsOf_cons, List.length_append, ih, List.length_cons]
    simp [bitsOf]
    omega

theorem bitsOf_zeros (n : Nat) : bitsOf (List.replicate n 0) = List.replicate (8 * n) false := by
  induction n with
  | zero => rfl
  | succ n ih =>
    have byte : bitsOf [0] = List.replicate 8 false := by decide
    rw [List.replicate_succ, bitsOf_cons, ih, byte, List.replicate_append_replicate, Nat.mul_succ,
      Nat.add_comm]

/-- The bits of a length are those of the number, from the highest on. -/
theorem bitsOf_lengthBytes (n : Nat) :
    bitsOf (lengthBytes 8 n) = (List.range 64).map fun i => n.testBit (63 - i) := by
  have bit (s j : Nat) (h : j < 8) :
      (UInt8.ofNat (n >>> s)).toNat.testBit j = n.testBit (s + j) := by
    rw [UInt8.toNat_ofNat', Nat.testBit_mod_two_pow, Nat.testBit_shiftRight, decide_eq_true h,
      Bool.true_and]
  have byte (i : Nat) (h : i < 8) : bitsOf [UInt8.ofNat (n >>> (8 * (7 - i)))] =
      (List.range 8).map fun j => n.testBit (63 - (8 * i + j)) := by
    rw [bitsOf, List.flatMap_singleton]
    refine List.map_congr_left fun j mem => ?_
    rw [List.mem_range] at mem
    rw [bit _ _ (by omega)]
    congr 1
    omega
  have bytes : ((List.range 8).map fun i => bitsOf [UInt8.ofNat (n >>> (8 * (7 - i)))]) =
      (List.range 8).map fun i => (List.range 8).map fun j => n.testBit (63 - (8 * i + j)) :=
    List.map_congr_left fun i mem => byte i (List.mem_range.mp mem)
  exact congrArg List.flatten bytes

/-- **The padding is the one of the standard.** -/
theorem bitsOf_pad (message : List UInt8) :
    bitsOf (pad message) = Standard.padded (bitsOf message) := by
  have first : bitsOf [0x80] = true :: List.replicate 7 false := by decide
  have zeros : 7 + 8 * ((119 - message.length % 64) % 64) =
      (959 - (8 * message.length) % 512) % 512 := by omega
  rw [pad, Standard.padded, Standard.find_zeros_eq, length_bitsOf, ← zeros, bitsOf_append,
    bitsOf_append, bitsOf_cons 0x80, first, bitsOf_zeros, bitsOf_lengthBytes, List.cons_append,
    List.replicate_append_replicate]

/-- The number of two runs of bits, the first of which counts for more. -/
theorem value_append (bits more : List Bool) :
    value (bits ++ more) = value bits * 2 ^ more.length + value more := by
  have shift : ∀ (more : List Bool) (n : Nat),
      more.foldl (fun n b => 2 * n + b.toNat) n = n * 2 ^ more.length + value more := by
    intro more
    induction more with
    | nil => simp [value]
    | cons b rest ih =>
      intro n
      rw [value, List.foldl_cons, List.foldl_cons, ih, ih (2 * 0 + b.toNat), List.length_cons,
        pow_succ]
      ring
  rw [value, List.foldl_append, shift]
  rfl

theorem value_byte (b : UInt8) : value (bitsOf [b]) = b.toNat := by
  have all : ∀ n < 256, value ((List.range 8).map fun i => n.testBit (7 - i)) = n := by
    decide +kernel
  rw [bitsOf, List.flatMap_singleton]
  exact all _ b.toNat_lt

/-- Four bytes make a word whose number is that of their bits. -/
theorem toNat_word (a b c d : UInt8) : (word a b c d).toNat = value (bitsOf [a, b, c, d]) := by
  have ha := a.toNat_lt
  have hb := b.toNat_lt
  have hc := c.toNat_lt
  have hd := d.toNat_lt
  have shifted : a.toNat <<< 24 % 4294967296 = a.toNat <<< 24 ∧
      b.toNat <<< 16 % 4294967296 = b.toNat <<< 16 ∧
      c.toNat <<< 8 % 4294967296 = c.toNat <<< 8 := by
    simp only [Nat.shiftLeft_eq]
    omega
  calc
    (word a b c d).toNat =
        a.toNat <<< 24 ||| b.toNat <<< 16 ||| c.toNat <<< 8 ||| d.toNat := by
      simp [word, shifted]
    _ = ((a.toNat <<< 8 ||| b.toNat) <<< 8 ||| c.toNat) <<< 8 ||| d.toNat := by
      simp only [Nat.shiftLeft_or_distrib, ← Nat.shiftLeft_add]
    _ = ((a.toNat * 256 + b.toNat) * 256 + c.toNat) * 256 + d.toNat := by
      rw [← Nat.shiftLeft_add_eq_or_of_lt hb, ← Nat.shiftLeft_add_eq_or_of_lt hc,
        ← Nat.shiftLeft_add_eq_or_of_lt hd]
      simp only [Nat.shiftLeft_eq, Nat.reducePow]
    _ = value (bitsOf [a, b, c, d]) := by
      rw [bitsOf_cons a, bitsOf_cons b, bitsOf_cons c, value_append, value_append, value_append]
      simp only [value_byte, length_bitsOf, List.length_append, List.length_cons, List.length_nil]
      ring

/-- The words of some bytes are those of their bits, 32 at a time. Bytes that fill no word are
dropped. -/
theorem map_words (bytes : List UInt8) :
    (words bytes).map UInt32.toBitVec = (List.range (bytes.length / 4)).map fun j =>
      BitVec.ofNat 32 (value (((bitsOf bytes).drop (32 * j)).take 32)) := by
  fun_induction words bytes with
  | case1 a b c d rest ih =>
    have length : (a :: b :: c :: d :: rest).length / 4 = rest.length / 4 + 1 := by
      simp only [List.length_cons]
      omega
    have front : bitsOf (a :: b :: c :: d :: rest) = bitsOf [a, b, c, d] ++ bitsOf rest :=
      bitsOf_append [a, b, c, d] rest
    have width : (bitsOf [a, b, c, d]).length = 32 := length_bitsOf _
    rw [length, List.range_succ_eq_map, List.map_cons, List.map_cons, List.map_map, ih, front]
    refine congrArg₂ List.cons ?_ (List.map_congr_left fun j _ => ?_)
    · rw [Nat.mul_zero, List.drop_zero, List.take_left' width, ← toNat_word]
      exact BitVec.eq_of_toNat_eq (by simp)
    · have behind : 32 * Nat.succ j = (bitsOf [a, b, c, d]).length + 32 * j := by omega
      rw [Function.comp, behind, ← List.drop_drop, List.drop_left]
  | case2 bytes short =>
    have few : bytes.length < 4 := by
      match bytes, short with
      | [], _ | [_], _ | [_, _], _ | [_, _, _], _ => simp
      | a :: b :: c :: d :: rest, short => exact (short a b c d rest rfl).elim
    rw [Nat.div_eq_of_lt few]
    rfl

/-! ## Rounds -/

theorem toBitVec_rotate (w : UInt32) {n : UInt32} (positive : 0 < n.toNat) (small : n.toNat < 32) :
    (rotate w n).toBitVec = w.toBitVec.rotateRight n.toNat := by
  have amount {m : UInt32} (h : m.toNat < 32) : (m.toBitVec % 32).toNat = m.toNat :=
    Nat.mod_eq_of_lt h
  have rest : (32 - n).toNat = 32 - n.toNat :=
    UInt32.toNat_sub_of_le 32 n (UInt32.le_iff_toNat_le.mpr small.le)
  rw [rotate, UInt32.toBitVec_or, UInt32.toBitVec_shiftRight, UInt32.toBitVec_shiftLeft,
    BitVec.ushiftRight_eq', BitVec.shiftLeft_eq', amount small, amount (by omega), rest,
    BitVec.rotateRight_def, Nat.mod_eq_of_lt small]

section

variable (w : UInt32)

/-- What the four functions on words have in common. -/
theorem toBitVec_rotations {m n : UInt32} (hm : 0 < m.toNat ∧ m.toNat < 32)
    (hn : 0 < n.toNat ∧ n.toNat < 32) (v : UInt32) :
    (rotate w m ^^^ rotate w n ^^^ v).toBitVec =
      w.toBitVec.rotateRight m.toNat ^^^ w.toBitVec.rotateRight n.toNat ^^^ v.toBitVec := by
  rw [UInt32.toBitVec_xor, UInt32.toBitVec_xor, toBitVec_rotate w hm.1 hm.2,
    toBitVec_rotate w hn.1 hn.2]

theorem toBitVec_bigSigma0 :
    (rotate w 2 ^^^ rotate w 13 ^^^ rotate w 22).toBitVec = Standard.bigSigma0 w.toBitVec := by
  rw [toBitVec_rotations w (by decide) (by decide), toBitVec_rotate w (by decide) (by decide)]
  rfl

theorem toBitVec_bigSigma1 :
    (rotate w 6 ^^^ rotate w 11 ^^^ rotate w 25).toBitVec = Standard.bigSigma1 w.toBitVec := by
  rw [toBitVec_rotations w (by decide) (by decide), toBitVec_rotate w (by decide) (by decide)]
  rfl

theorem toBitVec_smallSigma0 :
    (rotate w 7 ^^^ rotate w 18 ^^^ (w >>> 3)).toBitVec = Standard.smallSigma0 w.toBitVec :=
  toBitVec_rotations w (by decide) (by decide) (w >>> 3)

theorem toBitVec_smallSigma1 :
    (rotate w 17 ^^^ rotate w 19 ^^^ (w >>> 10)).toBitVec = Standard.smallSigma1 w.toBitVec :=
  toBitVec_rotations w (by decide) (by decide) (w >>> 10)

end

/-- One round is one step of the standard on the eight working variables. -/
theorem words_round (s : State) (k w : UInt32) :
    (round s (k, w)).words = Standard.step k.toBitVec w.toBitVec s.words := by
  simp only [round, State.words, Standard.step, ← toBitVec_bigSigma0, ← toBitVec_bigSigma1,
    Standard.choice, Standard.majority, UInt32.toBitVec_add, UInt32.toBitVec_xor,
    UInt32.toBitVec_and, UInt32.toBitVec_not, BitVec.add_assoc]

/-! ## Blocks -/

variable {M : Nat → Word}

/-- The newest words stand in front. -/
theorem toBitVec_getD {ws : List UInt32} {k : Nat}
    (known : ws.map UInt32.toBitVec = ((List.range k).map (expanded M)).reverse) {i : Nat}
    (h : i < k) : (ws.getD i 0).toBitVec = expanded M (k - 1 - i) := by
  have entry : (ws.map UInt32.toBitVec)[i]? = some (expanded M (k - 1 - i)) := by
    rw [known, List.getElem?_reverse (by simpa using h), List.getElem?_map, List.length_map,
      List.length_range, List.getElem?_range (by omega), Option.map_some]
  rw [List.getElem?_map, Option.map_eq_some_iff] at entry
  obtain ⟨w, found, same⟩ := entry
  rw [List.getD_eq_getElem?_getD, found, Option.getD_some, same]

theorem toBitVec_nextWord {ws : List UInt32} {k : Nat} (filled : 16 ≤ k)
    (known : ws.map UInt32.toBitVec = ((List.range k).map (expanded M)).reverse) :
    (nextWord ws).toBitVec = expanded M k := by
  have entry (i : Nat) (h : i < 16) : (ws.getD i 0).toBitVec = expanded M (k - (i + 1)) := by
    rw [toBitVec_getD known (by omega), Nat.sub_sub, Nat.add_comm 1 i]
  rw [Standard.expanded_of_le filled, ← entry 1 (by omega), ← entry 6 (by omega),
    ← entry 14 (by omega), ← entry 15 (by omega), ← toBitVec_smallSigma0, ← toBitVec_smallSigma1]
  simp only [nextWord, UInt32.toBitVec_add]

/-- The schedule is expanded word by word, by induction on the words that are still to come. -/
theorem map_expand {ws : List UInt32} {k : Nat} (n : Nat) (filled : 16 ≤ k)
    (known : ws.map UInt32.toBitVec = ((List.range k).map (expanded M)).reverse) :
    (expand n ws).map UInt32.toBitVec = ((List.range (k + n)).map (expanded M)).reverse := by
  induction n generalizing ws k with
  | zero => exact known
  | succ n ih =>
    rw [expand, Nat.add_comm n 1, ← Nat.add_assoc]
    refine ih (by omega) ?_
    rw [List.map_cons, toBitVec_nextWord filled known, known, List.range_succ, List.map_append,
      List.reverse_append]
    rfl

/-- A block is expanded to the schedule of the standard. -/
theorem map_schedule {block : List UInt32}
    (known : block.map UInt32.toBitVec = (List.range 16).map M) :
    (schedule block).map UInt32.toBitVec = (List.range 64).map (expanded M) := by
  have first : (List.range 16).map M = (List.range 16).map (expanded M) :=
    List.map_congr_left fun t mem => (Standard.expanded_of_lt (List.mem_range.mp mem)).symm
  have turned : block.reverse.map UInt32.toBitVec = ((List.range 16).map (expanded M)).reverse := by
    rw [List.map_reverse, known, first]
  rw [schedule, List.map_reverse, map_expand 48 le_rfl turned, List.reverse_reverse]

/-- Rounds with the constants and the schedule are the steps of the standard. -/
theorem words_foldl_round {ks ws : List UInt32} {ts : List Nat} (s : State)
    (hk : ks.map UInt32.toBitVec = ts.map roundConstant)
    (hw : ws.map UInt32.toBitVec = ts.map (expanded M)) :
    ((ks.zip ws).foldl round s).words =
      ts.foldl (fun v t => Standard.step (roundConstant t) (expanded M t) v) s.words := by
  induction ts generalizing ks ws s with
  | nil =>
    rw [List.map_nil, List.map_eq_nil_iff] at hk
    rw [hk]
    rfl
  | cons t ts ih =>
    obtain ⟨k, ks, rfl, hk0, hk⟩ := List.map_eq_cons_iff.mp hk
    obtain ⟨w, ws, rfl, hw0, hw⟩ := List.map_eq_cons_iff.mp hw
    rw [List.zip_cons_cons, List.foldl_cons, List.foldl_cons, ih _ hk hw, words_round, hk0, hw0]

/-- **A block does the same** to the eight words. -/
theorem words_compress {block : List UInt32} (s : State)
    (known : block.map UInt32.toBitVec = (List.range 16).map M) :
    (compress s block).words = Standard.compress s.words M := by
  have rounds := words_foldl_round s map_roundConstants (map_schedule known)
  rw [Standard.compress, ← rounds]
  simp only [compress, State.words, Standard.Words.add, UInt32.toBitVec_add]

theorem length_words (bytes : List UInt8) : (words bytes).length = bytes.length / 4 := by
  simpa using congrArg List.length (map_words bytes)

/-- The blocks are runs of sixteen words, one behind another. -/
theorem blocks_eq {ws : List UInt32} {n : Nat} (length : ws.length = 16 * n) :
    blocks ws = (List.range n).map fun i => (ws.drop (16 * i)).take 16 := by
  induction n generalizing ws with
  | zero =>
    rw [List.eq_nil_of_length_eq_zero length, blocks]
    rfl
  | succ n ih =>
    obtain ⟨w, rest, rfl⟩ := List.exists_cons_of_length_pos (l := ws) (by omega)
    rw [blocks, ih (by rw [List.length_drop]; omega), List.range_succ_eq_map, List.map_cons,
      List.map_map]
    refine congrArg₂ List.cons rfl (List.map_congr_left fun i _ => ?_)
    rw [List.drop_drop, Function.comp, Nat.mul_succ, Nat.add_comm]

theorem length_pad_mod (message : List UInt8) : (pad message).length % 64 = 0 := by
  have bits := Standard.length_padded_mod (bitsOf message)
  rw [← bitsOf_pad, length_bitsOf] at bits
  omega

/-- The words of a block are those that stand in its place in the message. -/
theorem map_block {message : List UInt8} {i : Nat} (h : i < (pad message).length / 64) :
    (((words (pad message)).drop (16 * i)).take 16).map UInt32.toBitVec =
      (List.range 16).map (blockWord (Standard.padded (bitsOf message)) i) := by
  rw [List.map_take, List.map_drop, map_words, bitsOf_pad]
  refine List.ext_getElem ?_ fun t ht _ => ?_
  · simp
    omega
  · simp [blockWord, Nat.mul_add, ← Nat.mul_assoc]

/-- Compressing the blocks one after another makes the intermediate hash values of the standard. -/
theorem words_foldl_compress (message : List UInt8) {is : List Nat} (s : State)
    (inside : ∀ i ∈ is, i < (pad message).length / 64) :
    (is.foldl (fun s i => compress s (((words (pad message)).drop (16 * i)).take 16)) s).words =
      is.foldl (fun v i => Standard.compress v (blockWord (Standard.padded (bitsOf message)) i))
        s.words := by
  induction is generalizing s with
  | nil => rfl
  | cons i is ih =>
    obtain ⟨first, others⟩ := List.forall_mem_cons.mp inside
    rw [List.foldl_cons, List.foldl_cons, ih _ others, words_compress s (map_block first)]

/-- **The eight words at the end** are those of the standard. -/
theorem words_foldl_blocks (message : List UInt8) :
    ((blocks (words (pad message))).foldl compress start).words =
      Standard.digest (bitsOf message) := by
  have whole := length_pad_mod message
  have count : (Standard.padded (bitsOf message)).length / 512 = (pad message).length / 64 := by
    rw [← bitsOf_pad, length_bitsOf]
    omega
  have length : (words (pad message)).length = 16 * ((pad message).length / 64) := by
    rw [length_words]
    omega
  rw [blocks_eq length, List.foldl_map,
    words_foldl_compress message start fun i mem => List.mem_range.mp mem, words_start,
    Standard.digest, count]

/-! ## Hexadecimal digits -/

theorem flatMap_wordBytes (w : UInt32) :
    (wordBytes w).flatMap Text.hexByte = Standard.wordHex w.toBitVec := by
  have digit (m n : Nat) (same : m % 16 = n % 16) : Text.hexDigit m = Nat.digitChar (n % 16) := by
    rw [Text.hexDigit, same]
  simp [wordBytes, Text.hexByte, Standard.wordHex, List.range_succ]
  refine ⟨digit _ _ ?_, digit _ _ ?_, digit _ _ ?_, digit _ _ ?_, digit _ _ ?_, digit _ _ ?_,
    digit _ _ ?_, digit _ _ ?_⟩ <;> omega

/-- The text of a digest is that of the standard's digest. -/
theorem hexText_eq (message : List UInt8) :
    hexText message = Standard.hexText (Standard.digest (bitsOf message)) := by
  rw [hexText, digest, State.bytes, List.flatMap_assoc, ← words_foldl_blocks]
  simp only [flatMap_wordBytes]
  rfl

theorem mem_hexDigits {n : Nat} (h : n < 16) :
    Nat.digitChar n ∈ "0123456789abcdef".toList := by
  have all : ∀ n < 16, Nat.digitChar n ∈ "0123456789abcdef".toList := by decide
  exact all n h

/-- **What is written is the digest of the standard**, in 64 lower case digits. -/
theorem isHexDigest_hexText (message : List UInt8) :
    Standard.IsHexDigest (hexText message) message where
  length := length_hexText message
  digits := by
    intro c mem
    rw [hexText, String.toList_ofList, List.mem_flatMap] at mem
    obtain ⟨b, -, mem⟩ := mem
    simp only [Text.hexByte, List.mem_cons, List.not_mem_nil, or_false] at mem
    rcases mem with rfl | rfl <;> exact mem_hexDigits (Nat.mod_lt _ (by decide))
  eq_hexText := hexText_eq message

example : Standard.IsHexDigest
    "e3b0c44298fc1c149afbf4c8996fb92427ae41e4649b934ca495991b7852b855" [] := by
  have written : hexText [] =
      "e3b0c44298fc1c149afbf4c8996fb92427ae41e4649b934ca495991b7852b855" := by decide +kernel
  exact written ▸ isHexDigest_hexText []

/-! ## Texts -/

/-- Bytes are listed behind those that are listed already. -/
theorem toList_loop (bytes : ByteArray) (i : Nat) (listed : List UInt8) :
    ByteArray.toList.loop bytes i listed = listed.reverse ++ bytes.data.toList.drop i := by
  induction i, listed using ByteArray.toList.loop.induct bytes with
  | case1 i listed inside ih =>
    have there : i < bytes.data.toList.length := inside
    have byte : bytes.get! i = bytes.data.toList[i] := getElem!_pos bytes.data i inside
    rw [ByteArray.toList.loop, if_pos inside, ih, List.drop_eq_getElem_cons there, byte,
      List.reverse_cons, List.append_assoc, List.singleton_append]
  | case2 i listed outside =>
    have past : bytes.data.toList.length ≤ i := Nat.le_of_not_lt outside
    rw [ByteArray.toList.loop, if_neg outside, List.drop_eq_nil_of_le past, List.append_nil]

/-- The bytes of a text are those of its characters. -/
theorem toList_toUTF8 (s : String) :
    s.toUTF8.toList = s.toList.flatMap String.utf8EncodeChar := by
  have bytes : s.toUTF8 = (s.toList.flatMap String.utf8EncodeChar).toByteArray := calc
    s.toUTF8 = (String.ofList s.toList).toByteArray := by
      rw [String.ofList_toList, String.toUTF8_eq_toByteArray]
    _ = (s.toList.flatMap String.utf8EncodeChar).toByteArray := String.toByteArray_ofList
  rw [bytes, ByteArray.toList, toList_loop, List.drop_zero, List.data_toByteArray]
  rfl

/-- The digest of a text is that of its UTF-8 bytes. -/
theorem isHexDigest_ofText (s : String) : Standard.IsHexDigest (ofText s) s.toUTF8.toList :=
  isHexDigest_hexText _

theorem ofText_ofList (cs : List Char) :
    ofText (String.ofList cs) = hexText (cs.flatMap String.utf8EncodeChar) := by
  rw [ofText, toList_toUTF8, String.toList_ofList]

example : ofText "abc" = "ba7816bf8f01cfea414140de5dae2223b00361a396177a9cb410ff61f20015ad" := by
  decide +kernel

example : ofText "abcdbcdecdefdefgefghfghighijhijkijkljklmklmnlmnomnopnopq" =
    "248d6a61d20638b8e5c026930c3e6039a33ce45964ff2167f6ecedd419db06c1" := by decide +kernel

end VersionInfo.Digest
