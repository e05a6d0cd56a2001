import VersionInfo.Json.StringText
import VersionInfo.Proofs.Json.Run

/-!
# Strings are read back

Each character of a written string is either itself or an escape, and an escape is read back as the
one character it stands for. No escape that is written is half of a surrogate pair.

* `escaped_cases`: how a character is written, and that its escape is read back.
* `run_stringBody`: a written string is read back, whatever follows it.
-/

namespace VersionInfo.Json

open Text (fourHex readFourHex)

variable {α : Type}

/-! ## Escapes -/

theorem run_hexUnit {n : Nat} (h : n < 65536) (rest : List Char) :
    hexUnit.run (fourHex n ++ rest) = some (n, rest) := by
  have digits := Text.readFourHex_fourHex h
  unfold Reader.run hexUnit fourHex
  simp only [List.cons_append, List.nil_append]
  split
  · rename_i read
    rw [digits] at read
    cases read
    rfl
  · rename_i read
    rw [digits] at read
    cases read

/-- The unit of a character that is no surrogate is that character. -/
theorem run_hexChar {n : Nat} (h : n < 0xd800) (rest : List Char) :
    hexChar.run (fourHex n ++ rest) = some (Char.ofNat n, rest) := by
  obtain ⟨unit, read, value, left⟩ :=
    outcome_eq_some_iff.mp (run_hexUnit (by omega : n < 65536) rest)
  have noLow : ¬ (0xdc00 ≤ unit.value ∧ unit.value ≤ 0xdfff) := by omega
  have noHigh : ¬ (0xd800 ≤ unit.value ∧ unit.value ≤ 0xdbff) := by omega
  unfold Reader.run hexChar
  rw [read]
  change outcome (if _ then _ else if _ then _ else _) = _
  rw [if_neg noLow, if_neg noHigh]
  exact congrArg some (Prod.ext (congrArg Char.ofNat value) left)

/-- An escape by number is read by the reader of numbers, in strings that are kept and that are
skipped. -/
theorem run_escape_unicode (letter : Char → α) (unicode : Reader α) (rest : List Char) :
    (escape letter unicode).run ('u' :: rest) = unicode.run rest := by
  unfold Reader.run escape
  dsimp only
  rw [if_pos rfl]
  cases unicode rest <;> rfl

theorem run_escape_letter (letter : Char → α) (unicode : Reader α) {c e : Char} (other : c ≠ 'u')
    (known : letterEscape? c = some e) (rest : List Char) :
    (escape letter unicode).run (c :: rest) = some (letter e, rest) := by
  unfold Reader.run escape
  dsimp only
  rw [if_neg other]
  split
  · rename_i found
    rw [known] at found
    cases found
    rfl
  · rename_i missing
    rw [known] at missing
    cases missing

/-- **A character is written as itself, or by an escape that is read back.** -/
theorem escaped_cases {letter : Char → α} {unicode : Reader α}
    (reads : ∀ n < 0x20, ∀ rest,
      unicode.run (fourHex n ++ rest) = some (letter (Char.ofNat n), rest))
    (c : Char) :
    (escaped c = [c] ∧ c ≠ '"' ∧ c ≠ '\\' ∧ ¬ c.toNat < 0x20) ∨
      ∃ sequence, escaped c = '\\' :: sequence ∧
        ∀ rest, (escape letter unicode).run (sequence ++ rest) = some (letter c, rest) := by
  have byLetter : ∀ {d e : Char}, d ≠ 'u' → letterEscape? d = some e → ∀ rest,
      (escape letter unicode).run ([d] ++ rest) = some (letter e, rest) :=
    fun other known => run_escape_letter letter unicode other known
  unfold escaped
  split
  · exact Or.inr ⟨_, rfl, byLetter (by decide) rfl⟩
  · exact Or.inr ⟨_, rfl, byLetter (by decide) rfl⟩
  · exact Or.inr ⟨_, rfl, byLetter (by decide) rfl⟩
  · exact Or.inr ⟨_, rfl, byLetter (by decide) rfl⟩
  · exact Or.inr ⟨_, rfl, byLetter (by decide) rfl⟩
  · exact Or.inr ⟨_, rfl, byLetter (by decide) rfl⟩
  · exact Or.inr ⟨_, rfl, byLetter (by decide) rfl⟩
  · rename_i quote backslash _ _ _ _ _
    split
    · rename_i control
      refine Or.inr ⟨_, rfl, fun rest => ?_⟩
      rw [List.cons_append, run_escape_unicode, reads _ control, Char.ofNat_toNat]
    · rename_i plain
      exact Or.inl ⟨rfl, quote, backslash, plain⟩

/-! ## Strings -/

section

variable {n : Nat} {rest : List Char} {c : Char} (done : List Char)

theorem stringFrom_close (h : ('"' :: rest).length ≤ n) :
    outcome (stringFrom n done ('"' :: rest) h) =
      some (String.ofList done.reverse, rest) := by
  rw [stringFrom, if_pos rfl]
  rfl

theorem stringFrom_plain (quote : c ≠ '"') (backslash : c ≠ '\\') (plain : ¬ c.toNat < 0x20)
    (h : (c :: rest).length ≤ n) :
    stringFrom n done (c :: rest) h = stringFrom n (c :: done) rest (Nat.le_of_succ_le h) := by
  rw [stringFrom, if_neg quote, if_neg backslash, if_neg plain]

theorem stringFrom_escape {sequence : List Char}
    (read : (escape id hexChar).run sequence = some (c, rest))
    (h : ('\\' :: sequence).length ≤ n) :
    ∃ h', stringFrom n done ('\\' :: sequence) h = stringFrom n (c :: done) rest h' := by
  obtain ⟨r, found, rfl, rfl⟩ := outcome_eq_some_iff.mp read
  have lt := r.lt
  have le := Nat.le_of_succ_le h
  refine ⟨by omega, ?_⟩
  rw [stringFrom, if_neg (by decide), if_pos rfl]
  split
  · rename_i failed
    rw [found] at failed
    cases failed
  · rename_i again
    rw [found] at again
    cases again
    rfl

end

/-- The rest of a written string is read up to the quote behind it, by induction on the characters.
-/
theorem stringFrom_written (cs rest : List Char) {n : Nat} {done s : List Char} (h : s.length ≤ n)
    (written : s = cs.flatMap escaped ++ '"' :: rest) :
    outcome (stringFrom n done s h) =
      some (String.ofList (done.reverse ++ cs), rest) := by
  induction cs generalizing n done s with
  | nil =>
    subst written
    rw [List.append_nil]
    exact stringFrom_close done h
  | cons c cs ih =>
    have next : done.reverse ++ c :: cs = (c :: done).reverse ++ cs := by
      rw [List.reverse_cons, List.append_assoc, List.singleton_append]
    rw [List.flatMap_cons, List.append_assoc] at written
    rw [next]
    have reads : ∀ n < 0x20, ∀ rest, hexChar.run (fourHex n ++ rest) =
        some (id (Char.ofNat n), rest) :=
      fun _ small => run_hexChar (Nat.lt_trans small (by decide))
    rcases escaped_cases reads c with
      ⟨same, quote, backslash, plain⟩ | ⟨sequence, same, read⟩
    · rw [same, List.singleton_append] at written
      subst written
      rw [stringFrom_plain done quote backslash plain]
      exact ih _ rfl
    · rw [same, List.cons_append] at written
      subst written
      obtain ⟨h', again⟩ := stringFrom_escape done (read _) h
      rw [again]
      exact ih h' rfl

/-- **A written string is read back**, whatever follows it. -/
theorem run_stringBody (s : String) (rest : List Char) :
    stringBody.run (stringText s ++ rest) = some (s, rest) := by
  have written : stringText s ++ rest = '"' :: (s.toList.flatMap escaped ++ '"' :: rest) := by
    rw [stringText, List.cons_append, List.cons_append, List.append_assoc, List.singleton_append]
  rw [written]
  exact (stringFrom_written s.toList rest _ rfl).trans (by rw [List.reverse_nil, List.nil_append,
    String.ofList_toList])

end VersionInfo.Json
