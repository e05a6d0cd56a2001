import VersionInfo.Json.Typed
import VersionInfo.Proofs.Json.Structure

/-!
# What readers of known types give

A reader gives a result on a value if it reads that from the value's text, whatever may follow. What
composed readers give is composed of what their parts give.

* `Gives`: what a reader makes of a written value.
* `gives_string`, `gives_boolean`, `gives_int64`: single values are read back.
* `gives_option_null`, `gives_option_some`, `gives_list`, `gives_list_map`: so are optional values
  and arrays.
* `Shape.run_fields`, `Shape.gives_object`: the fields of an object are read one after another, in
  any order.
-/

namespace VersionInfo.Json

variable {α β : Type}

/-- What `p` reads from the text of `v`, whatever follows it there. -/
def Gives (p : Reader α) (v : Value) (result : Option α) : Prop :=
  ∀ rest, Ends rest → p.run (v.text ++ rest) = result.map fun a => (a, rest)

variable {p : Reader α} {v : Value} {result : Option α}

theorem Gives.map (h : Gives p v result) (f : α → β) : Gives (p.map f) v (result.map f) := by
  intro rest ends
  rw [Reader.run_map, h rest ends]
  cases result <;> rfl

/-- What is read from a text that a value makes up. -/
theorem Gives.text_eq_ok_iff {a : α} (h : Gives p v result) :
    p.text (String.ofList v.text) = .ok a ↔ result = some a := by
  have read := h [] ends_nil
  rw [List.append_nil] at read
  rw [Reader.text_eq_ok_iff, String.toList_ofList, read]
  constructor
  · rintro ⟨rest, found, -⟩
    obtain ⟨b, given, same⟩ := Option.map_eq_some_iff.mp found
    cases same
    exact given
  · rintro rfl
    exact ⟨[], rfl, rfl⟩

theorem Gives.text {a : α} (h : Gives p v (some a)) : p.text (String.ofList v.text) = .ok a :=
  h.text_eq_ok_iff.mpr rfl

/-! ## Single values -/

theorem gives_string (s : String) : Gives string (.string s) (some s) := by
  intro rest _
  obtain ⟨more, opened⟩ : ∃ more, stringText s ++ rest = '"' :: more := ⟨_, rfl⟩
  have read := run_stringBody s rest
  rw [Value.text, opened, string, run_atValue (by decide), if_pos rfl, ← opened, read]
  rfl

theorem gives_boolean (b : Bool) : Gives boolean (.boolean b) (some b) := by
  intro rest _
  cases b with
  | false => exact run_literal 'f' "alse".toList false rest
  | true => exact run_literal 't' "rue".toList true rest

/-- A number starts with no space, so it stands where it was written. -/
theorem isSpace_of_startsNumber {c : Char} (h : startsNumber c = true) : isSpace c = false := by
  cases space : isSpace c with
  | false => rfl
  | true =>
    rcases eq_of_isSpace space with rfl | rfl | rfl | rfl <;> exact absurd h (by decide)

theorem writeInt_startsNumber (n : Int) :
    ∃ c more, Text.writeInt n = c :: more ∧ startsNumber c = true := by
  cases n with
  | ofNat n =>
    obtain ⟨c, more, written, digit⟩ := Text.exists_digit_writeNat n
    exact ⟨c, more, written, by rw [startsNumber, digit, Bool.or_true]⟩
  | negSucc n => exact ⟨'-', _, rfl, rfl⟩

theorem gives_int64 (t : Int64) : Gives int64 (.integer t.toInt) (some t) := by
  intro rest ends
  have least := t.le_toInt
  have greatest := t.toInt_lt
  have range : IntegerRange t.toInt := by
    unfold IntegerRange greatestNegated greatestInteger
    omega
  obtain ⟨c, more, written, starts⟩ := writeInt_startsNumber t.toInt
  have read := run_number range ends
  have fits : Number.int64 (.integer t.toInt) = .ok t := by
    rw [Number.int64, if_pos t.toInt_le, Int64.ofInt_toInt]
  rw [Value.text, written, List.cons_append, int64, run_atValue (isSpace_of_startsNumber starts),
    if_pos starts, Reader.run_check, ← List.cons_append, ← written, read, Option.bind_some, fits]
  rfl

/-! ## Optional values and arrays -/

/-- A `null` is read as no value, whatever the type of the value would be. -/
theorem gives_option_null (p : Reader α) : Gives (option p) .null (some none) :=
  fun rest _ => run_literal 'n' "ull".toList none rest

/-- A text that is not that of `null`. -/
def NotNull (v : Value) : Prop := ∃ c more, v.text = c :: more ∧ isSpace c = false ∧ c ≠ 'n'

theorem notNull_string (s : String) : NotNull (.string s) :=
  ⟨'"', _, rfl, by decide, by decide⟩

theorem notNull_integer (n : Int) : NotNull (.integer n) := by
  obtain ⟨c, more, written, starts⟩ := writeInt_startsNumber n
  refine ⟨c, more, written, isSpace_of_startsNumber starts, ?_⟩
  rintro rfl
  exact absurd starts (by decide)

/-- What is not `null` is read as a value is. -/
theorem gives_option_some (given : NotNull v) (h : Gives p v result) :
    Gives (option p) v (result.map some) := by
  obtain ⟨c, more, written, space, other⟩ := given
  intro rest ends
  have read := h.map some rest ends
  rw [written, List.cons_append] at read ⊢
  rw [option, run_atValue space, if_neg other, read]

theorem starts_object (ms : List (String × Value)) : Starts (Value.object ms).text := by
  cases ms with
  | nil => exact ⟨'\x7b', _, rfl, by decide, by decide⟩
  | cons m ms => exact ⟨'\x7b', _, rfl, by decide, by decide⟩

/-- Elements are collected in reverse and turned round at the end; this is the same as mapping over
them. -/
theorem foldlM_reverse (f : Value → Option α) (vs : List Value) (done : List α) :
    (vs.foldlM (fun done v => (f v).map (· :: done)) done).map List.reverse =
      (vs.mapM f).map (done.reverse ++ ·) := by
  induction vs generalizing done with
  | nil => exact congrArg some (List.append_nil _).symm
  | cons v vs ih =>
    rw [List.foldlM_cons, List.mapM_cons]
    cases f v with
    | none => rfl
    | some a =>
      refine (ih (a :: done)).trans ?_
      rw [List.reverse_cons]
      cases vs.mapM f with
      | none => rfl
      | some as => exact congrArg some (List.append_assoc _ _ _)

/-- The elements of a written array are read into a list. -/
theorem run_elements_reverse {f : Value → Option α} {vs : List Value}
    (h : ∀ v ∈ vs, Starts v.text ∧ Gives p v (f v)) (rest : List Char) :
    ((elements (fun done => p.map (· :: done)) []).map List.reverse).run
      ((Value.array vs).text ++ rest) = (vs.mapM f).map fun as => (as, rest) := by
  have reads : ReadsElements (fun done => p.map (· :: done)) (fun done v => (f v).map (· :: done))
      vs := by
    intro v mem
    refine ⟨(h v mem).1, fun done rest ends => ?_⟩
    exact (h v mem).2.map (· :: done) rest ends
  have all : (vs.foldlM (fun done v => (f v).map (· :: done)) []).map List.reverse = vs.mapM f :=
    (foldlM_reverse f vs []).trans Option.map_id'
  rw [Reader.run_map, run_elements reads [] rest, ← all, Option.map_map, Option.map_map]
  rfl

/-- An array is read element by element. -/
theorem gives_list {f : Value → Option α} {vs : List Value}
    (h : ∀ v ∈ vs, Starts v.text ∧ Gives p v (f v)) : Gives (list p) (.array vs) (vs.mapM f) := by
  intro rest _
  obtain ⟨more, opened⟩ := exists_array_text vs rest
  have read := run_elements_reverse h rest
  rw [opened] at read ⊢
  rw [list, run_atValue (by decide), if_pos rfl, read]

theorem Gives.eq_run (h : Gives p v result) : (p.run v.text).map Prod.fst = result := by
  have read := h [] ends_nil
  rw [List.append_nil] at read
  rw [read]
  cases result <;> rfl

/-- What is written element by element is read back. -/
theorem gives_list_map {write : α → Value} {as : List α}
    (h : ∀ a ∈ as, Starts (write a).text ∧ Gives p (write a) (some a)) :
    Gives (list p) (.array (as.map write)) (some as) := by
  have all : (as.map write).mapM (fun v => (p.run v.text).map Prod.fst) = some as := by
    induction as with
    | nil => rfl
    | cons a as ih =>
      obtain ⟨⟨-, first⟩, others⟩ := List.forall_mem_cons.mp h
      rw [List.map_cons, List.mapM_cons, first.eq_run, ih others]
      rfl
  rw [← all]
  refine gives_list fun v mem => ?_
  obtain ⟨a, given, rfl⟩ := List.mem_map.mp mem
  obtain ⟨starts, gives⟩ := h a given
  exact ⟨starts, by rwa [gives.eq_run]⟩

/-! ## Structures -/

namespace Shape

variable {κ σ : Type} [DecidableEq κ] {shape : Shape κ σ}

/-- A member with a known key is read into the state, if its key did not come before. -/
theorem run_member_known {state : List κ × σ} {k : κ} {name : String} {result : Option σ}
    {t rest : List Char} (known : shape.key? name = some k)
    (read : (shape.field k state.2).run t = result.map fun s => (s, rest)) :
    (shape.member state name).run (':' :: t) =
      (if k ∈ state.1 then none else result.map fun s => (k :: state.1, s)).map
        fun state => (state, rest) := by
  unfold member
  rw [known]
  dsimp only
  split
  · rfl
  · rw [Reader.run_andThen, run_colon, Option.bind_some, Reader.run_map, read]
    cases result <;> rfl

theorem complete_of_seen {seen : List κ}
    (given : ∀ k ∈ shape.keys, shape.required k = true → k ∈ seen) (s : σ) :
    shape.complete (seen, s) = .ok s := by
  have none : (shape.keys.find? fun k => shape.required k && decide (k ∉ seen)) = none := by
    refine List.find?_eq_none.mpr fun k mem missing => ?_
    obtain ⟨required, absent⟩ := (Bool.and_eq_true _ _).mp missing
    exact of_decide_eq_true absent (given k mem required)
  rw [complete, none]

/-- An object is read member by member, and then its required fields are looked for. -/
theorem run_reader_object (shape : Shape κ σ) (s : List Char) :
    shape.reader.run ('\x7b' :: s) =
      ((members shape.member ([], shape.start)).run ('\x7b' :: s)).bind fun r =>
        (shape.complete r.1).toOption.map fun v => (v, r.2) := by
  rw [reader, run_atValue (by decide), if_neg (by decide), if_pos rfl]
  exact Reader.run_check _ _ _

/-- The structure with the fields `ks` put into it, the first one first. -/
def putAll (put : κ → σ → σ) (ks : List κ) (s : σ) : σ := ks.foldl (fun s k => put k s) s

/-- What a member does to the fields seen so far and the structure, if each field has one value. -/
def putMember (shape : Shape κ σ) (put : κ → σ → σ) (state : List κ × σ) (m : String × Value) :
    Option (List κ × σ) :=
  (shape.key? m.1).bind fun k =>
    if k ∈ state.1 then none else some (k :: state.1, put k state.2)

section Object

variable {value : κ → Value} {put : κ → σ → σ}
  (labels : ∀ k, shape.key? (shape.label k) = some k)
include labels

/-- Putting parts with different keys never meets a key again, so all of them are put. -/
theorem putMember_fields {ks : List κ} (nodup : ks.Nodup) {seen : List κ}
    (fresh : ∀ k ∈ ks, k ∉ seen) (s : σ) :
    (ks.map fun k => (shape.label k, value k)).foldlM (shape.putMember put) (seen, s) =
      some (ks.reverse ++ seen, putAll put ks s) := by
  induction ks generalizing seen s with
  | nil => rfl
  | cons k ks ih =>
    obtain ⟨first, others⟩ := List.nodup_cons.mp nodup
    obtain ⟨new, news⟩ := List.forall_mem_cons.mp fresh
    have step : shape.putMember put (seen, s) (shape.label k, value k) =
        some (k :: seen, put k s) := by
      rw [putMember, labels, Option.bind_some, if_neg new]
    have fresh' : ∀ k' ∈ ks, k' ∉ k :: seen := by
      intro k' mem same
      rcases List.mem_cons.mp same with rfl | old
      · exact first mem
      · exact news k' mem old
    rw [List.map_cons, List.foldlM_cons, step, List.reverse_cons, List.append_assoc]
    exact ih others fresh' (put k s)

/-- **The fields of an object are read one after another**, in the order they come in. -/
theorem run_fields {l : Layout}
    (reads : ∀ k s rest, Ends rest →
      (shape.field k s).run (l.value ++ ((value k).text ++ rest)) = some (put k s, rest))
    {ks : List κ} (nodup : ks.Nodup)
    (given : ∀ k ∈ shape.keys, shape.required k = true → k ∈ ks) (rest : List Char) :
    shape.reader.run (l.object (ks.map fun k => (shape.label k, value k)) ++ rest) =
      some (putAll put ks shape.start, rest) := by
  have each : l.Reads shape.member (shape.putMember put)
      (ks.map fun k => (shape.label k, value k)) := by
    intro m mem state rest ends
    obtain ⟨k, -, rfl⟩ := List.mem_map.mp mem
    have read : (shape.field k state.2).run (l.value ++ ((value k).text ++ rest)) =
        (some (put k state.2)).map fun s => (s, rest) := reads k state.2 rest ends
    rw [run_member_known (labels k) read, putMember, labels]
    rfl
  have read := run_layout each ([], shape.start) rest
  rw [putMember_fields labels nodup (fun _ _ => List.not_mem_nil), List.append_nil] at read
  obtain ⟨more, opened⟩ := l.exists_object (ks.map fun k => (shape.label k, value k)) rest
  rw [opened] at read ⊢
  rw [run_reader_object, read, Option.map_some, Option.bind_some,
    complete_of_seen fun k mem required => List.mem_reverse.mpr (given k mem required)]
  rfl

/-- An object of known keys that stand once each is read into the parts that they name. -/
theorem gives_object (gives : ∀ k s, Gives (shape.field k s) (value k) (some (put k s)))
    {ks : List κ} (nodup : ks.Nodup)
    (given : ∀ k ∈ shape.keys, shape.required k = true → k ∈ ks) :
    Gives shape.reader (.object (ks.map fun k => (shape.label k, value k)))
      (some (putAll put ks shape.start)) := by
  intro rest _
  rw [← Layout.object_compact]
  exact run_fields (l := .compact) labels gives nodup given rest

end Object

end Shape

end VersionInfo.Json
