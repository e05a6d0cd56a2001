import VersionInfo.CommandLine.Answer
import VersionInfo.Proofs.Digest.Sha256
import VersionInfo.Proofs.Json.ValueReading
import VersionInfo.Proofs.Manifest.RoundTrip

/-!
# Generation on the command line

A payload is asked for its text or for its manifest. Both runs read the payload, put another
language into its record if one is given, and generate; they end alike, and the manifest tells the
text of the other run.

* `Command.ofArguments_generate`: what command the arguments stand for.
* `answer_unreadable`, `answer_refused`, `answer_made`: the three ways in which a run ends.
* `read_failureText`: what is told of a failure is read back.
* `answers_generate`: both runs on any payload.
-/

namespace VersionInfo

open Digest.Standard (IsHexDigest)
open Json (Value)

/-- The record in another language, if one is given. -/
def Record.inLanguage (r : Record) (selector : Option String) : Record :=
  { r with selector := selector.getD r.selector }

namespace CommandLine

/-! ## Arguments -/

/-- The arguments that ask for the text of a payload or for its manifest. -/
def generateArguments (payload : String) (language : Option String) (manifest : Bool) :
    List String :=
  "generate" :: ("--payload=" ++ payload) :: ((language.map ("--language=" ++ ·)).toList ++
    if manifest then ["--manifest"] else [])

/-- A setting is read from one argument; the value may hold further equals signs. -/
theorem readArgument_setting (o : Options) (s : Setting) {argument value : String}
    (written : argument = "--" ++ (Choice.setting s).name ++ "=" ++ value) :
    readArgument generateChoices { options := o } argument =
      (o.assign value s).map fun o => { options := o } := by
  have characters : argument.toList =
      '-' :: '-' :: ((Choice.setting s).name.toList ++ '=' :: value.toList) := by simp [written]
  have named : readArgument generateChoices { options := o } argument =
      readName generateChoices o ((Choice.setting s).name.toList ++ '=' :: value.toList) := by
    unfold readArgument
    rw [characters]
    cases s <;> rfl
  have plain : ∀ c ∈ (Choice.setting s).name.toList, decide (c ≠ '=') = true := by
    cases s <;> exact List.all_eq_true.mp rfl
  have known : (generateChoices.find? fun choice => choice.name == (Choice.setting s).name) =
      some (.setting s) := by cases s <;> decide
  have front : ((Choice.setting s).name.toList ++ '=' :: value.toList).takeWhile (· ≠ '=') =
      (Choice.setting s).name.toList := by
    rw [List.takeWhile_append_of_pos plain]
    simp
  have back : ((Choice.setting s).name.toList ++ '=' :: value.toList).dropWhile (· ≠ '=') =
      '=' :: value.toList := by
    rw [List.dropWhile_append_of_pos plain]
    simp
  rw [named, readName, front, back, String.ofList_toList, known]
  change (o.assign (String.ofList value.toList) s >>=
    fun o => .ok ({ options := o } : Progress)) = _
  rw [String.ofList_toList]
  cases o.assign value s <;> rfl

theorem Command.ofArguments_generate (payload : String) (language : Option String)
    (manifest : Bool) :
    Command.ofArguments (generateArguments payload language manifest) =
      .ok (.generate payload language manifest) := by
  have options : readOptions generateChoices (generateArguments payload language manifest).tail =
      .ok ⟨some payload, language, manifest, false⟩ := by
    have payloadText : "--payload=" ++ payload = "--" ++ "payload" ++ "=" ++ payload :=
      congrArg (· ++ payload) (by decide)
    unfold readOptions generateArguments
    rw [List.tail_cons, List.foldlM_cons, readArgument_setting {} .payload payloadText]
    cases language with
    | none => cases manifest <;> rfl
    | some language =>
      have languageText : "--language=" ++ language = "--" ++ "language" ++ "=" ++ language :=
        congrArg (· ++ language) (by decide)
      change (readArgument generateChoices { options := { payload := some payload } }
        ("--language=" ++ language) >>= _) >>= _ = _
      rw [readArgument_setting { payload := some payload } .language languageText]
      cases manifest <;> rfl
  have sub : Command.ofArguments (generateArguments payload language manifest) =
      Command.ofSubcommand "generate" (generateArguments payload language manifest).tail := rfl
  rw [sub, ofSubcommand, if_neg (by decide), if_pos rfl, options]
  rfl

/-! ## Failures -/

/-- **What is told of a failure is read back**: the message, and that nothing was made. -/
theorem read_failureText (message : String) :
    Value.reader.text (failureText message) =
      .ok (.object [("error", .string message), ("success", .boolean false)]) := by
  have order : (Value.object [("success", .boolean false), ("error", .string message)]).canonical =
      .object [("error", .string message), ("success", .boolean false)] := by
    have before : "error" < "success" := by decide +kernel
    rw [Json.canonical_object]
    simp [NameMap.ofList, NameMap.insert, Value.canonical, before]
  have nested : (Value.object [("error", .string message), ("success", .boolean false)]).Nested
      Value.depthLimit := by simp [Value.depthLimit]
  have gives := Value.gives_within nested (by simp)
  refine Json.Reader.text_eq_ok_iff.mpr ⟨['\n'], ?_, rfl⟩
  rw [failureText, Value.canonicalText, order, String.toList_append, String.toList_ofList]
  exact gives ['\n'] (Json.ends_space rfl [])

/-! ## Runs -/

section

variable {payload : String} (language : Option String) (manifest : Bool)

theorem answer_generateArguments (payload : String) (language : Option String) (manifest : Bool) :
    answer (generateArguments payload language manifest) =
      (Command.generate payload language manifest).answer := by
  rw [answer, Command.ofArguments_generate]

/-- A payload that is not read is answered with code 1, whatever language is asked for. -/
theorem answer_unreadable {e : Json.Error} (read : Record.read payload = .error e) :
    answer (generateArguments payload language manifest) =
      ⟨1, failureText ("Invalid payload: " ++ e.message)⟩ := by
  rw [answer_generateArguments, Command.answer, readPayload, read]
  rfl

theorem readPayload_eq {r : Record} (read : Record.read payload = .ok r) :
    readPayload payload language = .ok (r.inLanguage language) := by
  rw [readPayload, read]
  cases language <;> rfl

/-- A record that is refused is answered with code 2 and its message, with a manifest or without. -/
theorem answer_refused {r : Record} {e : GenerationError} (read : Record.read payload = .ok r)
    (refused : (r.inLanguage language).sourceText = .error e) :
    answer (generateArguments payload language manifest) = ⟨2, failureText e.message⟩ := by
  rw [answer_generateArguments, Command.answer, readPayload_eq language read]
  cases manifest with
  | false =>
    dsimp only [generated]
    rw [if_neg (by decide), refused]
  | true =>
    dsimp only [generated]
    rw [if_pos rfl, Record.manifest_of_error refused]
    rfl

theorem answer_made {r : Record} {text : String} {m : Manifest}
    (read : Record.read payload = .ok r)
    (made : (r.inLanguage language).sourceText = .ok text)
    (hm : (r.inLanguage language).manifest = .ok m) :
    answer (generateArguments payload language manifest) =
      ⟨0, if manifest then m.text else text⟩ := by
  rw [answer_generateArguments, Command.answer, readPayload_eq language read]
  cases manifest with
  | false =>
    dsimp only [generated]
    rw [if_neg (by decide), made]
    rfl
  | true =>
    dsimp only [generated]
    rw [if_pos rfl, hm]
    rfl

end

/-- **The text of a payload and its manifest.** Both runs end with one exit code: with 1 when the
payload is no record, whatever the language; with 2 when it is one but no text can be generated from
the record in the language asked for; and else with 0. What they tell of a failure is the same
object. Of a refused record it tells exactly the cause; of an unreadable payload it tells the cause,
and may tell the place after it. Else one run writes the text that is generated, and what the other
writes is read back as the manifest of the record, which carries that text, its SHA-256 digest and
that of the canonical text of the record in the language asked for. -/
theorem answers_generate (payload : String) (language : Option String) :
    let plain := answer (generateArguments payload language false)
    let told := answer (generateArguments payload language true)
    plain.exitCode = told.exitCode ∧
      (plain.exitCode = 1 ↔ ∃ e, Record.read payload = .error e) ∧
      (plain.exitCode = 2 ↔ ∃ r e, Record.read payload = .ok r ∧
        (r.inLanguage language).sourceText = .error e) ∧
      (plain.exitCode = 0 ↔ ∃ r text, Record.read payload = .ok r ∧
        (r.inLanguage language).sourceText = .ok text) ∧
      (∀ e, Record.read payload = .error e → told.output = plain.output ∧
        ∃ place, Value.reader.text plain.output =
          .ok (.object [("error", .string ("Invalid payload: " ++ e.message ++ place)),
            ("success", .boolean false)])) ∧
      ∀ r, Record.read payload = .ok r →
        (∀ e, (r.inLanguage language).sourceText = .error e → told.output = plain.output ∧
          Value.reader.text plain.output =
            .ok (.object [("error", .string e.message), ("success", .boolean false)])) ∧
        ∀ text, (r.inLanguage language).sourceText = .ok text → plain.output = text ∧
          ∃ m, (r.inLanguage language).manifest = .ok m ∧ Manifest.read told.output = .ok m ∧
            m.code = plain.output ∧ IsHexDigest m.codeHash plain.output.toUTF8.toList ∧
            IsHexDigest m.recordHash (r.inLanguage language).canonicalText.toUTF8.toList := by
  intro plain told
  cases read : Record.read payload with
  | error e =>
    have same : ∀ manifest, answer (generateArguments payload language manifest) = _ :=
      fun manifest => answer_unreadable language manifest read
    have untold : ∃ place, "Invalid payload: " ++ e.message =
        "Invalid payload: " ++ e.message ++ place := ⟨"", String.append_empty.symm⟩
    simpa [plain, told, same, read_failureText] using untold
  | ok r =>
    cases made : (r.inLanguage language).sourceText with
    | error e =>
      have same : ∀ manifest, answer (generateArguments payload language manifest) = _ :=
        fun manifest => answer_refused language manifest read made
      simp [plain, told, same, read_failureText, made]
    | ok text =>
      obtain ⟨l, -, hm⟩ := Record.manifest_of_sourceText made
      have same : ∀ manifest, answer (generateArguments payload language manifest) = _ :=
        fun manifest => answer_made language manifest read made hm
      have codeHash := Digest.isHexDigest_ofText text
      have recordHash := Digest.isHexDigest_ofText (r.inLanguage language).canonicalText
      simpa [plain, told, same, made, hm, Manifest.read_text, Record.digest] using
        And.intro codeHash recordHash

/-- A payload that is cut off, an empty array in an unknown language, and in a known one with the
digests of its text and its record. -/
theorem answers_generate_bare :
    (answer (generateArguments "[" none false)).exitCode = 1 ∧
      (answer (generateArguments "[]" (some "cobol") false)).exitCode = 2 ∧
      (answer (generateArguments "[]" (some "vb") true)).exitCode = 0 ∧
      ∃ m, Manifest.read (answer (generateArguments "[]" (some "vb") true)).output = .ok m ∧
        m.code = (answer (generateArguments "[]" (some "vb") false)).output ∧
        IsHexDigest m.codeHash m.code.toUTF8.toList ∧
        m.recordHash = "8fea51c1ff881af9d0369e146297b7eef1b9c089e58a864f1cfa21920fbe10e6" := by
  have read : Record.read "[]" = .ok {} := by decide +kernel
  have digest : (({} : Record).inLanguage (some "vb")).digest =
      "8fea51c1ff881af9d0369e146297b7eef1b9c089e58a864f1cfa21920fbe10e6" := by
    rw [Record.digest, Record.canonicalText, Value.canonicalText, Digest.ofText_ofList]
    decide +kernel
  obtain ⟨text, made⟩ : ∃ text, (({} : Record).inLanguage (some "vb")).sourceText = .ok text :=
    ⟨_, rfl⟩
  obtain ⟨-, unreadable, -⟩ := answers_generate "[" none
  obtain ⟨-, -, refused, -⟩ := answers_generate "[]" (some "cobol")
  obtain ⟨same, -, -, finished, -, told⟩ := answers_generate "[]" (some "vb")
  obtain ⟨-, m, -, back, code, codeHash, recordHash⟩ := (told _ read).2 text made
  refine ⟨unreadable.mpr ⟨.endInList, by decide +kernel⟩, refused.mpr ⟨_, _, read, rfl⟩,
    same ▸ finished.mpr ⟨_, text, read, made⟩, m, back, code, code ▸ codeHash, ?_⟩
  exact (recordHash.eq_hexText.trans (Digest.isHexDigest_ofText _).eq_hexText.symm).trans digest

end CommandLine

end VersionInfo
