import Mathlib.Data.List.Induction
import Mathlib.Data.List.Nodup
import VersionInfo.Proofs.CommandLine.Generate

/-!
# Spellings of a command line

An option is written with its name or with its letter. The letters of several flags stand behind one
dash, and that of an option with a value may be the last of them. The value stands in the same
argument, behind an equals sign or, behind a letter, at once; or it is the next argument. Arguments
that write the same options, in any of these ways and in any order, are the same to the program, as
long as no value is empty or starts like an option.

* `Spells.foldlM_readArgument`, `Writes.readOptions_eq`: reading what is written gives the options
  in their order.
* `addTo_new`, `addTo_again`: an option is accepted unless it was given before.
* `foldlM_addTo_of_nodup`, `foldlM_addTo_of_not_nodup`: so each option once is accepted in any
  order, and nothing else is.
* `Line.ofArguments_eq`: what a line asks for, with options before the subcommand and behind it.
* `answer_spellings`: all spellings of one request are answered alike, and a request that repeats an
  option or has no payload is refused.
-/

namespace VersionInfo.CommandLine

/-! ## Options as they are given -/

/-- An option as it is given, a setting with its value. -/
inductive Given where
  | flag (f : Flag)
  | setting (s : Setting) (value : String)
deriving DecidableEq

namespace Given

/-- The option. -/
def choice : Given → Choice
  | flag f => .flag f
  | setting s _ => .setting s

/-- The options with one more. -/
def addTo (o : Options) : Given → Except Stop Options
  | flag f => o.turnOn f
  | setting s value => o.assign value s

/-- No call for help, and no value that is empty or starts with a dash or an equals sign. -/
def Plain : Given → Prop
  | flag f => f ≠ .help
  | setting _ value => ∃ c cs, value.toList = c :: cs ∧ c ≠ '-' ∧ c ≠ '='

end Given

/-- The letters of some flags. -/
def letters (fs : List Flag) : List Char := fs.map fun f => (Choice.flag f).letter

/-- An argument, or an argument and the value that follows it, writes some options. -/
inductive Spells : List Given → List String → Prop
  /-- As in `--manifest`. -/
  | name (f : Flag) : Spells [.flag f] ["--" ++ (Choice.flag f).name]
  /-- As in `--payload=X`. -/
  | nameEquals (s : Setting) (value : String) :
    Spells [.setting s value] ["--" ++ (Choice.setting s).name ++ "=" ++ value]
  /-- As in `--payload X`. -/
  | nameApart (s : Setting) (value : String) :
    Spells [.setting s value] ["--" ++ (Choice.setting s).name, value]
  /-- As in `-mv`. -/
  | letters (f : Flag) (fs : List Flag) :
    Spells ((f :: fs).map .flag) [String.ofList ('-' :: letters (f :: fs))]
  /-- As in `-mpX`. -/
  | lettersJoined (fs : List Flag) (s : Setting) (value : String) :
    Spells (fs.map .flag ++ [.setting s value])
      [String.ofList ('-' :: (CommandLine.letters fs ++ (Choice.setting s).letter :: value.toList))]
  /-- As in `-mp=X`. -/
  | lettersEquals (fs : List Flag) (s : Setting) (value : String) :
    Spells (fs.map .flag ++ [.setting s value])
      [String.ofList
        ('-' :: (CommandLine.letters fs ++ (Choice.setting s).letter :: '=' :: value.toList))]
  /-- As in `-mp X`. -/
  | lettersApart (fs : List Flag) (s : Setting) (value : String) :
    Spells (fs.map .flag ++ [.setting s value])
      [String.ofList ('-' :: (CommandLine.letters fs ++ [(Choice.setting s).letter])), value]

/-- Some arguments write some options, one after the other. -/
inductive Writes : List Given → List String → Prop
  | nil : Writes [] []
  | cons {first rest : List Given} {argument more : List String} :
    Spells first argument → Writes rest more → Writes (first ++ rest) (argument ++ more)

/-! ## Reading an argument -/

/-- An option is found under its letter and under its name. -/
structure Knows (choices : List Choice) (c : Choice) : Prop where
  byLetter : (choices.find? fun d => d.letter == c.letter) = some c
  byName : (choices.find? fun d => d.name == c.name) = some c

theorem knows_generate (c : Choice) : Knows generateChoices c := by
  cases c with
  | flag f => cases f <;> exact ⟨by decide, by decide⟩
  | setting s => cases s <;> exact ⟨by decide, by decide⟩

theorem knows_global : Knows globalChoices (.flag .verbose) := ⟨by decide, by decide⟩

theorem letter_ne_dash (c : Choice) : c.letter ≠ '-' := by
  cases c with
  | flag f => cases f <;> decide
  | setting s => cases s <;> decide

section

variable {choices : List Choice} (o : Options)

/-- Behind one dash stand letters. -/
theorem readArgument_dash {c : Char} (cs : List Char) (letter : c ≠ '-') :
    readArgument choices { options := o } (String.ofList ('-' :: c :: cs)) =
      readLetters choices o (c :: cs) := by
  unfold readArgument
  rw [String.toList_ofList]
  split
  · rename_i ended
    cases ended
  · split <;> simp_all

/-- Flags are turned on in the order of their letters. -/
theorem readLetters_flags {fs : List Flag} (known : ∀ f ∈ fs, Knows choices (.flag f))
    (rest : List Char) :
    readLetters choices o (letters fs ++ rest) =
      (fs.map Given.flag).foldlM Given.addTo o >>= fun o => readLetters choices o rest := by
  induction fs generalizing o with
  | nil => rfl
  | cons f fs ih =>
    obtain ⟨here, others⟩ := List.forall_mem_cons.mp known
    rw [letters, List.map_cons, List.cons_append, readLetters, here.byLetter, List.map_cons,
      List.foldlM_cons, bind_assoc]
    exact bind_congr fun o => ih o others

/-- Letters are read as letters, whichever of them comes first. -/
theorem readArgument_letters {fs : List Flag} (known : ∀ f ∈ fs, Knows choices (.flag f)) {c : Char}
    (cs : List Char) (letter : c ≠ '-') :
    readArgument choices { options := o } (String.ofList ('-' :: (letters fs ++ c :: cs))) =
      (fs.map Given.flag).foldlM Given.addTo o >>= fun o => readLetters choices o (c :: cs) := by
  rw [← readLetters_flags o known]
  cases fs with
  | nil => exact readArgument_dash o cs letter
  | cons f fs => exact readArgument_dash o _ (letter_ne_dash (.flag f))

theorem readArgument_flags {f : Flag} {fs : List Flag}
    (known : ∀ g ∈ f :: fs, Knows choices (.flag g)) :
    readArgument choices { options := o } (String.ofList ('-' :: letters (f :: fs))) =
      ((f :: fs).map Given.flag).foldlM Given.addTo o >>= fun o => .ok { options := o } := by
  have read := readLetters_flags o known []
  rw [List.append_nil] at read
  exact (readArgument_dash o (letters fs) (letter_ne_dash (.flag f))).trans read

theorem readArgument_name {f : Flag} (known : Knows choices (.flag f)) :
    readArgument choices { options := o } ("--" ++ (Choice.flag f).name) =
      o.turnOn f >>= fun o => .ok { options := o } := by
  have named : readArgument choices { options := o } ("--" ++ (Choice.flag f).name) =
      readName choices o (Choice.flag f).name.toList := by cases f <;> rfl
  have front : (Choice.flag f).name.toList.takeWhile (· ≠ '=') = (Choice.flag f).name.toList := by
    cases f <;> decide
  have back : (Choice.flag f).name.toList.dropWhile (· ≠ '=') = [] := by cases f <;> decide
  rw [named, readName, front, back, String.ofList_toList, known.byName]
  rfl

end

section

variable (o : Options) (s : Setting)

/-- The value that an option waits for is taken whatever it says. -/
theorem readArgument_waiting {value : String}
    (plain : (Given.setting s value).Plain) :
    readArgument generateChoices { options := o, waiting := some s } value =
      o.assign value s >>= fun o => .ok { options := o } := by
  obtain ⟨c, cs, characters, dash, -⟩ := plain
  have isValue : isValue value = true := by simp [isValue, characters, dash]
  simp only [readArgument, isValue, Bool.false_eq_true, if_false, if_true]
  rfl

/-- A long option whose value stands apart waits for the next argument. -/
theorem readArgument_nameApart :
    readArgument generateChoices { options := o } ("--" ++ (Choice.setting s).name) =
      .ok { options := o, waiting := some s } := by cases s <;> rfl

theorem readLetters_apart :
    readLetters generateChoices o [(Choice.setting s).letter] =
      .ok { options := o, waiting := some s } := by
  rw [readLetters, (knows_generate (.setting s)).byLetter]

theorem readLetters_equals (value : String) :
    readLetters generateChoices o ((Choice.setting s).letter :: '=' :: value.toList) =
      o.assign value s >>= fun o => .ok { options := o } := by
  rw [readLetters, (knows_generate (.setting s)).byLetter]
  simp only [String.ofList_toList]
  rfl

/-- A short option takes the rest of its cluster as value, if that does not start with an equals
sign. -/
theorem readLetters_joined {value : String} (plain : (Given.setting s value).Plain) :
    readLetters generateChoices o ((Choice.setting s).letter :: value.toList) =
      o.assign value s >>= fun o => .ok { options := o } := by
  obtain ⟨c, cs, characters, -, equals⟩ := plain
  have back : String.ofList (c :: cs) = value := by rw [← characters, String.ofList_toList]
  rw [readLetters, (knows_generate (.setting s)).byLetter, characters]
  simp only
  split
  · rename_i empty
    cases empty
  · rename_i same
    exact absurd (List.cons.inj same).1 equals
  · rw [back]
    rfl

end

/-- **Reading what is written gives the options**, in their order. -/
theorem Spells.foldlM_readArgument {given : List Given} {arguments : List String}
    (h : Spells given arguments) (plain : ∀ g ∈ given, g.Plain) (o : Options) :
    arguments.foldlM (readArgument generateChoices) { options := o } =
      given.foldlM Given.addTo o >>= fun o => .ok { options := o } := by
  have known : ∀ fs : List Flag, ∀ f ∈ fs, Knows generateChoices (.flag f) :=
    fun _ f _ => knows_generate (.flag f)
  cases h <;>
    simp only [List.foldlM_append, List.foldlM_cons, List.foldlM_nil, bind_pure, bind_assoc]
  case name f => exact readArgument_name o (knows_generate (.flag f))
  case nameEquals s value =>
    rw [readArgument_setting o s rfl, Given.addTo]
    cases o.assign value s <;> rfl
  case nameApart s value =>
    rw [readArgument_nameApart]
    exact readArgument_waiting o s (plain _ List.mem_cons_self)
  case letters f fs => exact readArgument_flags o (known (f :: fs))
  case lettersJoined fs s value =>
    have plainValue := plain (.setting s value) (List.mem_append_right _ List.mem_cons_self)
    rw [readArgument_letters o (known fs) _ (letter_ne_dash _)]
    exact bind_congr fun o => readLetters_joined o s plainValue
  case lettersEquals fs s value =>
    rw [readArgument_letters o (known fs) _ (letter_ne_dash _)]
    exact bind_congr fun o => readLetters_equals o s value
  case lettersApart fs s value =>
    have plainValue := plain (.setting s value) (List.mem_append_right _ List.mem_cons_self)
    rw [readArgument_letters o (known fs) _ (letter_ne_dash _), bind_assoc]
    refine bind_congr fun o => ?_
    rw [readLetters_apart]
    exact readArgument_waiting o s plainValue

/-- Reading all that is written gives all options, in their order. -/
theorem Writes.foldlM_readArgument {given : List Given} {arguments : List String}
    (h : Writes given arguments) (plain : ∀ g ∈ given, g.Plain) (o : Options) :
    arguments.foldlM (readArgument generateChoices) { options := o } =
      given.foldlM Given.addTo o >>= fun o => .ok { options := o } := by
  induction h generalizing o with
  | nil => rfl
  | cons first rest ih =>
    obtain ⟨here, others⟩ := List.forall_mem_append.mp plain
    rw [List.foldlM_append, first.foldlM_readArgument here, List.foldlM_append, bind_assoc,
      bind_assoc]
    exact bind_congr fun o => ih others o

/-- **The arguments behind the subcommand** are read as the options they write. -/
theorem Writes.readOptions_eq {given : List Given} {arguments : List String}
    (h : Writes given arguments) (plain : ∀ g ∈ given, g.Plain) :
    readOptions generateChoices arguments = given.foldlM Given.addTo {} := by
  have read := h.foldlM_readArgument plain {}
  unfold readOptions
  rw [show ({} : Progress) = { options := {} } from rfl, read]
  cases given.foldlM Given.addTo {} <;> rfl

/-! ## Giving options -/

/-- The value that is given to a setting. -/
def valueOf (s : Setting) (given : List Given) : Option String :=
  given.findSome? fun
    | .flag _ => none
    | .setting t value => if t = s then some value else none

/-- The options, as they are found among those given. -/
def optionsOf (given : List Given) : Options :=
  ⟨valueOf .payload given, valueOf .language given, decide (.flag .manifest ∈ given),
    decide (.flag .verbose ∈ given)⟩

@[simp]
theorem valueOf_append (s : Setting) (given more : List Given) :
    valueOf s (given ++ more) = (valueOf s given).or (valueOf s more) := List.findSome?_append

@[simp]
theorem valueOf_flag (s : Setting) (f : Flag) : valueOf s [.flag f] = none := rfl

@[simp]
theorem valueOf_setting (s t : Setting) (value : String) :
    valueOf s [.setting t value] = if t = s then some value else none := by
  by_cases same : t = s <;> simp [valueOf, same]

theorem isSome_valueOf_iff {s : Setting} {given : List Given} :
    (valueOf s given).isSome = true ↔ .setting s ∈ given.map Given.choice := by
  induction given with
  | nil => simp [valueOf]
  | cons g given ih =>
    rw [← List.singleton_append, valueOf_append, Option.isSome_or, Bool.or_eq_true, ih,
      List.map_append, List.mem_append]
    refine or_congr_left ?_
    cases g with
    | flag f => simp [Given.choice]
    | setting t value =>
      by_cases same : t = s
      · simp [Given.choice, same]
      · simp [Given.choice, same, Ne.symm same]

theorem flag_mem_choices_iff {f : Flag} {given : List Given} :
    .flag f ∈ given.map Given.choice ↔ .flag f ∈ given := by
  rw [List.mem_map]
  constructor
  · rintro ⟨g, mem, same⟩
    cases g with
    | flag f' => cases same; exact mem
    | setting s value => cases same
  · exact fun mem => ⟨_, mem, rfl⟩

section

variable {g : Given} {given : List Given}

/-- An option that is given already is refused. -/
theorem addTo_again (plain : g.Plain) (again : g.choice ∈ given.map Given.choice) :
    g.addTo (optionsOf given) = .error .usage := by
  cases g with
  | flag f =>
    have mem : .flag f ∈ given := flag_mem_choices_iff.mp again
    cases f with
    | manifest => simp [Given.addTo, Options.turnOn, optionsOf, mem]
    | verbose => simp [Given.addTo, Options.turnOn, optionsOf, mem]
    | help => exact absurd rfl plain
  | setting s value =>
    have isSome : (valueOf s given).isSome = true := isSome_valueOf_iff.mpr again
    cases s <;> simp [Given.addTo, Options.assign, optionsOf, isSome]

/-- Any other option is accepted. -/
theorem addTo_new (plain : g.Plain) (new : g.choice ∉ given.map Given.choice) :
    g.addTo (optionsOf given) = .ok (optionsOf (given ++ [g])) := by
  cases g with
  | flag f =>
    have notMem : .flag f ∉ given := flag_mem_choices_iff.not.mp new
    cases f with
    | manifest => simp [Given.addTo, Options.turnOn, optionsOf, notMem]
    | verbose => simp [Given.addTo, Options.turnOn, optionsOf, notMem]
    | help => exact absurd rfl plain
  | setting s value =>
    have isNone : valueOf s given = none := by simpa using isSome_valueOf_iff.not.mpr new
    cases s <;> simp [Given.addTo, Options.assign, optionsOf, isNone]

theorem foldlM_addTo_concat (o : Options) :
    (given ++ [g]).foldlM Given.addTo o = given.foldlM Given.addTo o >>= g.addTo := by
  simp only [List.foldlM_append, List.foldlM_cons, List.foldlM_nil, bind_pure]

/-- **Each option once is accepted**, in any order. -/
theorem foldlM_addTo_of_nodup (plain : ∀ g ∈ given, g.Plain)
    (once : (given.map Given.choice).Nodup) :
    given.foldlM Given.addTo {} = .ok (optionsOf given) := by
  -- from the first option to the last one, as each is added to those before it
  induction given using List.reverseRecOn with
  | nil => rfl
  | append_singleton given g ih =>
    obtain ⟨before, last⟩ := List.forall_mem_append.mp plain
    rw [List.map_append, List.map_singleton, ← List.concat_eq_append, List.nodup_concat] at once
    obtain ⟨new, once⟩ := once
    rw [foldlM_addTo_concat, ih before once]
    exact addTo_new (last g List.mem_cons_self) new

/-- **A repeated option is refused**, wherever it is repeated. -/
theorem foldlM_addTo_of_not_nodup (plain : ∀ g ∈ given, g.Plain)
    (repeated : ¬ (given.map Given.choice).Nodup) :
    given.foldlM Given.addTo {} = .error .usage := by
  induction given using List.reverseRecOn with
  | nil => exact absurd List.nodup_nil repeated
  | append_singleton given g ih =>
    obtain ⟨before, last⟩ := List.forall_mem_append.mp plain
    rw [foldlM_addTo_concat]
    by_cases once : (given.map Given.choice).Nodup
    · rw [List.map_append, List.map_singleton, ← List.concat_eq_append, List.nodup_concat,
        not_and_or, not_not] at repeated
      have again := repeated.resolve_right (not_not_intro once)
      rw [foldlM_addTo_of_nodup before once]
      exact addTo_again (last g List.mem_cons_self) again
    · rw [ih before once]
      rfl

end

/-- What is found is what is given, if that is given once. -/
theorem valueOf_eq_some_iff {s : Setting} {value : String} {given : List Given}
    (once : (given.map Given.choice).Nodup) :
    valueOf s given = some value ↔ .setting s value ∈ given := by
  induction given with
  | nil => simp [valueOf]
  | cons g given ih =>
    obtain ⟨new, others⟩ := List.nodup_cons.mp once
    rw [← List.singleton_append, valueOf_append, List.mem_append, List.mem_singleton]
    cases g with
    | flag f => simp [ih others]
    | setting t v =>
      by_cases same : t = s
      · subst same
        have notMem : .setting t value ∉ given := fun mem =>
          new (List.mem_map.mpr ⟨_, mem, rfl⟩)
        simp [notMem, eq_comm]
      · simp [ih others, same, Ne.symm same]

/-! ## Lines -/

/-- A line that asks for generation, with the options before the subcommand and those behind it.
Before it only `verbose` may stand. -/
inductive Line (before after : List Given) : List String → Prop
  | generate {front back : List String} (front_writes : Writes before front)
    (verbose : ∀ g ∈ before, g = .flag .verbose) (back_writes : Writes after back) :
    Line before after (front ++ "generate" :: back)

/-- The options of a request. -/
def requested (payload : String) (language : Option String) (manifest verbose : Bool) :
    List Given :=
  .setting .payload payload :: ((language.map (Given.setting .language)).toList ++
    ((if manifest then [.flag .manifest] else []) ++ if verbose then [.flag .verbose] else []))

/-- No subcommand starts with a dash. -/
theorem after_dash (o : Options) {argument : String} {cs : List Char}
    (dash : argument.toList = '-' :: cs) (more : List String) :
    Command.after { options := o } (argument :: more) =
      readArgument globalChoices { options := o } argument >>= fun p => Command.after p more := by
  have other : ∀ name ∈ subcommands, name.toList.head? ≠ some '-' := by decide
  have notMem : argument ∉ subcommands := fun mem => other argument mem (by rw [dash]; rfl)
  have notContains : subcommands.contains argument = false := by simpa using notMem
  rw [Command.after, if_neg Bool.false_ne_true, notContains, if_neg Bool.false_ne_true]

theorem Spells.after_eq {given : List Given} {arguments : List String} (h : Spells given arguments)
    (verbose : ∀ g ∈ given, g = .flag .verbose) (o : Options) (more : List String) :
    Command.after { options := o } (arguments ++ more) =
      given.foldlM Given.addTo o >>= fun o => Command.after { options := o } more := by
  have noSetting : ∀ (fs : List Flag) s value, ¬ ∀ g ∈ fs.map Given.flag ++ [.setting s value],
      g = Given.flag .verbose := fun fs s value all => by
    cases all _ (List.mem_append_right _ List.mem_cons_self)
  cases h with
  | name f =>
    cases verbose _ List.mem_cons_self
    rw [List.singleton_append, after_dash o rfl, readArgument_name o knows_global]
    simp only [List.foldlM_cons, List.foldlM_nil, bind_pure, bind_assoc]
    rfl
  | letters f fs =>
    have known : ∀ g ∈ f :: fs, Knows globalChoices (.flag g) := fun g mem => by
      cases verbose _ (List.mem_map_of_mem mem)
      exact knows_global
    rw [List.singleton_append, after_dash o String.toList_ofList, readArgument_flags o known,
      bind_assoc]
    rfl
  | nameEquals s value => exact absurd verbose (noSetting [] s value)
  | nameApart s value => exact absurd verbose (noSetting [] s value)
  | lettersJoined fs s value => exact absurd verbose (noSetting fs s value)
  | lettersEquals fs s value => exact absurd verbose (noSetting fs s value)
  | lettersApart fs s value => exact absurd verbose (noSetting fs s value)

theorem Writes.after_eq {given : List Given} {arguments : List String} (h : Writes given arguments)
    (verbose : ∀ g ∈ given, g = .flag .verbose) (o : Options) (more : List String) :
    Command.after { options := o } (arguments ++ more) =
      given.foldlM Given.addTo o >>= fun o => Command.after { options := o } more := by
  induction h generalizing o with
  | nil => rfl
  | cons first rest ih =>
    obtain ⟨here, others⟩ := List.forall_mem_append.mp verbose
    rw [List.append_assoc, first.after_eq here, List.foldlM_append, bind_assoc]
    exact bind_congr fun o => ih others o

section

variable {before after : List Given} {arguments : List String}

/-- What a line asks for. -/
theorem Line.ofArguments_eq (line : Line before after arguments) (plain : ∀ g ∈ after, g.Plain) :
    Command.ofArguments arguments =
      before.foldlM Given.addTo {} >>= fun _ => after.foldlM Given.addTo {} >>= fun o =>
        o.payload.elim (.error .usage) fun payload =>
          .ok (.generate payload o.language o.manifest) := by
  cases line with
  | generate front verbose back =>
    refine (front.after_eq verbose {} _).trans (bind_congr fun _ => ?_)
    rw [← back.readOptions_eq plain]
    refine bind_congr fun o => ?_
    cases o.payload <;> rfl

/-- Before the command stand only plain options. -/
theorem Line.plain_before (line : Line before after arguments) : ∀ g ∈ before, g.Plain := by
  cases line with
  | generate _ verbose _ =>
    intro g mem
    cases verbose g mem
    exact Flag.noConfusion

/-- Only `verbose` stands before the subcommand. -/
theorem Line.mem_append_iff (line : Line before after arguments) {g : Given}
    (other : g ≠ .flag .verbose) : g ∈ before ++ after ↔ g ∈ after := by
  cases line with
  | generate _ verbose _ =>
    exact List.mem_append.trans (or_iff_right fun mem => other (verbose g mem))

/-- **A line that gives each option once**, and a payload, is a command. -/
theorem Line.ofArguments_of_nodup (line : Line before after arguments)
    (plain : ∀ g ∈ after, g.Plain) (once : ((before ++ after).map Given.choice).Nodup)
    {payload : String} (given : .setting .payload payload ∈ after) :
    Command.ofArguments arguments =
      .ok (.generate payload (valueOf .language after) (decide (.flag .manifest ∈ after))) := by
  rw [List.map_append, List.nodup_append] at once
  obtain ⟨front, back, -⟩ := once
  have found : (optionsOf after).payload = some payload := (valueOf_eq_some_iff back).mpr given
  rw [line.ofArguments_eq plain, foldlM_addTo_of_nodup line.plain_before front,
    foldlM_addTo_of_nodup plain back]
  exact congrArg (Option.elim · (Except.error Stop.usage) _) found

/-- **A line that repeats an option** behind the subcommand, or gives no payload, is no command. -/
theorem Line.ofArguments_of_wrong (line : Line before after arguments)
    (plain : ∀ g ∈ after, g.Plain)
    (wrong : ¬ (after.map Given.choice).Nodup ∨ .setting .payload ∉ after.map Given.choice) :
    Command.ofArguments arguments = .error .usage := by
  have back : (after.foldlM Given.addTo {} >>= fun o => o.payload.elim (.error .usage)
      fun payload => .ok (.generate payload o.language o.manifest)) =
        (.error .usage : Except Stop Command) := by
    by_cases once : (after.map Given.choice).Nodup
    · have missing := wrong.resolve_left (not_not_intro once)
      have none : valueOf .payload after = none := by
        simpa using isSome_valueOf_iff.not.mpr missing
      rw [foldlM_addTo_of_nodup plain once]
      exact congrArg (Option.elim · (Except.error Stop.usage) _) none
    · rw [foldlM_addTo_of_not_nodup plain once]
      rfl
  rw [line.ofArguments_eq plain, back]
  by_cases once : (before.map Given.choice).Nodup
  · rw [foldlM_addTo_of_nodup line.plain_before once]
    rfl
  · rw [foldlM_addTo_of_not_nodup line.plain_before once]
    rfl

end

/-! ## Requests -/

section

variable (payload : String) (language : Option String) (manifest verbose : Bool)

theorem nodup_choices_requested :
    ((requested payload language manifest verbose).map Given.choice).Nodup := by
  cases language <;> cases manifest <;> cases verbose <;> simp [requested, Given.choice]

theorem payload_mem_requested :
    .setting .payload payload ∈ requested payload language manifest verbose := List.mem_cons_self

theorem language_mem_requested_iff {value : String} :
    .setting .language value ∈ requested payload language manifest verbose ↔
      language = some value := by
  cases language <;> cases manifest <;> cases verbose <;> simp [requested, eq_comm]

theorem manifest_mem_requested_iff :
    .flag .manifest ∈ requested payload language manifest verbose ↔ manifest = true := by
  cases language <;> cases manifest <;> cases verbose <;> simp [requested]

end

/-- **All spellings of a request** are answered alike, with `verbose` or without, and a line that
gives an option twice behind the subcommand, or no payload, is refused without a word. -/
theorem answer_spellings {before after : List Given} {arguments : List String}
    (line : Line before after arguments) (plain : ∀ g ∈ after, g.Plain) :
    (∀ payload language manifest verbose,
      (before ++ after).Perm (requested payload language manifest verbose) →
        answer arguments = (Command.generate payload language manifest).answer) ∧
    (¬ (after.map Given.choice).Nodup ∨ .setting .payload ∉ after.map Given.choice →
      answer arguments = ⟨2, ""⟩) := by
  constructor
  · intro payload language manifest verbose same
    have once : ((before ++ after).map Given.choice).Nodup :=
      (same.map Given.choice).nodup_iff.mpr
        (nodup_choices_requested payload language manifest verbose)
    have mem_iff (g : Given) (other : g ≠ .flag .verbose) :
        g ∈ after ↔ g ∈ requested payload language manifest verbose :=
      (line.mem_append_iff other).symm.trans same.mem_iff
    have back : (after.map Given.choice).Nodup :=
      once.sublist ((List.sublist_append_right before after).map Given.choice)
    have given : .setting .payload payload ∈ after :=
      (mem_iff _ Given.noConfusion).mpr (payload_mem_requested payload language manifest verbose)
    have languageGiven : valueOf .language after = language := Option.ext fun value =>
      (valueOf_eq_some_iff back).trans <| (mem_iff _ Given.noConfusion).trans <|
        language_mem_requested_iff payload language manifest verbose
    have manifestGiven : decide (.flag .manifest ∈ after) = manifest :=
      Bool.eq_iff_iff.mpr <| decide_eq_true_iff.trans <| (mem_iff _ (by simp)).trans <|
        manifest_mem_requested_iff payload language manifest verbose
    rw [answer, line.ofArguments_of_nodup plain once given, languageGiven, manifestGiven]
  · intro wrong
    rw [answer, line.ofArguments_of_wrong plain wrong]

/-- A cluster with a payload that looks like the command, a payload that is given twice, and one
that is missing. -/
theorem answer_spellings_mixed :
    answer ["-v", "generate", "-mp", "generate", "--language=vb"] =
      (Command.generate "generate" (some "vb") true).answer ∧
    answer ["generate", "-l=vb", "-p[]", "--payload", "null"] = ⟨2, ""⟩ ∧
    answer ["generate", "--language", "languages", "-vm"] = ⟨2, ""⟩ := by
  have details : Writes [.flag .verbose] ["-v"] := .cons (.letters .verbose []) .nil
  have clustered : Writes [.flag .manifest, .setting .payload "generate", .setting .language "vb"]
      ["-mp", "generate", "--language=vb"] :=
    .cons (.lettersApart [.manifest] .payload "generate") (.cons (.nameEquals .language "vb") .nil)
  have twice : Writes [.setting .language "vb", .setting .payload "[]", .setting .payload "null"]
      ["-l=vb", "-p[]", "--payload", "null"] :=
    .cons (.lettersEquals [] .language "vb") (.cons (.lettersJoined [] .payload "[]")
      (.cons (.nameApart .payload "null") .nil))
  have without : Writes [.setting .language "languages", .flag .verbose, .flag .manifest]
      ["--language", "languages", "-vm"] :=
    .cons (.nameApart .language "languages") (.cons (.letters .verbose [.manifest]) .nil)
  refine ⟨?_, ?_, ?_⟩
  · refine (answer_spellings (.generate details (by simp) clustered) (by simp [Given.Plain])).1 _ _
      true true ?_
    decide
  · refine (answer_spellings (.generate .nil (by simp) twice) (by simp [Given.Plain])).2 (.inl ?_)
    decide
  · refine (answer_spellings (.generate .nil (by simp) without) (by simp [Given.Plain])).2 (.inr ?_)
    decide

end VersionInfo.CommandLine
