/-!
# Arguments

A command line names a subcommand and its options. An option is written with two dashes and its
name, or with one dash and its letter; letters stand together behind one dash. The value of an
option follows it in the same argument, behind its letter or an equals sign, or is the next
argument, which then must not look like an option. No option may be given twice.

* `Options`, `Command`: what `Cli` and `Commands` declare.
* `Command.ofArguments` gives the command or why there is none.
-/

namespace VersionInfo.CommandLine

/-- Why arguments are no command. -/
inductive Stop where
  /-- They are not used as they should be. -/
  | usage
  /-- They ask for help. -/
  | help
deriving DecidableEq

/-- An option without value. -/
inductive Flag where
  | manifest
  | verbose
  | help
deriving DecidableEq

/-- An option with a value. -/
inductive Setting where
  | payload
  | language
deriving DecidableEq

/-- The option that an argument names. -/
inductive Choice where
  | flag (f : Flag)
  | setting (s : Setting)
deriving DecidableEq

/-- The name behind two dashes. -/
def Choice.name : Choice → String
  | flag .manifest => "manifest"
  | flag .verbose => "verbose"
  | flag .help => "help"
  | setting .payload => "payload"
  | setting .language => "language"

/-- The letter behind one dash. -/
def Choice.letter : Choice → Char
  | flag .manifest => 'm'
  | flag .verbose => 'v'
  | flag .help => 'h'
  | setting .payload => 'p'
  | setting .language => 'l'

/-- The options that are understood everywhere. -/
def globalChoices : List Choice := [.flag .verbose, .flag .help]

/-- The options of generation. -/
def generateChoices : List Choice :=
  [.setting .payload, .setting .language, .flag .manifest] ++ globalChoices

/-- The options given so far. -/
structure Options where
  payload : Option String := none
  language : Option String := none
  manifest : Bool := false
  verbose : Bool := false
deriving DecidableEq

namespace Options

/-- The options with one more flag. -/
def turnOn (o : Options) : Flag → Except Stop Options
  | .manifest => if o.manifest then .error .usage else .ok { o with manifest := true }
  | .verbose => if o.verbose then .error .usage else .ok { o with verbose := true }
  | .help => .error .help

/-- The options with one more value. -/
def assign (o : Options) (value : String) : Setting → Except Stop Options
  | .payload => if o.payload.isSome then .error .usage else .ok { o with payload := some value }
  | .language => if o.language.isSome then .error .usage else .ok { o with language := some value }

end Options

/-- How far the arguments are read. -/
structure Progress where
  options : Options := {}
  /-- The option whose value must be the next argument. -/
  waiting : Option Setting := none
  /-- No further argument may follow. -/
  ended : Bool := false
deriving DecidableEq

/-- Reads letters behind a dash. The first option with a value takes the rest as its value, behind
an equals sign if there is one, or waits for the next argument. -/
def readLetters (choices : List Choice) (o : Options) : List Char → Except Stop Progress
  | [] => .ok { options := o }
  | c :: rest =>
    match choices.find? fun choice => choice.letter == c with
    | none => .error .usage
    | some (.flag f) => do
      let o ← o.turnOn f
      readLetters choices o rest
    | some (.setting s) =>
      match rest with
      | [] => .ok { options := o, waiting := some s }
      | '=' :: value => return { options := ← o.assign (String.ofList value) s }
      | value => return { options := ← o.assign (String.ofList value) s }

/-- Reads a name behind two dashes, with the value behind an equals sign. -/
def readName (choices : List Choice) (o : Options) (cs : List Char) : Except Stop Progress :=
  let name := String.ofList (cs.takeWhile (· ≠ '='))
  match choices.find? fun choice => choice.name == name, cs.dropWhile (· ≠ '=') with
  | some (.flag f), [] => return { options := ← o.turnOn f }
  | some (.setting s), [] => .ok { options := o, waiting := some s }
  | some (.setting s), _ :: value => return { options := ← o.assign (String.ofList value) s }
  | _, _ => .error .usage

/-- Whether an argument can be the value of the option before it; a single dash can. -/
def isValue (argument : String) : Bool := argument.toList.head? != some '-' || argument == "-"

/-- Reads one argument. -/
def readArgument (choices : List Choice) (p : Progress) (argument : String) :
    Except Stop Progress :=
  if p.ended then .error .usage
  else
    match p.waiting, argument.toList with
    | some s, _ =>
      if isValue argument then return { options := ← p.options.assign argument s }
      else .error .usage
    | none, ['-', '-'] => .ok { p with ended := true }
    | none, '-' :: '-' :: cs => readName choices p.options cs
    | none, '-' :: c :: cs => readLetters choices p.options (c :: cs)
    | none, _ => .error .usage

/-- Reads all arguments of a subcommand. -/
def readOptions (choices : List Choice) (arguments : List String) : Except Stop Options := do
  let p ← arguments.foldlM (readArgument choices) {}
  if p.waiting.isSome then throw .usage else return p.options

/-- What a command line asks for. -/
inductive Command where
  /-- List the languages. -/
  | languages
  /-- Generate the text of a payload, perhaps in another language, or its manifest. -/
  | generate (payload : String) (language : Option String) (manifest : Bool)
deriving DecidableEq

/-- The names of the subcommands. -/
def subcommands : List String := ["languages", "generate", "help"]

/-- The command of a subcommand and its arguments. -/
def Command.ofSubcommand (name : String) (arguments : List String) : Except Stop Command := do
  if name = "languages" then
    let _ ← readOptions globalChoices arguments
    return languages
  else if name = "generate" then
    let o ← readOptions generateChoices arguments
    match o.payload with
    | some payload => return generate payload o.language o.manifest
    | none => throw .usage
  else if arguments.all (subcommands.contains ·) ∧ arguments.length ≤ 1 then throw .help
  else throw .usage

/-- The command of some arguments, after the options in `p`. -/
def Command.after (p : Progress) : List String → Except Stop Command
  | [] => .error .usage
  | argument :: rest =>
    if p.ended then .error .usage
    else if subcommands.contains argument then ofSubcommand argument rest
    else do
      let p ← readArgument globalChoices p argument
      after p rest

/-- The command of a command line. -/
def Command.ofArguments (arguments : List String) : Except Stop Command := after {} arguments

end VersionInfo.CommandLine
