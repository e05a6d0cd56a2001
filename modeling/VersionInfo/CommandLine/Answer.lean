import VersionInfo.CommandLine.Arguments
import VersionInfo.Manifest

/-!
# Answers

The program answers a command line with a text and an exit code: 0 for what was asked, 1 for a
payload that cannot be read, 2 for a record that no text can be generated from and for arguments
that are no command. A failure is told as a JSON object.

* `answer` is `main`: the answer to some arguments.

Out of scope: the text of the help and of a complaint about the arguments, and what `init_logging`
has the program log. The message of an unreadable payload is without the place where reading
stopped (`Json.Error.message`).
-/

namespace VersionInfo.CommandLine

open Json (Value)

/-- What the program writes, and its exit code. -/
structure Answer where
  exitCode : Nat
  output : String
deriving DecidableEq

/-- The object that tells a failure. -/
def failureText (message : String) : String :=
  (Value.object [("success", .boolean false), ("error", .string message)]).canonicalText ++ "\n"

/-- The list of the languages. -/
def languagesText : String :=
  (Value.array (Language.all.map fun l =>
    .object [("selector", .string l.selector), ("extension", .string l.extension)])).canonicalText
      ++ "\n"

/-- The record of a payload, in another language if one is given. -/
def readPayload (payload : String) (language : Option String) : Except Json.Error Record := do
  let r ← Record.read payload
  return match language with
    | some selector => { r with selector }
    | none => r

/-- The text that is asked for. -/
def generated (r : Record) (manifest : Bool) : Except GenerationError String :=
  if manifest then r.manifest.map Manifest.text else r.sourceText

/-- The answer to a command. -/
def Command.answer : Command → Answer
  | languages => ⟨0, languagesText⟩
  | generate payload language manifest =>
    match readPayload payload language with
    | .error e => ⟨1, failureText ("Invalid payload: " ++ e.message)⟩
    | .ok r =>
      match generated r manifest with
      | .error e => ⟨2, failureText e.message⟩
      | .ok text => ⟨0, text⟩

/-- The answer to a command line. -/
def answer (arguments : List String) : Answer :=
  match Command.ofArguments arguments with
  | .error .usage => ⟨2, ""⟩
  | .error .help => ⟨0, ""⟩
  | .ok command => command.answer

end VersionInfo.CommandLine
