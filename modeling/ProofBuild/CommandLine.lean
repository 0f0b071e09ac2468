import ProofBuild.Manifest

/-!
The command line. Options may stand before or after the name of the command, and one that stands
after it wins. An option that takes a value takes it from the same argument, behind an equals
sign, or from the next one, which must not look like an option. After two dashes every argument
is a word. The arguments are read one by one, and the first mistake or request for help decides.
-/

namespace ProofBuild

inductive Command where
  /-- verify these units, or all, with everything below them -/
  | build (units : List String)
  /-- verify one unit without writing its marker -/
  | test (unit : String)
  /-- show the invocation for a unit -/
  | arguments (unit : String) (asJson : Bool)
  /-- show the environment of the verifier -/
  | environment
  /-- remove markers and recorded fingerprints -/
  | clean
  deriving DecidableEq, Repr

structure Request where
  manifest : Path
  /-- where markers and recorded fingerprints lie, when it is named -/
  out : Option Path
  /-- how often more talk was asked for -/
  verbosity : Nat
  command : Command
  deriving DecidableEq, Repr

/-- Why no command is run. -/
inductive Refusal where
  | help
  | version
  | misuse
  deriving DecidableEq, Repr

namespace CommandLine

inductive Name where
  | build
  | test
  | arguments
  | environment
  | clean
  | help
  deriving DecidableEq, Repr

def Name.ofText? (text : String) : Option Name :=
  match text with
  | "build" => some .build
  | "test" => some .test
  | "args" => some .arguments
  | "env" => some .environment
  | "clean" => some .clean
  | "help" => some .help
  | _ => none

def Name.capacity : Name → Option Nat
  | .build | .help => none
  | .test | .arguments => some 1
  | .environment | .clean => some 0

inductive Setting where
  | manifest
  | out
  deriving DecidableEq, Repr

/-- Options read so far, before the command's name or after it. -/
structure Options where
  manifest : Option Path
  out : Option Path
  verbosity : Nat
  asJson : Bool
  deriving DecidableEq, Repr

def Options.none : Options := ⟨.none, .none, 0, false⟩

/-- Give an option its value, once and not an empty one. -/
def Options.set (options : Options) (setting : Setting) (text : String) :
    Except Refusal Options :=
  if text = "" then .error .misuse
  else match setting with
    | .manifest =>
        if options.manifest.isSome then .error .misuse
        else .ok { options with manifest := some ⟨text⟩ }
    | .out =>
        if options.out.isSome then .error .misuse
        else .ok { options with out := some ⟨text⟩ }

inductive Shape where
  | twoDashes
  | long (name : String) (value : Option String)
  | short (letters : List Char)
  | word
  deriving DecidableEq, Repr

def Shape.ofText (argument : String) : Shape :=
  match argument.toList with
  | ['-', '-'] => .twoDashes
  | '-' :: '-' :: rest =>
      let name := String.ofList (rest.takeWhile (· ≠ '='))
      match rest.dropWhile (· ≠ '=') with
      | [] => .long name .none
      | _ :: value => .long name (some (String.ofList value))
  | '-' :: letter :: rest => .short (letter :: rest)
  | _ => .word

/-- How far the arguments have been read. -/
structure Progress where
  before : Options
  command : Option Name
  after : Options
  words : List String
  /-- an option that waits for its value -/
  waiting : Option Setting
  /-- two dashes were read -/
  onlyWords : Bool
  deriving DecidableEq, Repr

namespace Progress

def start : Progress := ⟨.none, none, .none, [], none, false⟩

/-- The options on this side of the command's name. -/
def options (progress : Progress) : Options :=
  if progress.command.isSome then progress.after else progress.before

def withOptions (progress : Progress) (options : Options) : Progress :=
  if progress.command.isSome then { progress with after := options }
  else { progress with before := options }

def set (progress : Progress) (setting : Setting) (text : String) : Except Refusal Progress := do
  return { progress.withOptions (← progress.options.set setting text) with waiting := none }

def moreTalk (progress : Progress) : Progress :=
  progress.withOptions
    { progress.options with verbosity := progress.options.verbosity + 1 }

def addWord (progress : Progress) (text : String) : Except Refusal Progress :=
  match progress.command with
  | none => .error .misuse
  | some name =>
      if name.capacity.any (· ≤ progress.words.length) then .error .misuse
      else .ok { progress with words := progress.words ++ [text] }

/-- A word where the command's name may still be missing. -/
def addWordOrName (progress : Progress) (text : String) : Except Refusal Progress :=
  if progress.command.isSome then progress.addWord text
  else match Name.ofText? text with
    | some name => .ok { progress with command := some name }
    | none => .error .misuse

/-- Letters behind one dash. -/
def addLetters : List Char → Progress → Except Refusal Progress
  | [], progress => .ok progress
  | 'v' :: rest, progress => addLetters rest progress.moreTalk
  | 'h' :: _, _ => .error .help
  | 'V' :: _, progress => .error (if progress.command.isSome then .misuse else .version)
  | _, _ => .error .misuse

/-- A name behind two dashes, and the value behind its equals sign. -/
def addLong (progress : Progress) (name : String) (value : Option String) :
    Except Refusal Progress :=
  match name, value with
  | "manifest", some text => progress.set .manifest text
  | "out", some text => progress.set .out text
  | "manifest", none => .ok { progress with waiting := some .manifest }
  | "out", none => .ok { progress with waiting := some .out }
  | "verbose", none => .ok progress.moreTalk
  | "help", none => .error .help
  | "version", none => .error (if progress.command.isSome then .misuse else .version)
  | "json", none =>
      if progress.command = some .arguments ∧ progress.after.asJson = false then
        .ok (progress.withOptions { progress.options with asJson := true })
      else .error .misuse
  | _, _ => .error .misuse

def step (progress : Progress) (argument : String) : Except Refusal Progress :=
  if progress.command = some .help then
    .ok { progress with words := progress.words ++ [argument] }
  else match progress.waiting with
    | some setting =>
        if Shape.ofText argument = .word then progress.set setting argument else .error .misuse
    | none =>
        if progress.onlyWords then progress.addWord argument
        else match Shape.ofText argument with
          | .twoDashes => .ok { progress with onlyWords := true }
          | .long name value => progress.addLong name value
          | .short letters => progress.addLetters letters
          | .word => progress.addWordOrName argument

def command? (progress : Progress) : Except Refusal Command :=
  match progress.command, progress.words with
  | some .build, units => .ok (.build units)
  | some .test, [unit] => .ok (.test unit)
  | some .arguments, [unit] => .ok (.arguments unit progress.after.asJson)
  | some .environment, [] => .ok .environment
  | some .clean, [] => .ok .clean
  | some .help, [] => .error .help
  | some .help, [topic] => .error (if (Name.ofText? topic).isSome then .help else .misuse)
  | _, _ => .error .misuse

def finish (progress : Progress) : Except Refusal Request := do
  if progress.waiting.isSome then throw .misuse
  let command ← progress.command?
  return {
    manifest := (progress.after.manifest.or progress.before.manifest).getD ⟨Manifest.fileName⟩
    out := progress.after.out.or progress.before.out
    verbosity := progress.before.verbosity + progress.after.verbosity
    command }

end Progress

def parse (arguments : List String) : Except Refusal Request := do
  (← arguments.foldlM Progress.step .start).finish

end CommandLine

end ProofBuild
