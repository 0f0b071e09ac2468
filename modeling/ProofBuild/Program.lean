import ProofBuild.Environment
import ProofBuild.Error
import ProofBuild.Task

/-!
Programs on this machine. A program named with a slash is the file of that path; any other is
looked for in the directories of the search path, and the first file there that may be started
is taken. What a program does is decided by the content of its file and by its arguments.
-/

namespace ProofBuild

structure Ending where
  /-- the exit status; none when it was killed -/
  code : Option Int
  output : Bytes
  complaint : Bytes
  deriving DecidableEq

structure Machine where
  inherited : Table
  /-- the home directory that the user database gives -/
  home : Option Path
  platform : Platform
  process : Nat
  /-- what a file of some content does as a program; nothing when it is none -/
  programs : Bytes → List String → Option Ending

namespace Machine

/-- The search path of a machine that sets none. -/
def defaultSearchPath : String := "/bin:/usr/bin"

/-- The files that may be meant by a program's name. -/
def candidates (program : Path) (searchPath : Option String) : List Path :=
  if '/' ∈ program.text.toList then [program]
  else (SearchPath.split ':' (searchPath.getD defaultSearchPath)).map fun directory =>
    Path.child ⟨directory⟩ program.text

/-- The content of the first file that may be started. -/
def findProgram (tree : FileTree) (files : List Path) : Except Cause Bytes :=
  match files.find? tree.isExecutable with
  | some file => (tree.read file).mapError .file
  | none =>
      if files.any tree.present then .error .notPermitted else .error (.file .notFound)

/-- Run a program with variables set on top of the inherited ones. -/
def run (machine : Machine) (tree : FileTree) (program : Path) (arguments : List String)
    (settings : Table) : Except Cause Ending := do
  let texts := program.text :: arguments ++ settings.entries.flatMap fun setting =>
    [setting.1, setting.2]
  if texts.any fun text => '\x00' ∈ text.toList then throw .zeroCharacter
  let searchPath := (settings.get? "PATH").or (machine.inherited.get? "PATH")
  let content ← findProgram tree (candidates program searchPath)
  match machine.programs content arguments with
  | some ending => .ok ending
  | none => .error .noProgram

/-- Ask the compiler for the root of its libraries. A compiler that fails or says nothing gives no
answer. -/
def askSysroot (machine : Machine) (tree : FileTree) (query : Query) : Option Path :=
  let version := query.version.toList.map fun version => "+" ++ version
  match machine.run tree ⟨"rustc"⟩ (version ++ ["--print", "sysroot"]) query.settings with
  | .error _ => none
  | .ok ending =>
      if ending.code = some 0 then
        let answer := Text.trim (Utf8.decodeLossy ending.output)
        if answer = "" then none else some ⟨answer⟩
      else none

def probe (machine : Machine) (tree : FileTree) : Probe where
  home := machine.home
  inherited := machine.inherited.get?
  isDirectory := tree.isDirectory
  isFile := tree.isFile
  sysroot := machine.askSysroot tree

def verify (machine : Machine) (world : World) (invocation : Invocation) : Outcome Verdict :=
  match machine.run world.tree invocation.program invocation.arguments invocation.settings with
  | .error cause => .error (.io (.running invocation.program) cause)
  | .ok ending =>
      .ok ⟨ending.code, Utf8.decodeLossy ending.output, Utf8.decodeLossy ending.complaint⟩

def context (machine : Machine) (bundle : Bundle) (edition : String) : Context where
  bundle
  synthesize tree bundle := ((machine.probe tree).synthesize bundle).2
  verify := machine.verify
  edition
  process := machine.process

end Machine

end ProofBuild
