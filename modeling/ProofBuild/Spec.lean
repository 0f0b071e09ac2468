import ProofBuild.Error

/-!
Units as they are declared. The entry file of a unit is the one named for it, else the first
source with the conventional name, else the first source. The crate identity is the one named,
else the unit's name with underscores for hyphens.
-/

namespace ProofBuild

structure Spec where
  name : String
  sources : List Path
  entry : Option Path
  identity : Option String
  extraArguments : List String
  /-- names of the units it depends on -/
  dependencies : List String
  deriving DecidableEq, Repr

namespace Spec

/-- The file name that makes a source the entry file when none is named. -/
def conventionalEntry : String := "lib.rs"

def entryAmong (sources : List Path) (named : Option Path) : Outcome Path :=
  match sources with
  | [] => .error (.config .noSources)
  | first :: _ =>
      match named with
      | some entry =>
          if entry.Among sources then .ok entry else .error (.config (.foreignEntry entry))
      | none =>
          .ok ((sources.find? fun source => source.fileName? = some conventionalEntry).getD first)

def identityOfName (name : String) : String :=
  String.ofList (name.toList.map fun c => if c = '-' then '_' else c)

def crateIdentity (name : String) (named : Option String) : String :=
  named.getD (identityOfName name)

/-- Mistakes in the configuration of a unit name the unit. -/
def blame (unit : String) : Error → Error
  | .config problem => .config (.inUnit unit problem)
  | error => error

def resolve (spec : Spec) : Outcome (Path × String) :=
  match entryAmong spec.sources spec.entry with
  | .error error => .error (blame spec.name error)
  | .ok entry => .ok (entry, crateIdentity spec.name spec.identity)

end Spec

end ProofBuild
