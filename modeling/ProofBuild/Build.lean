import ProofBuild.Cache
import ProofBuild.Fingerprint
import ProofBuild.Task

/-!
Building a selection of crates in order. A crate with a direct dependency that has no marker is
blocked; one whose marker stands for the present inputs is left alone; every other is verified. A
crate that is not verified this round keeps neither its marker nor its recorded fingerprint, and
only the crates above it suffer from that.
-/

namespace ProofBuild

/-- What became of a crate. -/
inductive Fate where
  | verified
  /-- the marker stands for the present inputs -/
  | cached
  | failed (reason : String)
  /-- never started: these direct dependencies have no marker -/
  | blocked (on : List String)
  deriving DecidableEq, Repr

namespace Fate

def Success : Fate → Prop
  | .verified | .cached => True
  | .failed _ | .blocked _ => False

instance : (fate : Fate) → Decidable fate.Success
  | .verified | .cached => isTrue trivial
  | .failed _ | .blocked _ => isFalse id

def description : Fate → String
  | .verified => "verified"
  | .cached => "cached"
  | .failed reason => s!"FAILED: {reason}"
  | .blocked names => "blocked on " ++ ", ".intercalate names

end Fate

structure Tally where
  verified : Nat
  cached : Nat
  failed : Nat
  blocked : Nat
  deriving DecidableEq, Repr

def Tally.add (tally : Tally) : Fate → Tally
  | .verified => { tally with verified := tally.verified + 1 }
  | .cached => { tally with cached := tally.cached + 1 }
  | .failed _ => { tally with failed := tally.failed + 1 }
  | .blocked _ => { tally with blocked := tally.blocked + 1 }

structure Report where
  /-- crates and their fates in the order of the build -/
  fates : List (String × Fate)
  /-- the look-ups of this build -/
  lookups : Lookups
  deriving DecidableEq, Repr

namespace Report

def Success (report : Report) : Prop := ∀ entry ∈ report.fates, entry.2.Success

instance (report : Report) : Decidable report.Success :=
  inferInstanceAs (Decidable (∀ entry ∈ report.fates, entry.2.Success))

def fate? (report : Report) (name : String) : Option Fate :=
  (report.fates.find? fun entry => entry.1 = name).map (·.2)

def tally (report : Report) : Tally :=
  report.fates.foldl (fun tally entry => tally.add entry.2) ⟨0, 0, 0, 0⟩

end Report

structure State where
  world : World
  cache : Cache

/-- The state without a crate's recorded fingerprint and marker. A marker that cannot be removed
stays. -/
def State.discard (state : State) (crate : Crate) : State :=
  ⟨(state.world.removeMarker crate.marker).1, state.cache.invalidate crate.name⟩

def Graph.missing (graph : Graph) (tree : FileTree) (crate : Crate) : List String :=
  ((graph.dependencies crate).filter fun dependency => !tree.present dependency.marker).map (·.name)

namespace Context

def fingerprintOf (context : Context) (graph : Graph) (crate : Crate) (prepared : Prepared)
    (state : State) : Outcome String :=
  let dependencies := graph.dependencies crate
  let declaration := Declaration.ofCrate crate context.bundle (Linkage.ofCrates dependencies)
  fingerprint state.world.tree prepared.invocation declaration.inputs
    (dependencies.map fun dependency => state.cache.entry? dependency.name)

/-- Verify a crate unless its marker stands for the present inputs. -/
def verifyCrate (context : Context) (graph : Graph) (crate : Crate) (state : State) :
    State × Outcome Fate :=
  match context.prepare graph state.world.tree crate with
  | .error error => (state, .error error)
  | .ok prepared =>
      match context.fingerprintOf graph crate prepared state with
      | .error error => (state, .error error)
      | .ok fingerprint =>
          if state.cache.Fresh state.world.tree crate.name crate.marker fingerprint then
            ({ state with cache := state.cache.counted true }, .ok .cached)
          else
            let cache := (state.cache.counted false).invalidate crate.name
            match context.execute crate prepared.invocation state.world with
            | (world, .error error) => (⟨world, cache⟩, .error error)
            | (world, .ok _) => (⟨world, cache.record crate.name fingerprint⟩, .ok .verified)

/-- Bring one crate up to date. -/
def buildCrate (context : Context) (graph : Graph) (crate : Crate) (state : State) :
    State × Fate :=
  match graph.missing state.world.tree crate with
  | [] =>
      match context.verifyCrate graph crate state with
      | (state, .ok fate) => (state, fate)
      | (state, .error error) => (state.discard crate, .failed error.message)
  | names => (state.discard crate, .blocked names)

/-- Bring crates up to date, first to last. -/
def buildAll (context : Context) (graph : Graph) : List Crate → State → State × List (String × Fate)
  | [], state => (state, [])
  | crate :: rest, state =>
      let (state, fate) := context.buildCrate graph crate state
      let (state, fates) := buildAll context graph rest state
      (state, (crate.name, fate) :: fates)

def build (context : Context) (graph : Graph) (selected : List Crate) (state : State) :
    State × Report :=
  let (after, fates) := context.buildAll graph selected state
  (after, ⟨fates, after.cache.lookups.since state.cache.lookups⟩)

end Context

end ProofBuild
