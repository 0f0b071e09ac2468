import ProofBuild.Crate
import ProofBuild.Graph.Order

/-!
The graph of a workspace: its crates in execution order, every crate after those it depends on.
A list of declared units makes a graph unless a name is declared twice, a dependency is not
declared, units depend on one another, a unit cannot be settled, or two crates share an identity.
-/

namespace ProofBuild

structure Graph where
  crates : List Crate
  deriving DecidableEq, Repr

namespace Graph

/-- The first name that an earlier unit has already. -/
def repeatedName? : List Spec → Option String
  | specs => go [] specs
where
  go : List String → List Spec → Option String
    | _, [] => none
    | seen, spec :: rest =>
        if spec.name ∈ seen then some spec.name else go (spec.name :: seen) rest

/-- The first unit with a dependency that is not declared, and that dependency. -/
def unknownDependency? (specs : List Spec) : Option (String × String) :=
  specs.findSome? fun spec =>
    (spec.dependencies.find? fun name => (Spec.find? specs name).isNone).map (spec.name, ·)

/-- Settle the next unit. Its identity must be new. -/
def settle (directory : Path) (settled : List Crate) (spec : Spec) : Outcome (List Crate) :=
  match Crate.ofSpec directory settled spec with
  | .error error => .error error
  | .ok crate =>
      match settled.find? fun earlier => earlier.identity = crate.identity with
      | some earlier =>
          .error (.graph (.sharedIdentity earlier.name crate.name crate.identity))
      | none => .ok (settled ++ [crate])

def settleAll (directory : Path) : List Crate → List Spec → Outcome (List Crate)
  | settled, [] => .ok settled
  | settled, spec :: rest =>
      match settle directory settled spec with
      | .error error => .error error
      | .ok grown => settleAll directory grown rest

/-- The graph of declared units, with their markers in `directory`. -/
def ofSpecs (specs : List Spec) (directory : Path) : Outcome Graph :=
  match repeatedName? specs with
  | some name => .error (.graph (.repeatedUnit name))
  | none =>
      match unknownDependency? specs with
      | some (unit, dependency) => .error (.graph (.unknownDependency unit dependency))
      | none =>
          match Order.ofSpecs specs with
          | .error error => .error error
          | .ok names =>
              (settleAll directory [] (names.filterMap (Spec.find? specs))).map Graph.mk

def find? (graph : Graph) (name : String) : Option Crate := Crate.find? graph.crates name

def dependencies (graph : Graph) (crate : Crate) : List Crate :=
  Crate.select graph.crates crate.dependencies

/-- The crate of a name, or the error that there is none. -/
def require (graph : Graph) (name : String) : Outcome Crate :=
  match graph.find? name with
  | some crate => .ok crate
  | none => .error (.config (.unknownUnit name))

/-- How many names crates that are not wanted yet have to pass on. -/
def owed (wanted : List String) : List Crate → Nat
  | [] => 0
  | crate :: rest =>
      (if crate.name ∈ wanted then 0 else crate.dependencies.length) + owed wanted rest

theorem owed_le (name : String) (wanted : List String) (crates : List Crate) :
    owed (name :: wanted) crates ≤ owed wanted crates := by
  induction crates with
  | nil => exact Nat.le_refl _
  | cons crate rest ih =>
      have still : crate.name ∈ wanted → crate.name ∈ name :: wanted := List.mem_cons_of_mem name
      unfold owed
      split <;> split <;> grind

/-- A crate that becomes wanted passes its names on and has none left. -/
theorem owed_add_le {crates : List Crate} {name : String} {wanted : List String} {crate : Crate}
    (fresh : name ∉ wanted) (found : Crate.find? crates name = some crate) :
    owed (name :: wanted) crates + crate.dependencies.length ≤ owed wanted crates := by
  induction crates with
  | nil => cases found
  | cons first rest ih =>
      unfold Crate.find? at found ih
      unfold owed
      by_cases same : first.name = name
      · rw [List.find?_cons_of_pos (by simpa using same)] at found
        cases found
        have less := owed_le name wanted rest
        rw [if_pos (same ▸ List.mem_cons_self), if_neg (same ▸ fresh)]
        omega
      · rw [List.find?_cons_of_neg (by simpa using same)] at found
        have less := ih found
        simp only [List.mem_cons, same, false_or]
        omega

/-- The wanted names, with those that wait and everything below them. The name that came last is
taken first. A name may wait many times, but only once does its crate pass on what it depends on. -/
@[semireducible] def spread (crates : List Crate) (wanted : List String) :
    List String → List String
  | [] => wanted
  | name :: waiting =>
      if _seen : name ∈ wanted then spread crates wanted waiting
      else match _found : Crate.find? crates name with
        | none => spread crates wanted waiting
        | some crate => spread crates (name :: wanted) (crate.dependencies.reverse ++ waiting)
termination_by waiting => waiting.length + owed wanted crates
decreasing_by
  · simp
  · simp
  · have less := owed_add_le _seen _found
    simp only [List.length_append, List.length_reverse, List.length_cons]
    omega

/-- The named crates and everything below them, in execution order. No names stand for all. -/
def closure (graph : Graph) (names : List String) : Outcome (List Crate) :=
  if names = [] then .ok graph.crates
  else
    match names.find? fun name => (graph.find? name).isNone with
    | some name => .error (.config (.unknownUnit name))
    | none =>
        let wanted := spread graph.crates [] names.reverse
        .ok (graph.crates.filter fun crate => crate.name ∈ wanted)

end Graph

end ProofBuild
