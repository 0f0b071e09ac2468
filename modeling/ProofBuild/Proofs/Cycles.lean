import Mathlib.Data.List.Chain
import ProofBuild.Proofs.Acceptance

/-!
Cycles that are reported. The search keeps a trail: the names on its path are apart, each of them needs
the next, and the last one needs every name to come. So a name that is met on the path closes a cycle of the
names from its place on, and no other error comes out of the search (`closed_of_visit`). Main statement: units
that are all known and depend on one another are refused, and the message lists a cycle of them
(`Graph.cycle_of_ofSpecs`).
-/

namespace ProofBuild

/-- The names of a cycle, each once, without the first one again at the end: each of them needs the next,
and the last one needs the first. -/
structure Spec.Cycle (specs : List Spec) (first : String) (rest : List String) : Prop where
  once : (first :: rest).Nodup
  closes : List.IsChain (Needs specs) (first :: rest ++ [first])

/-- A name that needs another is the name of a declared unit. -/
theorem Spec.Cycle.declared {specs : List Spec} {first : String} {rest : List String}
    (cycle : Cycle specs first rest) : ∀ name ∈ first :: rest, ∃ spec ∈ specs, spec.name = name := by
  intro name member
  obtain ⟨before, after, place⟩ := List.append_of_mem member
  have closes := cycle.closes
  rw [place, List.append_assoc, List.cons_append] at closes
  have onward : (after ++ [first]).head?.isSome := by simp
  obtain ⟨second, next⟩ := Option.isSome_iff_exists.mp onward
  obtain ⟨spec, inside, named, _⟩ := (List.isChain_cons.mp closes.right_of_append).1 second next
  exact ⟨spec, inside, named⟩

namespace Order
variable {specs : List Spec} {path listed : List String} {name : String}

/-- The names on the path are apart, and it is a walk to each of the names to come. -/
structure Trail (specs : List Spec) (path names : List String) : Prop where
  once : path.Nodup
  walk : ∀ name ∈ names, List.IsChain (Spec.Needs specs) (path ++ [name])

/-- Whether an error reports a cycle. -/
def Closed (specs : List Spec) (error : Error) : Prop :=
  ∃ first rest, error = .graph (.cycle (first :: rest ++ [first])) ∧ Spec.Cycle specs first rest

/-- From a name on the path, the path goes on as it does from the name's place. -/
theorem cycleAt_of_mem (member : name ∈ path) :
    ∃ before rest, path = before ++ name :: rest ∧ cycleAt path name = name :: rest ++ [name] := by
  obtain ⟨before, rest, place, absent⟩ := List.eq_append_cons_of_mem member
  refine ⟨before, rest, place, ?_⟩
  have others : ∀ other ∈ before, decide (other ≠ name) = true := by
    intro other earlier
    exact decide_eq_true fun same => absent (same ▸ earlier)
  rw [cycleAt, place, List.dropWhile_append_of_pos others, List.dropWhile_cons_of_neg (by simp)]

/-- A name that is met again on the path closes a cycle. -/
theorem Trail.closed (trail : Trail specs path [name]) (member : name ∈ path) :
    Closed specs (.graph (.cycle (cycleAt path name))) := by
  obtain ⟨before, rest, rfl, cycle⟩ := cycleAt_of_mem member
  have walk := trail.walk name List.mem_cons_self
  rw [List.append_assoc] at walk
  exact ⟨name, rest, by rw [cycle], (List.nodup_append.mp trail.once).2.1, walk.right_of_append⟩

/-- A name that is not on the path yet goes on with it to what its unit needs. -/
theorem Trail.below {spec : Spec} (trail : Trail specs path [name]) (away : name ∉ path)
    (found : Spec.find? specs name = some spec) :
    Trail specs (path ++ [name]) spec.dependencies := by
  obtain ⟨inside, named⟩ := Spec.find?_eq_some found
  constructor
  · exact List.nodup_append.mpr ⟨trail.once, List.nodup_singleton name, by
      intro earlier member last final same
      rw [List.mem_singleton.mp final] at same
      exact away (same ▸ member)⟩
  · intro lower wanted
    have needs : Spec.Needs specs name lower := ⟨spec, inside, named, wanted⟩
    refine List.isChain_append.mpr ⟨trail.walk name List.mem_cons_self, List.isChain_singleton lower, ?_⟩
    simpa using needs

theorem Trail.only {names fewer : List String} (trail : Trail specs path names)
    (part : fewer ⊆ names) : Trail specs path fewer :=
  ⟨trail.once, fun name member => trail.walk name (part member)⟩

/-- An error of the search reports a cycle. -/
theorem closed_of_visit :
    (∀ path listed name, Trail specs path [name] → ∀ error,
      visit specs path listed name = .error error → Closed specs error) ∧
    ∀ path listed names, Trail specs path names → ∀ error,
      visitAll specs path listed names = .error error → Closed specs error := by
  apply visit.mutual_induct
  case case1 =>
    -- The name is listed already.
    intro path listed name member trail error failed
    rw [visit, if_pos member] at failed
    cases failed
  case case2 =>
    -- The name is on the path.
    intro path listed name fresh member trail error failed
    rw [visit, if_neg fresh, if_pos member] at failed
    cases failed
    exact trail.closed member
  case case3 =>
    -- The name has no unit.
    intro path listed name fresh away absent trail error failed
    rw [visit, if_neg fresh, if_neg away] at failed
    split at failed
    · cases failed
    · rename_i spec found
      rw [absent] at found
      cases found
  case case4 =>
    -- The error comes from below the name.
    intro path listed name fresh away spec found problem below ih trail error failed
    rw [visit_of_find? fresh away found, below] at failed
    cases failed
    exact ih (trail.below away found) problem below
  case case5 =>
    -- All below the name is listed.
    intro path listed name fresh away spec found below listing ih trail error failed
    rw [visit_of_find? fresh away found, listing] at failed
    cases failed
  case case6 =>
    -- No name is left.
    intro path listed trail error failed
    rw [visitAll] at failed
    cases failed
  case case7 =>
    -- The error comes from the first name.
    intro path listed name rest problem first ih trail error failed
    rw [visitAll, first] at failed
    cases failed
    exact ih (trail.only (by simp)) problem first
  case case8 =>
    -- The error comes from a later name.
    intro path listed name rest more listing _ ih trail error failed
    rw [visitAll, listing] at failed
    exact ih (trail.only (List.subset_cons_self name rest)) error failed

theorem closed_of_ofSpecs {error : Error} (failed : ofSpecs specs = .error error) :
    Closed specs error := by
  refine closed_of_visit.2 [] [] _ ⟨List.nodup_nil, ?_⟩ error failed
  exact fun name _ => List.isChain_singleton name

end Order

theorem Error.message_cycle (names : List String) : (Error.graph (.cycle names)).message =
    "Graph error: dependency cycle: " ++ " -> ".intercalate names := by
  have joined : "Graph error: dependency cycle: " = "Graph error: " ++ "dependency cycle: " := by decide
  rw [joined, String.append_assoc]
  rfl

namespace Graph

/-- Units that are all known and of which some depend on one another make no graph. The message lists the
names of a cycle, the first one again at the end; the others are apart, and each name's unit declares the
next one as a dependency. -/
theorem cycle_of_ofSpecs {specs : List Spec} (distinct : (specs.map (·.name)).Nodup)
    (known : ∀ spec ∈ specs, ∀ name ∈ spec.dependencies, ∃ lower ∈ specs, lower.name = name)
    (cyclic : ∃ name, Relation.TransGen (Spec.Needs specs) name name) (directory : Path) :
    ∃ first rest, (first :: rest).Nodup ∧
      (∀ name ∈ first :: rest, ∃ spec ∈ specs, spec.name = name) ∧
      List.IsChain (Spec.Needs specs) (first :: rest ++ [first]) ∧
      ∃ problem, ofSpecs specs directory = .error (.graph problem) ∧
        (Error.graph problem).message =
          "Graph error: dependency cycle: " ++ " -> ".intercalate (first :: rest ++ [first]) := by
  obtain ⟨name, closes⟩ := cyclic
  cases searched : Order.ofSpecs specs with
  | ok names =>
      have acyclic := (Order.exists_ofSpecs_eq_ok_iff distinct (known_of_needs known)).mp ⟨names, searched⟩
      exact absurd closes (acyclic name)
  | error error =>
      obtain ⟨first, rest, rfl, cycle⟩ := Order.closed_of_ofSpecs searched
      refine ⟨first, rest, cycle.once, cycle.declared, cycle.closes, _, ?_, Error.message_cycle _⟩
      rw [ofSpecs, repeatedName?_eq_none_iff.mpr distinct, unknownDependency?_eq_none_iff.mpr known, searched]

/-- Two units that depend on each other, below one that does not depend on itself, with one below
them that depends on nothing. -/
def tangledSpecs : List Spec := [
  ⟨"app", [⟨"app.rs"⟩], none, none, [], ["core", "left"]⟩,
  ⟨"left", [⟨"left.rs"⟩], none, none, [], ["right"]⟩,
  ⟨"right", [⟨"right.rs"⟩], none, none, [], ["core", "left"]⟩,
  ⟨"core", [⟨"core.rs"⟩], none, none, [], []⟩]

theorem cycle_of_ofSpecs_tangled :
    (tangledSpecs.map (·.name)).Nodup ∧
      Relation.TransGen (Spec.Needs tangledSpecs) "left" "left" ∧
      ∃ first rest, (first :: rest).Nodup ∧
        List.IsChain (Spec.Needs tangledSpecs) (first :: rest ++ [first]) ∧
        ∃ problem, ofSpecs tangledSpecs ⟨"out"⟩ = .error (.graph problem) ∧
          (Error.graph problem).message =
            "Graph error: dependency cycle: " ++ " -> ".intercalate (first :: rest ++ [first]) := by
  have distinct : (tangledSpecs.map (·.name)).Nodup := by decide
  have down : Spec.Needs tangledSpecs "left" "right" :=
    ⟨tangledSpecs[1], by decide, rfl, by decide⟩
  have back : Spec.Needs tangledSpecs "right" "left" :=
    ⟨tangledSpecs[2], by decide, rfl, by decide⟩
  have closes : Relation.TransGen (Spec.Needs tangledSpecs) "left" "left" := .tail (.single down) back
  obtain ⟨first, rest, once, _, walk, refused⟩ :=
    cycle_of_ofSpecs distinct (by decide) ⟨"left", closes⟩ ⟨"out"⟩
  exact ⟨distinct, closes, first, rest, once, walk, refused⟩

/-- What leads to the cycle is not reported. -/
example : Order.ofSpecs tangledSpecs = .error (.graph (.cycle ["left", "right", "left"])) := by cbv

end Graph

end ProofBuild
