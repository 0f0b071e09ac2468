import ProofBuild.Spec

/-!
An execution order for declared units: every unit comes after the units it depends on. The search
goes depth first, in the order of declaration, and lists a unit when everything below it is
listed. A unit met again while it is still being searched closes a cycle.

No marks are kept. A unit is being searched while it is on the path and not listed, and it is done once it
is listed; a unit that is met on the path has a place there, and the cycle runs from its first place on.
`Order.visits_iff_ofSpecs` shows that a search with marks of its own ends the same.
-/

namespace ProofBuild

def Spec.find? (specs : List Spec) (name : String) : Option Spec :=
  specs.find? fun spec => spec.name = name

namespace Order

/-- The units that are not being searched. -/
def outside (specs : List Spec) (path : List String) : List Spec :=
  specs.filter fun spec => spec.name ∉ path

theorem outside_lt {specs : List Spec} {path : List String} {name : String} {spec : Spec}
    (fresh : name ∉ path) (found : Spec.find? specs name = some spec) :
    (outside specs (path ++ [name])).length < (outside specs path).length := by
  have member := List.mem_of_find?_eq_some found
  have named : spec.name = name := by simpa using List.find?_some found
  have split : outside specs (path ++ [name]) =
      (outside specs path).filter fun other => other.name ≠ name := by
    simp only [outside, List.filter_filter]
    apply List.filter_congr
    intro other _
    simp [and_comm]
  rw [split]
  apply List.length_filter_lt_length_iff_exists.2
  exact ⟨spec, by simp [outside, member, named, fresh], by simp [named]⟩

/-- The names from the first occurrence of `name` on the path, and `name` again. -/
def cycleAt (path : List String) (name : String) : List String :=
  path.dropWhile (· ≠ name) ++ [name]

mutual

/-- List a unit after everything it depends on. `path` leads to the unit from the one where the
search began. -/
def visit (specs : List Spec) (path listed : List String) (name : String) :
    Outcome (List String) :=
  if name ∈ listed then .ok listed
  else if name ∈ path then .error (.graph (.cycle (cycleAt path name)))
  else match _found : Spec.find? specs name with
    | none => .ok listed
    | some spec =>
        match visitAll specs (path ++ [name]) listed spec.dependencies with
        | .error error => .error error
        | .ok below => .ok (below ++ [name])
termination_by ((outside specs path).length, 0)
decreasing_by
  apply Prod.Lex.left
  apply outside_lt <;> assumption

/-- List several units, first to last. -/
def visitAll (specs : List Spec) (path listed : List String) :
    List String → Outcome (List String)
  | [] => .ok listed
  | name :: rest =>
      match visit specs path listed name with
      | .error error => .error error
      | .ok more => visitAll specs path more rest
termination_by names => ((outside specs path).length, names.length + 1)

end

/-- The names of all units in execution order. -/
def ofSpecs (specs : List Spec) : Outcome (List String) :=
  visitAll specs [] [] (specs.map (·.name))

end Order

end ProofBuild
