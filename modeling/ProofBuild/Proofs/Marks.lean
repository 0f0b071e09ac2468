import ProofBuild.Proofs.Cycles

/-!
The search with marks. `Order.visit` hands a path down and a list on, and reads off them where a name
stands. Here a name is marked when the search comes to it and again when the search leaves it, names go
on and off one path that all visits share, and a cycle begins at an index, which is zero when the name
is not on the path. Main statement: for units whose dependencies are all declared, the search with marks
ends in one way and no other, with the order or the error of `Order.ofSpecs` (`visits_iff_ofSpecs`).
-/

namespace ProofBuild.Order

/-- Where a name stands that the search has come to. -/
inductive Mark where
  | visiting
  | done

structure Search where
  marks : String → Option Mark
  path : List String
  order : List String

namespace Search

def start : Search := ⟨fun _ => none, [], []⟩

def enter (search : Search) (name : String) : Search where
  marks := Function.update search.marks name (some .visiting)
  path := search.path ++ [name]
  order := search.order

def leave (search : Search) (name : String) : Search where
  marks := Function.update search.marks name (some .done)
  path := search.path.dropLast
  order := search.order ++ [name]

def cycle (search : Search) (name : String) : List String :=
  search.path.drop ((search.path.findIdx? (· = name)).getD 0) ++ [name]

end Search

/-- The names below a name; a name that is not declared has none. -/
def below (specs : List Spec) (name : String) : List String :=
  ((Spec.find? specs name).map (·.dependencies)).getD []

/-- How a search of several names, first to last, ends. There is no relation for one name beside it, so
`induction` goes alike over the visits below a name and over those after it. -/
inductive Visits (specs : List Spec) : Search → List String → Outcome Search → Prop where
  | nil {search : Search} : Visits specs search [] (.ok search)
  | done {search : Search} {name : String} {rest : List String} {result : Outcome Search}
      (marked : search.marks name = some .done) (later : Visits specs search rest result) :
      Visits specs search (name :: rest) result
  | cycle {search : Search} {name : String} {rest : List String}
      (marked : search.marks name = some .visiting) :
      Visits specs search (name :: rest) (.error (.graph (.cycle (search.cycle name))))
  | unit {search deeper : Search} {name : String} {rest : List String} {result : Outcome Search}
      (fresh : search.marks name = none)
      (inner : Visits specs (search.enter name) (below specs name) (.ok deeper))
      (later : Visits specs (deeper.leave name) rest result) :
      Visits specs search (name :: rest) result
  | failed {search : Search} {name : String} {rest : List String} {error : Error}
      (fresh : search.marks name = none)
      (inner : Visits specs (search.enter name) (below specs name) (.error error)) :
      Visits specs search (name :: rest) (.error error)

variable {specs : List Spec} {path listed : List String} {name : String}

theorem below_eq {spec : Spec} (found : Spec.find? specs name = some spec) :
    below specs name = spec.dependencies := by
  rw [below, found, Option.map_some, Option.getD_some]

theorem Visits.unique {search : Search} {names : List String} {one two : Outcome Search}
    (first : Visits specs search names one) (second : Visits specs search names two) : one = two := by
  induction first generalizing two with
  | nil =>
      cases second
      rfl
  | done marked _ ih =>
      cases second with
      | done _ later => exact ih later
      | cycle other => simp [marked] at other
      | unit other | failed other => simp [marked] at other
  | cycle marked =>
      cases second with
      | done other => simp [marked] at other
      | cycle => rfl
      | unit other | failed other => simp [marked] at other
  | unit fresh _ _ ihInner ihLater =>
      cases second with
      | done other | cycle other => simp [fresh] at other
      | unit _ inner later =>
          cases ihInner inner
          exact ihLater later
      | failed _ inner => cases ihInner inner
  | failed fresh _ ih =>
      cases second with
      | done other | cycle other => simp [fresh] at other
      | unit _ inner => cases ih inner
      | failed _ inner => exact ih inner

/-- The search with marks where `visit` has this path and this list. -/
def Search.of (path listed : List String) : Search where
  marks name := if name ∈ listed then some .done else if name ∈ path then some .visiting else none
  path := path
  order := listed

theorem Search.start_eq : start = of [] [] := by
  simp [start, of]

theorem Search.enter_of (fresh : name ∉ listed) :
    (of path listed).enter name = of (path ++ [name]) listed := by
  have marks : ((of path listed).enter name).marks = (of (path ++ [name]) listed).marks := by
    funext other
    by_cases same : other = name
    · simp [enter, of, same, fresh]
    · simp [enter, of, same]
  simpa [enter, of] using marks

theorem Search.leave_of :
    (of (path ++ [name]) listed).leave name = of path (listed ++ [name]) := by
  have marks : ((of (path ++ [name]) listed).leave name).marks = (of path (listed ++ [name])).marks := by
    funext other
    by_cases same : other = name
    · simp [leave, of, same]
    · simp [leave, of, same]
  simpa [leave, of] using marks

/-- A name on the path has an index there, so the search never begins a cycle at zero for want of one. -/
theorem Search.cycle_of (member : name ∈ path) : (of path listed).cycle name = cycleAt path name := by
  have place : path.findIdx (· = name) < path.length :=
    List.findIdx_lt_length_of_exists ⟨name, member, by simp⟩
  have found := List.findIdx?_eq_some_iff_findIdx_eq.mpr ⟨place, rfl⟩
  simp [cycle, of, found, cycleAt, List.dropWhile_eq_drop_findIdx_not]

/-- A visit of one name as the first of several. -/
def Opens (specs : List Spec) (path listed : List String) (name : String) :
    Outcome (List String) → Prop
  | .ok more => ∀ rest result, Visits specs (.of path more) rest result →
      Visits specs (.of path listed) (name :: rest) result
  | .error error => ∀ rest, Visits specs (.of path listed) (name :: rest) (.error error)

section Declared
variable (known : ∀ spec ∈ specs, ∀ name ∈ spec.dependencies, name ∈ specs.map (·.name))
include known

theorem visits_of_visit :
    (∀ path listed name, name ∈ specs.map (·.name) →
      Opens specs path listed name (visit specs path listed name)) ∧
    ∀ path listed names, (∀ name ∈ names, name ∈ specs.map (·.name)) →
      Visits specs (.of path listed) names ((visitAll specs path listed names).map (.of path)) := by
  apply visit.mutual_induct
  case case1 =>
    -- The name is done.
    intro path listed name member _
    rw [visit, if_pos member]
    intro rest result later
    exact .done (by simp [Search.of, member]) later
  case case2 =>
    -- The name is being searched.
    intro path listed name fresh member _
    rw [visit, if_neg fresh, if_pos member]
    have closes : (Search.of path listed).cycle name = cycleAt path name := Search.cycle_of member
    intro rest
    rw [← closes]
    exact .cycle (by simp [Search.of, fresh, member])
  case case3 =>
    -- A declared name is looked up with success.
    intro path listed name fresh away absent declared
    rw [← Spec.find?_isSome_iff, absent] at declared
    cases declared
  case case4 =>
    -- The error comes from below the name.
    intro path listed name fresh away spec found error failed ih declared
    have inside := (Spec.find?_eq_some found).1
    have inner := ih (known spec inside)
    rw [failed, ← below_eq found, ← Search.enter_of fresh] at inner
    rw [visit_of_find? fresh away found, failed]
    intro rest
    exact .failed (by simp [Search.of, fresh, away]) inner
  case case5 =>
    -- All below the name is done.
    intro path listed name fresh away spec found more listing ih declared
    have inside := (Spec.find?_eq_some found).1
    have inner := ih (known spec inside)
    rw [listing, ← below_eq found, ← Search.enter_of fresh] at inner
    rw [visit_of_find? fresh away found, listing]
    intro rest result later
    rw [← Search.leave_of] at later
    exact .unit (by simp [Search.of, fresh, away]) inner later
  case case6 =>
    -- No name is left.
    intro path listed _
    rw [visitAll]
    exact .nil
  case case7 =>
    -- The error comes from the first name.
    intro path listed name rest error failed ih declared
    have opens := ih (declared name List.mem_cons_self)
    rw [failed] at opens
    rw [visitAll, failed]
    exact opens rest
  case case8 =>
    -- The first name is done, and others follow.
    intro path listed name rest more listing ih ihRest declared
    have opens := ih (declared name List.mem_cons_self)
    rw [listing] at opens
    rw [visitAll, listing]
    exact opens rest _ (ihRest fun other member => declared other (List.mem_cons_of_mem name member))

end Declared

/-- With all dependencies declared, the search with marks over all units ends, and only so: as the search
for an execution order ends, with every listed name marked as done, no other name marked, and no name left
on the path. -/
theorem visits_iff_ofSpecs
    (known : ∀ spec ∈ specs, ∀ name ∈ spec.dependencies, ∃ lower ∈ specs, lower.name = name)
    (result : Outcome Search) :
    Visits specs .start (specs.map (·.name)) result ↔ result = (ofSpecs specs).map (.of []) := by
  have declared : ∀ spec ∈ specs, ∀ name ∈ spec.dependencies, name ∈ specs.map (·.name) := by
    intro spec inside name wanted
    exact List.mem_map.mpr (known spec inside name wanted)
  have ends : Visits specs .start (specs.map (·.name)) ((ofSpecs specs).map (.of [])) := by
    rw [Search.start_eq]
    exact (visits_of_visit declared).2 [] [] _ fun _ member => member
  constructor
  · exact fun other => other.unique ends
  · rintro rfl
    exact ends

end ProofBuild.Order
