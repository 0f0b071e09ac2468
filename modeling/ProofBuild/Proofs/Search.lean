import Mathlib.Data.List.Nodup
import Mathlib.Logic.Relation
import ProofBuild.Graph.Order

/-!
The search for an execution order. What it lists is ordered: every name comes after the names its
unit needs. It stops only at a cycle, and an ordered list of all names leaves no room for one, so
the search succeeds exactly when the declared dependencies have no cycle (`exists_ofSpecs_eq_ok_iff`). The
units are known by their names here, so no two of them may share one.
-/

namespace ProofBuild

namespace Spec

/-- A declared unit of the one name lists the other name as a dependency. -/
def Needs (specs : List Spec) (upper lower : String) : Prop :=
  ∃ spec ∈ specs, spec.name = upper ∧ lower ∈ spec.dependencies

/-- No unit needs itself, directly or through others. -/
def Acyclic (specs : List Spec) : Prop :=
  ∀ name, ¬ Relation.TransGen (Needs specs) name name

theorem find?_eq_some {specs : List Spec} {name : String} {spec : Spec}
    (found : find? specs name = some spec) : spec ∈ specs ∧ spec.name = name :=
  ⟨List.mem_of_find?_eq_some found, by simpa using List.find?_some found⟩

theorem find?_isSome_iff {specs : List Spec} {name : String} :
    (find? specs name).isSome = true ↔ name ∈ specs.map (·.name) := by
  simp [find?, List.find?_isSome]

section Distinct
variable {specs : List Spec} (distinct : (specs.map (·.name)).Nodup)
include distinct

theorem find?_name {spec : Spec} (member : spec ∈ specs) : find? specs spec.name = some spec := by
  have named : spec.name ∈ specs.map (·.name) := List.mem_map.mpr ⟨spec, member, rfl⟩
  obtain ⟨other, found⟩ := Option.isSome_iff_exists.mp (find?_isSome_iff.mpr named)
  obtain ⟨inside, same⟩ := find?_eq_some found
  rw [found, List.inj_on_of_nodup_map distinct inside member same]

theorem needs_iff {name lower : String} {spec : Spec} (found : find? specs name = some spec) :
    Needs specs name lower ↔ lower ∈ spec.dependencies := by
  obtain ⟨inside, named⟩ := find?_eq_some found
  constructor
  · rintro ⟨other, member, same, wanted⟩
    have both : other = spec := List.inj_on_of_nodup_map distinct member inside (same.trans named.symm)
    exact both ▸ wanted
  · intro wanted
    exact ⟨spec, inside, named, wanted⟩

theorem filterMap_find?_names : (specs.map (·.name)).filterMap (find? specs) = specs := by
  rw [List.filterMap_map]
  have each : ∀ spec ∈ specs, (find? specs ∘ fun spec => spec.name) spec = some spec := by
    intro spec member
    exact find?_name distinct member
  rw [List.filterMap_congr each, List.filterMap_some]

end Distinct

end Spec

namespace Order

/-- Names listed one after the other, each on top of those its unit needs. -/
inductive Ordered (specs : List Spec) : List String → Prop where
  | none : Ordered specs []
  | next {listed : List String} {name : String} (below : Ordered specs listed)
      (fresh : name ∉ listed) (declared : name ∈ specs.map (·.name))
      (ready : ∀ lower, Spec.Needs specs name lower → lower ∈ listed) :
      Ordered specs (listed ++ [name])

namespace Ordered
variable {specs : List Spec} {listed : List String} (ordered : Ordered specs listed)
include ordered

theorem nodup : listed.Nodup := by
  induction ordered with
  | none => exact List.nodup_nil
  | next below fresh declared ready ih =>
      apply List.nodup_append.mpr
      refine ⟨ih, List.nodup_singleton _, ?_⟩
      intro earlier member last final same
      rw [List.mem_singleton.mp final] at same
      exact fresh (same ▸ member)

theorem declared_of_mem : ∀ name ∈ listed, name ∈ specs.map (·.name) := by
  induction ordered with
  | none => simp
  | next below fresh declared ready ih =>
      intro name member
      rcases List.mem_append.mp member with old | new
      · exact ih name old
      · rw [List.mem_singleton.mp new]
        exact declared

/-- Whatever a listed name reaches is listed, and it is another name. -/
theorem reaches {upper lower : String} (member : upper ∈ listed)
    (below : Relation.TransGen (Spec.Needs specs) upper lower) : lower ∈ listed ∧ lower ≠ upper := by
  induction ordered generalizing upper with
  | none => cases member
  | @next listed name earlier fresh declared ready ih =>
      rcases List.mem_append.mp member with old | new
      · obtain ⟨inside, other⟩ := ih old below
        exact ⟨List.mem_append_left _ inside, other⟩
      · cases List.mem_singleton.mp new
        -- The first step down from the last name leads into the names before it.
        have inside : lower ∈ listed := by
          obtain ⟨middle, first, rest⟩ := Relation.TransGen.head'_iff.mp below
          rcases Relation.reflTransGen_iff_eq_or_transGen.mp rest with same | further
          · exact same ▸ ready middle first
          · exact (ih (ready middle first) further).1
        refine ⟨List.mem_append_left _ inside, ?_⟩
        intro same
        exact fresh (same ▸ inside)

/-- Where all names are listed in order, there is no cycle. -/
theorem acyclic (all : ∀ name ∈ specs.map (·.name), name ∈ listed) : Spec.Acyclic specs := by
  intro name cycle
  obtain ⟨middle, ⟨spec, inside, named, _⟩, _⟩ := Relation.TransGen.head'_iff.mp cycle
  have member : name ∈ listed := all name (List.mem_map.mpr ⟨spec, inside, named⟩)
  exact (ordered.reaches member cycle).2 rfl

end Ordered

/-- What holds when these names are to be listed: the names on the path are not listed yet, and each
of them reaches the names to come. -/
structure Underway (specs : List Spec) (path listed names : List String) : Prop where
  ordered : Ordered specs listed
  away : ∀ other ∈ path, other ∉ listed
  declared : ∀ name ∈ names, name ∈ specs.map (·.name)
  reached : ∀ name ∈ names, ∀ other ∈ path, Relation.TransGen (Spec.Needs specs) other name

/-- What the search may answer then. -/
def Searched (specs : List Spec) (path listed names : List String) :
    Outcome (List String) → Prop
  | .ok more => Ordered specs more ∧ listed ⊆ more ∧ (∀ other ∈ path, other ∉ more) ∧
      ∀ name ∈ names, name ∈ more
  | .error _ => ¬ Spec.Acyclic specs

theorem visit_of_find? {specs : List Spec} {path listed : List String} {name : String} {spec : Spec}
    (fresh : name ∉ listed) (away : name ∉ path) (found : Spec.find? specs name = some spec) :
    visit specs path listed name =
      match visitAll specs (path ++ [name]) listed spec.dependencies with
      | .error error => .error error
      | .ok below => .ok (below ++ [name]) := by
  rw [visit, if_neg fresh, if_neg away]
  split
  · rename_i absent
    rw [found] at absent
    cases absent
  · rename_i other same
    rw [found] at same
    cases same
    rfl

theorem Underway.only {specs : List Spec} {path listed names fewer : List String}
    (underway : Underway specs path listed names) (part : fewer ⊆ names) :
    Underway specs path listed fewer := by
  constructor
  · exact underway.ordered
  · exact underway.away
  · exact fun name member => underway.declared name (part member)
  · exact fun name member => underway.reached name (part member)

section Search
variable {specs : List Spec} (distinct : (specs.map (·.name)).Nodup)
  (known : ∀ upper lower, Spec.Needs specs upper lower → lower ∈ specs.map (·.name))
include distinct known

theorem Underway.below {path listed : List String} {name : String} {spec : Spec}
    (underway : Underway specs path listed [name]) (fresh : name ∉ listed)
    (found : Spec.find? specs name = some spec) :
    Underway specs (path ++ [name]) listed spec.dependencies := by
  have needed : ∀ lower ∈ spec.dependencies, Spec.Needs specs name lower := by
    intro lower wanted
    exact (Spec.needs_iff distinct found).mpr wanted
  constructor
  · exact underway.ordered
  · intro other member
    rcases List.mem_append.mp member with earlier | last
    · exact underway.away other earlier
    · rw [List.mem_singleton.mp last]
      exact fresh
  · intro lower wanted
    exact known name lower (needed lower wanted)
  · intro lower wanted other member
    rcases List.mem_append.mp member with earlier | last
    · exact (underway.reached name List.mem_cons_self other earlier).tail (needed lower wanted)
    · rw [List.mem_singleton.mp last]
      exact .single (needed lower wanted)

/-- The search lists names in order, or it has met a cycle. -/
theorem searched_visit :
    (∀ path listed name, Underway specs path listed [name] →
      Searched specs path listed [name] (visit specs path listed name)) ∧
    ∀ path listed names, Underway specs path listed names →
      Searched specs path listed names (visitAll specs path listed names) := by
  apply visit.mutual_induct
  case case1 =>
    -- The name is listed already.
    intro path listed name member underway
    rw [visit, if_pos member]
    exact ⟨underway.ordered, List.Subset.refl _, underway.away, by simpa using member⟩
  case case2 =>
    -- The name is on the path, so it reaches itself.
    intro path listed name fresh member underway
    rw [visit, if_neg fresh, if_pos member]
    intro acyclic
    exact acyclic name (underway.reached name List.mem_cons_self name member)
  case case3 =>
    -- A declared name is looked up with success.
    intro path listed name fresh away absent underway
    have declared := underway.declared name List.mem_cons_self
    rw [← Spec.find?_isSome_iff, absent] at declared
    cases declared
  case case4 =>
    -- A cycle has been met below the name.
    intro path listed name fresh away spec found error failed ih underway
    have searched := ih (underway.below distinct known fresh found)
    rw [visit_of_find? fresh away found, failed]
    rw [failed] at searched
    exact searched
  case case5 =>
    -- All that the name needs is listed, so it comes next.
    intro path listed name fresh away spec found below listing ih underway
    have searched := ih (underway.below distinct known fresh found)
    rw [visit_of_find? fresh away found, listing]
    rw [listing] at searched
    obtain ⟨ordered, grown, apart, ready⟩ := searched
    have declared := underway.declared name List.mem_cons_self
    refine ⟨.next ordered (apart name (by simp)) declared ?_, ?_, ?_, by simp⟩
    · intro lower needed
      exact ready lower ((Spec.needs_iff distinct found).mp needed)
    · exact List.subset_append_of_subset_left _ grown
    · intro other member listed
      rcases List.mem_append.mp listed with old | new
      · exact apart other (List.mem_append_left _ member) old
      · rw [List.mem_singleton.mp new] at member
        exact away member
  case case6 =>
    -- No name is left.
    intro path listed underway
    rw [visitAll]
    exact ⟨underway.ordered, List.Subset.refl _, underway.away, by simp⟩
  case case7 =>
    -- A cycle has been met below the first name.
    intro path listed name rest error failed ih underway
    have searched := ih (underway.only (by simp))
    rw [visitAll, failed]
    rw [failed] at searched
    exact searched
  case case8 =>
    -- The first name is listed, and the search goes on from there.
    intro path listed name rest more listing ih ihRest underway
    have searched := ih (underway.only (by simp))
    rw [listing] at searched
    obtain ⟨ordered, grown, apart, ready⟩ := searched
    have later := underway.only (List.subset_cons_self name rest)
    have onward : Underway specs path more rest := ⟨ordered, apart, later.declared, later.reached⟩
    have others := ihRest onward
    rw [visitAll, listing]
    dsimp only
    revert others
    cases visitAll specs path more rest with
    | error error => exact id
    | ok final =>
        rintro ⟨finalOrdered, finalGrown, finalApart, finalReady⟩
        refine ⟨finalOrdered, List.Subset.trans grown finalGrown, finalApart, ?_⟩
        intro other member
        rcases List.mem_cons.mp member with same | later
        · rw [same]
          exact finalGrown (ready name List.mem_cons_self)
        · exact finalReady other later

theorem searched_ofSpecs : Searched specs [] [] (specs.map (·.name)) (ofSpecs specs) := by
  apply (searched_visit distinct known).2
  constructor
  · exact .none
  · simp
  · exact fun _ declared => declared
  · simp

theorem of_ofSpecs_eq_ok {names : List String} (listing : ofSpecs specs = .ok names) :
    Ordered specs names ∧ names.Perm (specs.map (·.name)) := by
  have searched := searched_ofSpecs distinct known
  rw [listing] at searched
  obtain ⟨ordered, _, _, all⟩ := searched
  refine ⟨ordered, (List.perm_ext_iff_of_nodup ordered.nodup distinct).mpr ?_⟩
  intro name
  exact ⟨ordered.declared_of_mem name, all name⟩

/-- An execution order is found exactly when there is no cycle. -/
theorem exists_ofSpecs_eq_ok_iff : (∃ names, ofSpecs specs = .ok names) ↔ Spec.Acyclic specs := by
  constructor
  · rintro ⟨names, listing⟩
    obtain ⟨ordered, permutation⟩ := of_ofSpecs_eq_ok distinct known listing
    apply ordered.acyclic
    intro name declared
    exact permutation.mem_iff.mpr declared
  · intro acyclic
    have searched := searched_ofSpecs distinct known
    cases listing : ofSpecs specs with
    | ok names => exact ⟨names, rfl⟩
    | error error =>
        rw [listing] at searched
        exact absurd acyclic searched

end Search

end Order

end ProofBuild
