import ProofBuild.Proofs.Reached

/-!
Closures as answers to requests. A request fails exactly when it has an unknown name, and the first such
name is blamed. A request that succeeds gets a part of the graph that is fixed by what the names reach, so
neither order nor repetition matters, and a closure is its own closure. Main statement:
`Graph.closure_exact`.
-/

namespace ProofBuild

namespace Graph

section Names
variable {graph : Graph} {names : List String}

theorem closure_nil (graph : Graph) : graph.closure [] = .ok graph.crates := rfl

/-- The first unknown name is the error of a request. -/
theorem closure_eq_error_iff {error : Error} :
    graph.closure names = .error error ↔
      ∃ before name after, names = before ++ name :: after ∧ (∀ known ∈ before, graph.Known known) ∧
        ¬ graph.Known name ∧ error = .config (.unknownUnit name) := by
  unfold closure
  split
  · rename_i all
    simp [all]
  · constructor
    · intro failed
      split at failed
      · rename_i name found
        cases failed
        rcases List.find?_eq_some_iff_append.mp found with ⟨unknown, before, after, rfl, others⟩
        refine ⟨before, name, after, rfl, fun known given => ?_, isNone_find?_iff.mp unknown, rfl⟩
        simpa [isSome_find?_iff] using others known given
      · cases failed
    · rintro ⟨before, name, after, rfl, known, unknown, rfl⟩
      have found : (before ++ name :: after).find? (fun name => (graph.find? name).isNone) =
          some name := by
        refine List.find?_eq_some_iff_append.mpr
          ⟨isNone_find?_iff.mpr unknown, before, after, rfl, fun other given => ?_⟩
        simpa [isSome_find?_iff] using known other given
      rw [found]

/-- Closures with the same crates are the same list. -/
theorem closure_ext {others : List String} {one two : List Crate}
    (first : graph.closure names = .ok one) (second : graph.closure others = .ok two)
    (same : ∀ crate, crate ∈ one ↔ crate ∈ two) : one = two := by
  rcases eq_filter_of_closure first with ⟨test, rfl⟩
  rcases eq_filter_of_closure second with ⟨otherTest, rfl⟩
  apply List.filter_congr
  intro crate inside
  have passes := same crate
  simp only [List.mem_filter, inside, true_and] at passes
  exact Bool.eq_iff_iff.mpr passes

end Names

section Accepted
variable {specs : List Spec} {directory : Path} {graph : Graph}
  (accepted : ofSpecs specs directory = .ok graph)
include accepted

/-- Requests for the same names have the same closure. -/
theorem closure_eq_of_same_names {names others : List String}
    (same : ∀ name, name ∈ others ↔ name ∈ names) {selected : List Crate}
    (chosen : graph.closure names = .ok selected) : graph.closure others = .ok selected := by
  by_cases all : names = []
  · have none : others = [] := by
      apply List.eq_nil_iff_forall_not_mem.mpr
      simpa [all] using same
    rw [none, ← all]
    exact chosen
  · have some : others ≠ [] := by
      rintro rfl
      exact all (List.eq_nil_iff_forall_not_mem.mpr fun name => by simpa using same name)
    have known := exists_closure_eq_ok_iff.mp ⟨selected, chosen⟩
    rcases exists_closure_eq_ok_iff.mpr fun name given => known name ((same name).mp given) with
      ⟨other, chosenToo⟩
    rw [chosenToo, closure_ext chosenToo chosen fun crate => ?_]
    simp only [mem_closure_iff accepted some chosenToo, mem_closure_iff accepted all chosen, same]

/-- The names of a closure request the closure again. -/
theorem closure_map_name {names : List String} (some : names ≠ []) {selected : List Crate}
    (chosen : graph.closure names = .ok selected) :
    graph.closure (selected.map (·.name)) = .ok selected := by
  have isReached : ∀ crate, crate ∈ selected ↔ crate ∈ graph.crates ∧
      ∃ name ∈ names, Relation.ReflTransGen (Spec.Needs specs) name crate.name :=
    fun crate => mem_closure_iff accepted some chosen
  have known : ∀ name ∈ selected.map (·.name), graph.Known name := by
    intro name given
    rcases List.mem_map.mp given with ⟨crate, member, named⟩
    exact ⟨crate, ((isReached crate).mp member).1, named⟩
  rcases exists_closure_eq_ok_iff.mpr known with ⟨again, chosenAgain⟩
  have requested : selected.map (·.name) ≠ [] := by
    rcases List.exists_mem_of_ne_nil names some with ⟨name, given⟩
    rcases exists_closure_eq_ok_iff.mp ⟨selected, chosen⟩ name given with ⟨crate, inside, named⟩
    have member : crate ∈ selected := (isReached crate).mpr ⟨inside, name, given, named ▸ .refl⟩
    exact List.ne_nil_of_mem (List.mem_map_of_mem member)
  rw [chosenAgain, closure_ext chosenAgain chosen fun crate => ?_]
  rw [mem_closure_iff accepted requested chosenAgain, isReached]
  constructor
  · rintro ⟨inside, name, given, onward⟩
    rcases List.mem_map.mp given with ⟨start, member, rfl⟩
    rcases (isReached start).mp member with ⟨_, origin, asked, reached⟩
    exact ⟨inside, origin, asked, reached.trans onward⟩
  · rintro ⟨inside, name, given, reached⟩
    have member := (isReached crate).mpr ⟨inside, name, given, reached⟩
    exact ⟨inside, crate.name, List.mem_map_of_mem member, .refl⟩

end Accepted

/-- A request fails exactly when a name is unknown, and the first such name is blamed. No names stand for
all crates. Any other request gets the crates that its names reach through declared dependencies, each once
and after all that it depends on, in execution order. Only the set of names matters, and the names of a
closure have that closure. -/
theorem closure_exact {specs : List Spec} {directory : Path} {graph : Graph}
    (accepted : ofSpecs specs directory = .ok graph) (names : List String) :
    ((∃ selected, graph.closure names = .ok selected) ↔ ∀ name ∈ names, graph.Known name) ∧
      (∀ error, graph.closure names = .error error ↔
        ∃ before name after, names = before ++ name :: after ∧
          (∀ known ∈ before, graph.Known known) ∧ ¬ graph.Known name ∧
          error = .config (.unknownUnit name)) ∧
      (names = [] → graph.closure names = .ok graph.crates) ∧
      ∀ selected, graph.closure names = .ok selected →
        selected.Sublist graph.crates ∧ selected.Nodup ∧
        (∀ before crate after, selected = before ++ crate :: after →
          ∀ lower ∈ graph.dependencies crate, lower ∈ before) ∧
        (∀ others, (∀ name, name ∈ others ↔ name ∈ names) → graph.closure others = .ok selected) ∧
        (names ≠ [] →
          (∀ crate, crate ∈ selected ↔ crate ∈ graph.crates ∧
            ∃ name ∈ names, Relation.ReflTransGen (Spec.Needs specs) name crate.name) ∧
          graph.closure (selected.map (·.name)) = .ok selected) := by
  have settled := (settled_of_ofSpecs accepted).1
  refine ⟨exists_closure_eq_ok_iff, fun error => closure_eq_error_iff, ?_, ?_⟩
  · rintro rfl
    exact closure_nil graph
  · intro selected chosen
    rcases closed_of_closure settled chosen with ⟨part, closed⟩
    have distinct : selected.Nodup := (settled.nodup_names.of_map _).sublist part
    refine ⟨part, distinct, ?_, ?_, ?_⟩
    · intro before crate after place lower direct
      have chosenLower := closed crate (by simp [place]) lower (.single direct)
      exact settled.mem_before part place chosenLower ((mem_dependencies_iff settled).mp direct).2
    · exact fun others same => closure_eq_of_same_names accepted same chosen
    · intro some
      exact ⟨fun crate => mem_closure_iff accepted some chosen, closure_map_name accepted some chosen⟩

/-- The upper crate of a tandem is closed by the lower one, which comes first. -/
theorem closure_exact_tandem :
    ofSpecs tandemSpecs ⟨"out"⟩ = .ok tandem ∧ tandem.closure ["app"] = .ok tandem.crates ∧
      tandem.closure ["core", "app", "core"] = .ok tandem.crates ∧
      tandem.closure ["app", "shell", "web"] = .error (.config (.unknownUnit "shell")) := by
  have chosen : tandem.closure ["app"] = .ok tandem.crates := by decide
  rcases closure_exact ofSpecs_tandemSpecs ["app"] with ⟨_, _, _, chosenOnly⟩
  rcases chosenOnly tandem.crates chosen with ⟨_, _, _, _, reached⟩
  rcases closure_exact ofSpecs_tandemSpecs ["core", "app"] with ⟨_, _, _, bothChosen⟩
  rcases bothChosen tandem.crates (reached (by decide)).2 with ⟨_, _, _, sameNames, _⟩
  rcases closure_exact ofSpecs_tandemSpecs ["app", "shell", "web"] with ⟨_, fails, _, _⟩
  refine ⟨ofSpecs_tandemSpecs, chosen, ?_, ?_⟩
  · apply sameNames
    intro name
    simp [or_comm, or_left_comm]
  · apply (fails _).mpr
    exact ⟨["app"], "shell", ["web"], rfl, by decide, by decide, rfl⟩

end Graph

end ProofBuild
