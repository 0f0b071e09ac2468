import ProofBuild.Proofs.Runs

/-!
The invocations of a build, crate by crate. The journal splits what a build adds to the invocations
into what each turn adds. Main statement: in a build of a closure every crate is invoked at most
once, in the order of the selection, and only after all crates below it have succeeded in that same
build. No verifier runs above a failure, whatever lies at the markers.
-/

namespace ProofBuild

namespace Context

variable {context : Context} {graph : Graph}

/-- The invocations that each crate's turn adds, turn by turn. -/
def journal (context : Context) (graph : Graph) :
    List Crate → State → List (Crate × List Invocation)
  | [], _ => []
  | crate :: rest, state =>
      let after := (context.buildCrate graph crate state).1
      (crate, after.world.calls.drop state.world.calls.length) :: journal context graph rest after

theorem journal_append (one two : List Crate) (state : State) :
    context.journal graph (one ++ two) state =
      context.journal graph one state ++
        context.journal graph two (context.buildAll graph one state).1 := by
  induction one generalizing state with
  | nil => rfl
  | cons crate rest ih => rw [List.cons_append, journal, ih, buildAll_cons]; rfl

theorem map_fst_journal (context : Context) (graph : Graph) (crates : List Crate) (state : State) :
    (context.journal graph crates state).map (·.1) = crates := by
  induction crates generalizing state with
  | nil => rfl
  | cons crate rest ih => rw [journal, List.map_cons, ih]

/-- The journal has one entry for each turn. -/
theorem of_mem_journal {crates : List Crate} {state : State} {crate : Crate}
    {invocations : List Invocation}
    (listed : (crate, invocations) ∈ context.journal graph crates state) :
    ∃ before after, crates = before ++ crate :: after ∧
      invocations =
        (context.buildCrate graph crate (context.buildAll graph before state).1).1.world.calls.drop
          (context.buildAll graph before state).1.world.calls.length := by
  induction crates generalizing state with
  | nil => cases listed
  | cons first rest ih =>
      rw [journal] at listed
      rcases List.mem_cons.mp listed with same | later
      · cases same
        exact ⟨[], rest, rfl, rfl⟩
      · obtain ⟨before, after, rfl, added⟩ := ih later
        exact ⟨first :: before, after, rfl, added⟩

/-- A turn adds to the invocations what the journal says. -/
theorem calls_buildCrate (crate : Crate) (state : State) :
    (context.buildCrate graph crate state).1.world.calls = state.world.calls ++
      (context.buildCrate graph crate state).1.world.calls.drop state.world.calls.length := by
  rcases (turn_buildCrate context graph crate state).calls_cases with same | ⟨_, _, _, called⟩
  · simp [same]
  · simp [called]

/-- The journal is all that a build adds to the invocations. -/
theorem calls_buildAll (crates : List Crate) (state : State) :
    (context.buildAll graph crates state).1.world.calls =
      state.world.calls ++ (context.journal graph crates state).flatMap (·.2) := by
  induction crates generalizing state with
  | nil => simp [journal]
  | cons crate rest ih =>
      rw [buildAll_cons, ih, calls_buildCrate, journal, List.flatMap_cons, List.append_assoc]

/-- An entry of the journal tells of the turn after those before it. -/
theorem journal_at {before after : List (Crate × List Invocation)} {selected : List Crate}
    {state : State} {crate : Crate} {invocations : List Invocation}
    (place : context.journal graph selected state = before ++ (crate, invocations) :: after) :
    selected = before.map (·.1) ++ crate :: after.map (·.1) ∧
      (context.buildCrate graph crate
          (context.buildAll graph (before.map (·.1)) state).1).1.world.calls =
        (context.buildAll graph (before.map (·.1)) state).1.world.calls ++ invocations := by
  have crates := map_fst_journal context graph selected state
  rw [place, List.map_append, List.map_cons] at crates
  refine ⟨crates.symm, ?_⟩
  rw [← crates, journal_append, journal] at place
  -- Both splits of the journal have the same number of turns before this one.
  have lengths := congrArg List.length
    (map_fst_journal context graph (before.map (·.1)) state)
  simp only [List.length_map] at lengths
  have entry := (List.cons.inj (List.append_inj place lengths).2).1
  simp only [Prod.mk.injEq, true_and] at entry
  rw [← entry]
  exact calls_buildCrate ..

/-- A turn that invokes the verifier does so once, for a prepared task with a fingerprint. -/
theorem journal_cases {before after : List (Crate × List Invocation)} {selected : List Crate}
    {state : State} {crate : Crate} {invocations : List Invocation}
    (place : context.journal graph selected state = before ++ (crate, invocations) :: after) :
    selected = before.map (·.1) ++ crate :: after.map (·.1) ∧
      (invocations = [] ∨ ∃ prepared print,
        Printed context graph crate (context.buildAll graph (before.map (·.1)) state).1 prepared
            print ∧
          invocations = [prepared.invocation]) := by
  obtain ⟨split, added⟩ := journal_at place
  refine ⟨split, ?_⟩
  rcases (turn_buildCrate context graph crate _).calls_cases with
    same | ⟨prepared, print, printed, called⟩
  · exact .inl (List.append_right_eq_self.mp (added.symm.trans same))
  · exact .inr ⟨prepared, print, printed, List.append_cancel_left (added.symm.trans called)⟩

/-- In a build of a closure the verifier runs for a crate only when everything below the crate has
succeeded already. Every crate is invoked at most once, and the invocations follow the selection. -/
theorem invoked_only_above_success {specs : List Spec} {directory : Path} {graph : Graph}
    {names : List String} {selected : List Crate}
    (accepted : Graph.ofSpecs specs directory = .ok graph)
    (plain : ∀ spec ∈ specs, '/' ∉ spec.name.toList) (inward : directory.Inward)
    (chosen : graph.closure names = .ok selected) (context : Context) (state : State) :
    (context.build graph selected state).1.world.calls =
        state.world.calls ++ (context.journal graph selected state).flatMap (·.2) ∧
      (context.journal graph selected state).map (·.1) = selected ∧ selected.Nodup ∧
      ∀ before crate invocations after,
        context.journal graph selected state = before ++ (crate, invocations) :: after →
          invocations.length ≤ 1 ∧
            (∀ invocation ∈ invocations, ∃ environment,
              invocation = Invocation.ofCrate crate context.bundle
                (Linkage.ofCrates (graph.dependencies crate)) environment context.edition) ∧
            (invocations ≠ [] → ∀ lower, graph.Below crate lower →
              ∃ fate, (lower.name, fate) ∈
                (context.build graph selected state).2.fates.take before.length ∧
                fate.Success) := by
  have regular := Graph.regular_of_ofSpecs accepted plain inward
  obtain ⟨part, closed⟩ := Graph.closed_of_closure regular.settled chosen
  have distinct : selected.Nodup :=
    (regular.settled.nodup_names.of_map _).sublist part
  refine ⟨calls_buildAll selected state, map_fst_journal context graph selected state, distinct, ?_⟩
  intro before crate invocations after place
  obtain ⟨split, none | ⟨prepared, print, printed, one⟩⟩ := journal_cases place
  · exact ⟨by simp [none], by simp [none], fun some => absurd none some⟩
  · refine ⟨by simp [one], ?_, fun _ lower below => ?_⟩
    · intro invocation member
      rw [one, List.mem_singleton] at member
      exact ⟨prepared.environment, member.trans printed.invocation_eq⟩
    obtain ⟨fate, member, success⟩ :=
      (succeeds_of_below regular part closed split printed below).mem_fates
    refine ⟨fate, ?_, success⟩
    have length := length_fates context graph (before.map (·.1)) state
    rw [List.length_map] at length
    rw [fates_build, split, buildAll_append, ← length, List.take_left]
    exact member

/-- The upper crate of a tandem is invoked only after the lower one has succeeded. -/
theorem invoked_only_above_success_tandem :
    Graph.ofSpecs Graph.tandemSpecs ⟨"out"⟩ = .ok Graph.tandem ∧
      (∀ spec ∈ Graph.tandemSpecs, '/' ∉ spec.name.toList) ∧ (⟨"out"⟩ : Path).Inward ∧
      Graph.tandem.closure ["app"] = .ok Graph.tandem.crates ∧
      ∀ before crate invocations after,
        accepting.journal Graph.tandem Graph.tandem.crates blank =
            before ++ (crate, invocations) :: after →
          invocations ≠ [] → ∀ lower, Graph.tandem.Below crate lower →
            ∃ fate, (lower.name, fate) ∈
              (accepting.build Graph.tandem Graph.tandem.crates blank).2.fates.take
                before.length ∧ fate.Success := by
  have accepted := Graph.ofSpecs_tandemSpecs
  have plain : ∀ spec ∈ Graph.tandemSpecs, '/' ∉ spec.name.toList := by decide
  have inward : (⟨"out"⟩ : Path).Inward := by decide
  have chosen : Graph.tandem.closure ["app"] = .ok Graph.tandem.crates := by decide
  obtain ⟨_, _, _, turns⟩ := invoked_only_above_success accepted plain inward chosen accepting blank
  refine ⟨accepted, plain, inward, chosen, fun before crate invocations after place some => ?_⟩
  exact (turns before crate invocations after place).2.2 some

end Context

end ProofBuild
