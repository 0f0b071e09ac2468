import ProofBuild.Proofs.Agreement
import ProofBuild.Proofs.Attempts
import ProofBuild.Proofs.Invocations

/-!
When a turn starts the verifier. A crate is due with an invocation when its direct dependencies have
their markers, its environment is made, what goes into its fingerprint can be read, no marker stands
for that fingerprint, and an old marker can be removed. The turns of crates that are due start the
verifier, once and with that invocation, and no other turn does (`Turn.calls_of_due`,
`Turn.calls_of_idle`).
-/

namespace ProofBuild

theorem Graph.missing_eq_nil_iff {graph : Graph} {tree : FileTree} {crate : Crate} :
    graph.missing tree crate = [] ↔
      ∀ lower ∈ graph.dependencies crate, tree.present lower.marker = true := by
  rw [missing, List.map_eq_nil_iff, List.filter_eq_nil_iff]
  simp

namespace Context

variable {context : Context} {graph : Graph} {crate : Crate}

/-- The task of a crate in an environment. -/
def taskOf (context : Context) (graph : Graph) (crate : Crate) (environment : Environment) :
    Prepared where
  invocation := Invocation.ofCrate crate context.bundle
    (Linkage.ofCrates (graph.dependencies crate)) environment context.edition
  environment

theorem prepare_eq_ok_iff {tree : FileTree} {prepared : Prepared} :
    context.prepare graph tree crate = .ok prepared ↔
      graph.missing tree crate = [] ∧
        ∃ environment, context.synthesize tree context.bundle = .ok environment ∧
          prepared = context.taskOf graph crate environment := by
  rw [Graph.missing_eq_nil_iff]
  constructor
  · intro prepares
    obtain ⟨synthesized, invocation⟩ := of_prepare_eq_ok prepares
    refine ⟨?_, prepared.environment, synthesized, ?_⟩
    · intro lower direct
      unfold prepare at prepares
      dsimp only at prepares
      split at prepares
      · cases prepares
      · rename_i none
        simpa using List.find?_eq_none.mp none lower direct
    · rw [taskOf, ← invocation]
  · rintro ⟨ready, environment, synthesized, rfl⟩
    exact prepare_eq_ok ready synthesized

theorem printed_iff {state : State} {prepared : Prepared} {print : String} :
    Printed context graph crate state prepared print ↔
      graph.missing state.world.tree crate = [] ∧
        (∃ environment, context.synthesize state.world.tree context.bundle = .ok environment ∧
          prepared = context.taskOf graph crate environment) ∧
        fingerprint state.world.tree prepared.invocation (context.inputsOf graph crate)
          (recordedOf graph crate state.cache) = .ok print := by
  constructor
  · rintro ⟨ready, prepares, prints⟩
    exact ⟨ready, (prepare_eq_ok_iff.mp prepares).2, prints⟩
  · rintro ⟨ready, made, prints⟩
    exact ⟨ready, prepare_eq_ok_iff.mpr ⟨ready, made⟩, prints⟩

/-- The crate's turn starts the verifier with this invocation. -/
structure Due (context : Context) (graph : Graph) (crate : Crate) (state : State)
    (invocation : Invocation) : Prop where
  stale : ∃ prepared print, Printed context graph crate state prepared print ∧
    prepared.invocation = invocation ∧
    ¬ state.cache.Fresh state.world.tree crate.name crate.marker print
  removed : (state.world.removeMarker crate.marker).2 = .ok ()

theorem Executed.calls_of_removed {invocation : Invocation} {before after : World}
    {outcome : Outcome Path}
    (executed : Executed context crate invocation before after outcome)
    (removed : (before.removeMarker crate.marker).2 = .ok ()) :
    after.calls = before.calls ++ [invocation] := by
  cases executed with
  | stuck kept =>
      rw [removed] at kept
      cases kept
  | run _ started => exact started.calls_eq

namespace Turn
variable {before after : State} {fate : Fate} (turn : Turn context graph crate before after fate)
include turn

theorem calls_of_due {invocation : Invocation}
    (due : Due context graph crate before invocation) :
    after.world.calls = before.world.calls ++ [invocation] := by
  obtain ⟨prepared, print, printed, rfl, stale⟩ := due.stale
  cases turn with
  | blocked lacking => exact absurd printed.ready lacking
  | refused _ reason => exact absurd reason printed.not_refused
  | current other fresh =>
      obtain ⟨rfl, rfl⟩ := printed.unique other
      exact absurd fresh stale
  | failed other _ executed | verified other _ executed =>
      obtain ⟨rfl, rfl⟩ := printed.unique other
      exact executed.calls_of_removed due.removed

/-- A verifier that was started was due. -/
theorem calls_cases_due :
    after.world.calls = before.world.calls ∨
      ∃ invocation, Due context graph crate before invocation ∧
        after.world.calls = before.world.calls ++ [invocation] := by
  cases turn with
  | blocked | refused | current => exact .inl rfl
  | failed printed stale executed =>
      cases executed with
      | stuck => exact .inl rfl
      | run removed started =>
          exact .inr ⟨_, ⟨⟨_, _, printed, rfl, stale⟩, removed⟩, started.calls_eq⟩
  | verified printed stale executed =>
      cases executed with
      | run removed started =>
          exact .inr ⟨_, ⟨⟨_, _, printed, rfl, stale⟩, removed⟩, started.calls_eq⟩

theorem calls_of_idle (idle : ∀ invocation, ¬ Due context graph crate before invocation) :
    after.world.calls = before.world.calls := by
  rcases turn.calls_cases_due with same | ⟨invocation, due, _⟩
  · exact same
  · exact absurd due (idle invocation)

omit turn in
theorem due_of_verified (turn : Turn context graph crate before after .verified) :
    ∃ invocation, Due context graph crate before invocation := by
  cases turn with
  | verified printed stale executed =>
      cases executed with
      | run removed started => exact ⟨_, ⟨_, _, printed, rfl, stale⟩, removed⟩

end Turn

/-- The journal has the invocation that a crate was due with, and nothing for a crate that was not. -/
theorem journal_due {before after : List (Crate × List Invocation)} {selected : List Crate}
    {state : State} {invocations : List Invocation}
    (place : context.journal graph selected state = before ++ (crate, invocations) :: after) :
    (∀ invocation,
      Due context graph crate (context.buildAll graph (before.map (·.1)) state).1 invocation →
        invocations = [invocation]) ∧
    ((∀ invocation,
      ¬ Due context graph crate (context.buildAll graph (before.map (·.1)) state).1 invocation) →
        invocations = []) := by
  obtain ⟨_, added⟩ := journal_at place
  have turn := turn_buildCrate context graph crate
    (context.buildAll graph (before.map (·.1)) state).1
  constructor
  · intro invocation due
    exact List.append_cancel_left (added.symm.trans (turn.calls_of_due due))
  · intro idle
    exact List.append_right_eq_self.mp (added.symm.trans (turn.calls_of_idle idle))

end Context

end ProofBuild
