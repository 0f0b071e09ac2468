import ProofBuild.Proofs.Reached
import ProofBuild.Proofs.Statuses

/-!
Errors that come before anything is done. Each command is followed to the places where it can end
with an error. The configuration, the manifest and the graph are asked for first, so errors about them
leave the world as it was; a trial could still lack a marker, but it starts only when all crates below
stand. Main statement: `Machine.untouched_of_early_error`.
-/

namespace ProofBuild

theorem Probe.not_isFatal_of_synthesize {probe : Probe} {bundle : Bundle} {error : Error}
    (failed : (probe.synthesize bundle).2 = .error error) : error.isFatal = false := by
  unfold Probe.synthesize at failed
  dsimp only at failed
  split at failed
  · cases failed
    rfl
  · split at failed
    · cases failed
    · cases failed
      rfl

theorem Machine.not_isFatal_of_verify {machine : Machine} {world : World} {invocation : Invocation}
    {error : Error} (failed : machine.verify world invocation = .error error) :
    error.isFatal = false := by
  unfold Machine.verify at failed
  split at failed
  · cases failed
    rfl
  · cases failed

theorem Marker.not_isFatal_of_remove {tree : FileTree} {marker : Path} {error : Error}
    (failed : (Marker.remove tree marker).2 = .error error) : error.isFatal = false := by
  unfold Marker.remove at failed
  split at failed
  · cases failed
  · cases failed
  · cases failed
    rfl

namespace Context
variable {context : Context} {graph : Graph} {crate : Crate} {error : Error}

theorem error_of_prepare {tree : FileTree}
    (failed : context.prepare graph tree crate = .error error) :
    (∃ lower ∈ graph.dependencies crate, tree.present lower.marker = false) ∨
      context.synthesize tree context.bundle = .error error := by
  unfold prepare at failed
  dsimp only at failed
  split at failed
  · rename_i lower lacking
    exact .inl ⟨lower, List.mem_of_find?_eq_some lacking, by simpa using List.find?_some lacking⟩
  · split at failed
    · rename_i unsynthesized
      cases failed
      exact .inr unsynthesized
    · cases failed

theorem error_of_trial {world : World} (failed : (context.trial graph crate world).2.2 = .error error) :
    context.prepare graph world.tree crate = .error error ∨
      ∃ invocation, context.verify world invocation = .error error := by
  unfold trial at failed
  split at failed
  · rename_i unprepared
    cases failed
    exact .inl unprepared
  · rename_i prepared _
    dsimp only at failed
    split at failed
    · rename_i unanswered
      cases failed
      exact .inr ⟨_, unanswered⟩
    · cases failed

end Context

namespace Workspace
variable {workspace : Workspace} {machine : Machine} {world : World}

theorem Updated.not_isFatal {bundle : Bundle} {selected : List Crate} {after : World} {error : Error}
    (updated : Updated workspace machine bundle selected world after (.error error)) :
    error.isFatal = false := by
  rcases updated.error_cases with ⟨activity, cause, rfl⟩ | ⟨path, rfl⟩
  · rfl
  · rfl

/-- A trial above crates that have their markers does not miss them. -/
theorem not_isFatal_of_tryOut {bundle : Bundle} {crate : Crate} {error : Error}
    (ready : ∀ lower ∈ workspace.graph.dependencies crate, world.tree.present lower.marker = true)
    (failed : (workspace.tryOut machine bundle crate world).outcome = .error error) :
    error.isFatal = false := by
  have mapped : ((workspace.context machine bundle).trial workspace.graph crate world).2.2.map
      Trial.exitCode = .error error := failed
  have tried : ((workspace.context machine bundle).trial workspace.graph crate world).2.2 =
      .error error := by
    cases ended : ((workspace.context machine bundle).trial workspace.graph crate world).2.2 with
    | error problem =>
        rw [ended] at mapped
        cases mapped
        rfl
    | ok trial =>
        rw [ended] at mapped
        cases mapped
  rcases Context.error_of_trial tried with unprepared | ⟨invocation, unanswered⟩
  · rcases Context.error_of_prepare unprepared with ⟨lower, direct, lacking⟩ | unsynthesized
    · rw [ready lower direct] at lacking
      cases lacking
    · exact Probe.not_isFatal_of_synthesize unsynthesized
  · exact Machine.not_isFatal_of_verify unanswered

/-- What a test can be. -/
inductive Tested (workspace : Workspace) (machine : Machine) (unit : String) (world : World) :
    Effect Int → Prop where
  | unknown {problem : ConfigProblem} :
      Tested workspace machine unit world ⟨world, "", .error (.config problem)⟩
  | unequipped {error : Error} (unequipped : workspace.bundle machine world.tree = .error error) :
      Tested workspace machine unit world ⟨world, "", .error error⟩
  | stopped {selected : List Crate} {bundle : Bundle} {after : World} {error : Error}
      (updated : Updated workspace machine bundle selected world after (.error error)) :
      Tested workspace machine unit world ⟨after, "", .error error⟩
  | refused {after : World} {report : Report} :
      Tested workspace machine unit world ⟨after, summary report, .ok 1⟩
  | tried {crate : Crate} {bundle : Bundle} {after : World}
      (ready : ∀ lower ∈ workspace.graph.dependencies crate,
        after.tree.present lower.marker = true) :
      Tested workspace machine unit world (workspace.tryOut machine bundle crate after)

theorem require_cases (graph : Graph) (name : String) :
    (∃ crate ∈ graph.crates, crate.name = name ∧ graph.require name = .ok crate) ∨
      graph.require name = .error (.config (.unknownUnit name)) := by
  unfold Graph.require
  split
  · rename_i crate found
    rcases Crate.find?_eq_some found with ⟨member, named⟩
    exact .inl ⟨crate, member, named, rfl⟩
  · exact .inr rfl

/-- All that a crate depends on lies below it in its closure. -/
theorem mem_below {specs : List Spec} {directory : Path} {graph : Graph}
    (accepted : Graph.ofSpecs specs directory = .ok graph) {crate lower : Crate}
    (member : crate ∈ graph.crates) {closure : List Crate}
    (chosen : graph.closure [crate.name] = .ok closure)
    (direct : lower ∈ graph.dependencies crate) :
    lower ∈ closure.filter fun other => other.name ≠ crate.name := by
  have settled := (Graph.settled_of_ofSpecs accepted).1
  have own : crate ∈ closure :=
    (Graph.mem_closure_iff accepted (by simp) chosen).mpr ⟨member, _, List.mem_cons_self, .refl⟩
  have inside := (Graph.closed_of_closure settled chosen).2 crate own lower (.single direct)
  have apart : lower.name ≠ crate.name := by
    intro same
    have named := (Crate.of_mem_select direct).2
    rw [same] at named
    exact settled.own_name_not_mem crate member named
  simp [inside, apart]

theorem tested_test {specs : List Spec}
    (accepted : Graph.ofSpecs specs workspace.out = .ok workspace.graph) (machine : Machine)
    (unit : String) (world : World) :
    Tested workspace machine unit world (workspace.test machine unit world) := by
  unfold test
  rcases require_cases workspace.graph unit with ⟨crate, member, rfl, required⟩ | required
  · rw [required]
    cases chosen : workspace.graph.closure [crate.name] with
    | error error =>
        rcases config_of_closure chosen with ⟨problem, rfl⟩
        exact .unknown
    | ok closure =>
        have inside : ∀ lower ∈ workspace.graph.dependencies crate,
            lower ∈ closure.filter fun other => other.name ≠ crate.name :=
          fun lower direct => mem_below accepted member chosen direct
        have known : ∀ lower ∈ closure.filter fun other => other.name ≠ crate.name,
            lower ∈ workspace.graph.crates := by
          intro lower below
          have settled := (Graph.settled_of_ofSpecs accepted).1
          exact (Graph.closed_of_closure settled chosen).1.subset (List.mem_of_mem_filter below)
        dsimp only
        generalize (closure.filter fun other => other.name ≠ crate.name) = below at inside known ⊢
        cases equipped : workspace.bundle machine world.tree with
        | error error => exact .unequipped equipped
        | ok bundle =>
            dsimp only
            split
            · rename_i none
              subst none
              exact .tried fun lower direct => absurd (inside lower direct) List.not_mem_nil
            · have updated := updated_update workspace machine bundle below world
              rcases updating : workspace.update machine bundle below world with ⟨after, outcome⟩
              rw [updating] at updated
              cases outcome with
              | error error => exact .stopped updated
              | ok report =>
                  dsimp only
                  split
                  · rename_i success
                    have complete := updated.complete accepted known success
                    exact .tried fun lower direct => complete.markers lower (inside lower direct)
                  · exact .refused
  · rw [required]
    exact .unknown

/-- A test that ends with a fatal error has not begun, and a name is at fault. -/
theorem Tested.of_isFatal {unit : String} {effect : Effect Int} {error : Error}
    (tested : Tested workspace machine unit world effect) (failed : effect.outcome = .error error)
    (fatal : error.isFatal = true) : effect.world = world ∧ ∃ problem, error = .config problem := by
  cases tested with
  | unknown =>
      cases failed
      exact ⟨rfl, _, rfl⟩
  | unequipped unequipped =>
      cases failed
      rcases error_of_bundle unequipped with ⟨problem, rfl⟩ | ⟨_, _, _, rfl⟩
      · exact ⟨rfl, _, rfl⟩
      · cases fatal
  | stopped updated =>
      cases failed
      rw [updated.not_isFatal] at fatal
      cases fatal
  | refused => cases failed
  | tried ready =>
      rw [not_isFatal_of_tryOut ready failed] at fatal
      cases fatal

theorem not_isFatal_of_removeMarkers {crates : List Crate} {error : Error}
    (failed : (removeMarkers crates world).2 = .error error) : error.isFatal = false := by
  induction crates generalizing world with
  | nil => cases failed
  | cons crate rest ih =>
      unfold removeMarkers at failed
      rcases removing : world.removeMarker crate.marker with ⟨after, outcome⟩
      simp only [removing] at failed
      cases outcome with
      | error problem =>
          cases failed
          have kept : (Marker.remove world.tree crate.marker).2 = .error error := by
            rw [← World.outcome_removeMarker, removing]
          exact Marker.not_isFatal_of_remove kept
      | ok done => exact ih failed

theorem not_isFatal_of_clean {error : Error}
    (failed : (workspace.clean world).outcome = .error error) : error.isFatal = false := by
  unfold clean at failed
  rcases removing : removeMarkers workspace.graph.crates world with ⟨after, outcome⟩
  simp only [removing] at failed
  cases outcome with
  | error problem =>
      cases failed
      exact not_isFatal_of_removeMarkers (congrArg Prod.snd removing)
  | ok done =>
      dsimp only at failed
      split at failed
      · cases failed
      · cases failed
      · cases failed
        rfl

theorem world_showArguments (unit : String) (asJson : Bool) :
    (workspace.showArguments machine unit asJson world).world = world := by
  unfold showArguments
  cases workspace.dryRun machine unit world.tree <;> rfl

theorem world_showEnvironment : (workspace.showEnvironment machine world).world = world := by
  unfold showEnvironment
  cases workspace.bundle machine world.tree with
  | error error => rfl
  | ok bundle =>
      dsimp only
      split <;> rfl

/-- A build that ends with an error has begun only if the error is about files. -/
theorem Built.world_eq_or {units : List String} {effect : Effect Int} {error : Error}
    (built : Built workspace machine units world effect) (failed : effect.outcome = .error error) :
    effect.world = world ∨ (∃ activity cause, error = .io activity cause) ∨
      ∃ path, error = .corruptCache path := by
  cases built with
  | unknown | unequipped => exact .inl rfl
  | stopped chosen equipped updated =>
      cases failed
      exact .inr updated.error_cases
  | reported => cases failed

/-- A build over a file that cannot be understood ends before it has begun. -/
theorem Built.of_unloaded {units : List String} {effect : Effect Int} {failure : Error}
    (built : Built workspace machine units world effect)
    (unloaded : Cache.load world.tree workspace.out = .error failure) :
    effect.world = world ∧ ∃ error, effect.outcome = .error error := by
  cases built with
  | unknown | unequipped => exact ⟨rfl, _, rfl⟩
  | stopped chosen equipped updated =>
      cases updated with
      | unread => exact ⟨rfl, _, rfl⟩
      | unsaved loaded => cases unloaded.symm.trans loaded
  | reported chosen equipped updated =>
      cases updated with
      | saved loaded => cases unloaded.symm.trans loaded

/-- A command that ends with a fatal error has left the world as it was. -/
theorem world_perform_of_isFatal {specs : List Spec}
    (accepted : Graph.ofSpecs specs workspace.out = .ok workspace.graph) {command : Command}
    {error : Error} (failed : (workspace.perform machine world command).outcome = .error error)
    (fatal : error.isFatal = true) : (workspace.perform machine world command).world = world := by
  cases command with
  | build units =>
      rcases (built_build workspace machine units world).world_eq_or failed with
        same | ⟨activity, cause, rfl⟩ | ⟨path, rfl⟩
      · exact same
      · cases fatal
      · cases fatal
  | test unit => exact ((tested_test accepted machine unit world).of_isFatal failed fatal).1
  | arguments unit asJson => exact world_showArguments ..
  | environment => exact world_showEnvironment
  | clean =>
      rw [not_isFatal_of_clean failed] at fatal
      cases fatal

end Workspace

/-- The verifier was not invoked, and the files are as they were. -/
structure Machine.Untouched (machine : Machine) (arguments : List String) (request : Request)
    (tree : FileTree) : Prop where
  calls : (request.run machine tree).world.calls = []
  tree : (machine.execute arguments tree).tree = tree

section Execute
variable {machine : Machine} {arguments : List String} {request : Request} {tree : FileTree}
  {error : Error}

theorem Request.world_of_isFatal (failed : (request.run machine tree).outcome = .error error)
    (fatal : error.isFatal = true) : (request.run machine tree).world = .start tree := by
  cases loaded : Workspace.load tree request.manifest request.out with
  | error problem => rw [run_of_unloaded loaded]
  | ok workspace =>
      have accepted := Workspace.accepted_of_load loaded
      rw [run_of_load loaded] at failed ⊢
      exact Workspace.world_perform_of_isFatal accepted failed fatal

theorem Request.world_of_toolchain {units : List String} (wanted : request.command = .build units)
    {component problem pinned : String}
    (failed : (request.run machine tree).outcome = .error (.toolchain component problem pinned)) :
    (request.run machine tree).world = .start tree := by
  cases loaded : Workspace.load tree request.manifest request.out with
  | error problem => rw [run_of_unloaded loaded]
  | ok workspace =>
      rw [run_of_load loaded, wanted] at failed ⊢
      rcases (Workspace.built_build workspace machine units (.start tree)).world_eq_or failed with
        same | ⟨activity, cause, other⟩ | ⟨path, other⟩
      · exact same
      · cases other
      · cases other

variable (parsed : CommandLine.parse arguments = .ok request)
include parsed

theorem Machine.untouched_of_world (same : (request.run machine tree).world = .start tree) :
    machine.Untouched arguments request tree := by
  constructor
  · rw [same]
    rfl
  · rw [tree_execute parsed, same]
    rfl

/-- An error of the configuration, the manifest or the graph ends a command before anything is done, and
so do an error of the toolchain and recorded fingerprints that cannot be read, when they end a build. A
test of a workspace that was loaded never ends with an error of the graph. -/
theorem Machine.untouched_of_early_error (machine : Machine) (tree : FileTree) :
    (∀ error, (machine.execute arguments tree).error = some error → error.isFatal = true →
      machine.Untouched arguments request tree) ∧
    (∀ workspace unit problem,
      Workspace.load tree request.manifest request.out = .ok workspace →
      request.command = .test unit →
      (machine.execute arguments tree).error ≠ some (.graph problem)) ∧
    (∀ units component problem pinned, request.command = .build units →
      (machine.execute arguments tree).error = some (.toolchain component problem pinned) →
      machine.Untouched arguments request tree) ∧
    (∀ workspace units failure,
      Workspace.load tree request.manifest request.out = .ok workspace →
      request.command = .build units → Cache.load tree workspace.out = .error failure →
      (∃ error, (machine.execute arguments tree).error = some error) ∧
        machine.Untouched arguments request tree) := by
  constructor
  · intro error shown fatal
    have failed := (error_execute parsed).mp shown
    exact untouched_of_world parsed (Request.world_of_isFatal failed fatal)
  constructor
  · intro workspace unit problem loaded wanted shown
    have failed := (error_execute parsed).mp shown
    have accepted := Workspace.accepted_of_load loaded
    rw [Request.run_of_load loaded, wanted] at failed
    have tested := Workspace.tested_test accepted machine unit (.start tree)
    rcases (tested.of_isFatal failed rfl).2 with ⟨other, same⟩
    cases same
  constructor
  · intro units component problem pinned wanted shown
    have failed := (error_execute parsed).mp shown
    exact untouched_of_world parsed (Request.world_of_toolchain wanted failed)
  · intro workspace units failure loaded wanted unloaded
    have built := Workspace.built_build workspace machine units (.start tree)
    rcases built.of_unloaded unloaded with ⟨same, error, failed⟩
    have run : request.run machine tree = workspace.build machine units (.start tree) := by
      rw [Request.run_of_load loaded, wanted]
      rfl
    rw [← run] at same failed
    exact ⟨⟨error, (error_execute parsed).mpr failed⟩, untouched_of_world parsed same⟩

end Execute

/-- A build of a name that no unit has. -/
def Request.unknown : Request := ⟨⟨"verdag.toml"⟩, some ⟨"out"⟩, 0, .build ["shell"]⟩

def Request.unknownTest : Request := { unknown with command := .test "shell" }

/-- The manifest of a tandem without a release. -/
def FileTree.unequipped : FileTree :=
  (bare []).setFile "verdag.toml" [] (Utf8.encode Manifest.tandemText) false

/-- A build and a test of an unknown unit, and a build without a release. -/
theorem Machine.untouched_of_early_error_tandem :
    (CommandLine.parse ["--out", "out", "build", "shell"] = .ok Request.unknown ∧
      (agreeable.execute ["--out", "out", "build", "shell"] FileTree.furnished).error =
        some (.config (.unknownUnit "shell")) ∧
      agreeable.Untouched ["--out", "out", "build", "shell"] Request.unknown FileTree.furnished) ∧
    (CommandLine.parse ["--out", "out", "test", "shell"] = .ok Request.unknownTest ∧
      (agreeable.execute ["--out", "out", "test", "shell"] FileTree.furnished).error =
        some (.config (.unknownUnit "shell")) ∧
      agreeable.Untouched ["--out", "out", "test", "shell"] Request.unknownTest FileTree.furnished) ∧
    CommandLine.parse ["--out", "out", "build", "core"] = .ok Request.tandem ∧
      (∃ component problem pinned,
        (agreeable.execute ["--out", "out", "build", "core"] FileTree.unequipped).error =
          some (.toolchain component problem pinned)) ∧
      agreeable.Untouched ["--out", "out", "build", "core"] Request.tandem FileTree.unequipped := by
  have parsedBuild : CommandLine.parse ["--out", "out", "build", "shell"] = .ok Request.unknown := by
    decide +kernel
  have parsedTest : CommandLine.parse ["--out", "out", "test", "shell"] = .ok Request.unknownTest := by
    decide +kernel
  have parsed : CommandLine.parse ["--out", "out", "build", "core"] = .ok Request.tandem := by
    decide +kernel
  have loadedBuild : Workspace.load FileTree.furnished Request.unknown.manifest Request.unknown.out =
      .ok Workspace.tandem := Workspace.load_furnished
  have loadedTest : Workspace.load FileTree.furnished Request.unknownTest.manifest
      Request.unknownTest.out = .ok Workspace.tandem := Workspace.load_furnished
  have loaded : Workspace.load FileTree.unequipped Request.tandem.manifest Request.tandem.out =
      .ok Workspace.tandem := Workspace.load_tandem rfl
  have failedBuild : (Request.unknown.run agreeable FileTree.furnished).outcome =
      .error (.config (.unknownUnit "shell")) := by
    rw [Request.run_of_load loadedBuild]
    decide +kernel
  have failedTest : (Request.unknownTest.run agreeable FileTree.furnished).outcome =
      .error (.config (.unknownUnit "shell")) := by
    rw [Request.run_of_load loadedTest]
    decide +kernel
  have failed : (Request.tandem.run agreeable FileTree.unequipped).outcome = .error (.toolchain
      "verifier" "/verus/rust_verify is missing or not executable" "1") := by
    rw [Request.run_of_load loaded]
    decide +kernel
  have shownBuild := (error_execute parsedBuild).mpr failedBuild
  have shownTest := (error_execute parsedTest).mpr failedTest
  have shown := (error_execute parsed).mpr failed
  have one := (untouched_of_early_error parsedBuild agreeable FileTree.furnished).1 _ shownBuild rfl
  have two := (untouched_of_early_error parsedTest agreeable FileTree.furnished).1 _ shownTest rfl
  have three := (untouched_of_early_error parsed agreeable FileTree.unequipped).2.2.1 ["core"] _ _ _ rfl
    shown
  exact ⟨⟨parsedBuild, shownBuild, one⟩, ⟨parsedTest, shownTest, two⟩, parsed, ⟨_, _, _, shown⟩, three⟩

end ProofBuild
