import ProofBuild.Proofs.Confinement

/-!
The marker of a single task. A task takes the crate's marker away before anything else can fail and
puts it back last, by way of a file that is gone when the marker is there and is never put when the
marker cannot be. So the marker tells how the task ended, whatever the tree looks like and whatever
the crate is called. Main statement: `concluded_run_and_execute`.
-/

namespace ProofBuild

namespace Marker
open FileTree

variable {marker : Path} (direct : marker.Direct) {process : Nat} {tree : FileTree}
include direct

/-- At most a directory is left at a marker that was to be removed. -/
theorem status_remove_ne_file (content : Bytes) (executable : Bool) :
    (remove tree marker).1.status marker ≠ .ok (.file content executable) := by
  intro left
  obtain ⟨base, name, rfl, ordinary, inward⟩ := direct.exists_child
  obtain ⟨_, same, _⟩ := status_remove ordinary inward left
  cases same

theorem status_write_ne_file {error : Error}
    (failed : (write (remove tree marker).1 marker process).2 = .error error) (content : Bytes)
    (executable : Bool) :
    (write (remove tree marker).1 marker process).1.status marker ≠ .ok (.file content executable) := by
  intro left
  obtain ⟨base, name, rfl, ordinary, inward⟩ := direct.exists_child
  have extended := ordinaryName_temporaryName process ordinary.plain
  have earlier := (status_write ordinary inward process extended failed _).mp left
  exact status_remove_ne_file direct content executable earlier

/-- A marker that was written is an empty file, and nothing is at the name it was written under. -/
theorem status_of_write (wrote : (write tree marker process).2 = .ok ()) :
    (∃ executable, (write tree marker process).1.status marker = .ok (.file [] executable)) ∧
      ∀ node, (write tree marker process).1.status (temporary marker process) ≠ .ok node := by
  obtain ⟨base, name, rfl, ordinary, inward⟩ := direct.exists_child
  have extended := ordinaryName_temporaryName process ordinary.plain
  have change := changedIn_write ordinary inward process extended tree
  refine ⟨(read_eq_ok_iff ..).mp (read_write ordinary inward process extended wrote), ?_⟩
  intro node found
  rw [temporary_child ordinary base extended, status_child_iff inward extended, change.working,
    node?_temporary_of_write ordinary inward process extended wrote] at found
  cases found.2

end Marker

namespace Context
open FileTree

variable {context : Context} {graph : Graph} {crate : Crate}

/-- Running a crate is executing its prepared invocation, unless it ends before with the marker
removed. -/
theorem run_cases (context : Context) (graph : Graph) (crate : Crate) (before : World) :
    (∃ error, context.run graph crate before =
        ((before.removeMarker crate.marker).1, .error error)) ∨
      ∃ prepared, context.prepare graph (before.removeMarker crate.marker).1.tree crate =
          .ok prepared ∧
        context.run graph crate before = context.execute crate prepared.invocation before := by
  unfold run execute
  rcases before.removeMarker crate.marker with ⟨cleared, outcome⟩
  cases outcome with
  | error error => exact .inl ⟨error, rfl⟩
  | ok removed =>
      cases prepares : context.prepare graph cleared.tree crate with
      | error error => exact .inl ⟨error, by simp only [prepares]⟩
      | ok prepared => exact .inr ⟨prepared, rfl, by simp only [prepares]⟩

/-- The verifier was started once, with this invocation, and ended with status zero. The marker is an
empty file, and none is beside it that was to become the marker. -/
structure Marked (context : Context) (crate : Crate) (invocation : Invocation) (before after : World) :
    Prop where
  calls : after.calls = before.calls ++ [invocation]
  passed : ∃ verdict, context.verify (before.removeMarker crate.marker).1 invocation = .ok verdict ∧
    verdict.code = some 0
  marker : ∃ executable, after.tree.status crate.marker = .ok (.file [] executable)
  beside : ∀ node, after.tree.status (Marker.temporary crate.marker context.process) ≠ .ok node

/-- How a task that would run one of the invocations that are meant leaves the marker: there after a
success, not there after a failure, and with no file beside it that was not there before. -/
structure Concluded (context : Context) (crate : Crate) (meant : Invocation → Prop)
    (before after : World) (outcome : Outcome Path) : Prop where
  success : ∀ path, outcome = .ok path → path = crate.marker ∧
    ∃ invocation, meant invocation ∧ Marked context crate invocation before after
  failure : ∀ error, outcome = .error error → ∀ content executable,
    after.tree.status crate.marker ≠ .ok (.file content executable)
  beside : ∀ process content executable,
    after.tree.status (Marker.temporary crate.marker process) = .ok (.file content executable) →
      before.tree.status (Marker.temporary crate.marker process) = .ok (.file content executable)

section Task
variable {directory : Path} (placed : crate.marker = Crate.markerIn directory crate.name)
  (inward : crate.marker.Inward)
include placed inward

theorem status_beside {before after : FileTree} {temporaries : Set Location}
    (confined : Confined {crate.marker.place before.workingDirectory} temporaries before after)
    {process : Nat} {content : Bytes} {executable : Bool}
    (found : after.status (Marker.temporary crate.marker process) = .ok (.file content executable)) :
    before.status (Marker.temporary crate.marker process) = .ok (.file content executable) := by
  have direct := Crate.direct_marker placed inward
  refine confined.status_of_file (Marker.direct_temporary direct process).inward ?_ found
  exact Crate.place_temporary_ne placed inward direct process _

/-- A task that ends once the marker is removed. -/
theorem concluded_of_removed {meant : Invocation → Prop} {before after : World} {error : Error}
    (same : after.tree = (Marker.remove before.tree crate.marker).1) :
    Concluded context crate meant before after (.error error) := by
  have direct := Crate.direct_marker placed inward
  constructor
  · intro path success
    cases success
  · intro _ _ content executable
    rw [same]
    exact Marker.status_remove_ne_file direct content executable
  · intro process content executable
    rw [same]
    exact status_beside placed inward (Marker.confined_remove direct process before.tree)

theorem Executed.concluded {invocation : Invocation} {before after : World} {outcome : Outcome Path}
    (executed : Executed context crate invocation before after outcome) {meant : Invocation → Prop}
    (intended : meant invocation) : Concluded context crate meant before after outcome := by
  have direct := Crate.direct_marker placed inward
  have confined := executed.confined direct
  cases executed with
  | stuck => exact concluded_of_removed placed inward rfl
  | run removed started =>
      cases started with
      | unanswered | rejected => exact concluded_of_removed placed inward rfl
      | unmarked answer passed failed =>
          constructor
          · intro path success
            cases success
          · exact fun _ _ => Marker.status_write_ne_file direct failed
          · exact fun _ _ _ => status_beside placed inward confined
      | done answer passed written =>
          obtain ⟨marker, gone⟩ := Marker.status_of_write direct written
          constructor
          · rintro path ⟨⟩
            exact ⟨rfl, invocation, intended, rfl, ⟨_, answer, passed⟩, marker, gone⟩
          · intro error failure
            cases failure
          · exact fun _ _ _ => status_beside placed inward confined

/-- A crate has its marker where its name puts it, and no step of the marker's path leads outward.
Then a run of the crate, and an execution of any invocation in its place, leave the marker as an empty
file after the one start of a verifier that ends with status zero, and no file there after anything
else, and they leave no temporary file. -/
theorem concluded_run_and_execute (context : Context) (graph : Graph) (before : World) :
    Concluded context crate
        (fun invocation => ∃ prepared, context.prepare graph
          (before.removeMarker crate.marker).1.tree crate = .ok prepared ∧
            prepared.invocation = invocation)
        before (context.run graph crate before).1 (context.run graph crate before).2 ∧
      ∀ invocation, Concluded context crate (· = invocation) before
        (context.execute crate invocation before).1 (context.execute crate invocation before).2 := by
  constructor
  · rcases run_cases context graph crate before with ⟨error, ends⟩ | ⟨prepared, prepares, same⟩
    · rw [ends]
      exact concluded_of_removed placed inward rfl
    · rw [same]
      exact (executed_execute ..).concluded placed inward ⟨prepared, prepares, rfl⟩
  · exact fun invocation => (executed_execute ..).concluded placed inward rfl

end Task

end Context

/-- A crate on its own, with a slash in its name. -/
def Crate.nested : Crate :=
  ⟨"net/tls", "net/tls", ⟨"tls.rs"⟩, [⟨"tls.rs"⟩], [], [], ⟨"out/net/tls.success"⟩,
    [⟨"out/net/tls.success"⟩]⟩

theorem Context.concluded_run_and_execute_nested :
    Crate.nested.marker = Crate.markerIn ⟨"out"⟩ Crate.nested.name ∧ Crate.nested.marker.Inward ∧
      (accepting.run ⟨[Crate.nested]⟩ Crate.nested blank.world).2 = .ok Crate.nested.marker ∧
      ∃ executable, (accepting.run ⟨[Crate.nested]⟩ Crate.nested blank.world).1.tree.status
        Crate.nested.marker = .ok (.file [] executable) := by
  have placed : Crate.nested.marker = Crate.markerIn ⟨"out"⟩ Crate.nested.name := by decide
  have inward : Crate.nested.marker.Inward := by decide
  have ran : (accepting.run ⟨[Crate.nested]⟩ Crate.nested blank.world).2 =
      .ok Crate.nested.marker := by decide +kernel
  have concluded := (concluded_run_and_execute placed inward accepting ⟨[Crate.nested]⟩ blank.world).1
  obtain ⟨_, _, _, marked⟩ := concluded.success _ ran
  exact ⟨placed, inward, ran, marked.marker⟩

end ProofBuild
