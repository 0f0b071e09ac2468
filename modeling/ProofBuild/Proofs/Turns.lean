import ProofBuild.Build
import ProofBuild.Proofs.Linked

/-!
The turn of one crate in a build. `turn_buildCrate` lists all that a turn can be. What follows is
read off its cases: a turn touches the files of its own marker and its own entry only, it invokes
the verifier at most once and only after a fingerprint was made, a crate that succeeds has its
marker and its entry, and one that does not succeed has no entry and at most a directory in the
place of its marker.
-/

namespace ProofBuild

/-- An accepted graph with plain names and its markers in an inward directory. -/
structure Graph.Regular (graph : Graph) (directory : Path) : Prop where
  settled : Graph.Settled directory graph.crates
  plain : ∀ crate ∈ graph.crates, '/' ∉ crate.name.toList
  inward : directory.Inward

/-- The crates of an accepted graph have the names that were declared. -/
theorem Graph.plain_of_ofSpecs {specs : List Spec} {directory : Path} {graph : Graph}
    (accepted : Graph.ofSpecs specs directory = .ok graph)
    (plain : ∀ spec ∈ specs, '/' ∉ spec.name.toList) :
    ∀ crate ∈ graph.crates, '/' ∉ crate.name.toList := by
  intro crate member
  obtain ⟨spec, found, _⟩ := (Graph.settled_of_ofSpecs accepted).2 crate member
  have named : spec.name = crate.name := by simpa using List.find?_some found
  exact named ▸ plain spec (List.mem_of_find?_eq_some found)

theorem Graph.regular_of_ofSpecs {specs : List Spec} {directory : Path} {graph : Graph}
    (accepted : Graph.ofSpecs specs directory = .ok graph)
    (plain : ∀ spec ∈ specs, '/' ∉ spec.name.toList) (inward : directory.Inward) :
    graph.Regular directory :=
  ⟨(Graph.settled_of_ofSpecs accepted).1, Graph.plain_of_ofSpecs accepted plain, inward⟩

/-- The files that belong to a crate's marker. -/
def Crate.markerFiles (crate : Crate) (process : Nat) : Set String :=
  {markerName crate.name, Marker.temporaryName (markerName crate.name) process}

namespace Cache

@[simp] theorem entry?_counted (cache : Cache) (hit : Bool) (name : String) :
    Cache.entry? (cache.counted hit) name = cache.entry? name := rfl

@[simp] theorem entry?_record (cache : Cache) (unit print name : String) :
    Cache.entry? (cache.record unit print) name =
      if name = unit then some print else cache.entry? name :=
  Table.get?_insert ..

@[simp] theorem entry?_invalidate (cache : Cache) (unit name : String) :
    Cache.entry? (cache.invalidate unit) name =
      if name = unit then none else cache.entry? name :=
  Table.get?_erase ..

end Cache

namespace World

theorem tree_called (world : World) (invocation : Invocation) :
    (world.called invocation).tree = world.tree := rfl

theorem tree_removeMarker (world : World) (marker : Path) :
    (world.removeMarker marker).1.tree = (Marker.remove world.tree marker).1 := rfl

theorem outcome_removeMarker (world : World) (marker : Path) :
    (world.removeMarker marker).2 = (Marker.remove world.tree marker).2 := rfl

theorem tree_writeMarker (world : World) (marker : Path) (process : Nat) :
    (world.writeMarker marker process).1.tree = (Marker.write world.tree marker process).1 := rfl

theorem outcome_writeMarker (world : World) (marker : Path) (process : Nat) :
    (world.writeMarker marker process).2 = (Marker.write world.tree marker process).2 := rfl

end World

namespace Context
open FileTree

variable {context : Context} {graph : Graph} {crate : Crate}

/-- What starting the verifier can be. -/
inductive Started (context : Context) (crate : Crate) (invocation : Invocation)
    (before : World) : World → Outcome Path → Prop where
  | unanswered {error : Error} (answer : context.verify before invocation = .error error) :
      Started context crate invocation before (before.called invocation) (.error error)
  | rejected {verdict : Verdict} (answer : context.verify before invocation = .ok verdict)
      (refused : ¬ verdict.Passed) :
      Started context crate invocation before
        ((before.called invocation).display (verdict.output ++ verdict.complaint))
        (.error (.verification crate.identity verdict.code))
  | unmarked {verdict : Verdict} {error : Error}
      (answer : context.verify before invocation = .ok verdict) (passed : verdict.Passed)
      (failed : ((before.called invocation).writeMarker crate.marker context.process).2 =
        .error error) :
      Started context crate invocation before
        ((before.called invocation).writeMarker crate.marker context.process).1 (.error error)
  | done {verdict : Verdict} (answer : context.verify before invocation = .ok verdict)
      (passed : verdict.Passed)
      (written : ((before.called invocation).writeMarker crate.marker context.process).2 =
        .ok ()) :
      Started context crate invocation before
        ((before.called invocation).writeMarker crate.marker context.process).1
        (.ok crate.marker)

theorem started_start (context : Context) (crate : Crate) (invocation : Invocation)
    (before : World) :
    Started context crate invocation before (context.start crate invocation before).1
      (context.start crate invocation before).2 := by
  unfold start
  cases answer : context.verify before invocation with
  | error error => exact .unanswered answer
  | ok verdict =>
      by_cases passed : verdict.Passed
      · simp only [passed, ↓reduceIte]
        rcases writing : (before.called invocation).writeMarker crate.marker context.process with
          ⟨marked, outcome⟩
        have markedIs : ((before.called invocation).writeMarker crate.marker
          context.process).1 = marked := by rw [writing]
        have outcomeIs : ((before.called invocation).writeMarker crate.marker
          context.process).2 = outcome := by rw [writing]
        rw [← markedIs]
        cases outcome with
        | error error => exact .unmarked answer passed outcomeIs
        | ok done => exact .done answer passed outcomeIs
      · simp only [passed, ↓reduceIte]
        exact .rejected answer passed

/-- What running an invocation in the place of a crate's marker can be. -/
inductive Executed (context : Context) (crate : Crate) (invocation : Invocation)
    (before : World) : World → Outcome Path → Prop where
  | stuck {error : Error} (kept : (before.removeMarker crate.marker).2 = .error error) :
      Executed context crate invocation before (before.removeMarker crate.marker).1 (.error error)
  | run {after : World} {outcome : Outcome Path}
      (removed : (before.removeMarker crate.marker).2 = .ok ())
      (started : Started context crate invocation (before.removeMarker crate.marker).1 after
        outcome) :
      Executed context crate invocation before after outcome

theorem executed_execute (context : Context) (crate : Crate) (invocation : Invocation)
    (before : World) :
    Executed context crate invocation before (context.execute crate invocation before).1
      (context.execute crate invocation before).2 := by
  unfold execute
  rcases removing : before.removeMarker crate.marker with ⟨cleared, outcome⟩
  have clearedIs : (before.removeMarker crate.marker).1 = cleared := by rw [removing]
  have outcomeIs : (before.removeMarker crate.marker).2 = outcome := by rw [removing]
  rw [← clearedIs]
  cases outcome with
  | error error => exact .stuck outcomeIs
  | ok removed => exact .run outcomeIs (started_start ..)

/-- All direct dependencies have markers, the task is prepared and its fingerprint is made. -/
structure Printed (context : Context) (graph : Graph) (crate : Crate) (state : State)
    (prepared : Prepared) (print : String) : Prop where
  ready : graph.missing state.world.tree crate = []
  prepares : context.prepare graph state.world.tree crate = .ok prepared
  prints : context.fingerprintOf graph crate prepared state = .ok print

/-- A prepared invocation is the crate's own, in the environment that was synthesized. -/
theorem of_prepare_eq_ok {tree : FileTree} {prepared : Prepared}
    (prepares : context.prepare graph tree crate = .ok prepared) :
    context.synthesize tree context.bundle = .ok prepared.environment ∧
      prepared.invocation = Invocation.ofCrate crate context.bundle
        (Linkage.ofCrates (graph.dependencies crate)) prepared.environment context.edition := by
  unfold prepare at prepares
  dsimp only at prepares
  split at prepares
  · cases prepares
  · split at prepares
    · cases prepares
    · rename_i environment synthesized
      cases prepares
      exact ⟨synthesized, rfl⟩

theorem Printed.invocation_eq {state : State} {prepared : Prepared} {print : String}
    (printed : Printed context graph crate state prepared print) :
    prepared.invocation = Invocation.ofCrate crate context.bundle
      (Linkage.ofCrates (graph.dependencies crate)) prepared.environment context.edition :=
  (of_prepare_eq_ok printed.prepares).2

/-- What the turn of a crate in a build can be. -/
inductive Turn (context : Context) (graph : Graph) (crate : Crate) (before : State) :
    State → Fate → Prop where
  | blocked (lacking : graph.missing before.world.tree crate ≠ []) :
      Turn context graph crate before (before.discard crate)
        (.blocked (graph.missing before.world.tree crate))
  | refused {error : Error} (ready : graph.missing before.world.tree crate = [])
      (reason : context.prepare graph before.world.tree crate = .error error ∨
        ∃ prepared, context.prepare graph before.world.tree crate = .ok prepared ∧
          context.fingerprintOf graph crate prepared before = .error error) :
      Turn context graph crate before (before.discard crate) (.failed error.message)
  | current {prepared : Prepared} {print : String}
      (printed : Printed context graph crate before prepared print)
      (fresh : before.cache.Fresh before.world.tree crate.name crate.marker print) :
      Turn context graph crate before { before with cache := before.cache.counted true } .cached
  | failed {prepared : Prepared} {print : String} {world : World} {error : Error}
      (printed : Printed context graph crate before prepared print)
      (stale : ¬ before.cache.Fresh before.world.tree crate.name crate.marker print)
      (executed : Executed context crate prepared.invocation before.world world (.error error)) :
      Turn context graph crate before
        (State.discard ⟨world, (before.cache.counted false).invalidate crate.name⟩ crate)
        (.failed error.message)
  | verified {prepared : Prepared} {print : String} {world : World} {marker : Path}
      (printed : Printed context graph crate before prepared print)
      (stale : ¬ before.cache.Fresh before.world.tree crate.name crate.marker print)
      (executed : Executed context crate prepared.invocation before.world world (.ok marker)) :
      Turn context graph crate before
        ⟨world, ((before.cache.counted false).invalidate crate.name).record crate.name print⟩
        .verified

theorem turn_buildCrate (context : Context) (graph : Graph) (crate : Crate) (before : State) :
    Turn context graph crate before (context.buildCrate graph crate before).1
      (context.buildCrate graph crate before).2 := by
  unfold buildCrate
  split
  · rename_i ready
    cases prepares : context.prepare graph before.world.tree crate with
    | error error =>
        simp only [verifyCrate, prepares]
        exact .refused ready (.inl prepares)
    | ok prepared =>
        cases prints : context.fingerprintOf graph crate prepared before with
        | error error =>
            simp only [verifyCrate, prepares, prints]
            exact .refused ready (.inr ⟨prepared, prepares, prints⟩)
        | ok print =>
            have printed : Printed context graph crate before prepared print :=
              ⟨ready, prepares, prints⟩
            -- From here the marker and the entry decide whether the verifier is started.
            by_cases fresh : before.cache.Fresh before.world.tree crate.name crate.marker print
            · simp only [verifyCrate, prepares, prints, fresh, ↓reduceIte]
              exact .current printed fresh
            · have executed := executed_execute context crate prepared.invocation before.world
              simp only [verifyCrate, prepares, prints, fresh, ↓reduceIte]
              rcases made : context.execute crate prepared.invocation before.world with
                ⟨world, outcome⟩
              rw [made] at executed
              cases outcome with
              | error error => exact .failed printed fresh executed
              | ok marker => exact .verified printed fresh executed
  · rename_i lacking
    exact .blocked lacking

/-- A verifier that accepts everything, in an environment that is always the same. -/
def accepting : Context where
  bundle := ⟨⟨"/verus/rust_verify"⟩, ⟨"/verus/z3"⟩, [], "1.0.0", .linuxX86⟩
  synthesize _ bundle := .ok (Environment.fixed ⟨"/sysroot"⟩ none bundle)
  verify _ _ := .ok ⟨some 0, "", ""⟩
  edition := "2021"
  process := 1

/-- Nothing is there yet, and nothing is recorded. -/
def blank : State := ⟨.start (.bare []), .empty⟩

section Regular
variable {directory : Path} (regular : graph.Regular directory) (member : crate ∈ graph.crates)
include regular member

theorem marker_eq_child : crate.marker = directory.child (Crate.markerName crate.name) :=
  regular.settled.marker_eq crate member

theorem ordinaryName_marker : Path.OrdinaryName (Crate.markerName crate.name) :=
  Crate.ordinaryName_markerName (regular.plain crate member)

theorem ordinaryName_temporary (process : Nat) :
    Path.OrdinaryName (Marker.temporaryName (Crate.markerName crate.name) process) :=
  Marker.ordinaryName_temporaryName process (ordinaryName_marker regular member).plain

theorem changedIn_removeMarker (process : Nat) (world : World) :
    ChangedIn (directory.place world.tree.workingDirectory) (crate.markerFiles process) world.tree
      (world.removeMarker crate.marker).1.tree := by
  rw [World.tree_removeMarker, marker_eq_child regular member]
  exact (Marker.changedIn_remove (ordinaryName_marker regular member) regular.inward
    world.tree).mono (by simp [Crate.markerFiles])

theorem status_removeMarker {world : World} {node : Node}
    (left : (world.removeMarker crate.marker).1.tree.status crate.marker = .ok node) :
    world.tree.isDirectory crate.marker = true ∧ node = .directory ∧
      ∃ error, (world.removeMarker crate.marker).2 = .error error := by
  rw [World.tree_removeMarker, marker_eq_child regular member] at left
  rw [World.outcome_removeMarker, marker_eq_child regular member]
  exact Marker.status_remove (ordinaryName_marker regular member) regular.inward left

theorem changedIn_writeMarker (process : Nat) (world : World) :
    ChangedIn (directory.place world.tree.workingDirectory) (crate.markerFiles process) world.tree
      (world.writeMarker crate.marker process).1.tree := by
  rw [World.tree_writeMarker, marker_eq_child regular member]
  exact Marker.changedIn_write (ordinaryName_marker regular member) regular.inward process
    (ordinaryName_temporary regular member process) world.tree

theorem read_writeMarker {process : Nat} {world : World}
    (written : (world.writeMarker crate.marker process).2 = .ok ()) :
    (world.writeMarker crate.marker process).1.tree.read crate.marker = .ok [] := by
  rw [World.outcome_writeMarker, marker_eq_child regular member] at written
  rw [World.tree_writeMarker, marker_eq_child regular member]
  exact Marker.read_write (ordinaryName_marker regular member) regular.inward process
    (ordinaryName_temporary regular member process) written

theorem status_writeMarker {process : Nat} {world : World} {error : Error}
    (failed : (world.writeMarker crate.marker process).2 = .error error) (node : Node) :
    (world.writeMarker crate.marker process).1.tree.status crate.marker = .ok node ↔
      world.tree.status crate.marker = .ok node := by
  rw [World.outcome_writeMarker, marker_eq_child regular member] at failed
  rw [World.tree_writeMarker, marker_eq_child regular member]
  exact Marker.status_write (ordinaryName_marker regular member) regular.inward process
    (ordinaryName_temporary regular member process) failed node

namespace Started
variable {invocation : Invocation} {before after : World} {outcome : Outcome Path}

theorem changedIn (started : Started context crate invocation before after outcome) :
    ChangedIn (directory.place before.tree.workingDirectory) (crate.markerFiles context.process)
      before.tree after.tree := by
  have marked := changedIn_writeMarker regular member context.process (before.called invocation)
  rw [World.tree_called] at marked
  cases started with
  | unanswered | rejected => exact .refl ..
  | unmarked | done => exact marked

/-- A run that fails puts no marker in place. -/
theorem status_of_error {error : Error} {node : Node}
    (started : Started context crate invocation before after (.error error))
    (left : after.tree.status crate.marker = .ok node) :
    before.tree.status crate.marker = .ok node := by
  cases started with
  | unanswered | rejected => exact left
  | unmarked answer passed failed => exact (status_writeMarker regular member failed node).mp left

theorem read_of_ok {marker : Path}
    (started : Started context crate invocation before after (.ok marker)) :
    after.tree.read crate.marker = .ok [] := by
  cases started with
  | done answer passed written => exact read_writeMarker regular member written

end Started

namespace Executed
variable {invocation : Invocation} {before after : World} {outcome : Outcome Path}

theorem changedIn (executed : Executed context crate invocation before after outcome) :
    ChangedIn (directory.place before.tree.workingDirectory) (crate.markerFiles context.process)
      before.tree after.tree := by
  have removal := changedIn_removeMarker regular member context.process before
  cases executed with
  | stuck => exact removal
  | run removed started => exact removal.trans (removal.working ▸ started.changedIn regular member)

/-- After a run that failed, at most a directory is in the place of the marker, and it was there
before. -/
theorem status_of_error {error : Error} {node : Node}
    (executed : Executed context crate invocation before after (.error error))
    (left : after.tree.status crate.marker = .ok node) :
    before.tree.isDirectory crate.marker = true ∧ node = .directory := by
  cases executed with
  | stuck =>
      have found := status_removeMarker regular member left
      exact ⟨found.1, found.2.1⟩
  | run removed started =>
      have found := status_removeMarker regular member (started.status_of_error regular member left)
      exact ⟨found.1, found.2.1⟩

theorem read_of_ok {marker : Path}
    (executed : Executed context crate invocation before after (.ok marker)) :
    after.tree.read crate.marker = .ok [] := by
  cases executed with
  | run removed started => exact started.read_of_ok regular member

end Executed

end Regular

section Calls
variable {invocation : Invocation} {before after : World}

theorem Started.calls_eq {outcome : Outcome Path}
    (started : Started context crate invocation before after outcome) :
    after.calls = before.calls ++ [invocation] := by
  cases started <;> rfl

theorem Executed.calls_cases {outcome : Outcome Path}
    (executed : Executed context crate invocation before after outcome) :
    after.calls = before.calls ∨ after.calls = before.calls ++ [invocation] := by
  cases executed with
  | stuck => exact .inl rfl
  | run removed started => exact .inr started.calls_eq

/-- Only a verifier that passed makes a run succeed. -/
theorem Executed.passed_of_ok {marker : Path}
    (executed : Executed context crate invocation before after (.ok marker)) :
    after.calls = before.calls ++ [invocation] ∧ ∃ verdict,
      context.verify (before.removeMarker crate.marker).1 invocation = .ok verdict ∧
        verdict.Passed := by
  cases executed with
  | run removed started =>
      refine ⟨started.calls_eq, ?_⟩
      cases started with
      | done answer passed written => exact ⟨_, answer, passed⟩

end Calls

namespace Turn
variable {before after : State} {fate : Fate} (turn : Turn context graph crate before after fate)
include turn

/-- The entries of other crates stay. -/
theorem entry?_of_ne {name : String} (other : name ≠ crate.name) :
    after.cache.entry? name = before.cache.entry? name := by
  cases turn <;> simp [State.discard, other]

/-- The verifier is invoked at most once, and only after a fingerprint was made. -/
theorem calls_cases :
    after.world.calls = before.world.calls ∨
      ∃ prepared print, Printed context graph crate before prepared print ∧
        after.world.calls = before.world.calls ++ [prepared.invocation] := by
  cases turn with
  | blocked | refused | current => exact .inl rfl
  | failed printed stale executed =>
      exact executed.calls_cases.imp id fun called => ⟨_, _, printed, called⟩
  | verified printed stale executed => exact .inr ⟨_, _, printed, executed.passed_of_ok.1⟩

theorem entry?_of_not_success (unsuccessful : ¬ fate.Success) :
    after.cache.entry? crate.name = none := by
  cases turn with
  | blocked | refused | failed => simp [State.discard]
  | current | verified => exact absurd trivial unsuccessful

/-- An entry that is there after a turn was there before it, or the crate was verified. -/
theorem entry?_cases {print : String} (known : after.cache.entry? crate.name = some print) :
    before.cache.entry? crate.name = some print ∨ fate = .verified := by
  cases turn with
  | blocked | refused | failed => simp [State.discard] at known
  | current => exact .inl known
  | verified => exact .inr rfl

omit turn in
theorem of_cached (turn : Turn context graph crate before after .cached) :
    ∃ prepared print, Printed context graph crate before prepared print ∧
      before.cache.entry? crate.name = some print ∧ after.cache.entry? crate.name = some print := by
  cases turn with
  | current printed fresh => exact ⟨_, _, printed, fresh.2, fresh.2⟩

omit turn in
theorem calls_of_cached (turn : Turn context graph crate before after .cached) :
    after.world.calls = before.world.calls := by
  cases turn with
  | current => rfl

omit turn in
/-- A crate is verified by a verifier that passed. -/
theorem of_verified (turn : Turn context graph crate before after .verified) :
    ∃ prepared print, Printed context graph crate before prepared print ∧
      after.cache.entry? crate.name = some print ∧
      after.world.calls = before.world.calls ++ [prepared.invocation] ∧
      ∃ verdict, context.verify (before.world.removeMarker crate.marker).1 prepared.invocation =
        .ok verdict ∧ verdict.Passed := by
  cases turn with
  | verified printed stale executed => exact ⟨_, _, printed, by simp, executed.passed_of_ok⟩

variable {directory : Path} (regular : graph.Regular directory) (member : crate ∈ graph.crates)
include regular member

theorem changedIn :
    ChangedIn (directory.place before.world.tree.workingDirectory) (crate.markerFiles context.process)
      before.world.tree after.world.tree := by
  cases turn with
  | blocked | refused => exact changedIn_removeMarker regular member context.process before.world
  | current => exact .refl ..
  | @failed _ _ world _ _ _ executed =>
      have run := executed.changedIn regular member
      have removal := changedIn_removeMarker regular member context.process world
      exact run.trans (run.working ▸ removal)
  | verified _ _ executed => exact executed.changedIn regular member

/-- A crate that succeeds has its marker, and its entry is the fingerprint of this turn. -/
theorem of_success (success : fate.Success) :
    ∃ prepared print, Printed context graph crate before prepared print ∧
      after.cache.entry? crate.name = some print ∧
      after.world.tree.present crate.marker = true := by
  cases turn with
  | blocked | refused | failed => exact absurd success id
  | current printed fresh => exact ⟨_, _, printed, fresh.2, fresh.1⟩
  | verified printed stale executed =>
      refine ⟨_, _, printed, by simp, ?_⟩
      obtain ⟨executable, found⟩ := (read_eq_ok_iff _ _ _).mp (executed.read_of_ok regular member)
      exact (present_eq_true_iff _ _).mpr ⟨_, found⟩

/-- A crate that does not succeed has at most a directory in the place of its marker, and it was
there before. -/
theorem status_of_not_success (unsuccessful : ¬ fate.Success) {node : Node}
    (left : after.world.tree.status crate.marker = .ok node) :
    before.world.tree.isDirectory crate.marker = true ∧ node = .directory := by
  cases turn with
  | blocked | refused =>
      have found := status_removeMarker regular member left
      exact ⟨found.1, found.2.1⟩
  | current | verified => exact absurd trivial unsuccessful
  | failed printed stale executed =>
      have found := status_removeMarker regular member left
      have directory := (isDirectory_iff _ _).mp found.1
      exact ⟨(executed.status_of_error regular member directory).1, found.2.1⟩

end Turn

end Context

end ProofBuild
