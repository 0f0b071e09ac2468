import ProofBuild.Proofs.Markable
import ProofBuild.Proofs.Runs

/-!
What decides the fate of a crate. What removing and writing the crate's marker keep, a turn and a
build keep (`Turn.keeps`, `buildAll_keeps`), and so no build changes whether a marker can be put in
its place. A run succeeds exactly when that is so and the verifier passes
(`Executed.exists_eq_ok_iff`). Blocked, cached and verified each have their condition on the state
before the turn.
-/

namespace ProofBuild

namespace FileTree

/-- From `before` to `after` the same directories are in the directory, and the way to it starts
as it did. -/
structure KeptIn (directory : Path) (before after : FileTree) : Prop where
  working : after.workingDirectory = before.workingDirectory
  start : after.Directory (directory.origin before.workingDirectory) ↔
    before.Directory (directory.origin before.workingDirectory)
  inside : ∀ name, after.Directory (name :: directory.place before.workingDirectory) ↔
    before.Directory (name :: directory.place before.workingDirectory)

namespace KeptIn
variable {directory : Path} {first second third : FileTree}

theorem refl (directory : Path) (tree : FileTree) : KeptIn directory tree tree :=
  ⟨rfl, Iff.rfl, fun _ => Iff.rfl⟩

theorem trans (one : KeptIn directory first second) (two : KeptIn directory second third) :
    KeptIn directory first third := by
  obtain ⟨working, start, inside⟩ := two
  rw [one.working] at working start inside
  exact ⟨working, start.trans one.start, fun name => (inside name).trans (one.inside name)⟩

theorem symm (kept : KeptIn directory first second) : KeptIn directory second first := by
  obtain ⟨working, start, inside⟩ := kept
  refine ⟨working.symm, ?_, fun name => ?_⟩
  · rw [working]
    exact start.symm
  · rw [working]
    exact (inside name).symm

end KeptIn

end FileTree

namespace Marker
open FileTree

section
variable {base : Path} {name : String} (ordinary : Path.OrdinaryName name) (inward : base.Inward)
include ordinary inward

theorem keptIn_remove (tree : FileTree) : KeptIn base tree (remove tree (base.child name)).1 :=
  ⟨(changedIn_remove ordinary inward tree).working, directory_remove .., fun _ => directory_remove ..⟩

theorem keptIn_write (process : Nat) (extended : Path.OrdinaryName (temporaryName name process))
    (tree : FileTree) : KeptIn base tree (write tree (base.child name) process).1 := by
  refine ⟨(changedIn_write ordinary inward process extended tree).working, ?_, fun other => ?_⟩
  · rw [directory_write]
    exact directory_origin_makeRoom ordinary inward tree
  · rw [directory_write]
    exact (changedIn_makeRoom ordinary inward tree).directory_name (Set.notMem_empty other)

end

theorem markable_iff {base : Path} {name : String} {process : Nat} {names : Set String}
    {before after : FileTree}
    (change : ChangedIn (base.place before.workingDirectory) names before after)
    (kept : KeptIn base before after) :
    Markable after base name process ↔ Markable before base name process := by
  have passable := change.passable_iff kept.start
  constructor
  · rintro ⟨usable, beside, open_, free, freeBeside⟩
    rw [kept.working] at open_ free freeBeside
    rw [kept.inside] at free freeBeside
    exact ⟨usable, beside, passable.mp open_, free, freeBeside⟩
  · rintro ⟨usable, beside, open_, free, freeBeside⟩
    refine ⟨usable, beside, ?_, ?_, ?_⟩
    · rw [kept.working]
      exact passable.mpr open_
    · rwa [kept.working, kept.inside]
    · rwa [kept.working, kept.inside]

end Marker

namespace Context
open FileTree

variable {context : Context} {graph : Graph} {crate : Crate}

section Keeps
variable {motive : FileTree → Prop}

section Crate
variable (removes : ∀ tree, motive tree → motive (Marker.remove tree crate.marker).1)
  (writes : ∀ tree, motive tree → motive (Marker.write tree crate.marker context.process).1)
include removes writes

theorem Executed.keeps {invocation : Invocation} {before after : World} {outcome : Outcome Path}
    (executed : Executed context crate invocation before after outcome) (kept : motive before.tree) :
    motive after.tree := by
  have removed := removes before.tree kept
  cases executed with
  | stuck => exact removed
  | run _ started =>
      cases started with
      | unanswered | rejected => exact removed
      | unmarked | done => exact writes _ removed

/-- What removing and writing the crate's marker keep, a turn keeps. -/
theorem Turn.keeps {before after : State} {fate : Fate}
    (turn : Turn context graph crate before after fate) (kept : motive before.world.tree) :
    motive after.world.tree := by
  cases turn with
  | blocked | refused => exact removes _ kept
  | current => exact kept
  | failed _ _ executed => exact removes _ (executed.keeps removes writes kept)
  | verified _ _ executed => exact executed.keeps removes writes kept

end Crate

theorem buildAll_keeps {crates : List Crate}
    (removes : ∀ crate ∈ crates, ∀ tree, motive tree → motive (Marker.remove tree crate.marker).1)
    (writes : ∀ crate ∈ crates, ∀ tree, motive tree →
      motive (Marker.write tree crate.marker context.process).1)
    {state : State} (kept : motive state.world.tree) :
    motive (context.buildAll graph crates state).1.world.tree := by
  induction crates generalizing state with
  | nil => exact kept
  | cons crate rest ih =>
      obtain ⟨removesFirst, removesRest⟩ := List.forall_mem_cons.mp removes
      obtain ⟨writesFirst, writesRest⟩ := List.forall_mem_cons.mp writes
      have turn := turn_buildCrate context graph crate state
      rw [buildAll_cons]
      exact ih removesRest writesRest (turn.keeps removesFirst writesFirst kept)

end Keeps

/-- Whether a run of the invocation would put the crate's marker in its place. -/
def Able (context : Context) (directory : Path) (crate : Crate) (world : World)
    (invocation : Invocation) : Prop :=
  Marker.Markable world.tree directory (Crate.markerName crate.name) context.process ∧
    ∃ verdict, context.verify (world.removeMarker crate.marker).1 invocation = .ok verdict ∧
      verdict.Passed

/-- Whether the verifier's answer depends on the invocation only. -/
def Repeatable (context : Context) : Prop :=
  ∀ one two invocation, context.verify one invocation = context.verify two invocation

theorem able_iff {directory : Path} {one two : World} {invocation : Invocation}
    (repeatable : context.Repeatable)
    (markable : Marker.Markable two.tree directory (Crate.markerName crate.name) context.process ↔
      Marker.Markable one.tree directory (Crate.markerName crate.name) context.process) :
    Able context directory crate two invocation ↔ Able context directory crate one invocation := by
  rw [Able, Able, markable, repeatable (two.removeMarker crate.marker).1 (one.removeMarker crate.marker).1]

section Regular
variable {directory : Path} (regular : graph.Regular directory)
include regular

theorem keptIn_buildAll {crates : List Crate} (inside : ∀ crate ∈ crates, crate ∈ graph.crates)
    (state : State) :
    KeptIn directory state.world.tree (context.buildAll graph crates state).1.world.tree := by
  apply buildAll_keeps (motive := KeptIn directory state.world.tree)
  · intro crate member tree kept
    rw [marker_eq_child regular (inside crate member)]
    exact kept.trans (Marker.keptIn_remove (ordinaryName_marker regular (inside crate member))
      regular.inward tree)
  · intro crate member tree kept
    rw [marker_eq_child regular (inside crate member)]
    exact kept.trans (Marker.keptIn_write (ordinaryName_marker regular (inside crate member))
      regular.inward context.process
      (ordinaryName_temporary regular (inside crate member) context.process) tree)
  · exact .refl ..

theorem markable_buildAll {crates : List Crate} (inside : ∀ crate ∈ crates, crate ∈ graph.crates)
    (state : State) (name : String) :
    Marker.Markable (context.buildAll graph crates state).1.world.tree directory name
        context.process ↔
      Marker.Markable state.world.tree directory name context.process :=
  Marker.markable_iff (changedIn_buildAll regular inside state) (keptIn_buildAll regular inside state)

variable (member : crate ∈ graph.crates)
include member

theorem isDirectory_marker_iff (tree : FileTree) :
    tree.isDirectory crate.marker = true ↔ (directory.child (Crate.markerName crate.name)).Usable ∧
      tree.Directory (Crate.markerName crate.name :: directory.place tree.workingDirectory) := by
  rw [isDirectory_iff, marker_eq_child regular member]
  exact status_child_iff regular.inward (ordinaryName_marker regular member) .directory

theorem isDirectory_marker_kept {before after : FileTree} (kept : KeptIn directory before after) :
    after.isDirectory crate.marker = before.isDirectory crate.marker := by
  apply Bool.eq_iff_iff.mpr
  rw [isDirectory_marker_iff regular member, isDirectory_marker_iff regular member, kept.working,
    kept.inside]

/-- A run succeeds exactly when the marker can be put in its place and the verifier passes. -/
theorem Executed.exists_eq_ok_iff {invocation : Invocation} {before after : World}
    {outcome : Outcome Path} (executed : Executed context crate invocation before after outcome) :
    (∃ marker, outcome = .ok marker) ↔ Able context directory crate before invocation := by
  have ordinary := ordinaryName_marker regular member
  have extended := ordinaryName_temporary regular member context.process
  have removal : Marker.Markable (before.removeMarker crate.marker).1.tree directory
      (Crate.markerName crate.name) context.process ↔
        Marker.Markable before.tree directory (Crate.markerName crate.name) context.process := by
    rw [World.tree_removeMarker, marker_eq_child regular member]
    exact Marker.markable_iff (Marker.changedIn_remove ordinary regular.inward before.tree)
      (Marker.keptIn_remove ordinary regular.inward before.tree)
  have writes : (((before.removeMarker crate.marker).1.called invocation).writeMarker crate.marker
      context.process).2 = .ok () ↔ Marker.Markable (before.removeMarker crate.marker).1.tree
        directory (Crate.markerName crate.name) context.process := by
    rw [World.outcome_writeMarker, World.tree_called, marker_eq_child regular member]
    exact Marker.write_eq_ok_iff ordinary regular.inward extended
  rw [Able, ← removal, ← writes]
  cases executed with
  | @stuck error kept =>
      -- Where a marker can be written the old one can be removed.
      simp only [reduceCtorEq, exists_false, false_iff]
      rintro ⟨written, _⟩
      obtain ⟨usable, _, passable, free, _⟩ := removal.mp (writes.mp written)
      have removed := Marker.remove_of_passable ordinary regular.inward usable passable free
      rw [World.outcome_removeMarker, marker_eq_child regular member, removed] at kept
      cases kept
  | run removed started =>
      cases started with
      | unanswered answer => simp [answer]
      | rejected answer refused => simp [answer, refused]
      | unmarked answer passed failed => simp [failed]
      | done answer passed written => simp [answer, passed, written]

end Regular

namespace Printed
variable {state : State} {prepared : Prepared} {print : String}
  (printed : Printed context graph crate state prepared print)
include printed

theorem unique {other : Prepared} {another : String}
    (second : Printed context graph crate state other another) :
    prepared = other ∧ print = another := by
  have prepares := printed.prepares
  rw [second.prepares] at prepares
  cases prepares
  have prints := printed.prints
  rw [second.prints] at prints
  cases prints
  exact ⟨rfl, rfl⟩

theorem not_refused {error : Error} :
    ¬ (context.prepare graph state.world.tree crate = .error error ∨
      ∃ prepared, context.prepare graph state.world.tree crate = .ok prepared ∧
        context.fingerprintOf graph crate prepared state = .error error) := by
  rintro (unprepared | ⟨other, prepares, unprinted⟩)
  · rw [printed.prepares] at unprepared
    cases unprepared
  · rw [printed.prepares] at prepares
    cases prepares
    rw [printed.prints] at unprinted
    cases unprinted

end Printed

theorem missing_of_alone (alone : graph.dependencies crate = []) (tree : FileTree) :
    graph.missing tree crate = [] := by
  rw [Graph.missing, alone, List.filter_nil, List.map_nil]

theorem printed_of_readable {state : State} {prepared : Prepared}
    (ready : graph.missing state.world.tree crate = [])
    (prepares : context.prepare graph state.world.tree crate = .ok prepared)
    (readable : ∀ path ∈ context.inputsOf graph crate,
      Fingerprint.Readable state.world.tree path) :
    ∃ print, Printed context graph crate state prepared print := by
  have prints : context.fingerprintOf graph crate prepared state = .ok _ :=
    fingerprint_eq_ok_iff.mpr ⟨readable, rfl⟩
  exact ⟨_, ready, prepares, prints⟩

namespace Turn
variable {before after : State} {fate : Fate} (turn : Turn context graph crate before after fate)
include turn

theorem blocked_iff {names : List String} :
    fate = .blocked names ↔ names ≠ [] ∧ graph.missing before.world.tree crate = names := by
  cases turn with
  | blocked lacking =>
      rw [Fate.blocked.injEq]
      constructor
      · rintro rfl
        exact ⟨lacking, rfl⟩
      · exact fun same => same.2
  | refused ready =>
      simp only [reduceCtorEq, false_iff, not_and]
      exact fun some same => some (same.symm.trans ready)
  | current printed | failed printed | verified printed =>
      simp only [reduceCtorEq, false_iff, not_and]
      exact fun some same => some (same.symm.trans printed.ready)

theorem cached_iff : fate = .cached ↔ ∃ prepared print,
    Printed context graph crate before prepared print ∧
      before.cache.Fresh before.world.tree crate.name crate.marker print := by
  constructor
  · rintro rfl
    cases turn with
    | current printed fresh => exact ⟨_, _, printed, fresh⟩
  · rintro ⟨prepared, print, printed, fresh⟩
    cases turn with
    | blocked lacking => exact absurd printed.ready lacking
    | refused _ reason => exact absurd reason printed.not_refused
    | current => rfl
    | failed other stale | verified other stale =>
        obtain ⟨rfl, rfl⟩ := printed.unique other
        exact absurd fresh stale

theorem verified_iff {directory : Path} (regular : graph.Regular directory)
    (member : crate ∈ graph.crates) : fate = .verified ↔ ∃ prepared print,
      Printed context graph crate before prepared print ∧
        ¬ before.cache.Fresh before.world.tree crate.name crate.marker print ∧
        Able context directory crate before.world prepared.invocation := by
  constructor
  · rintro rfl
    cases turn with
    | verified printed stale executed =>
        exact ⟨_, _, printed, stale, (executed.exists_eq_ok_iff regular member).mp ⟨_, rfl⟩⟩
  · rintro ⟨prepared, print, printed, stale, able⟩
    cases turn with
    | blocked lacking => exact absurd printed.ready lacking
    | refused _ reason => exact absurd reason printed.not_refused
    | current other fresh =>
        obtain ⟨rfl, rfl⟩ := printed.unique other
        exact absurd fresh stale
    | failed other _ executed =>
        obtain ⟨rfl, rfl⟩ := printed.unique other
        obtain ⟨_, same⟩ := (executed.exists_eq_ok_iff regular member).mpr able
        cases same
    | verified => rfl

theorem directory_of_success {directory : Path} (regular : graph.Regular directory)
    (member : crate ∈ graph.crates) (success : fate.Success) :
    after.world.tree.Directory (directory.place before.world.tree.workingDirectory) := by
  obtain ⟨_, _, _, _, present⟩ := turn.of_success regular member success
  obtain ⟨node, found⟩ := (present_eq_true_iff _ _).mp present
  rw [marker_eq_child regular member, status_child_iff regular.inward
    (ordinaryName_marker regular member), (turn.changedIn regular member).working] at found
  exact directory_of_node? found.2

theorem failed_of_not_printed (ready : graph.missing before.world.tree crate = [])
    (unprinted : ∀ prepared print, ¬ Printed context graph crate before prepared print) :
    ∃ reason, fate = .failed reason := by
  cases turn with
  | blocked lacking => exact absurd ready lacking
  | refused | failed => exact ⟨_, rfl⟩
  | current printed | verified printed => exact absurd printed (unprinted _ _)

/-- A crate without an entry is verified if its marker can be written and the verifier passes. -/
theorem verified_of_write {directory : Path} (regular : graph.Regular directory)
    (member : crate ∈ graph.crates) {prepared : Prepared} {print : String}
    (printed : Printed context graph crate before prepared print)
    (unknown : before.cache.entry? crate.name = none)
    (written : (Marker.write (Marker.remove before.world.tree crate.marker).1 crate.marker
      context.process).2 = .ok ())
    (passes : ∀ world, ∃ verdict, context.verify world prepared.invocation = .ok verdict ∧
      verdict.Passed) : fate = .verified := by
  have ordinary := ordinaryName_marker regular member
  have extended := ordinaryName_temporary regular member context.process
  -- The marker is as placeable before its removal as after it.
  rw [marker_eq_child regular member, Marker.write_eq_ok_iff ordinary regular.inward extended,
    Marker.markable_iff (Marker.changedIn_remove ordinary regular.inward _)
      (Marker.keptIn_remove ordinary regular.inward _)] at written
  refine (turn.verified_iff regular member).mpr ⟨prepared, print, printed, ?_, written, passes _⟩
  rintro ⟨_, known⟩
  rw [unknown] at known
  cases known

end Turn

end Context

end ProofBuild
