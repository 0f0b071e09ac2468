import Mathlib.Data.List.Induction
import ProofBuild.Proofs.Alike
import ProofBuild.Proofs.Invocations

/-!
A second build right after the first. What the first build leaves looks to every crate as it did in
the crate's turn, so a crate that succeeded is current now, and one that did not meets the same
obstacle again. Main statement: the second build changes no file and no entry, and its fates are
those of the first with every success a cached one (`build_again`).
-/

namespace ProofBuild

namespace Fate

/-- What a second build makes of a crate. -/
def repeated : Fate → Fate
  | .verified => .cached
  | fate => fate

theorem repeated_eq_blocked {fate : Fate} {names : List String} :
    fate.repeated = .blocked names ↔ fate = .blocked names := by
  cases fate <;> simp [repeated]

theorem repeated_eq_cached {fate : Fate} : fate.repeated = .cached ↔ fate.Success := by
  cases fate <;> simp [repeated, Success]

theorem repeated_ne_verified (fate : Fate) : fate.repeated ≠ .verified := by
  cases fate <;> simp [repeated]

end Fate

open FileTree

/-- When a marker could not be written and cannot be written again, no further directories are made
for it. -/
theorem Marker.write_again {base : Path} {name : String} (ordinary : Path.OrdinaryName name)
    (inward : base.Inward) {process : Nat}
    (extended : Path.OrdinaryName (temporaryName name process)) {names : Set String}
    {tree later : FileTree} {error another : Error}
    (removed : (remove tree (base.child name)).2 = .ok ())
    (failed : (write (remove tree (base.child name)).1 (base.child name) process).2 = .error error)
    (change : ChangedIn (base.place tree.workingDirectory) names
      (write (remove tree (base.child name)).1 (base.child name) process).1 later)
    (kept : KeptIn base tree later)
    (again : (write later (base.child name) process).2 = .error another) :
    (write later (base.child name) process).1 = later := by
  have removal := keptIn_remove ordinary inward tree
  have onward := removal.symm.trans kept
  -- The removal would have failed at a directory in the marker's place.
  have free : (base.child name).Usable →
      ¬ (remove tree (base.child name)).1.Directory
        (name :: base.place (remove tree (base.child name)).1.workingDirectory) := by
    intro usable
    rw [removal.working, directory_remove]
    exact not_directory_of_remove ordinary inward usable removed
  have freeLater : (base.child name).Usable →
      ¬ later.Directory (name :: base.place later.workingDirectory) := by
    rw [onward.working, onward.inside]
    exact free
  rw [write_of_error ordinary inward extended free failed, ← removal.working] at change
  rw [write_of_error ordinary inward extended freeLater again]
  exact makeRoom_again ordinary inward change onward.start.mp

namespace Context

variable {context : Context} {graph : Graph} {crate : Crate}

section Run
variable {directory : Path} (regular : graph.Regular directory) (member : crate ∈ graph.crates)
  (repeatable : context.Repeatable)
include regular member repeatable

/-- A run that fails once more changes no file: there is no marker to remove, and the directories
that could be made for one have been made. -/
theorem Executed.tree_again {names : Set String} {invocation : Invocation}
    {before left later after : World} {error another : Error}
    (executed : Executed context crate invocation before left (.error error))
    (change : ChangedIn (directory.place before.tree.workingDirectory) names left.tree later.tree)
    (kept : KeptIn directory before.tree later.tree)
    (absent : ∀ content executable, later.tree.status crate.marker ≠ .ok (.file content executable))
    (again : Executed context crate invocation later after (.error another)) :
    after.tree = later.tree := by
  have ordinary := ordinaryName_marker regular member
  have extended := ordinaryName_temporary regular member context.process
  have inward := regular.inward
  have first := executed.changedIn regular member
  have marker := marker_eq_child regular member
  have cleared : (later.removeMarker crate.marker).1.tree = later.tree := by
    rw [marker] at absent
    rw [World.tree_removeMarker, marker]
    exact Marker.remove_eq_self ordinary inward absent
  cases again with
  | stuck => exact cleared
  | run removed started =>
      cases started with
      | unanswered | rejected => exact cleared
      | unmarked answer passed failed =>
          rw [World.outcome_removeMarker, marker] at removed
          cases executed with
          | stuck stuck =>
              rw [World.outcome_removeMarker, marker] at stuck
              -- What could not be removed at first cannot be removed now.
              have whole := (first.mono (Set.subset_union_left (t := names))).trans
                (change.mono Set.subset_union_right)
              obtain ⟨_, refused⟩ :=
                Marker.remove_again ordinary inward whole (kept.inside _) stuck
              rw [removed] at refused
              cases refused
          | run removedFirst startedFirst =>
              rw [World.outcome_removeMarker, marker] at removedFirst
              cases startedFirst with
              | unanswered refused =>
                  rw [repeatable _ (later.removeMarker crate.marker).1, answer] at refused
                  cases refused
              | rejected other unsuccessful =>
                  rw [repeatable _ (later.removeMarker crate.marker).1, answer] at other
                  cases other
                  exact absurd passed unsuccessful
              | unmarked _ _ failedFirst =>
                  -- Both runs came as far as the marker, and the first has made the room for it.
                  rw [World.outcome_writeMarker, World.tree_called, World.tree_removeMarker,
                    marker] at failedFirst
                  rw [World.outcome_writeMarker, World.tree_called, cleared, marker] at failed
                  rw [World.tree_writeMarker, World.tree_called, World.tree_removeMarker,
                    marker] at change
                  rw [World.tree_writeMarker, World.tree_called, cleared, marker]
                  exact Marker.write_again ordinary inward extended removedFirst failedFirst change
                    kept failed

/-- A turn that fails once more changes no file. -/
theorem Turn.tree_again {names : Set String} {before left again later : State} {fate next : Fate}
    (turn : Turn context graph crate before left fate) (unsuccessful : ¬ fate.Success)
    (change : ChangedIn (directory.place before.world.tree.workingDirectory) names left.world.tree
      again.world.tree)
    (kept : KeptIn directory before.world.tree again.world.tree)
    (absent : ∀ content executable,
      again.world.tree.status crate.marker ≠ .ok (.file content executable))
    (printed : ∀ prepared print, Printed context graph crate again prepared print →
      Printed context graph crate before prepared print)
    (second : Turn context graph crate again later next) (failing : ¬ next.Success) :
    later.world.tree = again.world.tree := by
  have marker := marker_eq_child regular member
  have cleared : (Marker.remove again.world.tree crate.marker).1 = again.world.tree := by
    rw [marker] at absent ⊢
    exact Marker.remove_eq_self (ordinaryName_marker regular member) regular.inward absent
  cases second with
  | blocked | refused => exact cleared
  | current | verified => exact absurd trivial failing
  | @failed _ _ world _ printedAgain _ executedAgain =>
      have first := printed _ _ printedAgain
      have same : world.tree = again.world.tree := by
        -- The first turn must have got as far as this one.
        cases turn with
        | blocked lacking => exact absurd first.ready lacking
        | refused _ reason => exact absurd reason first.not_refused
        | current | verified => exact absurd trivial unsuccessful
        | @failed _ _ ran _ other _ executed =>
            obtain ⟨rfl, rfl⟩ := first.unique other
            have removal := changedIn_removeMarker regular member context.process ran
            rw [(executed.changedIn regular member).working] at removal
            have whole := (removal.mono (Set.subset_union_left (t := names))).trans
              (change.mono Set.subset_union_right)
            exact executed.tree_again regular member repeatable whole kept absent executedAgain
      show (Marker.remove world.tree crate.marker).1 = again.world.tree
      rw [same, cleared]

end Run

/-- Whether a state has the files and the entries of another one. -/
structure Idle (one two : State) : Prop where
  tree : two.world.tree = one.world.tree
  entries : two.cache.entries = one.cache.entries

theorem Idle.trans {one two three : State} (first : Idle one two) (second : Idle two three) :
    Idle one three :=
  ⟨second.tree.trans first.tree, second.entries.trans first.entries⟩

theorem Idle.entry?_eq {one two : State} (idle : Idle one two) (name : String) :
    two.cache.entry? name = one.cache.entry? name := by
  rw [Cache.entry?, Cache.entry?, idle.entries]

section Selection
variable {directory : Path} (regular : graph.Regular directory) {selected : List Crate}
  (part : selected.Sublist graph.crates) {before after : List Crate}
  (place : selected = before ++ crate :: after) {state again : State}

theorem keptIn_from (regular : graph.Regular directory) (part : selected.Sublist graph.crates)
    (place : selected = before ++ crate :: after) :
    KeptIn directory (context.buildAll graph before state).1.world.tree
      (context.buildAll graph selected state).1.world.tree := by
  rw [place, buildAll_append_fst]
  exact keptIn_buildAll regular (mem_crates_of_place part place).2 _

variable (idle : Idle (context.buildAll graph selected state).1 again)

section Fresh
include regular part place idle

theorem fresh_again {prepared : Prepared} {print : String}
    (printed : Printed context graph crate (context.buildAll graph before state).1 prepared print) :
    again.cache.Fresh again.world.tree crate.name crate.marker print ↔
      (context.buildCrate graph crate (context.buildAll graph before state).1).2.Success := by
  have turn := turn_buildCrate context graph crate (context.buildAll graph before state).1
  constructor
  · -- Without a success there would be no entry.
    rintro ⟨_, entry⟩
    by_contra unsuccessful
    rw [idle.entry?_eq, entry?_build regular part place,
      turn.entry?_of_not_success unsuccessful] at entry
    cases entry
  · intro success
    obtain ⟨_, _, other, entry, present⟩ := of_success_build regular part place success
    obtain ⟨rfl, rfl⟩ := printed.unique other
    rw [← idle.tree] at present
    rw [← idle.entry?_eq] at entry
    exact ⟨present, entry⟩

end Fresh

/-- What reads after a build as it did before it read so in the turn, too. -/
theorem read_own_of_build (regular : graph.Regular directory) (part : selected.Sublist graph.crates)
    (place : selected = before ++ crate :: after)
    (apart : context.Apart directory selected state.world.tree) {path : Path}
    (input : path ∈ crate.sources ++ context.bundle.artifacts)
    (same : (context.buildAll graph selected state).1.world.tree.read path =
      state.world.tree.read path) :
    (context.buildAll graph selected state).1.world.tree.read path =
      (context.buildAll graph before state).1.world.tree.read path := by
  obtain ⟨inward, clear⟩ := apart crate (by simp [place]) path input
  obtain ⟨first, rest⟩ := mem_crates_of_place part place
  have working : (context.buildAll graph before state).1.world.tree.workingDirectory = _ :=
    (changedIn_buildAll regular first state).working
  have opening : Upheld _ ((context.buildAll graph before state).1.world.tree.read path) :=
    read_buildAll regular first state inward clear
  rw [← working] at clear
  have ending : Upheld _ ((context.buildAll graph (crate :: after)
      (context.buildAll graph before state).1).1.world.tree.read path) :=
    read_buildAll regular rest _ inward clear
  rw [← buildAll_append_fst, ← place] at ending
  have mid := opening.between ending (by
    rintro ⟨absent, refused⟩
    rw [same, absent] at refused
    cases refused)
  rw [same, mid]

variable (closed : ∀ crate ∈ selected, ∀ lower, graph.Below crate lower → lower ∈ selected)
  (steady : context.Steady graph directory state.world.tree)

section Alike
include regular part place idle closed steady

/-- What a build leaves looks to every crate as it did in the crate's turn. -/
theorem alike_again :
    Alike context graph crate (context.buildAll graph before state).1 again := by
  have earlier {lower : Crate} (below : graph.Below crate lower) : lower ∈ before :=
    mem_before_of_below regular part closed place below
  refine ⟨?_, ?_, ?_, ?_, founded_buildAll regular part closed place state⟩
  · intro lower below content
    have known := Graph.mem_crates_of_below regular.settled below
    rw [idle.tree, place, buildAll_append_fst]
    exact read_marker_buildAll regular (mem_crates_of_place part place).2 known
      (names_apart_from regular part place (earlier below)) content
  · intro lower direct
    have known := Graph.mem_crates_of_below regular.settled (.single direct)
    rw [idle.tree]
    exact isDirectory_marker_kept regular known (keptIn_from regular part place)
  · apply List.map_congr_left
    intro lower direct
    rw [idle.entry?_eq, place, buildAll_append]
    exact entry?_buildAll (names_apart_from regular part place (earlier (.single direct))) _
  · have all : ∀ other ∈ selected, other ∈ graph.crates := fun other member => part.subset member
    rw [idle.tree, synthesize_buildAll regular all steady,
      synthesize_buildAll regular (mem_crates_of_place part place).1 steady]

end Alike

section Printed
variable (apart : context.Apart directory selected state.world.tree) {prepared : Prepared}
  {print : String}
include regular part place idle closed steady apart

theorem printed_of_again (printed : Printed context graph crate again prepared print) :
    Printed context graph crate (context.buildAll graph before state).1 prepared print := by
  apply (alike_again regular part place idle closed steady).symm.printed _ regular printed
  intro path input
  have all : ∀ other ∈ selected, other ∈ graph.crates := fun other member => part.subset member
  have readable := printed.readable (List.mem_append_left _ input)
  rw [idle.tree] at readable
  have kept := (upheld_own regular all (by simp [place]) apart input).eq_of_readable readable
  rw [idle.tree, read_own_of_build regular part place apart input kept]

theorem printed_again
    (legible : context.Legible crate state.world.tree
      (context.buildAll graph selected state).1.world.tree)
    (printed : Printed context graph crate (context.buildAll graph before state).1 prepared print) :
    Printed context graph crate again prepared print := by
  apply (alike_again regular part place idle closed steady).printed _ regular printed
  intro path input
  have all : ∀ other ∈ selected, other ∈ graph.crates := fun other member => part.subset member
  have kept := (upheld_own regular all (by simp [place]) apart input).resolve_right
    (legible path input)
  rw [idle.tree, read_own_of_build regular part place apart input kept]

end Printed

section Fates
variable (apart : context.Apart directory selected state.world.tree)
  (legible : (context.buildCrate graph crate (context.buildAll graph before state).1).2.Success →
    context.Legible crate state.world.tree (context.buildAll graph selected state).1.world.tree)
  (repeatable : context.Repeatable) {later : State} {fate : Fate}
  (turn : Turn context graph crate again later fate)
include regular part place idle closed steady apart

section Cached
include legible turn

/-- The crates that are current in the second build are those that succeeded in the first. -/
theorem cached_again : fate = .cached ↔
    (context.buildCrate graph crate (context.buildAll graph before state).1).2.Success := by
  rw [turn.cached_iff]
  constructor
  · rintro ⟨prepared, print, printed, fresh⟩
    have first := printed_of_again regular part place idle closed steady apart printed
    exact (fresh_again regular part place idle first).mp fresh
  · intro success
    have known : crate ∈ graph.crates := part.subset (by simp [place])
    obtain ⟨prepared, print, first, _⟩ :=
      (turn_buildCrate context graph crate _).of_success regular known success
    have printed :=
      printed_again regular part place idle closed steady apart (legible success) first
    exact ⟨prepared, print, printed, (fresh_again regular part place idle first).mpr success⟩

end Cached

include repeatable turn

theorem not_verified_again : fate ≠ .verified := by
  have known : crate ∈ graph.crates := part.subset (by simp [place])
  have first := turn_buildCrate context graph crate (context.buildAll graph before state).1
  intro verified
  obtain ⟨prepared, print, again, stale, able⟩ := (turn.verified_iff regular known).mp verified
  have printed := printed_of_again regular part place idle closed steady apart again
  apply stale
  rw [fresh_again regular part place idle printed]
  -- The marker could be placed in the first turn as well, and the verifier passed as well.
  have ableFirst : Able context directory crate (context.buildAll graph before state).1.world
      prepared.invocation := by
    apply (able_iff repeatable _).mp able
    rw [idle.tree, place, buildAll_append_fst]
    exact markable_buildAll regular (mem_crates_of_place part place).2 _ _
  by_cases fresh : (context.buildAll graph before state).1.cache.Fresh
      (context.buildAll graph before state).1.world.tree crate.name crate.marker print
  · rw [first.cached_iff.mpr ⟨prepared, print, printed, fresh⟩]
    trivial
  · rw [(first.verified_iff regular known).mpr ⟨prepared, print, printed, fresh, ableFirst⟩]
    trivial

include legible

/-- In the second build every crate has the fate of the first, with a success made a cached one. -/
theorem alike_fate_again :
    (context.buildCrate graph crate (context.buildAll graph before state).1).2.repeated.Alike
      fate := by
  have first := turn_buildCrate context graph crate (context.buildAll graph before state).1
  have alike := alike_again regular part place idle closed steady
  apply Fate.alike_of
  · intro names
    rw [Fate.repeated_eq_blocked, turn.blocked_iff, first.blocked_iff, alike.missing_eq]
  · rw [Fate.repeated_eq_cached]
    exact cached_again regular part place idle closed steady apart legible turn
  · constructor
    · intro verified
      exact absurd verified
        (not_verified_again regular part place idle closed steady apart repeatable turn)
    · intro verified
      exact absurd verified (Fate.repeated_ne_verified _)

/-- A turn of the second build changes neither files nor entries. -/
theorem idle_turn : Idle again later := by
  have known : crate ∈ graph.crates := part.subset (by simp [place])
  have alike := alike_again regular part place idle closed steady
  have first := turn_buildCrate context graph crate (context.buildAll graph before state).1
  have cached := cached_again regular part place idle closed steady apart legible turn
  have verified :=
    not_verified_again regular part place idle closed steady apart repeatable turn
  by_cases success :
    (context.buildCrate graph crate (context.buildAll graph before state).1).2.Success
  · -- A current crate is left as it is.
    rw [cached.mpr success] at turn
    cases turn with
    | current => exact ⟨rfl, rfl⟩
  · have failing : ¬ fate.Success := by
      cases fate with
      | verified => exact absurd rfl verified
      | cached => exact absurd (cached.mp rfl) success
      | failed | blocked => exact id
    constructor
    · have rest : ∀ other ∈ after, other ∈ graph.crates := fun other member =>
        (mem_crates_of_place part place).2 other (List.mem_cons_of_mem crate member)
      have kept : KeptIn directory (context.buildAll graph before state).1.world.tree
          again.world.tree := by
        rw [idle.tree]
        exact keptIn_from regular part place
      have change : ChangedIn _ _ _ (context.buildAll graph after
          (context.buildCrate graph crate (context.buildAll graph before state).1).1).1.world.tree :=
        changedIn_buildAll regular rest _
      rw [(first.changedIn regular known).working] at change
      rw [← buildAll_cons_fst, ← buildAll_append_fst, ← place, ← idle.tree] at change
      apply first.tree_again regular known repeatable success change kept _ _ turn failing
      · intro content executable found
        rw [idle.tree, status_marker_build regular part place] at found
        cases (first.status_of_not_success regular known success found).2
      · exact fun prepared print =>
          printed_of_again regular part place idle closed steady apart
    · -- The entry of the crate is gone since its first turn.
      apply Table.ext_get?
      intro name
      show later.cache.entry? name = again.cache.entry? name
      by_cases same : name = crate.name
      · rw [same, turn.entry?_of_not_success failing, idle.entry?_eq, entry?_build regular part place,
          first.entry?_of_not_success success]
      · exact turn.entry?_of_ne same

end Fates

end Selection

/-- Whether the inputs of the crates that succeeded can be told after the build, as far as the
length of their names goes. -/
def LegibleAfter (context : Context) (graph : Graph) (selected : List Crate) (state : State) : Prop :=
  ∀ crate ∈ selected, ∀ fate, (context.build graph selected state).2.fate? crate.name = some fate →
    fate.Success →
      context.Legible crate state.world.tree (context.build graph selected state).1.world.tree

theorem legibleAfter_of_short {selected : List Crate} {state : State}
    (short : ∀ crate ∈ selected, ∀ path ∈ crate.sources ++ context.bundle.artifacts,
      path.Inward ∧ ∀ step ∈ path.steps, step.utf8ByteSize ≤ nameLimit) :
    context.LegibleAfter graph selected state :=
  fun crate member _ _ _ => legible_of_short (short crate member)

section Whole
variable {directory : Path} (regular : graph.Regular directory) {selected : List Crate}
  (part : selected.Sublist graph.crates) {state : State}

theorem legible_of_cached_again (regular : graph.Regular directory)
    (part : selected.Sublist graph.crates) {before after : List Crate}
    (place : selected = before ++ crate :: after)
    (apart : context.Apart directory selected state.world.tree)
    (cached : (context.buildCrate graph crate (context.buildAll graph before
      (context.buildAll graph selected state).1).1).2 = .cached) :
    context.Legible crate state.world.tree (context.buildAll graph selected state).1.world.tree := by
  have turn := turn_buildCrate context graph crate
    (context.buildAll graph before (context.buildAll graph selected state).1).1
  obtain ⟨prepared, print, printed, _⟩ := turn.cached_iff.mp cached
  rintro path input ⟨_, refused⟩
  obtain ⟨inward, clear⟩ := apart crate (by simp [place]) path input
  have inside : ∀ other ∈ selected, other ∈ graph.crates := fun _ member => part.subset member
  have working : (context.buildAll graph selected state).1.world.tree.workingDirectory = _ :=
    (changedIn_buildAll regular inside state).working
  rw [← working] at clear
  -- What is refused after the first build is refused in the second, too.
  have later : Upheld _ ((context.buildAll graph before
      (context.buildAll graph selected state).1).1.world.tree.read path) :=
    read_buildAll regular (mem_crates_of_place part place).1 _ inward clear
  rw [refused] at later
  have same := later.eq_of_readable (printed.readable (List.mem_append_left _ input))
  exact Fingerprint.not_readable same (by decide) (printed.readable (List.mem_append_left _ input))

variable (closed : ∀ crate ∈ selected, ∀ lower, graph.Below crate lower → lower ∈ selected)
  (apart : context.Apart directory selected state.world.tree) (repeatable : context.Repeatable)
  (steady : context.Steady graph directory state.world.tree)
  (legible : context.LegibleAfter graph selected state)
include regular part closed apart repeatable steady legible

/-- All through the second build the files and entries are those that the first one left. -/
theorem idle_buildAll {done rest : List Crate} (place : selected = done ++ rest) :
    Idle (context.buildAll graph selected state).1
      (context.buildAll graph done (context.buildAll graph selected state).1).1 := by
  induction done using List.reverseRecOn generalizing rest with
  | nil => exact ⟨rfl, rfl⟩
  | append_singleton done crate ih =>
      have placed : selected = done ++ crate :: rest := by simpa using place
      have reported : (context.build graph selected state).2.fate? crate.name = some _ :=
        fate?_build regular part placed state
      have turn := idle_turn regular part placed (ih placed) closed steady apart
        (legible crate (by simp [placed]) _ reported) repeatable (turn_buildCrate context graph crate _)
      rw [buildAll_append_fst, buildAll_singleton_fst]
      exact (ih placed).trans turn

end Whole

/-- A second build with nothing edited in between: what succeeded in the first build is cached, what
failed fails and what was blocked is blocked on the same crates, exactly unless an input of a crate
that succeeded was absent at first and is refused now for the length of its name. Then no verifier
is invoked for a crate that succeeded, and no file and no entry is changed. -/
theorem build_again {specs : List Spec} {directory : Path} {graph : Graph} {names : List String}
    {selected : List Crate} (accepted : Graph.ofSpecs specs directory = .ok graph)
    (plain : ∀ spec ∈ specs, '/' ∉ spec.name.toList) (inward : directory.Inward)
    (chosen : graph.closure names = .ok selected) (context : Context) (state : State)
    (apart : context.Apart directory selected state.world.tree)
    (repeatable : context.Repeatable) (steady : context.Steady graph directory state.world.tree) :
    ((∀ crate ∈ selected, ∃ fate next,
        (context.build graph selected state).2.fate? crate.name = some fate ∧
        (context.build graph selected (context.build graph selected state).1).2.fate? crate.name =
          some next ∧
        fate.repeated.Alike next) ↔ context.LegibleAfter graph selected state) ∧
    (context.LegibleAfter graph selected state →
      ((context.build graph selected (context.build graph selected state).1).1.world.calls =
          (context.build graph selected state).1.world.calls ++
            (context.journal graph selected (context.build graph selected state).1).flatMap (·.2) ∧
        ∀ crate invocations fate,
          (crate, invocations) ∈
            context.journal graph selected (context.build graph selected state).1 →
          (context.build graph selected state).2.fate? crate.name = some fate → fate.Success →
            invocations = []) ∧
      (context.build graph selected (context.build graph selected state).1).1.world.tree =
        (context.build graph selected state).1.world.tree ∧
      (context.build graph selected (context.build graph selected state).1).1.cache.entries =
        (context.build graph selected state).1.cache.entries) := by
  have regular := Graph.regular_of_ofSpecs accepted plain inward
  obtain ⟨part, closed⟩ := Graph.closed_of_closure regular.settled chosen
  rw [build_fst, build_fst]
  refine ⟨⟨?_, ?_⟩, fun legible => ⟨⟨calls_buildAll .., ?_⟩, ?_⟩⟩
  · intro repeats crate member fate reported success
    obtain ⟨before, after, place⟩ := List.append_of_mem member
    obtain ⟨first, next, reportedFirst, reportedNext, alike⟩ := repeats crate member
    rw [reported] at reportedFirst
    cases reportedFirst
    rw [fate?_build regular part place] at reportedNext
    cases reportedNext
    rw [Fate.repeated_eq_cached.mpr success] at alike
    exact legible_of_cached_again regular part place apart alike.symm
  · intro legible crate member
    obtain ⟨before, after, place⟩ := List.append_of_mem member
    have reported : (context.build graph selected state).2.fate? crate.name = some _ :=
      fate?_build regular part place state
    have idle := idle_buildAll regular part closed apart repeatable steady legible place
    refine ⟨_, _, reported, fate?_build regular part place _, ?_⟩
    exact alike_fate_again regular part place idle closed steady apart
      (legible crate member _ reported) repeatable (turn_buildCrate context graph crate _)
  · intro crate invocations fate listed reported success
    obtain ⟨before, after, place, added⟩ := of_mem_journal listed
    have idle := idle_buildAll regular part closed apart repeatable steady legible place
    have legibleCrate := legible crate (by simp [place]) _ reported success
    rw [fate?_build regular part place state] at reported
    cases reported
    have turn := turn_buildCrate context graph crate
      (context.buildAll graph before (context.buildAll graph selected state).1).1
    have cached := (cached_again regular part place idle closed steady apart
      (fun _ => legibleCrate) turn).mpr success
    rw [cached] at turn
    rw [added, turn.calls_of_cached, List.drop_length]
  · have whole := idle_buildAll regular part closed apart repeatable steady legible
      (List.append_nil selected).symm
    exact ⟨whole.tree, whole.entries⟩

theorem build_again_tandem :
    Graph.ofSpecs Graph.tandemSpecs ⟨"out"⟩ = .ok Graph.tandem ∧
      (∀ spec ∈ Graph.tandemSpecs, '/' ∉ spec.name.toList) ∧ (⟨"out"⟩ : Path).Inward ∧
      Graph.tandem.closure ["app"] = .ok Graph.tandem.crates ∧
      accepting.Apart ⟨"out"⟩ Graph.tandem.crates blank.world.tree ∧ accepting.Repeatable ∧
      accepting.Steady Graph.tandem ⟨"out"⟩ blank.world.tree ∧
      accepting.LegibleAfter Graph.tandem Graph.tandem.crates blank ∧
      (∀ crate ∈ Graph.tandem.crates, ∃ fate next,
        (accepting.build Graph.tandem Graph.tandem.crates blank).2.fate? crate.name = some fate ∧
        (accepting.build Graph.tandem Graph.tandem.crates
          (accepting.build Graph.tandem Graph.tandem.crates blank).1).2.fate? crate.name = some next ∧
        fate.repeated.Alike next) ∧
      (accepting.build Graph.tandem Graph.tandem.crates
          (accepting.build Graph.tandem Graph.tandem.crates blank).1).1.world.tree =
        (accepting.build Graph.tandem Graph.tandem.crates blank).1.world.tree := by
  have accepted := Graph.ofSpecs_tandemSpecs
  have plain : ∀ spec ∈ Graph.tandemSpecs, '/' ∉ spec.name.toList := by decide
  have inward : (⟨"out"⟩ : Path).Inward := by decide
  have chosen : Graph.tandem.closure ["app"] = .ok Graph.tandem.crates := by decide
  have apart : accepting.Apart ⟨"out"⟩ Graph.tandem.crates blank.world.tree := by decide +kernel
  have repeatable : accepting.Repeatable := fun _ _ _ => rfl
  have steady : accepting.Steady Graph.tandem ⟨"out"⟩ blank.world.tree := fun _ _ => rfl
  have short : ∀ crate ∈ Graph.tandem.crates,
      ∀ path ∈ crate.sources ++ accepting.bundle.artifacts,
        path.Inward ∧ ∀ step ∈ path.steps, step.utf8ByteSize ≤ nameLimit := by decide +kernel
  have legible : accepting.LegibleAfter Graph.tandem Graph.tandem.crates blank :=
    legibleAfter_of_short short
  obtain ⟨fates, still⟩ := build_again accepted plain inward chosen accepting blank apart repeatable
    steady
  exact ⟨accepted, plain, inward, chosen, apart, repeatable, steady, legible, fates.mpr legible,
    (still legible).2.1⟩

end Context

namespace Graph

/-- Two crates on their own, with the markers where a toolchain manager keeps its state. -/
def managedSpecs : List Spec := [
  ⟨"lexer", [⟨"lexer.rs"⟩], none, none, [], []⟩,
  ⟨"parser", [⟨"parser.rs"⟩], none, none, [], []⟩]

def lexerCrate : Crate where
  name := "lexer"
  identity := "lexer"
  entry := ⟨"lexer.rs"⟩
  sources := [⟨"lexer.rs"⟩]
  extraArguments := []
  dependencies := []
  marker := ⟨"home/.rustup/lexer.success"⟩
  markers := [⟨"home/.rustup/lexer.success"⟩]

def parserCrate : Crate where
  name := "parser"
  identity := "parser"
  entry := ⟨"parser.rs"⟩
  sources := [⟨"parser.rs"⟩]
  extraArguments := []
  dependencies := []
  marker := ⟨"home/.rustup/parser.success"⟩
  markers := [⟨"home/.rustup/parser.success"⟩]

def managed : Graph := ⟨[lexerCrate, parserCrate]⟩

theorem ofSpecs_managedSpecs : ofSpecs managedSpecs ⟨"home/.rustup"⟩ = .ok managed := by
  have distinct : repeatedName? managedSpecs = none := by decide
  have known : unknownDependency? managedSpecs = none := by decide
  have order : Order.ofSpecs managedSpecs = .ok ["lexer", "parser"] := by cbv
  have settled : settleAll ⟨"home/.rustup"⟩ []
      (["lexer", "parser"].filterMap (Spec.find? managedSpecs)) = .ok managed.crates := by decide
  simp only [ofSpecs, distinct, known, order, settled]
  rfl

theorem regular_managed : managed.Regular ⟨"home/.rustup"⟩ :=
  regular_of_ofSpecs ofSpecs_managedSpecs (by decide) (by decide)

end Graph

/-- A machine whose compiler answers only as long as there is no toolchain manager. -/
def unmanagedProbe (tree : FileTree) : Probe where
  home := some ⟨"home"⟩
  inherited _ := none
  isDirectory := tree.isDirectory
  isFile _ := true
  sysroot query := if query.settings.get? "HOME" = none then some ⟨"/sysroot"⟩ else none

namespace Context

def probing : Context :=
  { accepting with synthesize := fun tree bundle => ((unmanagedProbe tree).synthesize bundle).2 }

theorem synthesize_probing {tree : FileTree} (managed : tree.isDirectory ⟨"home/.rustup"⟩ = true) :
    ∃ error, probing.synthesize tree probing.bundle = .error error := by
  have home : (unmanagedProbe tree).managerHome? = some ⟨"home"⟩ := by
    have child : (⟨"home"⟩ : Path).child Environment.managerState = ⟨"home/.rustup"⟩ := by decide
    simp [Probe.managerHome?, unmanagedProbe, child, managed, Option.filter]
  have settings : ((unmanagedProbe tree).querySettings probing.bundle.platform.separator).get? "HOME"
      = some "home" := by
    unfold Probe.querySettings
    simp only [home]
    split
    · simp
    · simp
  show ∃ error, ((unmanagedProbe tree).synthesize probing.bundle).2 = .error error
  have unanswered : ((unmanagedProbe tree).findSysroot probing.bundle.version
      ((unmanagedProbe tree).querySettings probing.bundle.platform.separator)).2 = none := by
    have refused : ∀ version, (unmanagedProbe tree).sysroot
        ⟨version, (unmanagedProbe tree).querySettings probing.bundle.platform.separator⟩ = none := by
      intro version
      show (if _ = none then _ else none) = none
      rw [settings]
      rfl
    simp only [Probe.findSysroot, refused]
  unfold Probe.synthesize
  rcases asked : (unmanagedProbe tree).findSysroot probing.bundle.version
      ((unmanagedProbe tree).querySettings probing.bundle.platform.separator) with ⟨queries, answer⟩
  rw [asked] at unanswered
  simp only [asked]
  cases unanswered
  exact ⟨_, rfl⟩

theorem not_printed_probing {graph : Graph} {crate : Crate} {state : State}
    (managed : state.world.tree.isDirectory ⟨"home/.rustup"⟩ = true) (prepared : Prepared)
    (print : String) : ¬ Printed probing graph crate state prepared print := by
  intro printed
  obtain ⟨error, unsynthesized⟩ := synthesize_probing managed
  have synthesized := (of_prepare_eq_ok printed.prepares).1
  rw [unsynthesized] at synthesized
  cases synthesized

theorem printed_managed : ∀ crate ∈ Graph.managed.crates, ∃ prepared print,
    Printed probing Graph.managed crate blank prepared print := by
  have absent : ∀ crate ∈ Graph.managed.crates, ∀ path ∈ probing.inputsOf Graph.managed crate,
      blank.world.tree.read path = .error .notFound := by decide +kernel
  have alone : ∀ crate ∈ Graph.managed.crates, Graph.managed.dependencies crate = [] := by decide
  intro crate member
  have ready := missing_of_alone (alone crate member) blank.world.tree
  have prepares : probing.prepare Graph.managed blank.world.tree crate = .ok _ :=
    prepare_eq_ok (by rw [alone crate member]; simp) rfl
  exact ⟨_, printed_of_readable ready prepares fun path input =>
    .inl (absent crate member path input)⟩

theorem verified_managed : ∀ crate ∈ Graph.managed.crates,
    (probing.buildCrate Graph.managed crate blank).2 = .verified := by
  have written : ∀ crate ∈ Graph.managed.crates,
      (Marker.write (Marker.remove blank.world.tree crate.marker).1 crate.marker
        probing.process).2 = .ok () := by decide +kernel
  intro crate member
  obtain ⟨prepared, print, printed⟩ := printed_managed crate member
  exact (turn_buildCrate probing Graph.managed crate blank).verified_of_write Graph.regular_managed
    member printed rfl (written crate member) (fun _ => ⟨_, rfl, rfl⟩)

theorem managed_of_success {before after : State} {fate : Fate} {crate : Crate}
    (member : crate ∈ Graph.managed.crates) (turn : Turn probing Graph.managed crate before after fate)
    (success : fate.Success) :
    after.world.tree.isDirectory ⟨"home/.rustup"⟩ = true := by
  have opened := turn.directory_of_success Graph.regular_managed member success
  rw [← (turn.changedIn Graph.regular_managed member).working] at opened
  rw [isDirectory_iff, status_eq_ok_iff _ (by decide)]
  exact ⟨by decide, opened, fun _ => rfl⟩

/-- The build has made the directory of a source with too long a name. -/
theorem fates_beside_again : ∃ reason,
    (accepting.build Graph.beside [Graph.besideCrate]
      (accepting.build Graph.beside [Graph.besideCrate] blank).1).2.fates =
        [("u", .failed reason)] := by
  have turn := turn_buildCrate accepting Graph.beside Graph.besideCrate blank
  rw [fate_beside] at turn
  have refused := read_besideSource_of_turn turn
  have next := turn_buildCrate accepting Graph.beside Graph.besideCrate
    (accepting.buildCrate Graph.beside Graph.besideCrate blank).1
  obtain ⟨reason, failed⟩ := next.failed_of_not_printed (missing_of_alone rfl _) <| by
    intro prepared print printed
    have input : Graph.besideSource ∈ accepting.inputsOf Graph.beside Graph.besideCrate :=
      List.mem_append_left _ (List.mem_append_left _ (List.mem_singleton.mpr rfl))
    exact Fingerprint.not_readable refused (by decide) (printed.readable input)
  refine ⟨reason, ?_⟩
  rw [fates_build, build_fst, buildAll_singleton_fst, buildAll_singleton_snd, failed]
  rfl

/-- The build has made the directory that shows a toolchain manager. -/
theorem fates_managed_again : ∃ reason,
    (probing.build Graph.managed [Graph.lexerCrate]
      (probing.build Graph.managed [Graph.lexerCrate] blank).1).2.fates =
        [("lexer", .failed reason)] := by
  have member : Graph.lexerCrate ∈ Graph.managed.crates := List.mem_cons_self
  have turn := turn_buildCrate probing Graph.managed Graph.lexerCrate blank
  rw [verified_managed _ member] at turn
  have shown := managed_of_success member turn trivial
  have next := turn_buildCrate probing Graph.managed Graph.lexerCrate
    (probing.buildCrate Graph.managed Graph.lexerCrate blank).1
  obtain ⟨reason, failed⟩ := next.failed_of_not_printed (missing_of_alone rfl _) (not_printed_probing shown)
  refine ⟨reason, ?_⟩
  rw [fates_build, build_fst, buildAll_singleton_fst, buildAll_singleton_snd, failed]
  rfl

/-- A build can make the next one fail: the directories for the markers turn an absent source into
one whose name is too long, or they show the synthesis another machine. -/
theorem not_cached_when_built_again :
    (Graph.ofSpecs Graph.besideSpecs ⟨"x/z"⟩ = .ok Graph.beside ∧
      (∀ spec ∈ Graph.besideSpecs, '/' ∉ spec.name.toList) ∧ (⟨"x/z"⟩ : Path).Inward ∧
      Graph.beside.closure [] = .ok [Graph.besideCrate] ∧
      accepting.Apart ⟨"x/z"⟩ [Graph.besideCrate] blank.world.tree ∧ accepting.Repeatable ∧
      accepting.Steady Graph.beside ⟨"x/z"⟩ blank.world.tree ∧
      (accepting.build Graph.beside [Graph.besideCrate] blank).2.fates = [("u", .verified)] ∧
      ∃ reason, (accepting.build Graph.beside [Graph.besideCrate]
        (accepting.build Graph.beside [Graph.besideCrate] blank).1).2.fates =
          [("u", .failed reason)]) ∧
    (Graph.ofSpecs Graph.managedSpecs ⟨"home/.rustup"⟩ = .ok Graph.managed ∧
      (∀ spec ∈ Graph.managedSpecs, '/' ∉ spec.name.toList) ∧ (⟨"home/.rustup"⟩ : Path).Inward ∧
      Graph.managed.closure ["lexer"] = .ok [Graph.lexerCrate] ∧
      probing.Apart ⟨"home/.rustup"⟩ [Graph.lexerCrate] blank.world.tree ∧
      probing.Repeatable ∧ probing.LegibleAfter Graph.managed [Graph.lexerCrate] blank ∧
      (probing.build Graph.managed [Graph.lexerCrate] blank).2.fates =
        [("lexer", .verified)] ∧
      ∃ reason, (probing.build Graph.managed [Graph.lexerCrate]
        (probing.build Graph.managed [Graph.lexerCrate] blank).1).2.fates =
          [("lexer", .failed reason)]) := by
  have short : ∀ crate ∈ [Graph.lexerCrate],
      ∀ path ∈ crate.sources ++ probing.bundle.artifacts,
        path.Inward ∧ ∀ step ∈ path.steps, step.utf8ByteSize ≤ nameLimit := by decide +kernel
  constructor
  · refine ⟨Graph.ofSpecs_besideSpecs, by decide, by decide, rfl, apart_beside, fun _ _ _ => rfl,
      fun _ _ => rfl, ?_, fates_beside_again⟩
    rw [fates_build, buildAll_singleton_snd, fate_beside]
    rfl
  · refine ⟨Graph.ofSpecs_managedSpecs, by decide, by decide, by decide, by decide +kernel,
      fun _ _ _ => rfl, legibleAfter_of_short short, ?_, fates_managed_again⟩
    rw [fates_build, buildAll_singleton_snd, verified_managed _ (by decide)]
    rfl

end Context

end ProofBuild
