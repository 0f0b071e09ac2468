import ProofBuild.Proofs.Attempts
import ProofBuild.Proofs.Retained

/-!
What a build leaves alone. Removing a marker and putting one back changes the file at the marker and,
if one was there before, the file beside it that has the temporary name; directories come only on the
way to the marker, and none goes. This adds up over the crates of a build, whatever slashes are in
their names. Main statement: a build changes the entries and the files of its own crates only, and no
temporary file is left (`confined_build`).
-/

namespace ProofBuild

namespace Path

/-- A path that ends in a name is this name in the directory that is spelled before it. -/
theorem exists_eq_child {path : Path} (ordinary : OrdinaryName path.lastPiece) :
    ∃ base : Path, path = base.child path.lastPiece := by
  have relative := isAbsolute_of_plain ordinary.plain
  have spelled : ∀ front last : List Char, path.text.toList = front ++ last →
      (Text.cut '/' path.text.toList).getLast? = some last →
      path.text = String.ofList front ++ path.lastPiece := by
    intro front last text ends
    have piece : path.lastPiece = String.ofList last := by
      simp [lastPiece, pieces, Text.pieces, List.getLast?_map, ends]
    rw [piece, ← String.ofList_append, ← text, String.ofList_toList]
  by_cases slash : '/' ∈ path.text.toList
  · -- The last slash of the text is the first one from behind.
    obtain ⟨behind, before, reversed, first⟩ :=
      List.eq_append_cons_of_mem (List.mem_reverse.mpr slash)
    have text : path.text.toList = before.reverse ++ '/' :: behind.reverse := by
      rw [← List.reverse_reverse path.text.toList, reversed]
      simp
    have plain : '/' ∉ behind.reverse := by simpa using first
    have ends : (Text.cut '/' path.text.toList).getLast? = some behind.reverse := by
      rw [text, Text.cut_append_separator, Text.cut_of_not_mem plain, List.getLast?_concat]
    refine ⟨⟨String.ofList (before.reverse ++ ['/'])⟩, ?_⟩
    have whole := spelled (before.reverse ++ ['/']) behind.reverse (by simpa using text) ends
    have closes : (String.ofList (before.reverse ++ ['/'])).toList.getLast? = some '/' := by simp
    simp only [child, join, relative, closes, Bool.false_eq_true, ↓reduceIte, ← whole]
  · refine ⟨⟨""⟩, ?_⟩
    have whole := spelled [] path.text.toList rfl (by rw [Text.cut_of_not_mem slash]; rfl)
    simp only [child, join, relative, Bool.false_eq_true, ↓reduceIte, String.toList_empty,
      List.getLast?_nil]
    rw [show ("" : String) = String.ofList [] from rfl, ← whole]

/-- A direct path ends in a name and never steps outward. -/
structure Direct (path : Path) : Prop where
  ordinary : OrdinaryName path.lastPiece
  inward : path.Inward

namespace Direct
variable {path : Path} (direct : path.Direct)
include direct

theorem exists_child :
    ∃ (base : Path) (name : String), path = base.child name ∧ OrdinaryName name ∧ base.Inward := by
  obtain ⟨base, same⟩ := exists_eq_child direct.ordinary
  have opens : base.steps <+: path.steps := by
    rw [same, steps_child direct.ordinary]
    exact List.prefix_append ..
  exact ⟨base, _, same, direct.ordinary, inward_of_steps_prefix opens direct.inward⟩

theorem place_eq_cons (here : Location) : ∃ room, path.place here = path.lastPiece :: room := by
  obtain ⟨base, same⟩ := exists_eq_child direct.ordinary
  refine ⟨base.place here, ?_⟩
  rw [← place_child direct.ordinary, ← same]

end Direct

end Path

namespace FileTree

/-- From `before` to `after` the only files that come are those at the markers, and the only files
that go are those at the markers and the temporary ones. Directories come only on the way to a
marker, and none goes. -/
structure Confined (markers temporaries : Set Location) (before after : FileTree) : Prop where
  working : after.workingDirectory = before.workingDirectory
  made : ∀ place, place ∉ markers → ∀ content executable,
    after.node? place = some (.file content executable) →
      before.node? place = some (.file content executable)
  kept : ∀ place, place ∉ markers → place ∉ temporaries → ∀ content executable,
    before.node? place = some (.file content executable) →
      after.node? place = some (.file content executable)
  opened : ∀ place, after.Directory place →
    before.Directory place ∨ ∃ marker ∈ markers, Within place marker ∧ place ≠ marker
  directories : ∀ place, before.Directory place → after.Directory place

namespace Confined
variable {markers temporaries moreMarkers moreTemporaries : Set Location}
  {first second third before after : FileTree}

theorem refl (markers temporaries : Set Location) (tree : FileTree) :
    Confined markers temporaries tree tree :=
  ⟨rfl, fun _ _ _ _ lies => lies, fun _ _ _ _ _ lies => lies, fun _ there => .inl there,
    fun _ there => there⟩

theorem trans (one : Confined markers temporaries first second)
    (two : Confined markers temporaries second third) :
    Confined markers temporaries first third := by
  constructor
  · exact two.working.trans one.working
  · intro place other content executable lies
    exact one.made place other content executable (two.made place other content executable lies)
  · intro place other away content executable lies
    have still := one.kept place other away content executable lies
    exact two.kept place other away content executable still
  · intro place there
    rcases two.opened place there with earlier | around
    · exact one.opened place earlier
    · exact .inr around
  · exact fun place there => two.directories place (one.directories place there)

theorem mono (confined : Confined markers temporaries before after)
    (wider : markers ⊆ moreMarkers) (further : temporaries ⊆ moreTemporaries) :
    Confined moreMarkers moreTemporaries before after := by
  constructor
  · exact confined.working
  · exact fun place other => confined.made place fun member => other (wider member)
  · intro place other away
    exact confined.kept place (fun member => other (wider member)) fun member => away (further member)
  · intro place there
    rcases confined.opened place there with earlier | ⟨marker, member, around⟩
    · exact .inl earlier
    · exact .inr ⟨marker, wider member, around⟩
  · exact confined.directories

/-- A file that is found at a path other than the markers was found there before. -/
theorem status_of_file (confined : Confined markers temporaries before after) {path : Path}
    (inward : path.Inward) (other : path.place before.workingDirectory ∉ markers) {content : Bytes}
    {executable : Bool} (found : after.status path = .ok (.file content executable)) :
    before.status path = .ok (.file content executable) := by
  rw [status_eq_ok_iff after inward, confined.working] at found
  obtain ⟨usable, lies, last⟩ := found
  exact (status_eq_ok_iff before inward _).mpr
    ⟨usable, confined.made _ other content executable lies, last⟩

end Confined

/-- Changes of two names in a room that keep its directories, and put no file at the second. -/
theorem ChangedIn.confined {base : Path} {one two : String} {before after : FileTree}
    (change : ChangedIn (base.place before.workingDirectory) {one, two} before after)
    (kept : KeptIn base before after)
    (beside : ∀ content executable,
      after.node? (two :: base.place before.workingDirectory) = some (.file content executable) →
        before.node? (two :: base.place before.workingDirectory) = some (.file content executable)) :
    Confined {one :: base.place before.workingDirectory} {two :: base.place before.workingDirectory}
      before after := by
  have inside := kept.inside
  generalize base.place before.workingDirectory = room at *
  have elsewhere : ∀ place, place ≠ one :: room → place ≠ two :: room →
      after.node? place = before.node? place ∨
        Within place room ∧ before.node? place = none ∧ after.node? place = some .directory := by
    intro place first second
    refine change.elsewhere place ?_
    rintro name (rfl | rfl)
    · exact first
    · exact second
  -- Names in the room keep their directories, and of the rest only the way to the room changes.
  have directories : ∀ place, (after.Directory place ↔ before.Directory place) ∨
      Within place room ∧ after.Directory place := by
    intro place
    by_cases named : ∃ name, place = name :: room
    · obtain ⟨name, rfl⟩ := named
      exact .inl (inside name)
    · rcases elsewhere place (fun same => named ⟨one, same⟩) (fun same => named ⟨two, same⟩) with
        same | ⟨around, _, opened⟩
      · exact .inl (by rw [Directory, Directory, same])
      · exact .inr ⟨around, opened⟩
  constructor
  · exact change.working
  · intro place first content executable lies
    by_cases second : place = two :: room
    · rw [second] at lies ⊢
      exact beside content executable lies
    · rcases elsewhere place first second with same | ⟨_, _, opened⟩
      · rw [← same, lies]
      · rw [opened] at lies
        cases lies
  · intro place first second content executable lies
    rcases elsewhere place first second with same | ⟨_, absent, _⟩
    · rw [same, lies]
    · rw [absent] at lies
      cases lies
  · intro place there
    rcases directories place with same | ⟨around, _⟩
    · exact .inl (same.mp there)
    · refine .inr ⟨one :: room, rfl, around.trans (List.suffix_cons one room), ?_⟩
      rintro rfl
      exact absurd around.length_le (by simp)
  · intro place there
    rcases directories place with same | ⟨_, opened⟩
    · exact same.mpr there
    · exact opened

end FileTree

namespace Marker
open FileTree

section Child
variable {base : Path} {name : String} (ordinary : Path.OrdinaryName name) (inward : base.Inward)
  {process : Nat} (extended : Path.OrdinaryName (temporaryName name process))
include ordinary inward

theorem confined_remove_child (process : Nat) (tree : FileTree) :
    Confined {name :: base.place tree.workingDirectory}
      {temporaryName name process :: base.place tree.workingDirectory} tree
      (remove tree (base.child name)).1 := by
  have change := changedIn_remove ordinary inward tree
  have different : temporaryName name process ∉ ({name} : Set String) := temporaryName_ne name process
  refine (change.mono (by simp)).confined (keptIn_remove ordinary inward tree) ?_
  intro content executable lies
  rw [← change.node?_name different]
  exact lies

include extended

/-- Where no directory is in a marker's place, writing the marker puts no temporary file that stays. -/
theorem confined_write_child {tree : FileTree}
    (free : (base.child name).Usable → ¬ tree.Directory (name :: base.place tree.workingDirectory)) :
    Confined {name :: base.place tree.workingDirectory}
      {temporaryName name process :: base.place tree.workingDirectory} tree
      (write tree (base.child name) process).1 := by
  refine (changedIn_write ordinary inward process extended tree).confined
    (keptIn_write ordinary inward process extended tree) ?_
  intro content executable lies
  cases wrote : (write tree (base.child name) process).2 with
  | error error =>
      rw [write_of_error ordinary inward extended free wrote] at lies
      rw [← (changedIn_makeRoom ordinary inward tree).node?_name (Set.notMem_empty _)]
      exact lies
  | ok done =>
      rw [node?_temporary_of_write ordinary inward process extended wrote] at lies
      cases lies

end Child

section Direct
variable {marker : Path} (direct : marker.Direct)
include direct

theorem direct_temporary (process : Nat) : (temporary marker process).Direct := by
  have extended := ordinaryName_temporaryName process direct.ordinary.plain
  refine ⟨by rwa [lastPiece_temporary], ?_⟩
  obtain ⟨base, name, rfl, ordinary, inward⟩ := direct.exists_child
  rw [Path.lastPiece_child ordinary.plain] at extended
  rw [temporary_child ordinary base extended]
  exact Path.inward_child extended inward

variable (process : Nat) (tree : FileTree)

theorem confined_remove :
    Confined {marker.place tree.workingDirectory}
      {(temporary marker process).place tree.workingDirectory} tree (remove tree marker).1 := by
  obtain ⟨base, name, rfl, ordinary, inward⟩ := direct.exists_child
  have extended := ordinaryName_temporaryName process ordinary.plain
  rw [temporary_child ordinary base extended, Path.place_child ordinary, Path.place_child extended]
  exact confined_remove_child ordinary inward process tree

/-- A marker that was removed is put back, or cannot be. -/
theorem confined_replace (removed : (remove tree marker).2 = .ok ()) :
    Confined {marker.place tree.workingDirectory}
      {(temporary marker process).place tree.workingDirectory} tree
      (write (remove tree marker).1 marker process).1 := by
  refine (confined_remove direct process tree).trans ?_
  obtain ⟨base, name, rfl, ordinary, inward⟩ := direct.exists_child
  have extended := ordinaryName_temporaryName process ordinary.plain
  have removal := keptIn_remove ordinary inward tree
  rw [temporary_child ordinary base extended, Path.place_child ordinary, Path.place_child extended,
    ← removal.working]
  apply confined_write_child ordinary inward extended
  intro usable
  rw [removal.working, directory_remove]
  exact not_directory_of_remove ordinary inward usable removed

end Direct

end Marker

namespace Crate

/-- Where the markers of these crates lie. -/
def markerPlaces (here : Location) (crates : List Crate) : Set Location :=
  {place | ∃ crate ∈ crates, place = crate.marker.place here}

/-- Where the files lie that become these markers. -/
def temporaryPlaces (process : Nat) (here : Location) (crates : List Crate) : Set Location :=
  {place | ∃ crate ∈ crates, place = (Marker.temporary crate.marker process).place here}

section Placed
variable {directory : Path} {crate : Crate} (placed : crate.marker = markerIn directory crate.name)
include placed

theorem direct_marker (inward : crate.marker.Inward) : crate.marker.Direct :=
  ⟨ordinaryName_lastPiece_marker placed, inward⟩

/-- A temporary file is never in the place of a marker. -/
theorem place_temporary_ne (inward : crate.marker.Inward) {other : Path} (direct : other.Direct)
    (process : Nat) (here : Location) :
    (Marker.temporary other process).place here ≠ crate.marker.place here := by
  obtain ⟨room, beside⟩ := (Marker.direct_temporary direct process).place_eq_cons here
  obtain ⟨around, own⟩ := (direct_marker placed inward).place_eq_cons here
  rw [beside, own, Marker.lastPiece_temporary, lastPiece_marker placed]
  exact fun same => temporaryName_ne_markerName _ _ process (List.cons.inj same).1

end Placed

end Crate

namespace Context
open FileTree

variable {context : Context} {graph : Graph}

section Crate
variable {crate : Crate} (direct : crate.marker.Direct)
include direct

theorem Executed.confined {invocation : Invocation} {before after : World} {outcome : Outcome Path}
    (executed : Executed context crate invocation before after outcome) :
    Confined {crate.marker.place before.tree.workingDirectory}
      {(Marker.temporary crate.marker context.process).place before.tree.workingDirectory}
      before.tree after.tree := by
  have removal := Marker.confined_remove direct context.process before.tree
  cases executed with
  | stuck => exact removal
  | run removed started =>
      cases started with
      | unanswered | rejected => exact removal
      | unmarked | done => exact Marker.confined_replace direct context.process before.tree removed

theorem Turn.confined {before after : State} {fate : Fate}
    (turn : Turn context graph crate before after fate) :
    Confined {crate.marker.place before.world.tree.workingDirectory}
      {(Marker.temporary crate.marker context.process).place before.world.tree.workingDirectory}
      before.world.tree after.world.tree := by
  cases turn with
  | blocked | refused => exact Marker.confined_remove direct context.process before.world.tree
  | current => exact .refl ..
  | @failed _ _ world _ _ _ executed =>
      have run := executed.confined direct
      have removal := Marker.confined_remove direct context.process world.tree
      exact run.trans (run.working ▸ removal)
  | verified _ _ executed => exact executed.confined direct

end Crate

theorem confined_buildAll (context : Context) (graph : Graph) {crates : List Crate}
    (direct : ∀ crate ∈ crates, crate.marker.Direct) (state : State) :
    Confined (Crate.markerPlaces state.world.tree.workingDirectory crates)
      (Crate.temporaryPlaces context.process state.world.tree.workingDirectory crates)
      state.world.tree (context.buildAll graph crates state).1.world.tree := by
  induction crates generalizing state with
  | nil => exact .refl ..
  | cons crate rest ih =>
      obtain ⟨own, others⟩ := List.forall_mem_cons.mp direct
      have turn := (turn_buildCrate context graph crate state).confined own
      have later := ih others (context.buildCrate graph crate state).1
      rw [turn.working] at later
      rw [buildAll_cons]
      refine (turn.mono ?_ ?_).trans (later.mono ?_ ?_)
      · rintro place rfl
        exact ⟨crate, List.mem_cons_self, rfl⟩
      · rintro place rfl
        exact ⟨crate, List.mem_cons_self, rfl⟩
      · rintro place ⟨other, member, same⟩
        exact ⟨other, List.mem_cons_of_mem crate member, same⟩
      · rintro place ⟨other, member, same⟩
        exact ⟨other, List.mem_cons_of_mem crate member, same⟩

/-- A build keeps the entries of all other crates and every file that is neither a marker of its
crates nor, from before, a temporary file beside one. Directories come only on the way to these
markers and none goes, and a temporary file of theirs that is there was there before. -/
theorem confined_build {specs : List Spec} {directory : Path} {graph : Graph}
    (accepted : Graph.ofSpecs specs directory = .ok graph) {selected : List Crate}
    (inside : ∀ crate ∈ selected, crate ∈ graph.crates)
    (inward : ∀ crate ∈ selected, crate.marker.Inward) (context : Context) (state : State) :
    (∀ name, (∀ crate ∈ selected, name ≠ crate.name) →
      (context.build graph selected state).1.cache.entry? name = state.cache.entry? name) ∧
    Confined (Crate.markerPlaces state.world.tree.workingDirectory selected)
      (Crate.temporaryPlaces context.process state.world.tree.workingDirectory selected)
      state.world.tree (context.build graph selected state).1.world.tree ∧
    ∀ crate ∈ selected, ∀ process content executable,
      (context.build graph selected state).1.world.tree.status (Marker.temporary crate.marker process) =
          .ok (.file content executable) →
        state.world.tree.status (Marker.temporary crate.marker process) =
          .ok (.file content executable) := by
  have settled := (Graph.settled_of_ofSpecs accepted).1
  have placed : ∀ crate ∈ selected, crate.marker = Crate.markerIn directory crate.name :=
    fun crate member => settled.marker_eq crate (inside crate member)
  have direct : ∀ crate ∈ selected, crate.marker.Direct :=
    fun crate member => Crate.direct_marker (placed crate member) (inward crate member)
  have confined := confined_buildAll context graph direct state
  rw [build_fst]
  refine ⟨fun name others => entry?_buildAll others state, confined, ?_⟩
  intro crate member process content executable found
  have beside := Marker.direct_temporary (direct crate member) process
  refine confined.status_of_file beside.inward ?_ found
  rintro ⟨other, chosen, same⟩
  exact Crate.place_temporary_ne (placed other chosen) (inward other chosen) (direct crate member)
    process _ same

/-- Neither order nor repetitions matter. -/
theorem confined_build_tandem :
    Graph.ofSpecs Graph.tandemSpecs ⟨"out"⟩ = .ok Graph.tandem ∧
      (∀ crate ∈ Graph.tandem.crates.reverse ++ Graph.tandem.crates, crate ∈ Graph.tandem.crates) ∧
      (∀ crate ∈ Graph.tandem.crates.reverse ++ Graph.tandem.crates, crate.marker.Inward) ∧
      Confined (Crate.markerPlaces [] (Graph.tandem.crates.reverse ++ Graph.tandem.crates))
        (Crate.temporaryPlaces 1 [] (Graph.tandem.crates.reverse ++ Graph.tandem.crates))
        blank.world.tree
        (accepting.build Graph.tandem (Graph.tandem.crates.reverse ++ Graph.tandem.crates)
          blank).1.world.tree := by
  have inside : ∀ crate ∈ Graph.tandem.crates.reverse ++ Graph.tandem.crates,
      crate ∈ Graph.tandem.crates := by decide
  have inward : ∀ crate ∈ Graph.tandem.crates.reverse ++ Graph.tandem.crates,
      crate.marker.Inward := by decide
  refine ⟨Graph.ofSpecs_tandemSpecs, inside, inward, ?_⟩
  exact (confined_build Graph.ofSpecs_tandemSpecs inside inward accepting blank).2.1

end Context

end ProofBuild
