import ProofBuild.Proofs.Directories
import ProofBuild.Proofs.Turns

/-!
Whether a marker can be put in its place. The paths and what lies in the tree decide it, and of the
tree only what no build changes: directories in the place of files and files in the place of
directories (`Marker.write_eq_ok_iff`). What is left when it cannot be done are the directories
that were made for it (`Marker.write_of_error`).
-/

namespace ProofBuild

namespace FileTree

section Directories
variable {tree after : FileTree} {place : Location}

theorem directory_setFile (name : String) (parent : Location) (content : Bytes) (executable : Bool) :
    (tree.setFile name parent content executable).Directory place ↔ tree.Directory place := by
  by_cases allowed : tree.Directory parent ∧ ¬ tree.Directory (name :: parent)
  · rw [Directory, Directory, node?_setFile content executable allowed.1 allowed.2]
    by_cases same : place = name :: parent
    · subst same
      simpa [Directory] using allowed.2
    · rw [if_neg same]
  · rw [setFile, dif_neg allowed]

theorem directory_eraseFile (location : Location) :
    (tree.eraseFile location).Directory place ↔ tree.Directory place := by
  by_cases holds : tree.Directory location
  · rw [eraseFile, dif_pos holds]
  · rw [Directory, Directory, node?_eraseFile holds]
    by_cases same : place = location
    · subst same
      simpa [Directory] using holds
    · rw [if_neg same]

theorem directory_of_write {path : Path} {content : Bytes}
    (wrote : tree.write path content = .ok after) : after.Directory place ↔ tree.Directory place := by
  rw [FileTree.write] at wrote
  cases reached : tree.target path with
  | error error => simp [reached, bind, Except.bind] at wrote
  | ok target =>
      cases target with
      | fixed => simp [reached, bind, Except.bind] at wrote
      | named around name slashed =>
          simp only [reached, bind, Except.bind] at wrote
          split at wrote
          · cases wrote
          · split at wrote
            · cases wrote
            · cases wrote
              exact directory_setFile ..
            · cases wrote
              exact directory_setFile ..

theorem directory_of_removeFile {path : Path} (removed : tree.removeFile path = .ok after) :
    after.Directory place ↔ tree.Directory place := by
  rw [removeFile] at removed
  cases reached : tree.target path with
  | error error => simp [reached, bind, Except.bind] at removed
  | ok target =>
      cases target with
      | fixed => simp [reached, bind, Except.bind] at removed
      | named around name slashed =>
          simp only [reached, bind, Except.bind] at removed
          split at removed
          · cases removed
          · cases removed
          · split at removed
            · cases removed
            · cases removed
              exact directory_eraseFile _

theorem directory_of_renameFile {source goal : Path}
    (renamed : tree.renameFile source goal = .ok after) :
    after.Directory place ↔ tree.Directory place := by
  rw [renameFile] at renamed
  cases first : tree.target source with
  | error error => simp [first, bind, Except.bind] at renamed
  | ok one =>
      cases second : tree.target goal with
      | error error => simp [first, second, bind, Except.bind] at renamed
      | ok two =>
          simp only [first, second, bind, Except.bind] at renamed
          split at renamed
          · split at renamed
            · cases renamed
            · cases renamed
            · cases renamed
            · split at renamed
              · cases renamed
              · split at renamed
                · cases renamed
                  exact Iff.rfl
                · cases renamed
                  rw [directory_setFile, directory_eraseFile]
          · cases renamed

end Directories

section Names
variable {base : Path} (inward : base.Inward) {tree : FileTree}
include inward

theorem exists_write_child_eq_ok_iff {name : String} (ordinary : Path.OrdinaryName name)
    (content : Bytes) : (∃ after, tree.write (base.child name) content = .ok after) ↔
      (base.child name).Usable ∧ tree.Directory (base.place tree.workingDirectory) ∧
        ¬ tree.Directory (name :: base.place tree.workingDirectory) := by
  rw [FileTree.write]
  rcases target_child ordinary inward tree with ⟨reached, usable, there⟩ | ⟨⟨error, reached⟩, unfit⟩
  · simp only [reached, bind, Except.bind, Bool.false_eq_true, ↓reduceIte, Directory] at there ⊢
    cases lies : tree.node? (name :: base.place tree.workingDirectory) with
    | none => simp [usable, there]
    | some node => cases node <;> simp [usable, there]
  · simp only [reached, bind, Except.bind]
    simp only [reduceCtorEq, exists_false, false_iff]
    exact fun fits => unfit ⟨fits.1, fits.2.1⟩

theorem exists_renameFile_child {one two : String} (oneOrdinary : Path.OrdinaryName one)
    (twoOrdinary : Path.OrdinaryName two) (oneUsable : (base.child one).Usable)
    (twoUsable : (base.child two).Usable) (there : tree.Directory (base.place tree.workingDirectory))
    {content : Bytes} {executable : Bool}
    (lies : tree.node? (one :: base.place tree.workingDirectory) = some (.file content executable)) :
    (∃ after, tree.renameFile (base.child one) (base.child two) = .ok after) ↔
      ¬ tree.Directory (two :: base.place tree.workingDirectory) := by
  rw [renameFile]
  rcases target_child oneOrdinary inward tree with ⟨source, _⟩ | ⟨_, unfit⟩
  · rcases target_child twoOrdinary inward tree with ⟨goal, _⟩ | ⟨_, unfit⟩
    · simp only [source, goal, bind, Except.bind, lies, Bool.false_eq_true, ↓reduceIte, Directory]
      cases free : tree.node? (two :: base.place tree.workingDirectory) with
      | none =>
          simp only [reduceCtorEq, not_false_eq_true, iff_true]
          split <;> exact ⟨_, rfl⟩
      | some node =>
          cases node with
          | directory => simp
          | file content executable =>
              simp only [Option.some.injEq, reduceCtorEq, not_false_eq_true, iff_true]
              split <;> exact ⟨_, rfl⟩
    · exact absurd ⟨twoUsable, there⟩ unfit
  · exact absurd ⟨oneUsable, there⟩ unfit

end Names

end FileTree

namespace Marker
open FileTree

theorem directory_remove (tree : FileTree) (marker : Path) (place : Location) :
    (remove tree marker).1.Directory place ↔ tree.Directory place := by
  rw [remove]
  split
  · rename_i smaller removed
    exact directory_of_removeFile removed
  · exact Iff.rfl
  · exact Iff.rfl

/-- Writing a marker makes no other directories than those for its room. -/
theorem directory_write (tree : FileTree) (marker : Path) (process : Nat) (place : Location) :
    (write tree marker process).1.Directory place ↔
      (makeRoom tree marker).1.Directory place := by
  rw [write]
  rcases makeRoom tree marker with ⟨grown, outcome⟩
  cases outcome with
  | error error => exact Iff.rfl
  | ok done =>
      dsimp only
      split
      · exact Iff.rfl
      · rename_i written wrote
        split
        · exact directory_of_write wrote
        · rename_i renamed gave
          exact (directory_of_renameFile gave).trans (directory_of_write wrote)

/-- The directory that is made for a marker: the marker directory as the marker's parent spells it. -/
structure RoomOf (base parent : Path) : Prop where
  origin : ∀ here, parent.origin here = base.origin here
  place : ∀ here, parent.place here = base.place here
  opens : parent.steps <+: base.steps

section Room
variable {base : Path} {name : String} (ordinary : Path.OrdinaryName name)
include ordinary

theorem makeRoom_child (base : Path) : ∃ parent, (base.child name).parent? = some parent ∧
    RoomOf base parent ∧ ∀ tree, makeRoom tree (base.child name) =
      if parent.text = "" then (tree, .ok ()) else tree.makeDirectories parent := by
  obtain ⟨parent, above, absolute, dots, steps, still⟩ := Path.parent?_child ordinary base
  have origins : ∀ here, parent.origin here = base.origin here := by
    intro here
    rw [Path.origin, Path.origin, absolute]
  refine ⟨parent, above, ⟨origins, ?_, ⟨dots, steps.symm⟩⟩, ?_⟩
  · intro here
    rw [Path.place_eq, Path.place_eq, steps, Path.follow_append, origins, Path.follow_dots still]
  · intro tree
    rw [makeRoom, above]

variable (inward : base.Inward)
include inward

theorem directory_origin_makeRoom (tree : FileTree) :
    (makeRoom tree (base.child name)).1.Directory (base.origin tree.workingDirectory) ↔
      tree.Directory (base.origin tree.workingDirectory) := by
  obtain ⟨parent, _, room, makes⟩ := makeRoom_child ordinary base
  rw [makes]
  split
  · exact Iff.rfl
  · rw [← room.origin]
    exact directory_origin_makeDirectories tree (Path.inward_of_steps_prefix room.opens inward)

/-- Room can be made for a usable marker exactly when the tree lets it through. -/
theorem makeRoom_eq_ok_iff (tree : FileTree) (usable : (base.child name).Usable) :
    ((makeRoom tree (base.child name)).2 = .ok () ∧
        (makeRoom tree (base.child name)).1.Directory (base.place tree.workingDirectory)) ↔
      tree.Passable (base.origin tree.workingDirectory) (base.place tree.workingDirectory) := by
  obtain ⟨parent, above, room, makes⟩ := makeRoom_child ordinary base
  obtain ⟨zero, solid, short, names⟩ := usable
  rw [makes]
  by_cases blank : parent.text = ""
  · -- The room is where the walk begins, and nothing is made.
    have still : base.place tree.workingDirectory = base.origin tree.workingDirectory := by
      rw [← room.place, Path.place_eq, Path.steps_of_blank blank, room.origin]
      rfl
    rw [if_pos blank, still]
    constructor
    · rintro ⟨_, there⟩
      exact passable_of_directory (List.suffix_refl _) there
    · intro passable
      exact ⟨rfl, passable.1⟩
  · have markerFit : (base.child name).Fit :=
      ⟨Path.inward_child ordinary inward, Path.trim_child ordinary base, _,
        Path.address_eq_ok zero solid short⟩
    have fit := Path.fit_above markerFit above blank
    have stepsShort : ∀ step ∈ parent.steps, step.utf8ByteSize ≤ nameLimit := by
      intro step member
      apply names
      rw [Path.steps_child ordinary]
      exact List.mem_append_left _ (room.opens.subset member)
    rw [if_neg blank, ← room.place, ← room.origin]
    constructor
    · rintro ⟨made, _⟩
      exact ((makeDirectories_eq_ok_iff tree fit).mp made).2
    · intro passable
      have made := (makeDirectories_eq_ok_iff tree fit).mpr ⟨stepsShort, passable⟩
      exact ⟨made, directory_of_makeDirectories tree fit made⟩

theorem makeRoom_again {names : Set String} {tree later : FileTree}
    (change : ChangedIn (base.place tree.workingDirectory) names (makeRoom tree (base.child name)).1 later)
    (start : later.Directory (base.origin tree.workingDirectory) →
      tree.Directory (base.origin tree.workingDirectory)) :
    (makeRoom later (base.child name)).1 = later := by
  obtain ⟨parent, above, room, makes⟩ := makeRoom_child ordinary base
  rw [makes] at change ⊢
  by_cases blank : parent.text = ""
  · rw [if_pos blank]
  · rw [if_neg blank] at change ⊢
    rw [← room.place] at change
    rw [← room.origin] at start
    exact makeDirectories_again (Path.inward_of_steps_prefix room.opens inward)
      (Path.above_of_parent? above).trim blank (List.suffix_refl _) change start

end Room

theorem origin_child {name : String} (ordinary : Path.OrdinaryName name) (base : Path)
    (here : Location) : (base.child name).origin here = base.origin here := by
  rw [Path.origin, Path.origin, Path.isAbsolute_child ordinary]

section Remove
variable {base : Path} {name : String} (ordinary : Path.OrdinaryName name) (inward : base.Inward)
  {tree : FileTree}
include ordinary inward

theorem remove_eq_self
    (absent : ∀ content executable, tree.status (base.child name) ≠ .ok (.file content executable)) :
    (remove tree (base.child name)).1 = tree := by
  unfold remove removeFile
  rcases target_child ordinary inward tree with ⟨reached, usable, _⟩ | ⟨⟨error, reached⟩, _⟩
  · simp only [reached, bind, Except.bind]
    cases lies : tree.node? (name :: base.place tree.workingDirectory) with
    | none => rfl
    | some node =>
        cases node with
        | directory => rfl
        | file content executable =>
            exact absurd ((status_child_iff inward ordinary _).mpr ⟨usable, lies⟩)
              (absent content executable)
  · simp only [reached, bind, Except.bind]
    cases error <;> rfl

/-- A marker that can be used is removed unless a directory is in its place. -/
theorem not_directory_of_remove (usable : (base.child name).Usable)
    (removed : (remove tree (base.child name)).2 = .ok ()) :
    ¬ tree.Directory (name :: base.place tree.workingDirectory) := by
  intro there
  have lies : tree.node? (name :: base.place tree.workingDirectory) = some .directory := there
  unfold remove removeFile at removed
  rcases target_child ordinary inward tree with ⟨reached, _⟩ | ⟨_, unfit⟩
  · simp [reached, lies, bind, Except.bind] at removed
  · exact unfit ⟨usable, directory_of_node? lies⟩

theorem target_of_passable (usable : (base.child name).Usable)
    (passable : tree.Passable (base.origin tree.workingDirectory) (base.place tree.workingDirectory)) :
    tree.target (base.child name) = .ok (.named (base.place tree.workingDirectory) name false) ∨
      tree.target (base.child name) = .error .notFound := by
  rcases target_child ordinary inward tree with ⟨reached, _⟩ | ⟨_, unfit⟩
  · exact .inl reached
  · right
    obtain ⟨zero, solid, short, names⟩ := usable
    rw [target_eq (Path.inward_child ordinary inward) (Path.address_eq_ok zero solid short)
      (Path.steps_child ordinary base), origin_child ordinary]
    have baseInward := (Path.inward_iff base).mp inward
    have baseShort : ∀ step ∈ base.steps, step.utf8ByteSize ≤ nameLimit := by
      intro step member
      apply names
      rw [Path.steps_child ordinary]
      exact List.mem_append_left _ member
    cases walked : tree.reach (base.origin tree.workingDirectory) base.steps with
    | error error => rw [reach_eq_error baseInward baseShort passable.2 walked]
    | ok node =>
        obtain ⟨_, lies, _⟩ := (reach_eq_ok_iff _ _ _ _ baseInward).mp walked
        cases node with
        | file content executable =>
            exact absurd lies (passable.2 _ (List.suffix_refl _) content executable)
        | directory => exact absurd ⟨⟨zero, solid, short, names⟩, lies⟩ unfit

theorem remove_of_passable (usable : (base.child name).Usable)
    (passable : tree.Passable (base.origin tree.workingDirectory) (base.place tree.workingDirectory))
    (free : ¬ tree.Directory (name :: base.place tree.workingDirectory)) :
    (remove tree (base.child name)).2 = .ok () := by
  unfold remove removeFile
  rcases target_of_passable ordinary inward usable passable with reached | reached
  · simp only [reached, bind, Except.bind]
    cases lies : tree.node? (name :: base.place tree.workingDirectory) with
    | none => rfl
    | some node =>
        cases node with
        | directory => exact absurd lies free
        | file content executable => rfl
  · simp [reached, bind, Except.bind]

/-- What can be made or unmade at a marker stays so under changes in its room, unless it was
absent. -/
theorem target_kept {names : Set String} {later : FileTree}
    (change : ChangedIn (base.place tree.workingDirectory) names tree later) :
    tree.target (base.child name) = .error .notFound ∨
      later.target (base.child name) = tree.target (base.child name) := by
  cases addressed : (base.child name).address with
  | error error =>
      right
      simp [target, addressed, bind, Except.bind]
  | ok address =>
      have childInward := Path.inward_child ordinary inward
      have steps := Path.steps_child ordinary base
      rw [target_eq childInward addressed steps, target_eq childInward addressed steps,
        origin_child ordinary, origin_child ordinary, change.working]
      have walk := change.found_around inward (List.suffix_refl _)
      rw [found, found, change.working] at walk
      rcases walk with absent | same
      · left
        rw [absent]
      · right
        rw [same]

/-- A marker that could not be removed cannot be removed after other changes in its room. -/
theorem remove_again {names : Set String} {later : FileTree} {error : Error}
    (change : ChangedIn (base.place tree.workingDirectory) names tree later)
    (same : later.Directory (name :: base.place tree.workingDirectory) ↔
      tree.Directory (name :: base.place tree.workingDirectory))
    (kept : (remove tree (base.child name)).2 = .error error) :
    ∃ error, (remove later (base.child name)).2 = .error error := by
  unfold remove removeFile at kept ⊢
  have again := target_kept ordinary inward change
  rcases target_child ordinary inward tree with ⟨reached, _⟩ | ⟨⟨refusal, reached⟩, _⟩
  · -- The path leads to a name in the room, so it was a directory of that name that stayed.
    rw [reached] at again kept
    rw [again.resolve_left (by simp)]
    simp only [bind, Except.bind] at kept ⊢
    cases lies : tree.node? (name :: base.place tree.workingDirectory) with
    | none => simp [lies] at kept
    | some node =>
        cases node with
        | file content executable => simp [lies] at kept
        | directory =>
            have there : later.node? (name :: base.place tree.workingDirectory) =
                some .directory := same.mpr lies
            exact ⟨_, by rw [there]⟩
  · -- The path leads nowhere, and to be removed it would have to be absent.
    rw [reached] at again kept
    simp only [bind, Except.bind] at kept
    have present : refusal ≠ .notFound := by
      rintro rfl
      cases kept
    rw [again.resolve_left (by simpa using present)]
    simp only [bind, Except.bind]
    cases refusal <;> simp_all

end Remove

/-- Whether a marker can be put in its place: its path and that of its temporary file can be used,
there is a way to its directory, and no directory is in the place of either file. -/
structure Markable (tree : FileTree) (base : Path) (name : String) (process : Nat) : Prop where
  usable : (base.child name).Usable
  beside : (base.child (temporaryName name process)).Usable
  passable : tree.Passable (base.origin tree.workingDirectory) (base.place tree.workingDirectory)
  free : ¬ tree.Directory (name :: base.place tree.workingDirectory)
  freeBeside : ¬ tree.Directory (temporaryName name process :: base.place tree.workingDirectory)

section Write
variable {base : Path} {name : String} (ordinary : Path.OrdinaryName name) (inward : base.Inward)
  {process : Nat} (extended : Path.OrdinaryName (temporaryName name process)) {tree : FileTree}
include ordinary extended

theorem usable_of_temporary (usable : (base.child (temporaryName name process)).Usable) :
    (base.child name).Usable := by
  have beside : (base.child name).extendedBy s!".tmp{process}" =
      base.child (temporaryName name process) := Path.extendedBy_child ordinary base extended
  obtain ⟨zero, _, short, names⟩ := usable
  rw [Path.steps_child extended, List.forall_mem_append] at names
  rw [← beside] at zero short
  have solid : (base.child name).text ≠ "" := by
    intro blank
    have steps := Path.steps_child ordinary base
    simp [Path.steps_of_blank blank] at steps
  have nameShort : name.utf8ByteSize ≤ (temporaryName name process).utf8ByteSize := by
    rw [temporaryName, String.utf8ByteSize_append]
    omega
  refine ⟨?_, solid, ?_, ?_⟩
  · intro member
    apply zero
    rw [Path.extendedBy, String.toList_append]
    exact List.mem_append_left _ member
  · rw [Path.extendedBy, String.utf8ByteSize_append] at short
    omega
  · rw [Path.steps_child ordinary, List.forall_mem_append]
    refine ⟨names.1, ?_⟩
    have last := names.2 _ List.mem_cons_self
    simpa using nameShort.trans last

include inward

theorem exists_rename_of_write {grown written : FileTree}
    (put : grown.write (base.child (temporaryName name process)) [] = .ok written) :
    (∃ renamed, written.renameFile (base.child (temporaryName name process)) (base.child name) =
        .ok renamed) ↔ ¬ grown.Directory (name :: base.place grown.workingDirectory) := by
  obtain ⟨usable, there, _⟩ :=
    (exists_write_child_eq_ok_iff inward extended []).mp ⟨written, put⟩
  obtain ⟨filled, executable, lies⟩ := of_write_child inward extended put
  rw [← filled.working] at there lies ⊢
  rw [exists_renameFile_child inward extended ordinary usable
    (usable_of_temporary ordinary extended usable) ((directory_of_write put).mpr there) lies,
    directory_of_write put]

theorem write_eq_ok_iff :
    (write tree (base.child name) process).2 = .ok () ↔ Markable tree base name process := by
  have room := changedIn_makeRoom ordinary inward tree
  have opens := makeRoom_eq_ok_iff ordinary inward tree
  have beside := temporary_child ordinary base extended
  have kept : ∀ other, (makeRoom tree (base.child name)).1.Directory
      (other :: base.place tree.workingDirectory) ↔
        tree.Directory (other :: base.place tree.workingDirectory) :=
    fun other => room.directory_name (Set.notMem_empty other)
  rw [write]
  rcases made : makeRoom tree (base.child name) with ⟨grown, outcome⟩
  rw [made] at room opens kept
  dsimp only at room opens kept ⊢
  rw [beside]
  -- The three steps of the writing fail or succeed one after the other.
  cases outcome with
  | error error =>
      simp only [reduceCtorEq, false_iff]
      intro markable
      cases ((opens markable.usable).mpr markable.passable).1
  | ok done =>
      have puts : (∃ after, grown.write (base.child (temporaryName name process)) [] = .ok after) ↔ _ :=
        exists_write_child_eq_ok_iff inward extended []
      rw [room.working, kept] at puts
      dsimp only
      cases wrote : grown.write (base.child (temporaryName name process)) [] with
      | error error =>
          simp only [reduceCtorEq, false_iff]
          intro markable
          have there := ((opens markable.usable).mpr markable.passable).2
          obtain ⟨written, put⟩ := puts.mpr ⟨markable.beside, there, markable.freeBeside⟩
          rw [wrote] at put
          cases put
      | ok written =>
          obtain ⟨usable, there, freeBeside⟩ := puts.mp ⟨written, wrote⟩
          have gives := exists_rename_of_write ordinary inward extended wrote
          rw [room.working, kept] at gives
          dsimp only
          cases gave : written.renameFile (base.child (temporaryName name process))
              (base.child name) with
          | error error =>
              simp only [reduceCtorEq, false_iff]
              intro markable
              obtain ⟨renamed, same⟩ := gives.mpr markable.free
              rw [gave] at same
              cases same
          | ok renamed =>
              have own := usable_of_temporary ordinary extended usable
              simp only [true_iff]
              exact ⟨own, usable, (opens own).mp ⟨rfl, there⟩, gives.mp ⟨renamed, gave⟩, freeBeside⟩

/-- A marker that cannot be written leaves at most the directories that were made for it. -/
theorem write_of_error {error : Error}
    (free : (base.child name).Usable → ¬ tree.Directory (name :: base.place tree.workingDirectory))
    (failed : (write tree (base.child name) process).2 = .error error) :
    (write tree (base.child name) process).1 = (makeRoom tree (base.child name)).1 := by
  have room := changedIn_makeRoom ordinary inward tree
  have beside := temporary_child ordinary base extended
  rw [write] at failed ⊢
  rcases made : makeRoom tree (base.child name) with ⟨grown, outcome⟩
  rw [made] at room failed
  dsimp only at room failed ⊢
  rw [beside] at failed ⊢
  cases outcome with
  | error error => rfl
  | ok done =>
      dsimp only at failed ⊢
      cases wrote : grown.write (base.child (temporaryName name process)) [] with
      | error error => rfl
      | ok written =>
          -- The temporary file could be written, so it can get the marker's name.
          obtain ⟨usable, _⟩ := (exists_write_child_eq_ok_iff inward extended []).mp ⟨written, wrote⟩
          have unheld : ¬ grown.Directory (name :: base.place grown.workingDirectory) := by
            rw [room.working, room.directory_name (Set.notMem_empty name)]
            exact free (usable_of_temporary ordinary extended usable)
          obtain ⟨renamed, gave⟩ := (exists_rename_of_write ordinary inward extended wrote).mpr unheld
          simp [wrote, gave] at failed

end Write

end Marker

end ProofBuild
