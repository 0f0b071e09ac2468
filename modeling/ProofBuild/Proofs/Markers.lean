import ProofBuild.Proofs.Changes
import ProofBuild.Task

/-!
Keeping one marker. Removing or writing the marker of a name changes that name and its temporary
file only, up to directories opened on the way. Main statements: after a removal no file is left
at the marker, whatever the removal said (`status_remove`); a marker that was written is an empty
file (`read_write`); one that could not be written is as it was before (`status_write`).
-/

namespace ProofBuild

namespace Path

/-- A suffix written after a name in a directory makes another name in it. -/
theorem extendedBy_child {name : String} (ordinary : OrdinaryName name) (base : Path)
    {suffix : String} (extended : OrdinaryName (name ++ suffix)) :
    (base.child name).extendedBy suffix = base.child (name ++ suffix) := by
  unfold child join extendedBy
  simp only [isAbsolute_of_plain ordinary.plain, isAbsolute_of_plain extended.plain,
    Bool.false_eq_true, ↓reduceIte]
  split <;> simp [String.append_assoc]

end Path

namespace Marker

/-- The name of the file that becomes the marker of this name. -/
def temporaryName (name : String) (process : Nat) : String := name ++ s!".tmp{process}"

theorem toList_temporaryName (name : String) (process : Nat) :
    (temporaryName name process).toList = name.toList ++ ".tmp".toList ++ Nat.toDigits 10 process := by
  have digits : (toString process).toList = Nat.toDigits 10 process := by simp
  unfold temporaryName
  rw [String.toList_append, String.toList_append, digits, ← List.append_assoc]
  rfl

/-- A temporary file ends in a digit. -/
theorem isDigit_getLast?_temporaryName (name : String) (process : Nat) :
    ∃ last, (temporaryName name process).toList.getLast? = some last ∧ last.isDigit = true := by
  have digits : Nat.toDigits 10 process ≠ [] := Nat.toDigits_ne_nil
  refine ⟨(Nat.toDigits 10 process).getLast digits, ?_, ?_⟩
  · rw [toList_temporaryName, List.getLast?_append, List.getLast?_eq_some_getLast digits]
    rfl
  · exact Nat.isDigit_of_mem_toDigits (by decide) (by decide) (List.getLast_mem digits)

theorem ordinaryName_temporaryName {name : String} (process : Nat) (plain : '/' ∉ name.toList) :
    Path.OrdinaryName (temporaryName name process) := by
  obtain ⟨last, ends, digit⟩ := isDigit_getLast?_temporaryName name process
  have ending : ∀ text : String, (∀ last, text.toList.getLast? = some last → last.isDigit = false) →
      temporaryName name process ≠ text := by
    intro text wrong same
    rw [same] at ends
    rw [wrong last ends] at digit
    cases digit
  refine ⟨?_, ending "" (by simp), ending "." (by simp), ending ".." (by simp)⟩
  rw [toList_temporaryName]
  simp only [List.mem_append, plain, false_or, not_or]
  refine ⟨by decide, fun member => ?_⟩
  have digit := Nat.isDigit_of_mem_toDigits (by decide) (by decide) member
  cases digit

theorem temporary_child {name : String} {process : Nat} (ordinary : Path.OrdinaryName name) (base : Path)
    (extended : Path.OrdinaryName (temporaryName name process)) :
    temporary (base.child name) process = base.child (temporaryName name process) :=
  Path.extendedBy_child ordinary base extended

theorem temporaryName_ne (name : String) (process : Nat) : temporaryName name process ≠ name := by
  intro same
  have lengths := congrArg String.length same
  simp [temporaryName] at lengths

end Marker

namespace Crate

/-- The file name of a marker. -/
def markerName (name : String) : String := name ++ ".success"

theorem markerName_inj {one two : String} : markerName one = markerName two ↔ one = two := by
  simp [markerName]

theorem ordinaryName_markerName {name : String} (plain : '/' ∉ name.toList) :
    Path.OrdinaryName (markerName name) := by
  have ending : ∀ text : String, text.length < 8 → markerName name ≠ text := by
    intro text short same
    have lengths := congrArg String.length same
    simp only [markerName, String.length_append] at lengths
    have eight : ".success".length = 8 := by decide
    omega
  refine ⟨?_, ending "" (by decide), ending "." (by decide), ending ".." (by decide)⟩
  simp only [markerName, String.toList_append, List.mem_append, plain, false_or]
  decide

/-- A temporary file never has the name of a marker. -/
theorem temporaryName_ne_markerName (name other : String) (process : Nat) :
    Marker.temporaryName name process ≠ markerName other := by
  intro same
  obtain ⟨last, ends, digit⟩ := Marker.isDigit_getLast?_temporaryName name process
  have marked : (markerName other).toList.getLast? = some 's' := by
    simp [markerName]
  rw [same, marked] at ends
  cases ends
  cases digit

end Crate

namespace FileTree

section Names
variable {base : Path} (inward : base.Inward) {tree after : FileTree}
include inward

/-- Nothing is found at a name whose path cannot be used, or whose directory is not there. -/
theorem status_child_eq_error {name : String} (ordinary : Path.OrdinaryName name)
    (unfit : ¬ ((base.child name).Usable ∧ tree.Directory (base.place tree.workingDirectory)))
    (node : Node) : tree.status (base.child name) ≠ .ok node := by
  intro found
  obtain ⟨usable, lies, _⟩ :=
    (status_eq_ok_iff tree (Path.inward_child ordinary inward) node).mp found
  rw [Path.place_child ordinary] at lies
  exact unfit ⟨usable, directory_of_node? lies⟩

/-- What is found at a name is what lies there, if the path can be used. -/
theorem status_child_iff {name : String} (ordinary : Path.OrdinaryName name) (node : Node) :
    tree.status (base.child name) = .ok node ↔ (base.child name).Usable ∧
      tree.node? (name :: base.place tree.workingDirectory) = some node := by
  rw [status_eq_ok_iff tree (Path.inward_child ordinary inward), Path.place_child ordinary]
  simp [Path.not_forDirectory_child ordinary]

theorem of_write_child {name : String} (ordinary : Path.OrdinaryName name) {content : Bytes}
    (written : tree.write (base.child name) content = .ok after) :
    ChangedIn (base.place tree.workingDirectory) {name} tree after ∧
      ∃ executable, after.node? (name :: base.place tree.workingDirectory) =
        some (.file content executable) := by
  rcases target_child ordinary inward tree with ⟨reached, _, inside⟩ | ⟨⟨error, reached⟩, _⟩
  · simp only [write, reached, bind, Except.bind, Bool.false_eq_true, ↓reduceIte] at written
    have put : ∀ executable,
        ¬ tree.Directory (name :: base.place tree.workingDirectory) →
        (tree.setFile name (base.place tree.workingDirectory) content executable).node?
          (name :: base.place tree.workingDirectory) = some (.file content executable) := by
      intro executable free
      rw [node?_setFile content executable inside free, if_pos rfl]
    split at written
    · cases written
    · rename_i old executable lies
      cases written
      exact ⟨changedIn_setFile .., executable, put _ (by simp [Directory, lies])⟩
    · rename_i absent
      cases written
      exact ⟨changedIn_setFile .., false, put _ (by simp [Directory, absent])⟩
  · simp [write, reached, bind, Except.bind] at written

/-- A file that gets another name of its directory is found there and nowhere else, and the path of
that name can be used. -/
theorem of_renameFile_child {one two : String} (oneOrdinary : Path.OrdinaryName one)
    (twoOrdinary : Path.OrdinaryName two) (different : one ≠ two)
    (renamed : tree.renameFile (base.child one) (base.child two) = .ok after) :
    ChangedIn (base.place tree.workingDirectory) {two, one} tree after ∧
      (base.child two).Usable ∧ after.node? (one :: base.place tree.workingDirectory) = none ∧
      ∃ content executable,
        tree.node? (one :: base.place tree.workingDirectory) = some (.file content executable) ∧
        after.node? (two :: base.place tree.workingDirectory) =
          some (.file content executable) := by
  rcases target_child oneOrdinary inward tree with ⟨source, _, _⟩ | ⟨⟨error, source⟩, _⟩
  · rcases target_child twoOrdinary inward tree with
      ⟨goal, usable, inside⟩ | ⟨⟨error, goal⟩, _⟩
    · simp only [renameFile, source, goal, bind, Except.bind] at renamed
      generalize base.place tree.workingDirectory = room at *
      split at renamed
      · cases renamed
      · cases renamed
      · cases renamed
      · rename_i content executable lies free
        simp only [Bool.false_eq_true, ↓reduceIte, List.cons.injEq, different, false_and] at renamed
        cases renamed
        have file : ¬ tree.Directory (one :: room) := by simp [Directory, lies]
        -- Renaming is erasing the one name and setting the other; the room stays a directory.
        have erased := changedIn_eraseFile room tree one
        have set := changedIn_setFile room (tree.eraseFile (one :: room)) two content executable
        have stillInside : (tree.eraseFile (one :: room)).Directory room := by
          have other : room ≠ one :: room := fun same => by
            have lengths := congrArg List.length same
            simp at lengths
          simpa [Directory, node?_eraseFile file, other] using inside
        have stillFree : ¬ (tree.eraseFile (one :: room)).Directory (two :: room) := by
          simpa [Directory, node?_eraseFile file, Ne.symm different] using free
        have nodes := node?_setFile content executable stillInside stillFree
        refine ⟨(erased.mono (Set.subset_insert ..)).trans (set.mono (by simp)), usable, ?_, content,
          executable, lies, ?_⟩
        · rw [nodes, if_neg (by simp [different]), node?_eraseFile file, if_pos rfl]
        · rw [nodes, if_pos rfl]
    · simp [renameFile, source, goal, bind, Except.bind] at renamed
  · simp [renameFile, source, bind, Except.bind] at renamed

end Names

end FileTree

namespace Marker
open FileTree

section
variable {base : Path} {name : String} (ordinary : Path.OrdinaryName name) (inward : base.Inward)
include ordinary inward

theorem changedIn_remove (tree : FileTree) :
    ChangedIn (base.place tree.workingDirectory) {name} tree
      (remove tree (base.child name)).1 := by
  unfold remove removeFile
  rcases target_child ordinary inward tree with ⟨reached, _, _⟩ | ⟨⟨error, reached⟩, _⟩
  · simp only [reached, bind, Except.bind]
    cases tree.node? (name :: base.place tree.workingDirectory) with
    | none => exact .refl ..
    | some node =>
        cases node with
        | directory => exact .refl ..
        | file content executable => exact changedIn_eraseFile ..
  · simp only [reached, bind, Except.bind]
    cases error <;> exact .refl ..

/-- Only a directory can be left at a marker that was to be removed. It was there before, and the
removal failed. -/
theorem status_remove {tree : FileTree} {node : Node}
    (left : (remove tree (base.child name)).1.status (base.child name) = .ok node) :
    tree.isDirectory (base.child name) = true ∧ node = .directory ∧
      ∃ error, (remove tree (base.child name)).2 = .error error := by
  unfold remove removeFile at left ⊢
  rcases target_child ordinary inward tree with ⟨reached, fits⟩ | ⟨⟨error, reached⟩, unfit⟩
  · simp only [reached, bind, Except.bind] at left ⊢
    cases lies : tree.node? (name :: base.place tree.workingDirectory) with
    | none =>
        simp only [lies] at left
        have same := ((status_child_iff inward ordinary node).mp left).2
        rw [lies] at same
        cases same
    | some other =>
        cases other with
        | directory =>
            simp only [lies] at left ⊢
            have same := ((status_child_iff inward ordinary node).mp left).2
            rw [lies] at same
            cases same
            exact ⟨by simp [isDirectory, left], rfl, _, rfl⟩
        | file content executable =>
            simp only [lies, Bool.false_eq_true, ↓reduceIte] at left
            have same := ((status_child_iff inward ordinary node).mp left).2
            rw [workingDirectory_eraseFile, node?_eraseFile (by simp [Directory, lies]),
              if_pos rfl] at same
            cases same
  · simp only [reached, bind, Except.bind] at left
    cases error <;> exact absurd left (status_child_eq_error inward ordinary unfit node)

theorem changedIn_makeRoom (tree : FileTree) :
    ChangedIn (base.place tree.workingDirectory) ∅ tree (makeRoom tree (base.child name)).1 := by
  unfold makeRoom
  split
  · exact .refl ..
  · rename_i parent above
    split
    · exact .refl ..
    · obtain ⟨opens, shorter, rooted⟩ := Path.steps_prefix_parent above
      rw [Path.steps_child ordinary] at opens shorter
      -- The parent takes opening steps of the whole path and not the name, so those of the base.
      have opensBase : parent.steps <+: base.steps := by
        rcases List.prefix_concat_iff.mp opens with whole | inside
        · rw [whole] at shorter
          exact absurd shorter (Nat.lt_irrefl _)
        · exact inside
      rw [Path.isAbsolute_child ordinary] at rooted
      exact changedIn_makeDirectories
        ⟨Path.inward_of_steps_prefix opensBase inward, Path.within_of_steps_prefix opensBase rooted _⟩

section Write
variable (process : Nat) (extended : Path.OrdinaryName (temporaryName name process))
include extended

/-- What writing a marker does: room is made, the temporary file is written there and gets the
marker's name. Any of it may fail. -/
theorem write_cases (tree : FileTree) :
    ∃ grown, ChangedIn (base.place tree.workingDirectory) ∅ tree grown ∧
      ((∃ error, write tree (base.child name) process = (grown, .error error)) ∨
        ∃ written, grown.write (base.child (temporaryName name process)) [] = .ok written ∧
          ((∃ error, write tree (base.child name) process = (written, .error error)) ∨
            ∃ renamed, written.renameFile (base.child (temporaryName name process))
                (base.child name) = .ok renamed ∧
              write tree (base.child name) process = (renamed, .ok ()))) := by
  have room := changedIn_makeRoom ordinary inward tree
  have beside := temporary_child ordinary base extended
  rcases made : makeRoom tree (base.child name) with ⟨grown, outcome⟩
  rw [made] at room
  refine ⟨grown, room, ?_⟩
  cases outcome with
  | error error => exact .inl ⟨_, by simp only [write, made]; rfl⟩
  | ok done =>
      cases wrote : grown.write (base.child (temporaryName name process)) [] with
      | error error => exact .inl ⟨_, by simp only [write, made, beside, wrote]; rfl⟩
      | ok written =>
          right
          refine ⟨written, rfl, ?_⟩
          cases gave : written.renameFile (base.child (temporaryName name process))
              (base.child name) with
          | error error => exact .inl ⟨_, by simp only [write, made, beside, wrote, gave]; rfl⟩
          | ok renamed => exact .inr ⟨renamed, rfl, by simp only [write, made, beside, wrote, gave]⟩

theorem changedIn_write (tree : FileTree) :
    ChangedIn (base.place tree.workingDirectory) {name, temporaryName name process} tree
      (write tree (base.child name) process).1 := by
  have different := temporaryName_ne name process
  obtain ⟨grown, room, rest⟩ := write_cases ordinary inward process extended tree
  have opened := room.mono (Set.empty_subset {name, temporaryName name process})
  rcases rest with ⟨error, same⟩ | ⟨written, wrote, rest⟩
  · rw [same]
    exact opened
  · have filled := (of_write_child inward extended wrote).1
    have second := opened.trans (room.working ▸ filled.mono (Set.subset_insert ..))
    rcases rest with ⟨error, same⟩ | ⟨renamed, gave, same⟩
    · rw [same]
      exact second
    · rw [same]
      have moved := (of_renameFile_child inward extended ordinary different gave).1
      exact second.trans (second.working ▸ moved)

/-- A marker that was written was a temporary file before. -/
theorem of_write_eq_ok {tree : FileTree}
    (wrote : (write tree (base.child name) process).2 = .ok ()) :
    ∃ grown written, ChangedIn (base.place tree.workingDirectory) ∅ tree grown ∧
      grown.write (base.child (temporaryName name process)) [] = .ok written ∧
      written.renameFile (base.child (temporaryName name process)) (base.child name) =
        .ok (write tree (base.child name) process).1 := by
  obtain ⟨grown, room, ⟨error, same⟩ | ⟨written, put, ⟨error, same⟩ | ⟨renamed, gave, same⟩⟩⟩ :=
    write_cases ordinary inward process extended tree
  · rw [same] at wrote
    cases wrote
  · rw [same] at wrote
    cases wrote
  · rw [same]
    exact ⟨grown, written, room, put, gave⟩

/-- A marker that was written is an empty file. -/
theorem read_write {tree : FileTree}
    (wrote : (write tree (base.child name) process).2 = .ok ()) :
    (write tree (base.child name) process).1.read (base.child name) = .ok [] := by
  have different := temporaryName_ne name process
  obtain ⟨grown, written, room, put, gave⟩ := of_write_eq_ok ordinary inward process extended wrote
  obtain ⟨filled, first, lies⟩ := of_write_child inward extended put
  obtain ⟨moved, usable, _, content, executable, source, goal⟩ :=
    of_renameFile_child inward extended ordinary different gave
  rw [filled.working, lies] at source
  cases source
  rw [read_eq_ok_iff]
  refine ⟨first, (status_child_iff inward ordinary _).mpr ⟨usable, ?_⟩⟩
  rw [moved.working]
  exact goal

/-- Once a marker is written, its temporary file is gone. -/
theorem node?_temporary_of_write {tree : FileTree}
    (wrote : (write tree (base.child name) process).2 = .ok ()) :
    (write tree (base.child name) process).1.node?
      (temporaryName name process :: base.place tree.workingDirectory) = none := by
  have different := temporaryName_ne name process
  obtain ⟨grown, written, room, put, gave⟩ := of_write_eq_ok ordinary inward process extended wrote
  have filled := (of_write_child inward extended put).1
  rw [← room.working, ← filled.working]
  exact (of_renameFile_child inward extended ordinary different gave).2.2.1

/-- A marker that could not be written is as it was. -/
theorem status_write {tree : FileTree} {error : Error}
    (failed : (write tree (base.child name) process).2 = .error error) (node : Node) :
    (write tree (base.child name) process).1.status (base.child name) = .ok node ↔
      tree.status (base.child name) = .ok node := by
  have different := temporaryName_ne name process
  obtain ⟨grown, room, ⟨error, same⟩ | ⟨written, put, ⟨error, same⟩ | ⟨renamed, gave, same⟩⟩⟩ :=
    write_cases ordinary inward process extended tree
  · rw [same]
    exact room.status_child_eq_ok_iff ordinary inward (by simp) node
  · rw [same]
    have filled := (of_write_child inward extended put).1
    rw [filled.status_child_eq_ok_iff ordinary inward (by simpa using Ne.symm different) node]
    exact room.status_child_eq_ok_iff ordinary inward (by simp) node
  · rw [same] at failed
    cases failed

end Write

end

end Marker

end ProofBuild
