import ProofBuild.Proofs.Runs

/-!
When two markers are one path. A marker is written as the unit's name in the marker directory with
a suffix, so its last component is the last piece of the name with that suffix, and the components
before it are those of the name before its last piece. Names without a slash have one piece each, and
then no two markers are one path and no turn touches the marker of another crate. Names with slashes are
accepted too, and those that differ only in spelling share a marker.
-/

namespace ProofBuild

namespace Text

/-- A text without the separator goes on with the last piece. -/
theorem cut_append_plain {separator : Char} {suffix : List Char} (plain : separator ∉ suffix)
    (text : List Char) : ∃ front last, cut separator text = front ++ [last] ∧
      cut separator (text ++ suffix) = front ++ [last ++ suffix] := by
  induction text with
  | nil => exact ⟨[], [], rfl, cut_of_not_mem plain⟩
  | cons c rest ih =>
      obtain ⟨front, last, before, after⟩ := ih
      rw [List.cons_append, cut, cut, before, after]
      by_cases same : c = separator
      · refine ⟨[] :: front, last, ?_, ?_⟩
        · simp [same]
        · simp [same]
      · -- The character belongs to the first piece, and that one may be the last one as well.
        cases front with
        | nil => exact ⟨[], c :: last, by simp [same], by simp [same]⟩
        | cons first others => exact ⟨(c :: first) :: others, last, by simp [same], by simp [same]⟩

end Text

namespace Path

/-- The components of the pieces before the last one. -/
def leading (path : Path) : List Component := path.parts.dropLast.filterMap (·.2)

/-- The text after the last slash. -/
def lastPiece (path : Path) : String := path.pieces.getLast?.getD ""

theorem slash_not_mem_lastPiece (path : Path) : '/' ∉ path.lastPiece.toList := by
  unfold lastPiece
  cases last : path.pieces.getLast? with
  | none => simp
  | some piece => exact slash_not_mem_of_mem_pieces (List.mem_of_getLast? last)

section Suffix
variable {suffix : String} (plain : '/' ∉ suffix.toList) (path : Path)
include plain

theorem pieces_extendedBy :
    (path.extendedBy suffix).pieces = path.pieces.dropLast ++ [path.lastPiece ++ suffix] := by
  obtain ⟨front, last, before, after⟩ := Text.cut_append_plain plain path.text.toList
  have old : path.pieces = front.map String.ofList ++ [String.ofList last] := by
    simp [pieces, Text.pieces, before]
  have new : (path.extendedBy suffix).pieces =
      front.map String.ofList ++ [String.ofList (last ++ suffix.toList)] := by
    simp [pieces, Text.pieces, extendedBy, after]
  rw [new, lastPiece, old]
  simp

theorem isAbsolute_extendedBy : (path.extendedBy suffix).isAbsolute = path.isAbsolute := by
  apply Bool.eq_iff_iff.mpr
  rw [isAbsolute_iff, isAbsolute_iff, extendedBy, String.toList_append]
  cases path.text.toList with
  | nil =>
      constructor
      · rintro ⟨rest, characters⟩
        rw [List.nil_append] at characters
        exact absurd (by simp [characters]) plain
      · rintro ⟨rest, characters⟩
        cases characters
  | cons first rest => simp

theorem components_extendedBy (ordinary : OrdinaryName (path.lastPiece ++ suffix)) :
    (path.extendedBy suffix).components =
      path.leading ++ [.name (path.lastPiece ++ suffix)] := by
  have meaning : Component.ofPiece (path.lastPiece ++ suffix) =
      some (.name (path.lastPiece ++ suffix)) := by
    simp [Component.ofPiece, ordinary.named, ordinary.notHere, ordinary.notUp]
  unfold components leading parts
  rw [pieces_extendedBy plain, isAbsolute_extendedBy plain]
  cases shape : path.pieces with
  | nil =>
      have relative : path.isAbsolute = false := by
        simp [Bool.eq_false_iff, isAbsolute_iff_pieces, shape]
      simp [relative, ordinary.notHere, meaning]
  | cons first rest =>
      cases rest with
      | nil =>
          have relative : path.isAbsolute = false := by
            simp [Bool.eq_false_iff, isAbsolute_iff_pieces, shape]
          simp [relative, ordinary.notHere, meaning]
      | cons second others =>
          -- The opening piece is another one than the last, and keeps its meaning.
          rw [List.dropLast_cons_cons, List.cons_append]
          dsimp only
          rw [List.map_append, List.map_singleton, meaning, List.map_dropLast, List.map_cons,
            List.dropLast_cons_cons, ← List.cons_append, List.filterMap_append]
          rfl

end Suffix

end Path

namespace Crate

theorem markerIn_eq (directory : Path) (name : String) :
    markerIn directory name = (directory.child name).extendedBy ".success" := by
  have same : (⟨name ++ ".success"⟩ : Path).isAbsolute = (⟨name⟩ : Path).isAbsolute :=
    Path.isAbsolute_extendedBy (by decide) ⟨name⟩
  unfold markerIn Path.child Path.join Path.extendedBy
  rw [same]
  split
  · rfl
  · split <;> simp [String.append_assoc]

/-- Two markers in a directory are one path when the names, read in it, agree up to their last
pieces and these are the same. -/
theorem same_markerIn_iff (directory : Path) (one two : String) :
    Path.Same (markerIn directory one) (markerIn directory two) ↔
      (directory.child one).leading = (directory.child two).leading ∧
        (directory.child one).lastPiece = (directory.child two).lastPiece := by
  have marked (name : String) : (markerIn directory name).components =
      (directory.child name).leading ++ [.name ((directory.child name).lastPiece ++ ".success")] := by
    rw [markerIn_eq]
    apply Path.components_extendedBy (by decide)
    exact ordinaryName_markerName (Path.slash_not_mem_lastPiece _)
  unfold Path.Same
  rw [marked, marked]
  constructor
  · intro same
    have lengths := congrArg List.length same
    simp only [List.length_append, List.length_singleton, Nat.add_right_cancel_iff] at lengths
    have halves := List.append_inj same lengths
    refine ⟨halves.1, ?_⟩
    simpa using halves.2
  · rintro ⟨fronts, lasts⟩
    rw [fronts, lasts]

end Crate

namespace Graph

/-- Two units whose names differ in their spelling only. -/
def respelledSpecs : List Spec := [
  ⟨"a//b", [⟨"lib.rs"⟩], none, none, [], []⟩,
  ⟨"a/b", [⟨"lib.rs"⟩], none, none, [], []⟩]

def respelled : Graph where
  crates := [
    ⟨"a//b", "a//b", ⟨"lib.rs"⟩, [⟨"lib.rs"⟩], [], [], ⟨"out/a//b.success"⟩,
      [⟨"out/a//b.success"⟩]⟩,
    ⟨"a/b", "a/b", ⟨"lib.rs"⟩, [⟨"lib.rs"⟩], [], [], ⟨"out/a/b.success"⟩,
      [⟨"out/a/b.success"⟩]⟩]

theorem ofSpecs_respelledSpecs : ofSpecs respelledSpecs ⟨"out"⟩ = .ok respelled := by
  have distinct : repeatedName? respelledSpecs = none := by decide
  have known : unknownDependency? respelledSpecs = none := by decide
  have order : Order.ofSpecs respelledSpecs = .ok ["a//b", "a/b"] := by cbv
  have settled : settleAll ⟨"out"⟩ [] (["a//b", "a/b"].filterMap (Spec.find? respelledSpecs)) =
      .ok respelled.crates := by decide
  simp only [ofSpecs, distinct, known, order, settled]
  rfl

end Graph

namespace Context
open FileTree

/-- In an accepted graph two markers are one path exactly when the names agree up to spelling before
their last pieces. Where no name has a slash that makes them one crate, and in an inward directory
a turn of one crate leaves the marker of every other one as it is. -/
theorem same_marker_iff {specs : List Spec} {directory : Path} {graph : Graph}
    (accepted : Graph.ofSpecs specs directory = .ok graph) :
    (∀ one ∈ graph.crates, ∀ two ∈ graph.crates,
      Path.Same one.marker two.marker ↔
        (directory.child one.name).leading = (directory.child two.name).leading ∧
          (directory.child one.name).lastPiece = (directory.child two.name).lastPiece) ∧
    ((∀ spec ∈ specs, '/' ∉ spec.name.toList) →
      (∀ one ∈ graph.crates, ∀ two ∈ graph.crates,
        Path.Same one.marker two.marker → one = two) ∧
      (directory.Inward → ∀ (context : Context) (state : State),
        ∀ one ∈ graph.crates, ∀ two ∈ graph.crates, one ≠ two → ∀ node,
          (context.buildCrate graph one state).1.world.tree.status two.marker = .ok node ↔
            state.world.tree.status two.marker = .ok node)) := by
  obtain ⟨settled, _⟩ := Graph.settled_of_ofSpecs accepted
  refine ⟨?_, fun plain => ⟨?_, ?_⟩⟩
  · intro one first two second
    rw [settled.marker_eq one first, settled.marker_eq two second]
    exact Crate.same_markerIn_iff directory one.name two.name
  · intro one first two second same
    exact Graph.eq_of_same_marker settled (Graph.plain_of_ofSpecs accepted plain) first second same
  · intro inward context state one first two second different node
    have regular := Graph.regular_of_ofSpecs accepted plain inward
    have turn := (turn_buildCrate context graph one state).changedIn regular first
    have apart : two.name ≠ one.name := fun same =>
      different (settled.eq_of_name_eq first second same.symm)
    have others : ∀ crate ∈ [one], two.name ≠ crate.name := by simpa using apart
    rw [marker_eq_child regular second]
    apply turn.status_child_eq_ok_iff (ordinaryName_marker regular second) inward
    intro owns
    exact markerName_not_mem_files others context.process ⟨one, List.mem_singleton_self one, owns⟩

/-- Two spellings of one name are accepted as two units, with one marker between them. The markers
of a tandem are apart. -/
theorem same_marker_iff_respelled :
    Graph.ofSpecs Graph.respelledSpecs ⟨"out"⟩ = .ok Graph.respelled ∧
      Graph.respelled.crates[0] ≠ Graph.respelled.crates[1] ∧
      Path.Same Graph.respelled.crates[0].marker Graph.respelled.crates[1].marker ∧
      ∀ state : State, ∀ node,
        (accepting.buildCrate Graph.tandem Graph.tandem.crates[0] state).1.world.tree.status
            Graph.tandem.crates[1].marker = .ok node ↔
          state.world.tree.status Graph.tandem.crates[1].marker = .ok node := by
  have lower : Graph.tandem.crates[0] ∈ Graph.tandem.crates := by decide
  have upper : Graph.tandem.crates[1] ∈ Graph.tandem.crates := by decide
  refine ⟨Graph.ofSpecs_respelledSpecs, by decide, ?_, ?_⟩
  · apply ((same_marker_iff Graph.ofSpecs_respelledSpecs).1 _ (by decide) _ (by decide)).mpr
    decide
  · intro state node
    have apart := ((same_marker_iff Graph.ofSpecs_tandemSpecs).2 (by decide)).2 (by decide)
    exact apart accepting state _ lower _ upper (by decide) node

end Context

end ProofBuild
