import Mathlib.Data.List.Find
import ProofBuild.Manifest
import ProofBuild.Proofs.Acceptance
import ProofBuild.Proofs.Parents

/-!
Manifests read from different directories. A relative path that is read from within a directory adds
components of its own to those of the directory, and an opening `.` is none of them (`components_join`). The
empty directory adds nothing and leaves an opening `.` as it is written. Main statement: the entry file of a
unit is the same path in every directory, unless one of them is empty and the entry file is named with an
opening `.` that the sources lack, or without one that they have (`Manifest.resolve_from_bases`).
-/

namespace ProofBuild

namespace Path

/-- The components that a path adds to those of a directory when it is read from within it. -/
def inner (path : Path) : List Component := path.pieces.filterMap Component.ofPiece

theorem pieces_ne_nil (path : Path) : path.pieces ≠ [] := by
  simp [pieces, Text.pieces, Text.cut_ne_nil]

theorem components_of_pieces {path : Path} {first : String} {rest : List String}
    (pieces : path.pieces = first :: rest) :
    path.components =
      (if path.isAbsolute then some Component.root
        else if first = "." then some Component.here else Component.ofPiece first).toList ++
      rest.filterMap Component.ofPiece := by
  rw [components, parts_eq_of_pieces pieces]
  generalize (if path.isAbsolute then _ else _ : Option Component) = opening
  cases opening <;> simp [List.filterMap_map]

/-- A relative path that opens with `.` says so in its components. -/
theorem components_of_relative {path : Path} (relative : path.isAbsolute = false) :
    path.components =
      (if path.pieces.head? = some "." then [Component.here] else []) ++ path.inner := by
  cases shape : path.pieces with
  | nil => exact absurd shape (pieces_ne_nil path)
  | cons first rest =>
      rw [components_of_pieces shape, inner, shape, relative]
      by_cases dot : first = "."
      · simp [dot, Component.ofPiece]
      · cases meaning : Component.ofPiece first <;> simp [dot, meaning]

/-- A path with the same last component, when that is a name, whether an opening `.` counts or not. -/
theorem getLast?_inner {path : Path} (relative : path.isAbsolute = false) {name : String}
    (named : path.fileName? = some name) : path.inner.getLast? = some (.name name) := by
  have last : path.components.getLast? = some (.name name) := by
    unfold fileName? at named
    split at named
    · rename_i text last
      cases named
      exact last
    · cases named
  rw [components_of_relative relative] at last
  cases inside : path.inner with
  | nil =>
      rw [inside] at last
      split at last <;> simp at last
  | cons first rest => simpa [inside] using last

section Join
variable {base path : Path} (relative : path.isAbsolute = false)
include relative

theorem join_of_blank (blank : base.text = "") : base.join path = path := by
  simp [join, relative, blank]

variable (written : base.text ≠ "")
include written

/-- The pieces of a path come after those of its directory, and a slash at the end of the directory opens no
piece. -/
theorem pieces_join : ∃ front, front ≠ [] ∧ (base.pieces = front ∨ base.pieces = front ++ [""]) ∧
    (base.join path).pieces = front ++ path.pieces := by
  have some : base.text.toList ≠ [] := by simpa using written
  unfold join
  rw [relative]
  cases ends : base.text.toList.getLast? with
  | none => exact absurd (List.getLast?_eq_none_iff.mp ends) some
  | some last =>
      rcases List.getLast?_eq_some_iff.mp ends with ⟨front, characters⟩
      by_cases slash : last = '/'
      · refine ⟨(Text.cut '/' front).map String.ofList, by simp [Text.cut_ne_nil], .inr ?_, ?_⟩
        · simp [pieces, Text.pieces, characters, slash, Text.cut_append_separator, Text.cut]
        · simp [pieces, Text.pieces, characters, slash, Text.cut_append_separator]
      · refine ⟨base.pieces, pieces_ne_nil base, .inl rfl, ?_⟩
        simp [pieces, Text.pieces, Text.cut_append_separator]

theorem isAbsolute_join : (base.join path).isAbsolute = base.isAbsolute := by
  have text : ∃ more, (base.join path).text.toList = base.text.toList ++ more := by
    unfold join
    rw [relative]
    split
    · contradiction
    · split <;> simp
  rcases text with ⟨more, text⟩
  apply Bool.eq_iff_iff.mpr
  rw [isAbsolute_iff, isAbsolute_iff, text]
  cases characters : base.text.toList with
  | nil => exact absurd (by simpa using characters) written
  | cons first rest => simp

/-- A path that is read from within a directory lies below it, with components of its own. -/
theorem components_join : (base.join path).components = base.components ++ path.inner := by
  rcases pieces_join relative written with ⟨front, some, own, joined⟩
  cases front with
  | nil => exact absurd rfl some
  | cons first rest =>
      rw [List.cons_append] at joined
      rw [components_of_pieces joined, isAbsolute_join relative written, inner]
      rcases own with own | own
      · rw [components_of_pieces own]
        simp
      · rw [List.cons_append] at own
        rw [components_of_pieces own]
        simp [Component.ofPiece]

end Join

/-- Two relative paths are one path in a directory when they are one path but for an opening `.`; in the empty
directory that counts too. -/
theorem same_join_iff {base one two : Path} (first : one.isAbsolute = false)
    (second : two.isAbsolute = false) :
    Same (base.join one) (base.join two) ↔
      if base.text = "" then Same one two else one.inner = two.inner := by
  by_cases blank : base.text = ""
  · rw [join_of_blank first blank, join_of_blank second blank, if_pos blank]
  · rw [if_neg blank, Same, components_join first blank, components_join second blank,
      List.append_cancel_left_eq]

theorem inner_eq_filter {path : Path} (relative : path.isAbsolute = false) :
    path.inner = path.components.filter (· ≠ .here) := by
  have named : ∀ component ∈ path.inner, component ≠ Component.here := by
    intro component member
    rcases List.mem_filterMap.mp member with ⟨piece, _, meaning⟩
    rintro rfl
    unfold Component.ofPiece at meaning
    split at meaning
    · cases meaning
    · split at meaning <;> cases meaning
  rw [components_of_relative relative, List.filter_append,
    List.filter_eq_self.mpr fun component member => decide_eq_true (named component member)]
  split <;> simp

theorem inner_eq_of_same {one two : Path} (first : one.isAbsolute = false)
    (second : two.isAbsolute = false) (same : Same one two) : one.inner = two.inner := by
  rw [inner_eq_filter first, inner_eq_filter second, show one.components = two.components from same]

/-- A path that can be read from every directory and names a file there. -/
structure Movable (path : Path) : Prop where
  relative : path.isRelative = true
  named : path.fileName?.isSome = true

theorem Movable.isAbsolute {path : Path} (movable : path.Movable) : path.isAbsolute = false := by
  simpa [isRelative] using movable.relative

theorem Movable.fileName?_join {path : Path} (movable : path.Movable) (base : Path) :
    (base.join path).fileName? = path.fileName? := by
  rcases Option.isSome_iff_exists.mp movable.named with ⟨name, named⟩
  by_cases blank : base.text = ""
  · rw [join_of_blank movable.isAbsolute blank]
  · have last := getLast?_inner movable.isAbsolute named
    rw [named]
    unfold fileName?
    rw [components_join movable.isAbsolute blank, List.getLast?_append, last]
    rfl

end Path

namespace Spec

/-- A unit with its paths read from within a directory. -/
def rebased (unit : Spec) (base : Path) : Spec :=
  { unit with
    sources := unit.sources.map (Manifest.rebase base)
    entry := unit.entry.map (Manifest.rebase base) }

/-- Every path of a unit can be read from every directory. -/
structure Movable (unit : Spec) : Prop where
  sources : ∀ source ∈ unit.sources, source.Movable
  entry : ∀ entry, unit.entry = some entry → entry.Movable

/-- The entry file is named, and it is a source but for an opening `.` that only one of the two has. -/
def OpenedApart (unit : Spec) : Prop :=
  ∃ entry, unit.entry = some entry ∧ ¬ entry.Among unit.sources ∧
    ∃ source ∈ unit.sources, source.inner = entry.inner

/-- The entry file as the unit writes it: the named one, or the first source with the conventional name, or
the first source. -/
def nominated (unit : Spec) : Path :=
  unit.entry.getD <|
    (unit.sources.find? fun source => source.fileName? = some conventionalEntry).getD
      (unit.sources.headD ⟨""⟩)

theorem exists_resolve_eq_ok_iff (unit : Spec) :
    (∃ answer, unit.resolve = .ok answer) ↔ unit.Resolvable := by
  rw [← exists_entryAmong_eq_ok_iff, resolve]
  cases entryAmong unit.sources unit.entry <;> simp

/-- A unit that resolves has the entry file that it nominates. -/
theorem eq_nominated_of_resolve {unit : Spec} {answer : Path × String}
    (resolved : unit.resolve = .ok answer) :
    answer = (unit.nominated, unit.settledIdentity) := by
  unfold resolve entryAmong at resolved
  unfold nominated
  cases sources : unit.sources with
  | nil => simp [sources] at resolved
  | cons first rest =>
      simp only [sources] at resolved
      cases named : unit.entry with
      | some entry =>
          simp only [named] at resolved
          split at resolved
          · cases resolved
          · rename_i chosen
            split at chosen
            · cases chosen
              cases resolved
              rfl
            · cases chosen
      | none =>
          simp only [named] at resolved
          cases resolved
          rfl

theorem nominated_mem (unit : Spec) (listed : unit.sources ≠ []) :
    unit.nominated ∈ unit.sources ∨ unit.entry = some unit.nominated := by
  unfold nominated
  cases unit.entry with
  | some entry => exact .inr rfl
  | none =>
      left
      cases found : unit.sources.find? fun source => source.fileName? = some conventionalEntry with
      | some source => exact List.mem_of_find?_eq_some found
      | none =>
          cases sources : unit.sources with
          | nil => exact absurd sources listed
          | cons first rest => exact List.mem_cons_self

section Movable
variable {unit : Spec} (movable : unit.Movable)
include movable

theorem rebased_eq (base : Path) :
    unit.rebased base = { unit with
      sources := unit.sources.map base.join, entry := unit.entry.map base.join } := by
  have sources : unit.sources.map (Manifest.rebase base) = unit.sources.map base.join :=
    List.map_congr_left fun source member => if_pos (movable.sources source member).relative
  have entry : unit.entry.map (Manifest.rebase base) = unit.entry.map base.join :=
    Option.map_congr fun entry named => if_pos (movable.entry entry named).relative
  rw [rebased, sources, entry]

/-- In a directory with a text of its own an opening `.` does not count. -/
theorem resolvable_rebased_iff (base : Path) :
    (unit.rebased base).Resolvable ↔
      unit.sources ≠ [] ∧ ∀ entry, unit.entry = some entry → ∃ source ∈ unit.sources,
        if base.text = "" then Path.Same source entry else source.inner = entry.inner := by
  rw [rebased_eq movable, Resolvable]
  apply and_congr
  · simp
  · cases named : unit.entry with
    | none => simp
    | some entry =>
        have relative := (movable.entry entry named).isAbsolute
        simp only [Option.map_some, Option.some.injEq, forall_eq', Path.Among, List.mem_map,
          exists_exists_and_eq_and]
        refine exists_congr fun source => and_congr_right fun member => ?_
        exact Path.same_join_iff (movable.sources source member).isAbsolute relative

/-- What resolves in the empty directory resolves everywhere else. -/
theorem resolvable_of_blank {blank base : Path} (empty : blank.text = "")
    (resolvable : (unit.rebased blank).Resolvable) : (unit.rebased base).Resolvable := by
  rw [resolvable_rebased_iff movable, empty] at resolvable
  rw [resolvable_rebased_iff movable]
  refine ⟨resolvable.1, fun entry named => ?_⟩
  rcases resolvable.2 entry named with ⟨source, member, same⟩
  have relative := (movable.entry entry named).isAbsolute
  refine ⟨source, member, ?_⟩
  split
  · exact same
  · exact Path.inner_eq_of_same (movable.sources source member).isAbsolute relative same

/-- The units that resolve everywhere but in the empty directory. -/
theorem openedApart_iff {blank base : Path} (empty : blank.text = "") (written : base.text ≠ "") :
    unit.OpenedApart ↔ (unit.rebased base).Resolvable ∧ ¬ (unit.rebased blank).Resolvable := by
  simp only [resolvable_rebased_iff movable, written, empty, if_true, if_false]
  constructor
  · rintro ⟨entry, named, foreign, source, member, inner⟩
    have listed : unit.sources ≠ [] := List.ne_nil_of_mem member
    constructor
    · refine ⟨listed, fun other namedToo => ?_⟩
      cases named.symm.trans namedToo
      exact ⟨source, member, inner⟩
    · exact fun resolvable => foreign (resolvable.2 entry named)
  · rintro ⟨⟨listed, loose⟩, refused⟩
    cases named : unit.entry with
    | none => exact absurd ⟨listed, by simp [named]⟩ refused
    | some entry =>
        refine ⟨entry, named, fun among => refused ⟨listed, ?_⟩, loose entry named⟩
        simpa [named, Path.Among] using among

/-- Reading a unit from within a directory does not change what it nominates. -/
theorem nominated_rebased (base : Path) (listed : unit.sources ≠ []) :
    (unit.rebased base).nominated = base.join unit.nominated := by
  rw [rebased_eq movable]
  unfold nominated
  cases unit.entry with
  | some entry => rfl
  | none =>
      have conventional : unit.sources.find? (fun source =>
          (base.join source).fileName? = some conventionalEntry) =
            unit.sources.find? fun source => source.fileName? = some conventionalEntry := by
        apply List.find?_congr
        intro source member
        rw [(movable.sources source member).fileName?_join base]
      cases sources : unit.sources with
      | nil => exact absurd sources listed
      | cons first rest =>
          rw [sources] at conventional
          simp only [Option.map_none, Option.getD_none, List.map_cons, List.headD_cons]
          rw [← List.map_cons, List.find?_map]
          simp only [Function.comp_def, conventional]
          cases (first :: rest).find? fun source => source.fileName? = some conventionalEntry <;> rfl

end Movable

/-- A unit that names its entry file without the `.` that opens its source. -/
def opened : Spec := ⟨"u", [⟨"./lib.rs"⟩], some ⟨"lib.rs"⟩, none, [], []⟩

end Spec

/-- A manifest of that unit. -/
def Manifest.opened : Manifest := ⟨⟨⟨"t"⟩, "1.93.0", none, defaultEdition⟩, [Spec.opened]⟩

/-- A unit whose paths can be read from every directory nominates the same entry file in each. Whether that is
one of its sources is the same in two directories exactly unless one of them is empty and the entry file is a
source but for an opening `.`. -/
theorem Manifest.resolve_from_bases {manifest : Manifest} {place : Nat} {unit : Spec}
    (declared : manifest.units[place]? = some unit) (movable : unit.Movable) (one two : Path) :
    ∃ first second, (manifest.resolvePaths one).units[place]? = some first ∧
      (manifest.resolvePaths two).units[place]? = some second ∧
      (((∃ answer, first.resolve = .ok answer) ↔ ∃ answer, second.resolve = .ok answer) ↔
        ¬ (unit.OpenedApart ∧ (one.text = "" ↔ two.text ≠ ""))) ∧
      ∀ answer other, first.resolve = .ok answer → second.resolve = .ok other →
        answer.2 = other.2 ∧ ∃ path, (path ∈ unit.sources ∨ unit.entry = some path) ∧
          answer.1 = one.join path ∧ other.1 = two.join path := by
  have rebasedIn (base : Path) : (manifest.resolvePaths base).units[place]? =
      some (unit.rebased base) := by
    show (manifest.units.map fun unit => unit.rebased base)[place]? = _
    rw [List.getElem?_map, declared]
    rfl
  refine ⟨unit.rebased one, unit.rebased two, rebasedIn one, rebasedIn two, ?_, ?_⟩
  · rw [Spec.exists_resolve_eq_ok_iff, Spec.exists_resolve_eq_ok_iff]
    by_cases first : one.text = ""
    · by_cases second : two.text = ""
      · have same : (unit.rebased one).Resolvable ↔ (unit.rebased two).Resolvable :=
          ⟨Spec.resolvable_of_blank movable first, Spec.resolvable_of_blank movable second⟩
        simp [first, second, same]
      · have forth : (unit.rebased one).Resolvable → (unit.rebased two).Resolvable :=
          Spec.resolvable_of_blank movable first
        rw [Spec.openedApart_iff movable first second]
        tauto
    · by_cases second : two.text = ""
      · have back : (unit.rebased two).Resolvable → (unit.rebased one).Resolvable :=
          Spec.resolvable_of_blank movable second
        rw [Spec.openedApart_iff movable second first]
        tauto
      · rw [Spec.resolvable_rebased_iff movable, Spec.resolvable_rebased_iff movable]
        simp [first, second]
  · intro answer other resolved resolvedToo
    have listed : unit.sources ≠ [] := by
      have resolvable := (Spec.exists_resolve_eq_ok_iff _).mp ⟨answer, resolved⟩
      exact ((Spec.resolvable_rebased_iff movable one).mp resolvable).1
    rw [Spec.eq_nominated_of_resolve resolved, Spec.eq_nominated_of_resolve resolvedToo,
      Spec.nominated_rebased movable one listed, Spec.nominated_rebased movable two listed]
    exact ⟨rfl, unit.nominated, unit.nominated_mem listed, rfl, rfl⟩

/-- The entry file `lib.rs` is the source `./lib.rs` in every directory but the empty one. -/
theorem Manifest.resolve_from_bases_opened :
    Manifest.opened.units[0]? = some Spec.opened ∧ Spec.opened.Movable ∧ Spec.opened.OpenedApart ∧
      (⟨""⟩ : Path).text = "" ∧ (⟨"."⟩ : Path).text ≠ "" ∧
      ∃ first second, (Manifest.opened.resolvePaths ⟨""⟩).units[0]? = some first ∧
        (Manifest.opened.resolvePaths ⟨"."⟩).units[0]? = some second ∧
        ¬ ((∃ answer, first.resolve = .ok answer) ↔ ∃ answer, second.resolve = .ok answer) := by
  have declared : Manifest.opened.units[0]? = some Spec.opened := rfl
  have movable : Spec.opened.Movable := by
    constructor
    · intro source member
      rw [List.mem_singleton.mp member]
      exact ⟨by decide, by decide⟩
    · intro entry named
      cases named
      exact ⟨by decide, by decide⟩
  have apart : Spec.opened.OpenedApart :=
    ⟨⟨"lib.rs"⟩, rfl, by decide, ⟨"./lib.rs"⟩, by decide, by decide⟩
  rcases Manifest.resolve_from_bases declared movable ⟨""⟩ ⟨"."⟩ with
    ⟨first, second, readFirst, readSecond, agree, _⟩
  have bases : ((⟨""⟩ : Path).text = "" ↔ (⟨"."⟩ : Path).text ≠ "") := by decide
  refine ⟨declared, movable, apart, rfl, by decide, first, second, readFirst, readSecond, ?_⟩
  exact fun same => agree.mp same ⟨apart, bases⟩

end ProofBuild
