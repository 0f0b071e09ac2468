import ProofBuild.FileTree.Access

/-!
Places that paths lead to. A path that never steps outward leads to one location, and its text
and the working directory decide which; a tree decides only whether anything is there. Main
statement: where a name inside a directory lies (`place_child`).
-/

namespace ProofBuild

namespace Path

/-- The pieces that a walk along the path takes. -/
def steps (path : Path) : List String := path.pieces.filter (· ≠ "")

/-- No component steps outward. -/
def Inward (path : Path) : Prop := Component.up ∉ path.components

instance (path : Path) : Decidable path.Inward := inferInstanceAs (Decidable (_ ∉ _))

/-- Where a walk arrives that never steps outward. -/
def follow : Location → List String → Location
  | here, [] => here
  | here, step :: rest => follow (if step = "." then here else step :: here) rest

/-- The location that an inward path leads to, seen from `here`. -/
def place (here : Location) (path : Path) : Location :=
  follow (if path.isAbsolute then [] else here) path.steps

/-- Whether the path can name anything at all: the limits of texts and names. -/
def Usable (path : Path) : Prop :=
  '\x00' ∉ path.text.toList ∧ path.text ≠ "" ∧ path.text.utf8ByteSize ≤ pathLimit ∧
    ∀ step ∈ path.steps, step.utf8ByteSize ≤ nameLimit

instance (path : Path) : Decidable path.Usable := inferInstanceAs (Decidable (_ ∧ _ ∧ _ ∧ _))

/-- Whether only a directory can answer to the path. -/
def ForDirectory (path : Path) : Prop :=
  path.text.toList.getLast? = some '/' ∨ path.steps.getLast? = some "."

instance (path : Path) : Decidable path.ForDirectory := inferInstanceAs (Decidable (_ ∨ _))

/-- A name that a directory can hold. -/
structure OrdinaryName (name : String) : Prop where
  plain : '/' ∉ name.toList
  named : name ≠ ""
  notHere : name ≠ "."
  notUp : name ≠ ".."

theorem ofPiece_eq_up (piece : String) : Component.ofPiece piece = some .up ↔ piece = ".." := by
  unfold Component.ofPiece
  split
  · rename_i blank
    rcases blank with same | same <;> simp [same]
  · split <;> simp_all

theorem first_piece_of_isAbsolute {path : Path} {first : String} {rest : List String}
    (absolute : path.isAbsolute = true) (pieces : path.pieces = first :: rest) : first = "" := by
  unfold isAbsolute at absolute
  split at absolute
  · rename_i characters
    simp only [Path.pieces, Text.pieces, characters, Text.cut, ↓reduceIte, List.map_cons,
      List.cons.injEq] at pieces
    exact pieces.1.symm
  · simp at absolute

theorem up_mem_components (path : Path) : Component.up ∈ path.components ↔ ".." ∈ path.pieces := by
  unfold components parts
  cases pieces : path.pieces with
  | nil => simp
  | cons first rest =>
      have later : (∃ piece ∈ rest, Component.ofPiece piece = some .up) ↔ ".." ∈ rest := by
        simp [ofPiece_eq_up]
      by_cases absolute : path.isAbsolute = true
      · have blank := first_piece_of_isAbsolute absolute pieces
        simp [absolute, blank, later]
      · by_cases dot : first = "."
        · simp [absolute, dot, later]
        · have opening := ofPiece_eq_up first
          cases meaning : Component.ofPiece first with
          | none =>
              have different : ".." ≠ first := by
                intro same
                rw [opening.mpr same.symm] at meaning
                cases meaning
              simp [absolute, dot, meaning, different, later]
          | some component =>
              have same : Component.up = component ↔ ".." = first := by
                rw [eq_comm, eq_comm (a := ".."), ← opening, meaning, Option.some.injEq]
              simp [absolute, dot, meaning, same, later]

theorem inward_iff (path : Path) : path.Inward ↔ ".." ∉ path.steps := by
  simp [Inward, up_mem_components, steps]

@[simp] theorem follow_nil (here : Location) : follow here [] = here := rfl

theorem follow_append (here : Location) (one two : List String) :
    follow here (one ++ two) = follow (follow here one) two := by
  induction one generalizing here with
  | nil => rfl
  | cons step rest ih => exact ih _

/-- A walk without outward steps stays below its start. -/
theorem within_follow (here : Location) (steps : List String) :
    FileTree.Within here (follow here steps) := by
  induction steps generalizing here with
  | nil => exact List.suffix_refl here
  | cons step rest ih =>
      by_cases dot : step = "."
      · simpa [follow, dot] using ih here
      · have inside : step :: here <:+ follow (step :: here) rest := ih (step :: here)
        simpa [follow, dot, FileTree.Within] using (List.suffix_cons step here).trans inside

theorem length_follow (here : Location) (steps : List String) :
    (follow here steps).length = here.length + (steps.filter (· ≠ ".")).length := by
  induction steps generalizing here with
  | nil => rfl
  | cons step rest ih =>
      rw [follow, ih]
      by_cases dot : step = "."
      · simp [dot]
      · simp [dot]; omega

theorem dots_of_follow_eq {here : Location} {steps : List String}
    (stays : follow here steps = here) : ∀ step ∈ steps, step = "." := by
  have lengths := length_follow here steps
  rw [stays] at lengths
  have none : steps.filter (· ≠ ".") = [] := List.length_eq_zero_iff.mp (by omega)
  simpa using List.filter_eq_nil_iff.mp none

theorem follow_dots {here : Location} {dots : List String} (still : ∀ dot ∈ dots, dot = ".") :
    follow here dots = here := by
  induction dots with
  | nil => rfl
  | cons dot rest ih =>
      obtain ⟨rfl, later⟩ := List.forall_mem_cons.mp still
      exact ih later

theorem within_follow_of_prefix {one two : List String} (opens : one <+: two) (here : Location) :
    FileTree.Within (follow here one) (follow here two) := by
  obtain ⟨rest, rfl⟩ := opens
  rw [follow_append]
  exact within_follow _ rest

theorem steps_eq (path : Path) :
    path.steps = ((Text.cut '/' path.text.toList).filter (· ≠ [])).map String.ofList := by
  simp [steps, pieces, Text.pieces, List.filter_map, Function.comp_def]

theorem isAbsolute_iff (path : Path) :
    path.isAbsolute = true ↔ ∃ rest, path.text.toList = '/' :: rest := by
  unfold isAbsolute
  split
  · rename_i characters
    simp [characters]
  · rename_i other
    simp only [Bool.false_eq_true, false_iff, not_exists]
    exact fun rest characters => other rest characters

/-- A text without a slash is a relative path. -/
theorem isAbsolute_of_plain {name : String} (plain : '/' ∉ name.toList) :
    (⟨name⟩ : Path).isAbsolute = false := by
  apply Bool.eq_false_iff.mpr
  intro absolute
  obtain ⟨rest, characters⟩ := (isAbsolute_iff ⟨name⟩).mp absolute
  exact plain (by rw [show name.toList = '/' :: rest from characters]; exact List.mem_cons_self)

section Child
variable {name : String} (ordinary : OrdinaryName name)
include ordinary

/-- A slash stands between a directory's text and a name in it, unless one is there already or
the directory's text is empty. -/
theorem text_child (base : Path) :
    (base.child name).text.toList = base.text.toList ++ name.toList ∧
        (base.text.toList = [] ∨ base.text.toList.getLast? = some '/') ∨
      (base.child name).text.toList = base.text.toList ++ '/' :: name.toList ∧
        base.text.toList ≠ [] := by
  have relative := isAbsolute_of_plain ordinary.plain
  unfold child join
  simp only [relative, Bool.false_eq_true, ↓reduceIte]
  split
  · rename_i blank
    left
    exact ⟨String.toList_append, .inl (List.getLast?_eq_none_iff.mp blank)⟩
  · rename_i slashed
    left
    exact ⟨String.toList_append, .inr slashed⟩
  · rename_i last
    right
    constructor
    · simp [String.toList_append]
    · intro blank
      simp [blank] at last

theorem steps_child (base : Path) : (base.child name).steps = base.steps ++ [name] := by
  have solid : name.toList ≠ [] := by simpa using ordinary.named
  have whole : (Text.cut '/' name.toList).filter (· ≠ []) = [name.toList] := by
    rw [Text.cut_of_not_mem ordinary.plain]
    simp [solid]
  rw [steps_eq, steps_eq]
  rcases text_child ordinary base with ⟨text, blank | slashed⟩ | ⟨text, _⟩
  · rw [text, blank, List.nil_append, whole]
    simp [Text.cut]
  · obtain ⟨front, opens⟩ := List.getLast?_eq_some_iff.mp slashed
    rw [text, opens, List.append_assoc, List.singleton_append, Text.cut_append_separator,
      Text.cut_append_separator, List.filter_append, whole]
    simp [Text.cut]
  · rw [text, Text.cut_append_separator, List.filter_append, whole]
    simp

theorem isAbsolute_child (base : Path) : (base.child name).isAbsolute = base.isAbsolute := by
  apply Bool.eq_iff_iff.mpr
  rw [isAbsolute_iff, isAbsolute_iff]
  rcases text_child ordinary base with ⟨text, blank | slashed⟩ | ⟨text, some⟩
  · have relative : ¬ ∃ rest, name.toList = '/' :: rest := by
      rintro ⟨rest, characters⟩
      exact ordinary.plain (by simp [characters])
    simpa [text, blank] using relative
  · cases characters : base.text.toList with
    | nil => simp [characters] at slashed
    | cons first rest => simp [text, characters]
  · cases characters : base.text.toList with
    | nil => exact absurd characters some
    | cons first rest => simp [text, characters]

theorem place_child (base : Path) (here : Location) :
    (base.child name).place here = name :: base.place here := by
  simp [place, steps_child ordinary, isAbsolute_child ordinary, follow_append, follow, ordinary.notHere]

theorem inward_child {base : Path} (inward : base.Inward) :
    (base.child name).Inward := by
  rw [inward_iff] at inward ⊢
  simp [steps_child ordinary, inward, Ne.symm ordinary.notUp]

theorem not_forDirectory_child (base : Path) :
    ¬ (base.child name).ForDirectory := by
  have solid : name.toList ≠ [] := by simpa using ordinary.named
  have last : (base.child name).text.toList.getLast? = name.toList.getLast? := by
    rcases text_child ordinary base with ⟨text, _⟩ | ⟨text, _⟩ <;>
      simp [text, List.getLast?_append, List.getLast?_cons, List.getLast?_eq_some_getLast solid]
  rintro (slashed | dotted)
  · rw [last] at slashed
    exact ordinary.plain (List.mem_of_getLast? slashed)
  · simp [steps_child ordinary, ordinary.notHere] at dotted

theorem getLast?_components_child (base : Path) :
    (base.child name).components.getLast? = some (.name name) := by
  have meaning : Component.ofPiece name = some (.name name) := by
    simp [Component.ofPiece, ordinary.named, ordinary.notHere, ordinary.notUp]
  have pieces : ∃ front, (base.child name).pieces = front ++ [name] ∧
      ((base.child name).isAbsolute = true → front ≠ []) := by
    have whole : Text.cut '/' name.toList = [name.toList] := Text.cut_of_not_mem ordinary.plain
    rcases text_child ordinary base with ⟨text, blank | slashed⟩ | ⟨text, _⟩
    · refine ⟨[], by simp [Path.pieces, Text.pieces, text, blank, whole], ?_⟩
      intro absolute
      obtain ⟨rest, characters⟩ := (isAbsolute_iff _).mp absolute
      rw [text, blank, List.nil_append] at characters
      exact absurd (by simp [characters]) ordinary.plain
    · obtain ⟨front, opens⟩ := List.getLast?_eq_some_iff.mp slashed
      refine ⟨(Text.cut '/' front).map String.ofList, ?_, by simp [Text.cut_ne_nil]⟩
      simp [Path.pieces, Text.pieces, text, opens, Text.cut_append_separator, whole]
    · refine ⟨(Text.cut '/' base.text.toList).map String.ofList, ?_, by simp [Text.cut_ne_nil]⟩
      simp [Path.pieces, Text.pieces, text, Text.cut_append_separator, whole]
  obtain ⟨front, pieces, rooted⟩ := pieces
  unfold components parts
  rw [pieces]
  cases front with
  | nil =>
      have relative : (base.child name).isAbsolute = false :=
        Bool.eq_false_iff.mpr fun absolute => rooted absolute rfl
      simp [relative, ordinary.notHere, meaning]
  | cons first rest => simp [meaning]

end Child

/-- Different names in a directory are different paths, in whatever spelling. -/
theorem eq_of_same_child {base other : Path} {one two : String} (first : OrdinaryName one)
    (second : OrdinaryName two) (same : Same (base.child one) (other.child two)) : one = two := by
  have lasts := congrArg List.getLast? same
  rw [getLast?_components_child first, getLast?_components_child second] at lasts
  cases lasts
  rfl

theorem address_eq_ok {path : Path} (zero : '\x00' ∉ path.text.toList) (blank : path.text ≠ "")
    (short : path.text.utf8ByteSize ≤ pathLimit) :
    path.address = .ok ⟨path.isAbsolute, path.steps, path.text.toList.getLast? = some '/'⟩ := by
  simp [address, zero, blank, Nat.not_lt.mpr short, steps]

theorem of_address_eq_ok {path : Path} {address : Address} (reached : path.address = .ok address) :
    '\x00' ∉ path.text.toList ∧ path.text ≠ "" ∧ path.text.utf8ByteSize ≤ pathLimit ∧
      address = ⟨path.isAbsolute, path.steps, path.text.toList.getLast? = some '/'⟩ := by
  unfold Path.address at reached
  dsimp only at reached
  split at reached
  · cases reached
  · split at reached
    · cases reached
    · split at reached
      · cases reached
      · rename_i zero blank long
        cases reached
        exact ⟨zero, by simpa using blank, Nat.le_of_not_lt long, rfl⟩

end Path

end ProofBuild
