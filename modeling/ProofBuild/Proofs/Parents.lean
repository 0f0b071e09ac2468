import Mathlib.Data.List.TakeWhile
import ProofBuild.Proofs.Places

/-!
Parents of paths. A parent is spelled by the opening parts of its path, and read again it has the
components of those parts. Main statements: what a path has in common with its parent
(`above_of_parent?`), and that the directories above a path lie around its place
(`steps_prefix_of_mem_ancestors`, `within_of_steps_prefix`).
-/

namespace ProofBuild

namespace Path

@[simp] theorem map_fst_parts (path : Path) : path.parts.map (·.1) = path.pieces := by
  unfold parts
  cases path.pieces <;> simp [Function.comp_def]

theorem slash_not_mem_of_mem_pieces {path : Path} {piece : String}
    (member : piece ∈ path.pieces) : '/' ∉ piece.toList := by
  obtain ⟨characters, cut, rfl⟩ := List.mem_map.mp member
  simpa using Text.not_mem_of_mem_cut cut

theorem isAbsolute_iff_pieces (path : Path) :
    path.isAbsolute = true ↔ ∃ second rest, path.pieces = "" :: second :: rest := by
  rw [isAbsolute_iff]
  constructor
  · rintro ⟨characters, text⟩
    cases cut : Text.cut '/' characters with
    | nil => exact absurd cut (Text.cut_ne_nil '/' characters)
    | cons second rest =>
        exact ⟨String.ofList second, rest.map String.ofList,
          by simp [pieces, Text.pieces, text, Text.cut, cut]⟩
  · rintro ⟨second, rest, pieces⟩
    cases text : path.text.toList with
    | nil => simp [Path.pieces, Text.pieces, text, Text.cut] at pieces
    | cons first characters =>
        by_cases slash : first = '/'
        · exact ⟨characters, by rw [slash]⟩
        · simp only [Path.pieces, Text.pieces, text, Text.cut, slash, ↓reduceIte] at pieces
          split at pieces <;> simp at pieces

theorem pieces_intercalate {pieces : List String} (some : pieces ≠ [])
    (plain : ∀ piece ∈ pieces, '/' ∉ piece.toList) :
    (⟨"/".intercalate pieces⟩ : Path).pieces = pieces := by
  have slash : "/".toList = ['/'] := rfl
  simp only [Path.pieces, Text.pieces, String.toList_intercalate, slash]
  rw [Text.cut_intercalate (by simpa using plain) (by simpa using some)]
  simp [Function.comp_def]

theorem parts_eq_of_isAbsolute {path : Path} (absolute : path.isAbsolute = true) :
    ∃ rest, path.parts = ("", some .root) :: rest := by
  obtain ⟨second, rest, pieces⟩ := (isAbsolute_iff_pieces path).mp absolute
  exact ⟨_, by simp only [parts, pieces, absolute, ↓reduceIte]; rfl⟩

theorem ofPiece_ne_root (piece : String) : Component.ofPiece piece ≠ some .root := by
  unfold Component.ofPiece
  split
  · simp
  · split <;> simp

theorem isAbsolute_of_mem_root {path : Path} {text : String}
    (member : (text, some Component.root) ∈ path.parts) : path.isAbsolute = true := by
  unfold parts at member
  split at member
  · cases member
  · rename_i first rest pieces
    rcases List.mem_cons.mp member with opening | later
    · by_cases absolute : path.isAbsolute = true
      · exact absolute
      · by_cases dot : first = "."
        · simp [absolute, dot] at opening
        · simp only [absolute, dot, Bool.false_eq_true, ↓reduceIte, Prod.mk.injEq] at opening
          exact absurd opening.2.symm (ofPiece_ne_root first)
    · obtain ⟨piece, _, same⟩ := List.mem_map.mp later
      exact absurd (congrArg Prod.snd same) (ofPiece_ne_root piece)

theorem piece_ne_empty {path : Path} {part : String × Option Component}
    (member : part ∈ path.parts) (meant : part.2.isNone = false) (noRoot : part.2 ≠ some .root) :
    part.1 ≠ "" := by
  unfold parts at member
  split at member
  · cases member
  · rename_i first rest pieces
    rcases List.mem_cons.mp member with rfl | later
    · intro blank
      by_cases absolute : path.isAbsolute = true <;>
        simp_all [Component.ofPiece]
    · obtain ⟨piece, _, rfl⟩ := List.mem_map.mp later
      rintro rfl
      simp [Component.ofPiece] at meant

/-- Texts joined by a separator open with the first of them, joined. -/
theorem intercalate_prefix {separator : List Char} {one two : List (List Char)} (opens : one <+: two) :
    separator.intercalate one <+: separator.intercalate two := by
  obtain ⟨rest, rfl⟩ := opens
  induction one with
  | nil => exact List.nil_prefix
  | cons first others ih =>
      cases others with
      | nil =>
          cases rest with
          | nil => exact List.prefix_refl _
          | cons second more =>
              rw [List.singleton_append, List.intercalate_cons_cons, List.append_assoc]
              simp
      | cons second more =>
          rw [List.cons_append, List.cons_append, List.intercalate_cons_cons,
            List.intercalate_cons_cons]
          exact (List.prefix_append_right_inj _).mpr ih

theorem parts_eq_of_pieces {path : Path} {first : String} {rest : List String}
    (pieces : path.pieces = first :: rest) :
    path.parts = (first, if path.isAbsolute then some Component.root
        else if first = "." then some Component.here else Component.ofPiece first) ::
      rest.map fun piece => (piece, Component.ofPiece piece) := by
  unfold parts
  rw [pieces]

/-- Opening parts of a path that are spelled again are read again, up to blank ones after them. -/
theorem parts_spell {path : Path} {front : List (String × Option Component)}
    (opens : front <+: path.parts) (rooted : path.isAbsolute = true → front ≠ []) :
    (∃ tail, (⟨spell front⟩ : Path).parts = front ++ tail ∧ ∀ part ∈ tail, part = ("", none)) ∧
      (⟨spell front⟩ : Path).isAbsolute = path.isAbsolute ∧
      (spell front).toList <+: path.text.toList := by
  by_cases alone : ∃ text, front = [(text, some .root)]
  · obtain ⟨text, rfl⟩ := alone
    have member : (text, some Component.root) ∈ path.parts := opens.subset List.mem_cons_self
    have absolute := isAbsolute_of_mem_root member
    have root : (⟨spell [(text, some .root)]⟩ : Path) = ⟨"/"⟩ := rfl
    obtain ⟨rest, parts⟩ := parts_eq_of_isAbsolute absolute
    rw [parts] at opens
    cases (List.cons_prefix_cons.mp opens).1
    obtain ⟨characters, text⟩ := (isAbsolute_iff path).mp absolute
    rw [root, absolute, text]
    refine ⟨⟨[("", none)], by decide, by simp⟩, by decide, ?_⟩
    exact ⟨characters, rfl⟩
  by_cases empty : front = []
  · subst empty
    have relative : path.isAbsolute = false := Bool.eq_false_iff.mpr fun absolute =>
      rooted absolute rfl
    rw [relative]
    exact ⟨⟨[("", none)], by decide, by simp⟩, by decide, List.nil_prefix⟩
  have spelled : spell front = "/".intercalate (front.map (·.1)) := by
    unfold spell
    split
    · exact absurd ⟨_, rfl⟩ alone
    · rfl
  have texts : front.map (·.1) <+: path.pieces := map_fst_parts path ▸ opens.map (·.1)
  have pieces : (⟨spell front⟩ : Path).pieces = front.map (·.1) := by
    rw [spelled, pieces_intercalate (by simpa using empty)
      fun piece member => slash_not_mem_of_mem_pieces (texts.subset member)]
  have absolute : (⟨spell front⟩ : Path).isAbsolute = path.isAbsolute := by
    apply Bool.eq_iff_iff.mpr
    constructor
    · rw [isAbsolute_iff_pieces, isAbsolute_iff_pieces, pieces]
      rintro ⟨second, rest, shape⟩
      rw [shape] at texts
      obtain ⟨others, joined⟩ := texts
      exact ⟨second, rest ++ others, by simpa using joined.symm⟩
    · intro absolute
      obtain ⟨rest, parts⟩ := parts_eq_of_isAbsolute absolute
      rw [parts] at opens
      rw [isAbsolute_iff_pieces, pieces]
      cases front with
      | nil => exact absurd rfl empty
      | cons first others =>
          have same : first = ("", some .root) := (List.cons_prefix_cons.mp opens).1
          cases others with
          | nil => exact absurd ⟨"", by rw [same]⟩ alone
          | cons second others => exact ⟨second.1, others.map (·.1), by simp [same]⟩
  refine ⟨⟨[], ?_, by simp⟩, absolute, ?_⟩
  · -- Each piece means what it meant in the path, the opening one too.
    cases front with
    | nil => exact absurd rfl empty
    | cons first others =>
        rw [List.append_nil, parts_eq_of_pieces pieces, absolute]
        cases shape : path.pieces with
        | nil => simp [parts, shape] at opens
        | cons piece rest =>
            rw [parts_eq_of_pieces shape] at opens
            obtain ⟨opening, later⟩ := List.cons_prefix_cons.mp opens
            obtain ⟨some, _, taken⟩ := List.prefix_map_iff.mp later
            subst opening taken
            simp [Function.comp_def]
  · rw [spelled, String.toList_intercalate, ← Text.intercalate_cut '/' path.text.toList]
    apply intercalate_prefix
    have characters := texts.map String.toList
    simpa [Path.pieces, Text.pieces, Function.comp_def] using characters

theorem steps_eq_parts (path : Path) : path.steps = (path.parts.map (·.1)).filter (· ≠ "") := by
  rw [map_fst_parts]
  rfl

theorem piece_of_isNone {path : Path} {part : String × Option Component}
    (member : part ∈ path.parts) (blank : part.2.isNone = true) : part.1 = "" ∨ part.1 = "." := by
  have meaningless : ∀ piece, (Component.ofPiece piece).isNone = true → piece = "" ∨ piece = "." := by
    intro piece blank
    unfold Component.ofPiece at blank
    split at blank
    · assumption
    · split at blank <;> cases blank
  cases pieces : path.pieces with
  | nil => simp [parts, pieces] at member
  | cons first rest =>
      rw [parts_eq_of_pieces pieces] at member
      rcases List.mem_cons.mp member with rfl | later
      · dsimp only at blank ⊢
        split at blank
        · cases blank
        · split at blank
          · cases blank
          · exact meaningless first blank
      · obtain ⟨piece, _, rfl⟩ := List.mem_map.mp later
        exact meaningless piece blank

theorem dots_of_blank {path : Path} {some : List (String × Option Component)}
    (inside : some ⊆ path.parts) (blank : ∀ part ∈ some, part.2.isNone = true) :
    ∀ dot ∈ (some.map (·.1)).filter (· ≠ ""), dot = "." := by
  intro dot member
  obtain ⟨member, solid⟩ := List.mem_filter.mp member
  obtain ⟨part, chosen, rfl⟩ := List.mem_map.mp member
  have either := piece_of_isNone (inside chosen) (blank part chosen)
  exact either.resolve_left (by simpa using solid)

theorem filterMap_of_blank {some : List (String × Option Component)}
    (blank : ∀ part ∈ some, part.2.isNone = true) : some.filterMap (·.2) = [] := by
  apply List.filterMap_eq_nil_iff.mpr
  intro part member
  exact Option.isNone_iff_eq_none.mp (blank part member)

/-- Nothing but slashes comes after the last component. -/
def Trim (path : Path) : Prop :=
  ∀ part ∈ path.parts.reverse.takeWhile (·.2.isNone), part.1 = ""

/-- What a path has in common with its parent. Between the last component and the one before it,
and after the last one, there are only dots. -/
structure Above (upper path : Path) : Prop where
  trim : upper.Trim
  text : upper.text.toList <+: path.text.toList
  absolute : upper.isAbsolute = path.isAbsolute
  fewer : upper.components.length < path.components.length
  steps : ∃ dots last more, path.steps = upper.steps ++ dots ++ last :: more ∧
    (∀ dot ∈ dots ++ more, dot = ".") ∧ (path.Trim → more = [])

/-- The parts of a path that has a parent: those of the parent, the last one with a meaning, and
blank ones before and after it. -/
theorem parts_of_parent? {path parent : Path} (above : path.parent? = some parent) :
    ∃ front dots last more, parent = ⟨spell front⟩ ∧ path.parts = front ++ dots ++ last :: more ∧
      (∀ part ∈ dots, part.2.isNone = true) ∧
      more.reverse = path.parts.reverse.takeWhile (·.2.isNone) ∧
      last.2.isNone = false ∧ last.2 ≠ some .root ∧
      front.reverse.takeWhile (·.2.isNone) = [] := by
  unfold parent? at above
  split at above
  · cases above
  · cases above
  · rename_i last before noRoot shape
    cases above
    refine ⟨_, (before.takeWhile (·.2.isNone)).reverse, last,
      (path.parts.reverse.takeWhile (·.2.isNone)).reverse, rfl, ?_, ?_, List.reverse_reverse _,
      ?_, fun root => noRoot last.1 (Prod.ext rfl root), ?_⟩
    · have whole : path.parts.reverse = path.parts.reverse.takeWhile (·.2.isNone) ++
          last :: before := by
        rw [← shape, List.takeWhile_append_dropWhile]
      have turned := congrArg List.reverse whole
      rw [List.reverse_reverse, List.reverse_append, List.reverse_cons] at turned
      rw [← List.reverse_append, List.takeWhile_append_dropWhile]
      simpa using turned
    · intro part member
      have taken := List.mem_reverse.mp member
      simpa using List.mem_takeWhile_imp taken
    · have heads := List.head?_dropWhile_not (·.2.isNone) path.parts.reverse
      rw [shape] at heads
      simpa using heads
    · rw [List.reverse_reverse]
      have heads := List.head?_dropWhile_not (·.2.isNone) before
      cases rest : before.dropWhile (·.2.isNone) with
      | nil => rfl
      | cons first others =>
          rw [rest] at heads
          apply List.takeWhile_cons_of_neg
          simpa [Option.isSome_iff_ne_none] using heads

theorem above_of_parent? {path parent : Path} (above : path.parent? = some parent) :
    Above parent path := by
  obtain ⟨front, dots, last, more, rfl, shape, blank, ends, meant, noRoot, frontEnds⟩ :=
    parts_of_parent? above
  have member : last ∈ path.parts := by simp [shape]
  have solid : last.1 ≠ "" := piece_ne_empty member meant noRoot
  have moreBlank : ∀ part ∈ more, part.2.isNone = true := by
    intro part inside
    have taken := ends ▸ List.mem_reverse.mpr inside
    simpa using List.mem_takeWhile_imp taken
  have rooted : path.isAbsolute = true → front ≠ [] := by
    intro absolute empty
    obtain ⟨rest, parts⟩ := parts_eq_of_isAbsolute absolute
    rw [shape, empty, List.nil_append] at parts
    cases dots with
    | nil =>
        cases (List.cons.inj parts).1
        exact noRoot rfl
    | cons first others =>
        cases (List.cons.inj parts).1
        simpa using blank _ List.mem_cons_self
  obtain ⟨⟨tail, spelled, slashes⟩, absolute, text⟩ :=
    parts_spell ⟨dots ++ last :: more, by simp [shape]⟩ rooted
  have tailBlank : ∀ part ∈ tail, part.2.isNone = true := by
    intro part inside
    rw [slashes part inside]
    rfl
  constructor
  · intro part inside
    rw [spelled, List.reverse_append,
      List.takeWhile_append_of_pos (by simpa using tailBlank), frontEnds, List.append_nil] at inside
    rw [slashes part (List.mem_reverse.mp inside)]
  · exact text
  · exact absolute
  · unfold components
    rw [spelled, shape, List.filterMap_append, List.filterMap_append, List.filterMap_append,
      List.filterMap_cons, filterMap_of_blank tailBlank, filterMap_of_blank blank]
    cases meaning : last.2 with
    | none => simp [meaning] at meant
    | some component => simp
  · refine ⟨(dots.map (·.1)).filter (· ≠ ""), last.1, (more.map (·.1)).filter (· ≠ ""), ?_, ?_, ?_⟩
    · have slash : (tail.map (·.1)).filter (· ≠ "") = [] := by
        apply List.filter_eq_nil_iff.mpr
        intro piece inside
        obtain ⟨part, chosen, rfl⟩ := List.mem_map.mp inside
        simp [slashes part chosen]
      rw [steps_eq_parts, steps_eq_parts, spelled, shape]
      simp only [List.map_append, List.map_cons, List.filter_append, slash, List.append_nil]
      simp [solid]
    · intro dot inside
      rcases List.mem_append.mp inside with early | late
      · have within : dots ⊆ path.parts := fun part chosen => by simp [shape, chosen]
        exact dots_of_blank within blank dot early
      · have within : more ⊆ path.parts := fun part chosen => by simp [shape, chosen]
        exact dots_of_blank within moreBlank dot late
    · intro trim
      apply List.filter_eq_nil_iff.mpr
      intro piece inside
      obtain ⟨part, chosen, rfl⟩ := List.mem_map.mp inside
      have last : part.1 = "" := trim part (ends ▸ List.mem_reverse.mpr chosen)
      simp [last]

/-- A path that takes no step is the root. -/
theorem isAbsolute_of_steps_eq_nil {path : Path} (still : path.steps = []) (solid : path.text ≠ "") :
    path.isAbsolute = true := by
  rw [isAbsolute_iff]
  rw [steps_eq, List.map_eq_nil_iff] at still
  cases characters : path.text.toList with
  | nil => exact absurd (by simpa using characters) solid
  | cons first rest =>
      by_cases slash : first = '/'
      · exact ⟨rest, by rw [slash]⟩
      · rw [characters, Text.cut, if_neg slash] at still
        split at still <;> simp at still

theorem eq_nil_of_root {path : Path} {front back : List (String × Option Component)} {text : String}
    (shape : path.parts = front ++ (text, some .root) :: back) : front = [] := by
  cases front with
  | nil => rfl
  | cons first others =>
      cases pieces : path.pieces with
      | nil => simp [parts, pieces] at shape
      | cons piece rest =>
          rw [parts_eq_of_pieces pieces, List.cons_append] at shape
          have later := (List.cons.inj shape).2
          have member : (text, some Component.root) ∈
              rest.map fun piece => (piece, Component.ofPiece piece) := by simp [later]
          obtain ⟨inner, _, same⟩ := List.mem_map.mp member
          exact absurd (congrArg Prod.snd same) (ofPiece_ne_root inner)

/-- A trim path without a parent takes no steps. -/
theorem steps_eq_nil_of_parent? {path : Path} (trim : path.Trim) (none : path.parent? = none) :
    path.steps = [] := by
  have whole := List.takeWhile_append_dropWhile (p := (·.2.isNone)) (l := path.parts.reverse)
  rw [steps_eq_parts, List.filter_eq_nil_iff]
  intro piece member
  obtain ⟨part, inside, rfl⟩ := List.mem_map.mp member
  have slash : part.1 = "" := by
    unfold parent? at none
    split at none
    · rename_i shape
      apply trim part
      rw [shape, List.append_nil] at whole
      rw [whole]
      exact List.mem_reverse.mpr inside
    · rename_i root before shape
      rw [shape] at whole
      have turned := congrArg List.reverse whole
      rw [List.reverse_append, List.reverse_reverse, List.reverse_cons, List.append_assoc,
        List.singleton_append] at turned
      rw [eq_nil_of_root turned.symm, List.nil_append] at turned
      rw [← turned] at inside
      rcases List.mem_cons.mp inside with rfl | later
      · have member : (root, some Component.root) ∈ path.parts := turned ▸ List.mem_cons_self
        obtain ⟨rest, parts⟩ := parts_eq_of_isAbsolute (isAbsolute_of_mem_root member)
        rw [parts] at turned
        exact (Prod.mk.inj (List.cons.inj turned).1).1
      · exact trim part (List.mem_reverse.mp later)
    · cases none
  simp [slash]

/-- A parent takes the opening steps of the path, without the last one. -/
theorem steps_prefix_parent {path parent : Path} (above : path.parent? = some parent) :
    parent.steps <+: path.steps ∧ parent.steps.length < path.steps.length ∧
      parent.isAbsolute = path.isAbsolute := by
  have upper := above_of_parent? above
  obtain ⟨dots, last, more, steps, _⟩ := upper.steps
  rw [steps]
  refine ⟨⟨dots ++ last :: more, by simp⟩, ?_, upper.absolute⟩
  simp only [List.length_append, List.length_cons]
  omega

theorem trim_of_getLast?_steps {path : Path} (proper : path.steps.getLast? ≠ some ".") : path.Trim := by
  intro part inside
  have blank : ∀ other ∈ (path.parts.reverse.takeWhile (·.2.isNone)).reverse,
      other.2.isNone = true := by
    intro other member
    simpa using List.mem_takeWhile_imp (List.mem_reverse.mp member)
  have whole : path.parts = (path.parts.reverse.dropWhile (·.2.isNone)).reverse ++
      (path.parts.reverse.takeWhile (·.2.isNone)).reverse := by
    rw [← List.reverse_append, List.takeWhile_append_dropWhile, List.reverse_reverse]
  have within : (path.parts.reverse.takeWhile (·.2.isNone)).reverse ⊆ path.parts := by
    intro other member
    rw [whole]
    exact List.mem_append_right _ member
  have dots := dots_of_blank within blank
  have steps := steps_eq_parts path
  rw [whole, List.map_append, List.filter_append] at steps
  by_contra solid
  -- A dot after the last component would be the last step.
  have member : part.1 ∈ ((path.parts.reverse.takeWhile (·.2.isNone)).reverse.map (·.1)).filter
      (· ≠ "") := by
    rw [List.mem_filter]
    exact ⟨List.mem_map_of_mem (List.mem_reverse.mpr inside), by simpa using solid⟩
  have some := List.ne_nil_of_mem member
  apply proper
  rw [steps, List.getLast?_append, List.getLast?_eq_some_getLast some, Option.some_or,
    dots _ (List.getLast_mem some)]

theorem trim_child {name : String} (ordinary : OrdinaryName name) (base : Path) :
    (base.child name).Trim := by
  apply trim_of_getLast?_steps
  rw [steps_child ordinary, List.getLast?_concat]
  simpa using ordinary.notHere

/-- The parent of a name in a directory is that directory, up to dots. -/
theorem parent?_child {name : String} (ordinary : OrdinaryName name) (base : Path) :
    ∃ parent, (base.child name).parent? = some parent ∧ parent.isAbsolute = base.isAbsolute ∧
      ∃ dots, base.steps = parent.steps ++ dots ∧ ∀ dot ∈ dots, dot = "." := by
  have steps := steps_child ordinary base
  have trim := trim_child ordinary base
  cases above : (base.child name).parent? with
  | none =>
      have still := steps_eq_nil_of_parent? trim above
      rw [steps] at still
      simp at still
  | some parent =>
      have higher := above_of_parent? above
      obtain ⟨dots, last, more, shape, still, none⟩ := higher.steps
      rw [none trim] at shape still
      rw [steps] at shape
      obtain ⟨same, _⟩ := List.append_inj' shape rfl
      refine ⟨parent, rfl, ?_, dots, same, by simpa using still⟩
      rw [higher.absolute, isAbsolute_child ordinary]

/-- The ancestors of a path, itself among them, take opening steps of it. -/
theorem steps_prefix_of_mem_ancestors {path ancestor : Path} (member : ancestor ∈ path.ancestors) :
    ancestor.steps <+: path.steps ∧ ancestor.isAbsolute = path.isAbsolute := by
  have climbs : ∀ (count : Nat) (path : Path), ancestor ∈ ancestors.climb count path →
      ancestor.steps <+: path.steps ∧ ancestor.isAbsolute = path.isAbsolute := by
    intro count
    induction count with
    | zero =>
        intro path member
        simp [ancestors.climb] at member
    | succ count ih =>
        intro path member
        unfold ancestors.climb at member
        split at member
        · cases member
        · split at member
          · rw [List.mem_singleton.mp member]
            exact ⟨List.prefix_refl _, rfl⟩
          · rename_i parent above
            rcases List.mem_cons.mp member with same | higher
            · rw [same]
              exact ⟨List.prefix_refl _, rfl⟩
            · have first := ih parent higher
              have second := steps_prefix_parent above
              exact ⟨first.1.trans second.1, first.2.trans second.2.2⟩
  exact climbs _ path member

/-- What takes opening steps of an inward path is inward and lies around its place. -/
theorem inward_of_steps_prefix {path outer : Path} (opens : outer.steps <+: path.steps)
    (inward : path.Inward) : outer.Inward := by
  rw [inward_iff] at inward ⊢
  exact fun member => inward (opens.subset member)

theorem within_of_steps_prefix {path outer : Path} (opens : outer.steps <+: path.steps)
    (same : outer.isAbsolute = path.isAbsolute) (here : Location) :
    FileTree.Within (outer.place here) (path.place here) := by
  unfold place
  rw [same]
  exact within_follow_of_prefix opens _

end Path

end ProofBuild
