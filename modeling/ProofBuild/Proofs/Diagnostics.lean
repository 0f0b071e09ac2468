import Mathlib.Data.List.Induction
import ProofBuild.Error
import ProofBuild.Proofs.Reading

/-!
Where a report on a manifest points. A place is a range of bytes, but its start is counted off in
characters, so a report points at the text at fault exactly when a byte is a character before it. The
lines of a report and those of a manifest agree there, since no control character is read before a
misfit. Main statement: `Diagnostic.place_of_misfit`.
-/

namespace ProofBuild

namespace Text.Position

/-- The position of the character behind these: lines end with line feeds, columns count characters. -/
def behind (before : List Char) : Position :=
  ⟨before.count '\n' + 1, (before.reverse.takeWhile (· ≠ '\n')).length + 1⟩

/-- The position behind one more character. -/
def next (here : Position) (c : Char) : Position :=
  if c = '\n' then ⟨here.line + 1, 1⟩ else ⟨here.line, here.column + 1⟩

theorem behind_eq_foldl (before : List Char) : behind before = before.foldl next ⟨1, 1⟩ := by
  induction before using List.reverseRecOn with
  | nil => rfl
  | append_singleton before c ih =>
      rw [List.foldl_append, ← ih, List.foldl_cons, List.foldl_nil, next]
      by_cases feeds : c = '\n'
      · simp [behind, feeds]
      · simp [behind, feeds]

/-- One position is on a later line than another, or both are the same. -/
def Ahead (here there : Position) : Prop :=
  there.line ≤ here.line ∧ (here.line = there.line → here.column = there.column)

variable {before after : List Char} {here there : Position}

theorem walk_cons (c : Char) (rest : List Char) (offset : Nat) (here : Position) :
    walk (c :: rest) (offset + 1) here =
      walk rest offset (if isLineEnd c && !(c == '\r' && rest.head? == some '\n') && !rest.isEmpty then
        ⟨here.line + 1, 1⟩ else ⟨here.line, here.column + 1⟩) := rfl

theorem walk_append (before after : List Char) (more : Nat) (here : Position) :
    walk (before ++ after) (before.length + more) here =
      walk after more (walk (before ++ after) before.length here) := by
  induction before generalizing here with
  | nil => simp [walk]
  | cons c rest ih =>
      rw [List.cons_append, List.length_cons, Nat.add_right_comm, walk_cons, walk_cons, ih]

theorem walk_beyond (after : List Char) (more : Nat) (here : Position) :
    here.line ≤ (walk after more here).line ∧
      ((walk after more here).line = here.line → (walk after more here).column = here.column + more) := by
  induction after generalizing more here with
  | nil => cases more <;> simp [walk]
  | cons c rest ih =>
      cases more with
      | zero => simp [walk]
      | succ more =>
          rw [walk_cons]
          split
          · have on := ih more ⟨here.line + 1, 1⟩
            dsimp only at on
            omega
          · have on := ih more ⟨here.line, here.column + 1⟩
            dsimp only at on
            omega

open Toml

theorem isLineEnd_of_feeds {rest : List Char} (feeds : rest.head? = some '\n') :
    (isLineEnd '\r' && !('\r' == '\r' && rest.head? == some '\n') && !rest.isEmpty) = false := by
  simp [feeds]

/-- Over what is read before a character, a report has opened at least as many lines as there are. -/
theorem ahead_walk (tidy : Tidy before after) (some : after ≠ []) (ahead : here.Ahead there) :
    (walk (before ++ after) before.length here).Ahead (before.foldl next there) := by
  induction before generalizing here there with
  | nil => simpa [walk] using ahead
  | cons c rest ih =>
      have more : (rest ++ after).isEmpty = false := by simp [some]
      rw [List.cons_append, List.length_cons, walk_cons, List.foldl_cons]
      unfold Ahead at ahead
      cases tidy with
      | printable plain tidy =>
          have feeds : c ≠ '\n' := by
            rintro rfl
            cases plain
          apply ih tidy
          unfold Ahead next
          rw [if_neg feeds]
          split <;> grind
      | lineFeed tidy =>
          apply ih tidy
          unfold Ahead next
          simp only [isLineEnd, more, ↓reduceIte]
          grind
      | returned feeds tidy =>
          apply ih tidy
          rw [isLineEnd_of_feeds feeds]
          unfold Ahead next
          simp only [Bool.false_eq_true, ↓reduceIte]
          grind

/-- Whether a character takes one byte. -/
def Ascii (c : Char) : Prop := c.toNat < 128

instance (c : Char) : Decidable (Ascii c) := inferInstanceAs (Decidable (_ < _))

theorem ascii_iff (c : Char) : Ascii c ↔ c.utf8Size = 1 := by
  rw [Char.utf8Size_eq_one_iff, Ascii, UInt32.le_iff_toNat_le]
  exact Nat.lt_succ_iff

theorem length_le_utf8Len (characters : List Char) :
    characters.length ≤ String.utf8Len characters := by
  induction characters with
  | nil => exact Nat.le_refl _
  | cons c rest ih =>
      have some := Char.utf8Size_pos c
      rw [List.length_cons, String.utf8Len_cons]
      omega

/-- Bytes and characters are counted alike exactly when no character takes more than a byte. -/
theorem utf8Len_eq_length_iff (characters : List Char) :
    String.utf8Len characters = characters.length ↔ ∀ c ∈ characters, Ascii c := by
  induction characters with
  | nil => simp
  | cons c rest ih =>
      have some := Char.utf8Size_pos c
      have rest_le := length_le_utf8Len rest
      rw [List.forall_mem_cons, ← ih, ascii_iff, List.length_cons, String.utf8Len_cons]
      omega

theorem isLineEnd_of_ascii {c : Char} (ascii : Ascii c) (plain : Cursor.isPrintable c = true) :
    isLineEnd c = false := by
  by_contra ends
  simp only [isLineEnd, Bool.not_eq_false, Bool.or_eq_true, beq_iff_eq] at ends
  rcases ends with (((((rfl | rfl) | rfl) | rfl) | rfl) | rfl) | rfl
  · cases plain
  · cases plain
  · cases plain
  · cases plain
  all_goals exact absurd ascii (by decide)

theorem walk_of_ascii (tidy : Tidy before after) (some : after ≠ []) (ascii : ∀ c ∈ before, Ascii c)
    (here : Position) :
    walk (before ++ after) before.length here = before.foldl next here := by
  induction before generalizing here with
  | nil => simp [walk]
  | cons c rest ih =>
      have more : (rest ++ after).isEmpty = false := by simp [some]
      rcases List.forall_mem_cons.mp ascii with ⟨first, others⟩
      rw [List.cons_append, List.length_cons, walk_cons, List.foldl_cons]
      cases tidy with
      | printable plain tidy =>
          have feeds : c ≠ '\n' := by
            rintro rfl
            cases plain
          rw [ih tidy others, isLineEnd_of_ascii first plain, next, if_neg feeds]
          rfl
      | lineFeed tidy =>
          rw [ih tidy others, next, if_pos rfl]
          simp [isLineEnd, more]
      | returned feeds tidy =>
          rw [ih tidy others, isLineEnd_of_feeds feeds, next]
          rfl

/-- The bytes before a character are counted off to its position exactly when each is a character. -/
theorem walk_utf8Len_iff (tidy : Tidy before after) (some : after = [] → before = []) :
    walk (before ++ after) (String.utf8Len before) ⟨1, 1⟩ = behind before ↔
      ∀ c ∈ before, Ascii c := by
  rw [behind_eq_foldl]
  by_cases none : after = []
  · simp [some none, walk]
  · constructor
    · intro same
      rw [← utf8Len_eq_length_iff]
      by_contra different
      have length := length_le_utf8Len before
      -- More is counted off than there is before the character, and a position only grows.
      obtain ⟨more, whole⟩ := Nat.exists_eq_add_of_le length
      rw [whole, walk_append] at same
      have first := ahead_walk tidy none (⟨Nat.le_refl 1, fun _ => rfl⟩ : Ahead ⟨1, 1⟩ ⟨1, 1⟩)
      have second := walk_beyond after more (walk (before ++ after) before.length ⟨1, 1⟩)
      rw [same] at second
      unfold Ahead at first
      omega
    · intro ascii
      rw [(utf8Len_eq_length_iff before).mpr ascii]
      exact walk_of_ascii tidy none ascii _

end Text.Position

namespace Diagnostic

/-- The place that a misfit names starts in front of a character, and the report points at that character
exactly when all characters before it take one byte each, and the place does not stop beyond
as many bytes as the text has characters. -/
theorem place_of_misfit {source : String} {problem : ManifestProblem} {span : Span}
    (failed : Manifest.parse source = .error (.manifest problem (some span)))
    (misfits : problem ≠ .malformed) :
    ∃ before after, source.toList = before ++ after ∧
      (String.ofList before).utf8ByteSize = span.start ∧ (after = [] → source = "") ∧
      ((ofError (.manifest problem (some span)) source).place = some (Text.Position.behind before) ↔
        (∀ c ∈ before, Text.Position.Ascii c) ∧ span.stop - 1 ≤ source.length) := by
  rcases Manifest.starts_of_parse failed misfits with ⟨here, reached, offset, ahead⟩
  rcases reached.taken with ⟨before, whole, tidy⟩
  have total : (Toml.Cursor.ofText source).Exact := (String.utf8Len_toList source).symm
  have left : here.left = String.utf8Len here.ahead := reached.exact total
  have characters : source.toList = before ++ here.ahead := whole
  have start : span.start = String.utf8Len before := by
    have bytes : (Toml.Cursor.ofText source).left = String.utf8Len before + here.left := by
      rw [total, whole, String.utf8Len_append, left]
    rw [offset, Toml.Cursor.offset, bytes, Nat.add_sub_cancel]
  refine ⟨before, here.ahead, characters, ?_, ?_, ?_⟩
  · rw [String.utf8ByteSize_ofList, start]
  · exact fun none => String.toList_eq_nil_iff.mp (ahead none)
  · have empty : here.ahead = [] → before = [] := by
      intro none
      have nothing : source.toList = [] := ahead none
      exact (List.append_eq_nil_iff.mp (characters.symm.trans nothing)).1
    have points := Text.Position.walk_utf8Len_iff tidy empty
    have place : (ofError (.manifest problem (some span)) source).place =
        if Shown span source.length then some (Text.positionAt source span.start) else none := rfl
    have counted : source.length = before.length + here.ahead.length := by
      rw [← String.length_toList, characters, List.length_append]
    rw [place, ← points, Text.positionAt, characters, start]
    constructor
    · intro shown
      split at shown
      · rename_i inside
        exact ⟨Option.some.inj shown, inside.2⟩
      · cases shown
    · rintro ⟨same, inside⟩
      have single := (Text.Position.utf8Len_eq_length_iff before).mpr (points.mp same)
      have shown : Shown span source.length := ⟨by omega, inside⟩
      rw [if_pos shown, same]

/-- A key that no schema knows, below a comment with a letter of two bytes. -/
def accented : String :=
  "# ü\n[toolchain]\npath = \"t\"\nversion = \"1\"\nflavour = \"x\"\n"

theorem place_of_misfit_accented :
    Manifest.parse accented = .error (.manifest
        (.unknownField "flavour" ["path", "version", "platform", "edition"]) (some ⟨42, 49⟩)) ∧
      ∃ before after, accented.toList = before ++ after ∧
        (String.ofList before).utf8ByteSize = 42 ∧
        (ofError (.manifest (.unknownField "flavour" ["path", "version", "platform", "edition"])
          (some ⟨42, 49⟩)) accented).place ≠ some (Text.Position.behind before) := by
  have failed : Manifest.parse accented = .error (.manifest
      (.unknownField "flavour" ["path", "version", "platform", "edition"]) (some ⟨42, 49⟩)) := by
    decide +kernel
  rcases place_of_misfit failed (by simp) with ⟨before, after, whole, bytes, _, points⟩
  refine ⟨failed, before, after, whole, bytes, fun shown => ?_⟩
  have single := (points.mp shown).1
  have length := (Text.Position.utf8Len_eq_length_iff before).mpr single
  rw [String.utf8ByteSize_ofList] at bytes
  have taken : accented.toList.take 42 = before := by
    rw [whole, List.take_left' (length.symm.trans bytes)]
  have wide : 'ü' ∈ accented.toList.take 42 := by decide
  exact absurd (single 'ü' (taken ▸ wide)) (by decide)

end Diagnostic

end ProofBuild
