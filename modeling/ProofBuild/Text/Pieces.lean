/-!
Texts cut into pieces at a separating character and joined again, and texts without the white space
at both ends. White space is the Unicode property `White_Space`, so it also holds the no-break and
the wide spaces.
-/

namespace ProofBuild.Text

def isBlank (c : Char) : Bool :=
  let code := c.toNat
  (9 ≤ code && code ≤ 13) || code == 0x20 || code == 0x85 || code == 0xA0 || code == 0x1680
    || (0x2000 ≤ code && code ≤ 0x200A) || code == 0x2028 || code == 0x2029 || code == 0x202F
    || code == 0x205F || code == 0x3000

def trim (text : String) : String :=
  String.ofList ((text.toList.dropWhile isBlank).reverse.dropWhile isBlank).reverse

/-- The 26 capital letters of ASCII in small; every other character as it is. -/
def toLowerAscii (text : String) : String :=
  String.ofList (text.toList.map Char.toLower)

/-- Cut at every occurrence of a character; a text with `n` of them has `n + 1` pieces. -/
def cut (separator : Char) : List Char → List (List Char)
  | [] => [[]]
  | c :: rest =>
      if c = separator then [] :: cut separator rest
      else match cut separator rest with
        | [] => [[c]]
        | piece :: pieces => (c :: piece) :: pieces

def pieces (separator : Char) (text : String) : List String :=
  (cut separator text.toList).map String.ofList

theorem cut_ne_nil (separator : Char) (text : List Char) : cut separator text ≠ [] := by
  cases text with
  | nil => simp [cut]
  | cons c rest =>
      simp only [cut]
      split
      · simp
      · split <;> simp

/-- The pieces joined by the separator are the text. -/
theorem intercalate_cut (separator : Char) (text : List Char) :
    [separator].intercalate (cut separator text) = text := by
  induction text with
  | nil => rfl
  | cons c rest ih =>
      simp only [cut]
      split
      · rename_i same
        subst same
        cases parts : cut c rest with
        | nil => exact absurd parts (cut_ne_nil c rest)
        | cons piece pieces =>
            rw [parts] at ih
            simp only [List.intercalate_cons_cons, List.nil_append, ih]
            rfl
      · cases parts : cut separator rest with
        | nil => exact absurd parts (cut_ne_nil separator rest)
        | cons piece pieces =>
            rw [parts] at ih
            cases pieces with
            | nil => simpa using ih
            | cons second others =>
                simp only [List.intercalate_cons_cons] at ih ⊢
                simp [← ih]

/-- Cutting is the library's splitting of a list. -/
theorem cut_eq_splitOn (separator : Char) (text : List Char) :
    cut separator text = text.splitOn separator := by
  induction text with
  | nil => rfl
  | cons c rest ih =>
      rw [cut, List.splitOn_cons_eq_if_modifyHead, ← ih]
      by_cases same : c = separator
      · simp [same]
      · cases parts : cut separator rest with
        | nil => exact absurd parts (cut_ne_nil separator rest)
        | cons piece pieces => simp [same]

/-- No piece holds the separator. -/
theorem not_mem_of_mem_cut {separator : Char} {text piece : List Char}
    (member : piece ∈ cut separator text) : separator ∉ piece := by
  induction text generalizing piece with
  | nil => simp_all [cut]
  | cons c rest ih =>
      simp only [cut] at member
      split at member
      · rcases List.mem_cons.mp member with same | later
        · simp [same]
        · exact ih later
      · rename_i different
        cases parts : cut separator rest with
        | nil => exact absurd parts (cut_ne_nil separator rest)
        | cons first others =>
            rw [parts] at member ih
            rcases List.mem_cons.mp member with same | later
            · subst same
              simpa [Ne.symm different] using ih List.mem_cons_self
            · exact ih (List.mem_cons_of_mem first later)

/-- A text that goes on after a separator has the pieces before it and those after it. -/
theorem cut_append_separator (separator : Char) (before after : List Char) :
    cut separator (before ++ separator :: after) =
      cut separator before ++ cut separator after := by
  simp only [cut_eq_splitOn, List.splitOn_append_cons_self]

theorem cut_of_not_mem {separator : Char} {text : List Char} (absent : separator ∉ text) :
    cut separator text = [text] := by
  rw [cut_eq_splitOn, List.splitOn_eq_singleton absent]

/-- Pieces that are joined by the separator are the pieces of the joined text. -/
theorem cut_intercalate {separator : Char} {pieces : List (List Char)}
    (apart : ∀ piece ∈ pieces, separator ∉ piece) (some : pieces ≠ []) :
    cut separator ([separator].intercalate pieces) = pieces := by
  rw [cut_eq_splitOn, List.splitOn_intercalate separator apart some]

end ProofBuild.Text
