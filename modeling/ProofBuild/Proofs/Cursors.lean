import Mathlib.Data.List.TakeWhile
import Mathlib.Data.String.Basic
import ProofBuild.Toml.Reader

/-!
Steps over a text that is being read. Whatever is read, the place behind it is reached over whole
characters, and these are printable or end lines: control characters are refused, and so is a carriage
return without its line feed. One lemma for each reading function.
-/

namespace ProofBuild.Toml

/-- Characters that are read before others: printable ones and line ends. -/
inductive Tidy : List Char → List Char → Prop where
  | nil {after : List Char} : Tidy [] after
  | printable {c : Char} {rest after : List Char} (plain : Cursor.isPrintable c = true)
      (more : Tidy rest after) : Tidy (c :: rest) after
  | lineFeed {rest after : List Char} (more : Tidy rest after) : Tidy ('\n' :: rest) after
  | returned {rest after : List Char} (feeds : (rest ++ after).head? = some '\n')
      (more : Tidy rest after) : Tidy ('\r' :: rest) after

theorem Tidy.append {one two after : List Char} (first : Tidy one (two ++ after))
    (second : Tidy two after) : Tidy (one ++ two) after := by
  induction one with
  | nil => exact second
  | cons c rest ih =>
      cases first with
      | printable plain more => exact .printable plain (ih more)
      | lineFeed more => exact .lineFeed (ih more)
      | returned feeds more => exact .returned (by rwa [List.append_eq, List.append_assoc]) (ih more)

namespace Cursor
variable {start middle stop cursor next : Cursor}

/-- Whether the number of bytes is that of the characters ahead. -/
def Exact (cursor : Cursor) : Prop := cursor.left = String.utf8Len cursor.ahead

/-- From one place to a later one. -/
structure Moves (start stop : Cursor) : Prop where
  taken : ∃ taken, start.ahead = taken ++ stop.ahead ∧ Tidy taken stop.ahead
  exact : start.Exact → stop.Exact

theorem Moves.refl (cursor : Cursor) : cursor.Moves cursor :=
  ⟨⟨[], rfl, .nil⟩, id⟩

theorem Moves.trans (one : start.Moves middle) (two : middle.Moves stop) : start.Moves stop := by
  rcases one.taken with ⟨first, same, tidy⟩
  rcases two.taken with ⟨second, sameToo, tidyToo⟩
  rw [sameToo] at same tidy
  refine ⟨⟨first ++ second, ?_, tidy.append tidyToo⟩, two.exact ∘ one.exact⟩
  rw [same, List.append_assoc]

/-- The rest of a text behind one character. -/
theorem moves_cons {c : Char} {rest : List Char} {left : Nat} (tidy : Tidy [c] rest) :
    Moves ⟨c :: rest, left⟩ ⟨rest, left - c.utf8Size⟩ := by
  refine ⟨⟨[c], rfl, tidy⟩, fun exact => ?_⟩
  unfold Exact at exact ⊢
  rw [String.utf8Len_cons] at exact
  dsimp only at exact ⊢
  omega

theorem moves_after {c : Char} {rest : List Char} (ahead : cursor.ahead = c :: rest)
    (plain : isPrintable c = true) : cursor.Moves (after c rest cursor.left) := by
  rcases cursor with ⟨characters, left⟩
  cases ahead
  exact moves_cons (.printable plain .nil)

theorem moves_takeWhile {inClass : Char → Bool}
    (plain : ∀ c, inClass c = true → isPrintable c = true) (cursor : Cursor) :
    cursor.Moves (cursor.takeWhile inClass).2 := by
  have go : ∀ characters left, Moves ⟨characters, left⟩ (takeWhile.go inClass characters left).2 := by
    intro characters
    induction characters with
    | nil => exact fun left => .refl _
    | cons c rest ih =>
        intro left
        unfold takeWhile.go
        split
        · rename_i among
          exact (moves_cons (.printable (plain c among) .nil)).trans (ih _)
        · exact .refl _
  exact go cursor.ahead cursor.left

theorem ahead_of_takeWhile {inClass : Char → Bool} (some : (cursor.takeWhile inClass).1 ≠ []) :
    cursor.ahead ≠ [] := by
  intro none
  apply some
  unfold takeWhile
  rw [none]
  rfl

theorem moves_expect? {c : Char} (plain : isPrintable c = true) (found : cursor.expect? c = some next) :
    cursor.Moves next := by
  unfold expect? at found
  split at found
  · cases found
  · rename_i first rest ahead
    split at found
    · rename_i same
      cases found
      exact same ▸ moves_after ahead (same ▸ plain)
    · cases found

theorem isPrintable_of_blank {c : Char} (blank : (c == ' ' || c == '\t') = true) :
    isPrintable c = true := by
  simp only [Bool.or_eq_true, beq_iff_eq] at blank
  rcases blank with rfl | rfl <;> rfl

theorem moves_skipBlanks (cursor : Cursor) : cursor.Moves cursor.skipBlanks :=
  moves_takeWhile (fun _ => isPrintable_of_blank) cursor

theorem moves_skipComment (cursor : Cursor) : cursor.Moves cursor.skipComment := by
  unfold skipComment
  split
  · exact moves_takeWhile (fun _ => id) cursor
  · exact .refl cursor

theorem moves_lineFeed {rest : List Char} {left : Nat} : Moves ⟨'\n' :: rest, left⟩ ⟨rest, left - 1⟩ :=
  moves_cons (.lineFeed .nil)

theorem moves_returned {rest : List Char} {left : Nat} (feeds : rest.head? = some '\n') :
    Moves ⟨'\r' :: rest, left⟩ ⟨rest, left - 1⟩ :=
  moves_cons (.returned feeds .nil)

theorem moves_lineEnd {rest : List Char} {left : Nat} :
    Moves ⟨'\r' :: '\n' :: rest, left⟩ ⟨rest, left - 2⟩ :=
  (moves_returned rfl).trans moves_lineFeed

theorem moves_lineEnd? (found : cursor.lineEnd? = some next) : cursor.Moves next := by
  rcases cursor with ⟨characters, left⟩
  unfold lineEnd? at found
  split at found
  · cases found
    exact .refl _
  · rename_i rest ahead
    cases found
    cases ahead
    exact moves_lineFeed
  · rename_i rest ahead
    cases found
    cases ahead
    exact moves_lineEnd
  · cases found

theorem moves_finishLine? (found : cursor.finishLine? = some next) : cursor.Moves next :=
  ((moves_skipBlanks cursor).trans (moves_skipComment _)).trans (moves_lineEnd? found)

theorem moves_skipLines (cursor : Cursor) : cursor.Moves cursor.skipLines := by
  have go : ∀ inComment characters left,
      Moves ⟨characters, left⟩ (skipLines.go inComment characters left) := by
    intro inComment characters left
    fun_induction skipLines.go inComment characters left with
    | case1 => exact .refl _
    | case2 inComment rest left ih => exact moves_lineFeed.trans ih
    | case3 inComment rest left feeds ih => exact (moves_returned feeds).trans ih
    | case4 => exact .refl _
    | case5 c rest left _ _ plain ih => exact (moves_cons (.printable plain .nil)).trans ih
    | case6 => exact .refl _
    | case7 c rest left _ _ blank ih =>
        rcases blank with rfl | rfl
        · exact (moves_cons (.printable rfl .nil)).trans ih
        · exact (moves_cons (.printable rfl .nil)).trans ih
    | case8 rest left _ _ _ ih => exact (moves_cons (.printable rfl .nil)).trans ih
    | case9 => exact .refl _
  exact go false cursor.ahead cursor.left

section Classes
variable {c : Char}

theorem isPrintable_of_range (low : 0x20 ≤ c.toNat) (high : c.toNat < 0x7F) :
    isPrintable c = true := by
  have apart : c.toNat ≠ 0x7F := by omega
  simp [isPrintable, low, apart]

theorem isPrintable_of_between {first last : Char} (low : first ≤ c) (high : c ≤ last)
    (bounds : 0x20 ≤ first.toNat ∧ last.toNat < 0x7F) : isPrintable c = true := by
  have lower : first.toNat ≤ c.toNat := Char.le_def.mp low
  have upper : c.toNat ≤ last.toNat := Char.le_def.mp high
  apply isPrintable_of_range <;> omega

theorem isPrintable_of_isAlphanum (among : c.isAlphanum = true) : isPrintable c = true := by
  rcases (Bool.or_eq_true _ _).mp among with letter | digit
  · rcases (Bool.or_eq_true _ _).mp letter with upper | lower
    · have range := of_decide_eq_true upper
      exact isPrintable_of_between (show 'A' ≤ c from range.1) (show c ≤ 'Z' from range.2) (by decide)
    · have range := (Bool.and_eq_true _ _).mp lower
      exact isPrintable_of_between (show 'a' ≤ c from of_decide_eq_true range.1)
        (show c ≤ 'z' from of_decide_eq_true range.2) (by decide)
  · have range := (Bool.and_eq_true _ _).mp digit
    exact isPrintable_of_between (show '0' ≤ c from of_decide_eq_true range.1)
      (show c ≤ '9' from of_decide_eq_true range.2) (by decide)

theorem isPrintable_of_hexValue? {digit : Nat} (found : Text.hexValue? c = some digit) :
    isPrintable c = true := by
  unfold Text.hexValue? at found
  split at found
  · rename_i among
    exact isPrintable_of_isAlphanum (by simp [Char.isAlphanum, among])
  · split at found
    · rename_i between
      exact isPrintable_of_between between.1 between.2 (by decide)
    · split at found
      · rename_i between
        exact isPrintable_of_between between.1 between.2 (by decide)
      · cases found

theorem isPrintable_of_shortEscape? {decoded : Char} (found : shortEscape? c = some decoded) :
    isPrintable c = true := by
  unfold shortEscape? at found
  split at found
  all_goals first | rfl | cases found

end Classes

section Quoted

theorem moves_code? {count value code : Nat} (found : code? count value cursor = some (code, next)) :
    cursor.Moves next := by
  induction count generalizing value cursor with
  | zero =>
      cases found
      exact .refl _
  | succ count ih =>
      unfold code? at found
      split at found
      · cases found
      · rename_i c rest ahead
        rcases Option.bind_eq_some_iff.mp found with ⟨digit, isDigit, more⟩
        exact (moves_after ahead (isPrintable_of_hexValue? isDigit)).trans (ih more)

theorem moves_escape? {decoded : Char} (found : cursor.escape? = some (decoded, next)) :
    cursor.Moves next := by
  unfold escape? at found
  split at found
  · cases found
  · rename_i c rest ahead
    dsimp only at found
    split at found
    · rename_i long
      have plain : isPrintable c = true := by rcases long with rfl | rfl <;> rfl
      rcases Option.bind_eq_some_iff.mp found with ⟨⟨code, further⟩, digits, more⟩
      rcases Option.bind_eq_some_iff.mp more with ⟨character, isCharacter, last⟩
      cases last
      exact (moves_after ahead plain).trans (moves_code? digits)
    · rcases Option.bind_eq_some_iff.mp found with ⟨character, short, last⟩
      cases last
      exact moves_after ahead (isPrintable_of_shortEscape? short)

theorem moves_skipBlankLines (cursor : Cursor) : cursor.Moves cursor.skipBlankLines := by
  have go : ∀ characters left, Moves ⟨characters, left⟩ (skipBlankLines.go characters left) := by
    intro characters left
    fun_induction skipBlankLines.go characters left with
    | case1 => exact .refl _
    | case2 rest left ih => exact moves_lineEnd.trans ih
    | case3 c rest left _ blank ih =>
        rcases blank with rfl | rfl | rfl
        · exact (moves_cons (.printable rfl .nil)).trans ih
        · exact (moves_cons (.printable rfl .nil)).trans ih
        · exact moves_lineFeed.trans ih
    | case4 => exact .refl _
  exact go cursor.ahead cursor.left

theorem moves_joinedLine? (found : cursor.joinedLine? = some next) : cursor.Moves next := by
  unfold joinedLine? at found
  split at found
  · cases found
    exact moves_skipBlankLines cursor
  · cases found
    exact moves_skipBlankLines cursor
  · cases found

/-- A step over characters of one byte each. -/
theorem moves_advance {count : Nat}
    (single : ∀ c ∈ cursor.ahead.take count, isPrintable c = true ∧ c.utf8Size = 1)
    (enough : count ≤ cursor.ahead.length) : cursor.Moves (cursor.advance count) := by
  induction count generalizing cursor with
  | zero => exact .refl _
  | succ count ih =>
      rcases cursor with ⟨characters, left⟩
      cases characters with
      | nil => cases enough
      | cons c rest =>
          have first := single c (by simp)
          have step : Moves ⟨c :: rest, left⟩ ⟨rest, left - 1⟩ := by
            have moves : Moves ⟨c :: rest, left⟩ _ := moves_cons (.printable first.1 .nil)
            rwa [first.2] at moves
          have more : Moves ⟨rest, left - 1⟩ (advance count ⟨rest, left - 1⟩) :=
            ih (fun other member => single other (by simp [member])) (Nat.le_of_succ_le_succ enough)
          have same : advance (count + 1) ⟨c :: rest, left⟩ = advance count ⟨rest, left - 1⟩ := by
            simp [advance, Nat.sub_sub, Nat.add_comm]
          rw [same]
          exact step.trans more

/-- A step over one character that is there as often. -/
theorem moves_run {c : Char} (plain : isPrintable c = true) (single : c.utf8Size = 1) {count : Nat}
    (run : cursor.ahead.take count = List.replicate count c) : cursor.Moves (cursor.advance count) := by
  apply moves_advance
  · intro other member
    rw [run] at member
    rw [List.eq_of_mem_replicate member]
    exact ⟨plain, single⟩
  · have lengths := congrArg List.length run
    rw [List.length_take, List.length_replicate] at lengths
    omega

theorem countQuotes_le (quote : Char) (characters : List Char) :
    countQuotes quote characters ≤ characters.length :=
  (List.takeWhile_prefix _).length_le

theorem eq_of_mem_take {quote : Char} {characters : List Char} {count : Nat}
    (few : count ≤ countQuotes quote characters) : ∀ c ∈ characters.take count, c = quote := by
  intro c member
  have whole : characters = characters.takeWhile (· == quote) ++ characters.dropWhile (· == quote) :=
    List.takeWhile_append_dropWhile.symm
  rw [whole, List.take_append_of_le_length few] at member
  simpa using List.mem_takeWhile_imp (List.mem_of_mem_take member)

variable {quote : Char} (plain : isPrintable quote = true) (single : quote.utf8Size = 1)
include plain

section Single
include single

theorem moves_quotes {count : Nat} (few : count ≤ countQuotes quote cursor.ahead) :
    cursor.Moves (cursor.advance count) := by
  refine moves_advance (fun c member => ?_) (Nat.le_trans few (countQuotes_le quote _))
  rw [eq_of_mem_take few c member]
  exact ⟨plain, single⟩

end Single

theorem moves_lineText {escapes : Bool} {fuel : Nat} {text : List Char}
    (found : lineText quote escapes fuel cursor = some (text, next)) : cursor.Moves next := by
  induction fuel generalizing cursor text with
  | zero => cases found
  | succ fuel ih =>
      unfold lineText at found
      split at found
      · cases found
      · rename_i c rest ahead
        dsimp only at found
        split at found
        · rename_i closes
          cases found
          exact moves_after ahead (closes ▸ plain)
        · split at found
          · rename_i _ escaped
            rcases Option.bind_eq_some_iff.mp found with ⟨⟨decoded, further⟩, escape, more⟩
            rcases Option.bind_eq_some_iff.mp more with ⟨⟨others, stop⟩, rest, last⟩
            cases last
            have opened := moves_after ahead (escaped.2 ▸ rfl)
            exact (opened.trans (moves_escape? escape)).trans (ih rest)
          · split at found
            · rename_i _ _ shown
              rcases Option.bind_eq_some_iff.mp found with ⟨⟨others, stop⟩, rest, last⟩
              cases last
              exact (moves_after ahead shown).trans (ih rest)
            · cases found

include single

theorem moves_blockText {escapes : Bool} {fuel : Nat} {text : List Char}
    (found : blockText quote escapes fuel cursor = some (text, next)) : cursor.Moves next := by
  induction fuel generalizing cursor text with
  | zero => cases found
  | succ fuel ih =>
      rcases cursor with ⟨characters, left⟩
      unfold blockText at found
      split at found
      · cases found
      · rename_i rest ahead
        cases ahead
        rcases Option.bind_eq_some_iff.mp found with ⟨⟨others, stop⟩, more, last⟩
        cases last
        exact moves_lineEnd.trans (ih more)
      · rename_i c rest _ ahead
        cases ahead
        dsimp only at found
        split at found
        · rename_i quotes
          split at found
          · rcases Option.bind_eq_some_iff.mp found with ⟨⟨others, stop⟩, more, last⟩
            cases last
            exact (moves_cons (.printable (quotes ▸ plain) .nil)).trans (ih more)
          · rename_i many
            cases found
            refine moves_quotes plain single ?_
            show _ ≤ countQuotes quote (c :: rest)
            omega
        · split at found
          · rename_i _ escaped
            have opened : Moves ⟨c :: rest, left⟩ (after c rest left) :=
              moves_cons (.printable (escaped.2 ▸ rfl) .nil)
            split at found
            · rename_i joined isJoined
              exact ((opened.trans (moves_skipBlanks _)).trans (moves_joinedLine? isJoined)).trans
                (ih found)
            · rcases Option.bind_eq_some_iff.mp found with ⟨⟨decoded, further⟩, escape, more⟩
              rcases Option.bind_eq_some_iff.mp more with ⟨⟨others, stop⟩, rest, last⟩
              cases last
              exact (opened.trans (moves_escape? escape)).trans (ih rest)
          · split at found
            · rename_i _ _ shown
              rcases Option.bind_eq_some_iff.mp found with ⟨⟨others, stop⟩, more, last⟩
              cases last
              rcases shown with rfl | shown
              · exact moves_lineFeed.trans (ih more)
              · exact (moves_cons (.printable shown .nil)).trans (ih more)
            · cases found

omit single in
theorem moves_quotedLine? {text : String} (found : cursor.quotedLine? quote = some (text, next)) :
    cursor.Moves next := by
  rcases Option.bind_eq_some_iff.mp found with ⟨⟨characters, stop⟩, read, last⟩
  cases last
  exact moves_lineText plain read

theorem moves_quotedText? {text : String} (opened : 1 ≤ countQuotes quote cursor.ahead)
    (found : cursor.quotedText? quote = some (text, next)) : cursor.Moves next := by
  unfold quotedText? at found
  split at found
  · exact (moves_quotes plain single opened).trans (moves_quotedLine? plain found)
  · rename_i many
    dsimp only at found
    rcases Option.bind_eq_some_iff.mp found with ⟨⟨characters, stop⟩, read, last⟩
    cases last
    have inside : cursor.Moves (cursor.advance 3) := moves_quotes plain single (by omega)
    have feeds : (cursor.advance 3).Moves (((cursor.advance 3).lineEnd?).getD (cursor.advance 3)) := by
      cases ended : (cursor.advance 3).lineEnd? with
      | none => exact .refl _
      | some next => exact moves_lineEnd? ended
    refine (inside.trans ?_).trans (moves_blockText plain single read)
    split
    · exact feeds
    · exact feeds
    · exact .refl _

end Quoted

end Cursor

end ProofBuild.Toml
