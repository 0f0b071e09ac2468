import Mathlib.Data.List.Basic
import ProofBuild.Proofs.Prints

/-!
What a fingerprint digests. The pieces of an action are put one after the other with no counts, and
some marks that end a piece can also stand inside one. So different actions can feed the same bytes
(`encode_split_input`, `encode_split_argument`, `encode_moved_setting`). Main statements: exactly
when two actions do so (`separates_iff`), and that actions of one shape never do (`eq_of_shape`), nor
actions without zeros of which no two pieces are confusable by their texts (`eq_of_texts`).
-/

namespace ProofBuild

namespace Utf8

theorem encode_append (one two : String) : encode (one ++ two) = encode one ++ encode two := by
  simp [encode]

theorem encode_eq (text : String) : encode text = text.toList.flatMap String.utf8EncodeChar := by
  rw [encode, ← String.utf8Encode_toList, List.utf8Encode, List.toList_data_toByteArray]

/-- No character's bytes are the beginning of another one's. -/
theorem character_cancel {one two : Char} {first second : Bytes}
    (same : String.utf8EncodeChar one ++ first = String.utf8EncodeChar two ++ second) :
    one = two ∧ first = second := by
  -- Whatever follows, the decoder reads the first character back.
  have read : ∀ (c : Char) (rest : Bytes),
      (String.utf8EncodeChar c ++ rest).toByteArray.utf8DecodeChar? 0 = some c := by
    intro c rest
    rw [List.toByteArray_append, ByteArray.utf8DecodeChar?_utf8EncodeChar_append]
  have characters : one = two := by
    have left := read one first
    rw [same, read two second] at left
    exact (Option.some.inj left).symm
  rw [characters] at same
  exact ⟨characters, List.append_cancel_left same⟩

theorem characters_cancel {one two : List Char} {first second : Bytes}
    (same : one.flatMap String.utf8EncodeChar ++ first =
      two.flatMap String.utf8EncodeChar ++ second) :
    (∃ more, two = one ++ more ∧ first = more.flatMap String.utf8EncodeChar ++ second) ∨
      ∃ more, one = two ++ more ∧ second = more.flatMap String.utf8EncodeChar ++ first := by
  induction one generalizing two with
  | nil => exact .inl ⟨two, rfl, same⟩
  | cons c one ih =>
      cases two with
      | nil => exact .inr ⟨c :: one, rfl, same.symm⟩
      | cons d two =>
          rw [List.flatMap_cons, List.flatMap_cons, List.append_assoc, List.append_assoc] at same
          obtain ⟨rfl, rest⟩ := character_cancel same
          rcases ih rest with ⟨more, longer, bytes⟩ | ⟨more, longer, bytes⟩
          · exact .inl ⟨more, by rw [longer, List.cons_append], bytes⟩
          · exact .inr ⟨more, by rw [longer, List.cons_append], bytes⟩

/-- When two texts are followed by bytes and the whole is the same, one text begins with the
other, and the difference is what the shorter one is followed by. -/
theorem encode_append_eq_iff {one two : String} {first second : Bytes} :
    encode one ++ first = encode two ++ second ↔
      (∃ more, two = one ++ more ∧ first = encode more ++ second) ∨
        ∃ more, one = two ++ more ∧ second = encode more ++ first := by
  constructor
  · intro same
    rw [encode_eq, encode_eq] at same
    rcases characters_cancel same with ⟨more, longer, bytes⟩ | ⟨more, longer, bytes⟩
    · refine .inl ⟨String.ofList more, String.toList_inj.mp ?_, ?_⟩
      · rw [String.toList_append, String.toList_ofList, longer]
      · rw [encode_eq, String.toList_ofList, bytes]
    · refine .inr ⟨String.ofList more, String.toList_inj.mp ?_, ?_⟩
      · rw [String.toList_append, String.toList_ofList, longer]
      · rw [encode_eq, String.toList_ofList, bytes]
  · rintro (⟨more, rfl, rfl⟩ | ⟨more, rfl, rfl⟩)
    · rw [encode_append, List.append_assoc]
    · rw [encode_append, List.append_assoc]

end Utf8

namespace Sha256

theorem hex_injective : Function.Injective hex := by
  have digits : ∀ {first second : UInt8},
      Text.hexDigit (first.toNat / 16) = Text.hexDigit (second.toNat / 16) →
        Text.hexDigit (first.toNat % 16) = Text.hexDigit (second.toNat % 16) → first = second := by
    intro first second high low
    have read : ∀ {m n : Nat}, m < 16 → n < 16 → Text.hexDigit m = Text.hexDigit n → m = n := by
      intro m n small smallTwo equal
      have values := Text.hexValue?_hexDigit m small
      rw [equal, Text.hexValue?_hexDigit n smallTwo] at values
      exact (Option.some.inj values).symm
    have bound := first.toNat_lt
    have boundTwo := second.toNat_lt
    have highs := read (by omega) (by omega) high
    have lows := read (by omega) (by omega) low
    exact UInt8.toNat_inj.mp (by omega)
  intro one two same
  have characters := congrArg String.toList same
  rw [hex, hex, String.toList_ofList, String.toList_ofList] at characters
  clear same
  induction one generalizing two with
  | nil =>
      cases two with
      | nil => rfl
      | cons second rest => cases characters
  | cons first rest ih =>
      cases two with
      | nil => cases characters
      | cons second more =>
          obtain ⟨high, tail⟩ := List.cons.inj characters
          obtain ⟨low, later⟩ := List.cons.inj tail
          rw [digits high low, ih later]

end Sha256

namespace Fingerprint

/-- One of the things whose bytes are put one after the other. -/
inductive Piece where
  /-- the program or an argument -/
  | argument (text : String)
  | setting (setting : String × String)
  | input (input : Input)
  | recorded (entry : Option String)
  deriving DecidableEq

namespace Piece

/-- The text of a piece with the mark that ends it. -/
def text : Piece → String
  | argument text => text ++ "\x00"
  | setting (name, value) => name ++ "=" ++ value ++ "\x00"
  | input (path, some _) => path.text ++ "+"
  | input (path, none) => path.text ++ "-"
  | recorded entry => "^" ++ entry.getD "-" ++ "\x00"

/-- What follows the text: the digest of a file that is there. -/
def tail : Piece → Bytes
  | input (_, some digest) => digest
  | _ => []

def bytes (piece : Piece) : Bytes := Utf8.encode piece.text ++ piece.tail

end Piece

/-- An action as its fingerprint sees it. -/
structure Action where
  invocation : Invocation
  inputs : List Input
  recorded : List (Option String)
  deriving DecidableEq

namespace Action

def bytes (action : Action) : Bytes := encode action.invocation action.inputs action.recorded

def pieces (action : Action) : List Piece :=
  .argument action.invocation.program.text :: action.invocation.arguments.map .argument
    ++ action.invocation.settings.entries.map .setting ++ action.inputs.map .input
    ++ action.recorded.map .recorded

/-- The action over the files as they are. -/
def onFiles (tree : FileTree) (invocation : Invocation) (paths : List Path)
    (recorded : List (Option String)) : Action := ⟨invocation, paths.map (inputAt tree), recorded⟩

end Action

/-- A fingerprint is the digest of its action's bytes. -/
theorem print_eq_hex {tree : FileTree} {invocation : Invocation} {paths : List Path}
    {recorded : List (Option String)} {print : String}
    (prints : fingerprint tree invocation paths recorded = .ok print) :
    print = Sha256.hex (Sha256.digest (Action.onFiles tree invocation paths recorded).bytes) :=
  (fingerprint_eq_ok_iff.mp prints).2

theorem bytes_argument (text : String) : (Piece.argument text).bytes = closed text := by
  have zero : Utf8.encode "\x00" = [0] := by decide
  simp [Piece.bytes, Piece.text, Piece.tail, closed, Utf8.encode_append, zero]

theorem bytes_setting (setting : String × String) :
    (Piece.setting setting).bytes = settingBytes setting := by
  have zero : Utf8.encode "\x00" = [0] := by decide
  have equals : Utf8.encode "=" = [byte '='] := by decide
  simp [Piece.bytes, Piece.text, Piece.tail, settingBytes, closed, Utf8.encode_append, zero, equals]

theorem bytes_input (input : Input) : (Piece.input input).bytes = inputBytes input := by
  have plus : Utf8.encode "+" = [byte '+'] := by decide
  have minus : Utf8.encode "-" = [byte '-'] := by decide
  obtain ⟨path, none | digest⟩ := input
  · simp [Piece.bytes, Piece.text, Piece.tail, inputBytes, Utf8.encode_append, minus]
  · simp [Piece.bytes, Piece.text, Piece.tail, inputBytes, Utf8.encode_append, plus]

theorem bytes_recorded (entry : Option String) :
    (Piece.recorded entry).bytes = recordedBytes entry := by
  have zero : Utf8.encode "\x00" = [0] := by decide
  have caret : Utf8.encode "^" = [byte '^'] := by decide
  simp [Piece.bytes, Piece.text, Piece.tail, recordedBytes, closed, Utf8.encode_append, zero, caret]

theorem bytes_eq (action : Action) : action.bytes = action.pieces.flatMap Piece.bytes := by
  simp only [Action.bytes, Action.pieces, encode, invocationBytes, List.cons_append,
    List.flatMap_cons, List.flatMap_append, List.flatMap_map, bytes_argument, bytes_setting,
    bytes_input, bytes_recorded, List.append_assoc]

namespace Piece

theorem bytes_ne_nil (piece : Piece) : piece.bytes ≠ [] := by
  cases piece with
  | argument text => simp [bytes_argument, closed]
  | setting setting => simp [bytes_setting, settingBytes, closed]
  | input input => obtain ⟨path, none | digest⟩ := input <;> simp [bytes_input, inputBytes]
  | recorded entry => simp [bytes_recorded, recordedBytes]

/-- Whether a piece, with what follows it, reads like one that goes on longer. -/
def RunsOver (piece : Piece) (rest : List Piece) (longer : Piece) (more : List Piece) : Prop :=
  ∃ text, longer.text = piece.text ++ text ∧
    piece.tail ++ rest.flatMap bytes = Utf8.encode text ++ (longer.tail ++ more.flatMap bytes)

/-- Whether two lists of pieces can be taken for each other: the first pieces in which they differ
begin with one text, and what follows the shorter one spells the rest of the longer one. -/
def Mistaken (one two : List Piece) : Prop :=
  ∃ common piece other rest more, one = common ++ piece :: rest ∧ two = common ++ other :: more ∧
    piece ≠ other ∧ (RunsOver piece rest other more ∨ RunsOver other more piece rest)

theorem bytes_cons_eq_iff {piece other : Piece} {rest more : List Piece} :
    (piece :: rest).flatMap bytes = (other :: more).flatMap bytes ↔
      RunsOver piece rest other more ∨ RunsOver other more piece rest := by
  rw [List.flatMap_cons, List.flatMap_cons, bytes, bytes, List.append_assoc, List.append_assoc]
  exact Utf8.encode_append_eq_iff

theorem not_mistaken_nil (pieces : List Piece) : ¬ Mistaken [] pieces := by
  rintro ⟨common, _, _, _, _, split, _⟩
  cases common <;> cases split

theorem not_mistaken_of_nil (pieces : List Piece) : ¬ Mistaken pieces [] := by
  rintro ⟨common, _, _, _, _, _, split, _⟩
  cases common <;> cases split

theorem mistaken_cons_iff {piece : Piece} {rest more : List Piece} :
    Mistaken (piece :: rest) (piece :: more) ↔ Mistaken rest more := by
  constructor
  · rintro ⟨common, first, second, left, right, one, two, different, overlap⟩
    cases common with
    | nil =>
        cases one
        cases two
        exact absurd rfl different
    | cons shared common =>
        cases one
        rw [List.cons_append, List.cons_inj_right] at two
        exact ⟨common, first, second, left, right, rfl, two, different, overlap⟩
  · rintro ⟨common, first, second, left, right, rfl, rfl, different, overlap⟩
    exact ⟨piece :: common, first, second, left, right, rfl, rfl, different, overlap⟩

/-- Two lists of pieces have the same bytes exactly when they are the same or can be taken for each
other. -/
theorem flatMap_bytes_eq_iff {one two : List Piece} :
    one.flatMap bytes = two.flatMap bytes ↔ one = two ∨ Mistaken one two := by
  induction one generalizing two with
  | nil =>
      cases two with
      | nil => simp
      | cons other more => simp [bytes_ne_nil, not_mistaken_nil]
  | cons piece rest ih =>
      cases two with
      | nil => simp [bytes_ne_nil, not_mistaken_of_nil]
      | cons other more =>
          -- The first pieces in which the lists differ decide; equal ones are common to both.
          by_cases different : piece = other
          · subst different
            rw [List.flatMap_cons, List.flatMap_cons, List.append_cancel_left_eq, ih,
              mistaken_cons_iff, List.cons_inj_right]
          · rw [bytes_cons_eq_iff]
            constructor
            · exact fun overlap => .inr ⟨[], piece, other, rest, more, rfl, rfl, different, overlap⟩
            · rintro (same | mistaken)
              · cases same
                exact absurd rfl different
              · obtain ⟨common, first, second, left, right, one, two, _, overlap⟩ := mistaken
                cases common with
                | nil =>
                    cases one
                    cases two
                    exact overlap
                | cons shared common =>
                    cases one
                    cases two
                    exact absurd rfl different

end Piece

theorem pieces_inj {one two : Action} : one.pieces = two.pieces ↔ one = two := by
  refine ⟨fun same => ?_, fun same => same ▸ rfl⟩
  -- Each component is what is left of the pieces when the other kinds are taken out.
  have arguments := congrArg (List.filterMap fun
    | .argument text => some text
    | _ => none) same
  have settings := congrArg (List.filterMap fun
    | .setting setting => some setting
    | _ => none) same
  have inputs := congrArg (List.filterMap fun
    | .input input => some input
    | _ => none) same
  have recorded := congrArg (List.filterMap fun
    | .recorded entry => some entry
    | _ => none) same
  simp [Action.pieces, List.filterMap_map] at arguments settings inputs recorded
  obtain ⟨⟨⟨program⟩, _, ⟨_, _⟩⟩, _, _⟩ := one
  obtain ⟨⟨⟨program⟩, _, ⟨_, _⟩⟩, _, _⟩ := two
  cases arguments.1
  cases arguments.2
  cases settings
  cases inputs
  cases recorded
  rfl

/-- Two actions feed the same bytes exactly when they are the same or their pieces can be taken for
each other. -/
theorem bytes_eq_iff {one two : Action} :
    one.bytes = two.bytes ↔ one = two ∨ Piece.Mistaken one.pieces two.pieces := by
  rw [bytes_eq, bytes_eq, Piece.flatMap_bytes_eq_iff, pieces_inj]

section Cancel
variable {first second : Bytes}

/-- A text without zeros that a zero ends can be read back. -/
theorem closed_cancel {one two : String} (plain : '\x00' ∉ one.toList)
    (plainTwo : '\x00' ∉ two.toList) (same : closed one ++ first = closed two ++ second) :
    one = two ∧ first = second := by
  have ends : ∀ {text : String} {bytes rest : Bytes}, 0 :: rest = Utf8.encode text ++ 0 :: bytes →
      '\x00' ∉ text.toList → text = "" := by
    intro text bytes rest split free
    have zero : String.utf8EncodeChar '\x00' = [0] := by decide
    cases characters : text.toList with
    | nil => exact String.toList_inj.mp characters
    | cons c others =>
        rw [Utf8.encode_eq, characters, List.flatMap_cons, List.append_assoc] at split
        have head := Utf8.character_cancel ((congrArg (· ++ rest) zero).trans split)
        rw [characters, ← head.1] at free
        exact absurd List.mem_cons_self free
  simp only [closed, List.append_assoc, List.singleton_append] at same
  rcases Utf8.encode_append_eq_iff.mp same with ⟨more, rfl, split⟩ | ⟨more, rfl, split⟩
  · obtain rfl := ends split (by simp at plainTwo; exact plainTwo.2)
    simpa [Utf8.encode_eq] using split
  · obtain rfl := ends split (by simp at plain; exact plain.2)
    simpa [Utf8.encode_eq, eq_comm] using split

theorem setting_cancel {one two : String × String} (name : one.1 = two.1)
    (plain : '\x00' ∉ one.2.toList) (plainTwo : '\x00' ∉ two.2.toList)
    (same : settingBytes one ++ first = settingBytes two ++ second) : one = two ∧ first = second := by
  rw [settingBytes, settingBytes, name] at same
  simp only [List.append_assoc, List.append_cancel_left_eq] at same
  obtain ⟨value, ends⟩ := closed_cancel plain plainTwo same
  exact ⟨Prod.ext name value, ends⟩

/-- All digests have one length. -/
def Sized (input : Input) : Prop := ∀ digest, input.2 = some digest → digest.length = 32

theorem input_cancel {one two : Input} (path : one.1 = two.1) (sized : Sized one)
    (sizedTwo : Sized two) (same : inputBytes one ++ first = inputBytes two ++ second) :
    one = two ∧ first = second := by
  obtain ⟨here, found⟩ := one
  obtain ⟨_, foundTwo⟩ := two
  obtain rfl : here = _ := path
  simp only [inputBytes, List.append_assoc, List.append_cancel_left_eq] at same
  cases found with
  | none =>
      cases foundTwo with
      | none => exact ⟨rfl, (List.cons.inj same).2⟩
      | some digest => exact absurd (List.cons.inj same).1 (by decide)
  | some digest =>
      cases foundTwo with
      | none => exact absurd (List.cons.inj same).1 (by decide)
      | some digestTwo =>
          have lengths := (sized digest rfl).trans (sizedTwo digestTwo rfl).symm
          obtain ⟨rfl, ends⟩ := List.append_inj (List.cons.inj same).2 lengths
          exact ⟨rfl, ends⟩

/-- A recorded fingerprint that can be told from the mark of its absence. -/
def Spelled (entry : Option String) : Prop :=
  ∀ print, entry = some print → '\x00' ∉ print.toList ∧ print ≠ "-"

theorem recorded_cancel {one two : Option String} (spelled : Spelled one) (spelledTwo : Spelled two)
    (same : recordedBytes one ++ first = recordedBytes two ++ second) :
    one = two ∧ first = second := by
  have plain : ∀ {entry}, Spelled entry → '\x00' ∉ (entry.getD "-").toList := by
    rintro (_ | print) spelled
    · decide
    · exact (spelled print rfl).1
  rw [recordedBytes, recordedBytes, List.cons_append, List.cons_append] at same
  obtain ⟨texts, ends⟩ := closed_cancel (plain spelled) (plain spelledTwo) (List.cons.inj same).2
  refine ⟨?_, ends⟩
  cases one with
  | none =>
      cases two with
      | none => rfl
      | some print => exact absurd texts.symm (spelledTwo print rfl).2
  | some print =>
      cases two with
      | none => exact absurd texts (spelled print rfl).2
      | some printTwo => exact congrArg some texts

/-- Lists of things that can be read back one by one, as soon as their keys are known. -/
theorem flatMap_cancel {α β : Type} {spell : α → Bytes} {key : α → β} {one two : List α}
    (keys : one.map key = two.map key)
    (cancel : ∀ item ∈ one, ∀ other ∈ two, key item = key other → ∀ {first second},
      spell item ++ first = spell other ++ second → item = other ∧ first = second)
    (same : one.flatMap spell ++ first = two.flatMap spell ++ second) :
    one = two ∧ first = second := by
  induction one generalizing two with
  | nil =>
      obtain rfl := List.map_eq_nil_iff.mp keys.symm
      exact ⟨rfl, same⟩
  | cons item rest ih =>
      cases two with
      | nil => cases keys
      | cons other more =>
          obtain ⟨heads, tails⟩ := List.cons.inj keys
          rw [List.flatMap_cons, List.flatMap_cons, List.append_assoc, List.append_assoc] at same
          obtain ⟨rfl, later⟩ := cancel item List.mem_cons_self other List.mem_cons_self heads same
          have others := fun item member other inside =>
            cancel item (List.mem_cons_of_mem _ member) other (List.mem_cons_of_mem _ inside)
          obtain ⟨rfl, ends⟩ := ih tails others later
          exact ⟨rfl, ends⟩

theorem allRecorded_cancel {one two : List (Option String)} (spelled : ∀ entry ∈ one, Spelled entry)
    (spelledTwo : ∀ entry ∈ two, Spelled entry)
    (same : one.flatMap recordedBytes = two.flatMap recordedBytes) : one = two := by
  induction one generalizing two with
  | nil =>
      cases two with
      | nil => rfl
      | cons other more => simp [recordedBytes] at same
  | cons entry rest ih =>
      cases two with
      | nil => simp [recordedBytes] at same
      | cons other more =>
          rw [List.forall_mem_cons] at spelled spelledTwo
          rw [List.flatMap_cons, List.flatMap_cons] at same
          obtain ⟨rfl, later⟩ := recorded_cancel spelled.1 spelledTwo.1 same
          rw [ih spelled.2 spelledTwo.2 later]

end Cancel

namespace Piece
variable {piece other : Piece} {rest more : List Piece}

/-- The character that ends the text of a piece. -/
def mark : Piece → Char
  | input (_, some _) => '+'
  | input (_, none) => '-'
  | argument _ | setting _ | recorded _ => '\x00'

/-- The text of a piece before its mark. -/
def body : Piece → String
  | argument text => text
  | setting (name, value) => name ++ "=" ++ value
  | input (path, _) => path.text
  | recorded entry => "^" ++ entry.getD "-"

theorem toList_text (piece : Piece) : piece.text.toList = piece.body.toList ++ [piece.mark] := by
  rcases piece with given | ⟨name, value⟩ | ⟨path, none | digest⟩ | entry <;> simp [text, body, mark]

theorem body_mark_eq (texts : piece.text = other.text) :
    piece.body = other.body ∧ piece.mark = other.mark := by
  have characters := congrArg String.toList texts
  rw [toList_text, toList_text] at characters
  obtain ⟨bodies, marks⟩ := List.append_inj' characters rfl
  exact ⟨String.toList_inj.mp bodies, (List.cons.inj marks).1⟩

theorem exists_input (marked : piece.mark ≠ '\x00') : ∃ input, piece = .input input := by
  cases piece with
  | input input => exact ⟨input, rfl⟩
  | argument | setting | recorded => exact absurd rfl marked

/-- Whether a piece is an input whose path, with its mark, stands at the front of the other piece. -/
def Begins (piece other : Piece) : Prop :=
  piece.mark ≠ '\x00' ∧ piece.text.toList <+: other.body.toList

/-- Whether the texts of two pieces leave open which of them the bytes hold: both are spelled alike
and are no inputs, or one is an input that stands at the front of the other one. -/
def Confusable (piece other : Piece) : Prop :=
  (piece.mark = '\x00' ∧ piece.text = other.text) ∨ piece.Begins other ∨ other.Begins piece

theorem Confusable.symm (confusable : Confusable piece other) : Confusable other piece := by
  rcases confusable with ⟨zero, texts⟩ | begins | begins
  · exact .inl ⟨(body_mark_eq texts).2 ▸ zero, texts.symm⟩
  · exact .inr (.inr begins)
  · exact .inr (.inl begins)

/-- Of two pieces that are not spelled alike, only an input runs over: what ends another piece is a
zero, and the longer piece has none before its end. -/
theorem RunsOver.text_eq_or_begins (overrun : RunsOver piece rest other more)
    (plain : '\x00' ∉ other.body.toList) : piece.text = other.text ∨ piece.Begins other := by
  obtain ⟨text, longer, _⟩ := overrun
  have opens : piece.text.toList <+: other.body.toList ++ [other.mark] := by
    rw [← toList_text, longer, String.toList_append]
    exact List.prefix_append _ _
  rcases List.prefix_concat_iff.mp opens with whole | inside
  · rw [← toList_text] at whole
    exact .inl (String.toList_inj.mp whole)
  · refine .inr ⟨fun zero => plain (inside.subset ?_), inside⟩
    rw [toList_text, zero]
    exact List.mem_append_right _ List.mem_cons_self

/-- Inputs that are spelled alike have digests of one length, so neither runs over the other. -/
theorem RunsOver.input_eq {one two : Input} (overrun : RunsOver (.input one) rest (.input two) more)
    (texts : (input one).text = (input two).text) (sized : Sized one) (sizedTwo : Sized two) :
    one = two := by
  have paths : one.1.text = two.1.text := (body_mark_eq texts).1
  have same := bytes_cons_eq_iff.mpr (.inl overrun)
  rw [List.flatMap_cons, List.flatMap_cons, bytes_input, bytes_input] at same
  exact (input_cancel (congrArg Path.mk paths) sized sizedTwo same).1

theorem RunsOver.confusable (overrun : RunsOver piece rest other more) (different : piece ≠ other)
    (plain : '\x00' ∉ other.body.toList) (sized : ∀ input, piece = .input input → Sized input)
    (sizedTwo : ∀ input, other = .input input → Sized input) : Confusable piece other := by
  rcases overrun.text_eq_or_begins plain with texts | begins
  · by_cases zero : piece.mark = '\x00'
    · exact .inl ⟨zero, texts⟩
    · have marks := (body_mark_eq texts).2
      obtain ⟨one, rfl⟩ := exists_input zero
      obtain ⟨two, rfl⟩ := exists_input (marks ▸ zero)
      have equal := overrun.input_eq texts (sized one rfl) (sizedTwo two rfl)
      exact absurd (congrArg input equal) different
  · exact .inr (.inl begins)

/-- Without zeros in the pieces, lists are taken for each other only where the first pieces in which they
differ are confusable. -/
theorem confusable_of_mistaken {one two : List Piece}
    (plain : ∀ piece ∈ one ++ two, '\x00' ∉ piece.body.toList)
    (sized : ∀ input, .input input ∈ one ++ two → Sized input) (mistaken : Mistaken one two) :
    ∃ common piece other rest more, one = common ++ piece :: rest ∧ two = common ++ other :: more ∧
      piece ≠ other ∧ Confusable piece other := by
  obtain ⟨common, piece, other, rest, more, rfl, rfl, different, overlap⟩ := mistaken
  refine ⟨common, piece, other, rest, more, rfl, rfl, different, ?_⟩
  have sizedPiece : ∀ input, piece = .input input → Sized input := by
    rintro input rfl
    exact sized input (by simp)
  have sizedOther : ∀ input, other = .input input → Sized input := by
    rintro input rfl
    exact sized input (by simp)
  rcases overlap with overrun | overrun
  · exact overrun.confusable different (plain other (by simp)) sizedPiece sizedOther
  · exact (overrun.confusable different.symm (plain piece (by simp)) sizedOther sizedPiece).symm

/-- An absent `x` stands at the front of `x-y`. -/
example : Confusable (.input (⟨"x"⟩, none)) (.input (⟨"x-y"⟩, none)) :=
  .inr (.inl ⟨by decide, by decide⟩)

end Piece

/-- What fingerprints are recorded as. -/
def Hexadecimal (text : String) : Prop :=
  text.length = 64 ∧ ∀ c ∈ text.toList, c ∈ "0123456789abcdef".toList

theorem Hexadecimal.spelled {print : String} (digits : Hexadecimal print) : Spelled (some print) := by
  intro text same
  obtain rfl := Option.some.inj same
  refine ⟨fun zero => absurd (digits.2 _ zero) (by decide), ?_⟩
  rintro rfl
  cases digits.1

theorem hexadecimal_hex (message : Bytes) : Hexadecimal (Sha256.hex (Sha256.digest message)) := by
  have digit : ∀ value, value < 16 → Text.hexDigit value ∈ "0123456789abcdef".toList := by decide
  constructor
  · have pairs : ∀ bytes : Bytes, (bytes.flatMap fun byte =>
        [Text.hexDigit (byte.toNat / 16), Text.hexDigit (byte.toNat % 16)]).length =
          2 * bytes.length := by
      intro bytes
      induction bytes with
      | nil => rfl
      | cons byte rest ih => rw [List.flatMap_cons, List.length_append, ih]; simp; omega
    rw [Sha256.hex, String.length_ofList, pairs, Sha256.length_digest]
  · intro c member
    rw [Sha256.hex, String.toList_ofList, List.mem_flatMap] at member
    obtain ⟨byte, _, member⟩ := member
    have bound := byte.toNat_lt
    rcases List.mem_cons.mp member with rfl | low
    · exact digit _ (by omega)
    · rw [List.mem_singleton.mp low]
      exact digit _ (by omega)

namespace Action

/-- Actions as they come: digests have their length, and what is recorded is a fingerprint. -/
structure Sound (action : Action) : Prop where
  sized : ∀ input ∈ action.inputs, Sized input
  spelled : ∀ entry ∈ action.recorded, Spelled entry

structure SameDeclared (one two : Action) : Prop where
  invocation : one.invocation = two.invocation
  paths : one.inputs.map (·.1) = two.inputs.map (·.1)

/-- As many arguments, the same names of variables and the same paths. -/
structure SameShape (one two : Action) : Prop where
  arguments : one.invocation.arguments.length = two.invocation.arguments.length
  names : one.invocation.settings.entries.map (·.1) = two.invocation.settings.entries.map (·.1)
  paths : one.inputs.map (·.1) = two.inputs.map (·.1)

/-- No zero in the program, the arguments and the values of variables. -/
structure Plain (action : Action) : Prop where
  program : '\x00' ∉ action.invocation.program.text.toList
  arguments : ∀ text ∈ action.invocation.arguments, '\x00' ∉ text.toList
  values : ∀ setting ∈ action.invocation.settings.entries, '\x00' ∉ setting.2.toList

variable {one two : Action}

theorem sound_onFiles (tree : FileTree) (invocation : Invocation) (paths : List Path)
    {recorded : List (Option String)} (spelled : ∀ entry ∈ recorded, Spelled entry) :
    (onFiles tree invocation paths recorded).Sound := by
  refine ⟨fun input member digest found => ?_, spelled⟩
  obtain ⟨path, _, rfl⟩ := List.mem_map.mp member
  obtain ⟨content, _, rfl⟩ := Option.map_eq_some_iff.mp found
  exact Sha256.length_digest content

theorem spelled_of_hexadecimal {recorded : List (Option String)}
    (prints : ∀ print, some print ∈ recorded → Hexadecimal print) :
    ∀ entry ∈ recorded, Spelled entry := by
  rintro _ member print rfl
  exact (prints print member).spelled print rfl

/-- When the bytes, the invocation and the paths are the same, so are presence and content of every
input and all that is recorded. -/
theorem eq_of_declared (sound : one.Sound) (soundTwo : two.Sound) (declared : one.SameDeclared two)
    (same : one.bytes = two.bytes) : one = two := by
  rw [bytes, bytes, encode, encode, declared.invocation, List.append_assoc, List.append_assoc,
    List.append_cancel_left_eq] at same
  obtain ⟨inputs, rest⟩ := flatMap_cancel declared.paths
    (fun _ member _ inside path => input_cancel path (sound.sized _ member) (soundTwo.sized _ inside))
    same
  have recorded := allRecorded_cancel sound.spelled soundTwo.spelled rest
  obtain ⟨_, _, _⟩ := one
  obtain ⟨_, _, _⟩ := two
  cases declared.invocation
  cases inputs
  cases recorded
  rfl

/-- Actions of one shape and without zeros in their texts never feed the same bytes. -/
theorem eq_of_shape (sound : one.Sound) (soundTwo : two.Sound) (shape : one.SameShape two)
    (plain : one.Plain) (plainTwo : two.Plain) (same : one.bytes = two.bytes) : one = two := by
  have split := same
  simp only [bytes, encode, invocationBytes, List.append_assoc] at split
  obtain ⟨program, afterProgram⟩ := closed_cancel plain.program plainTwo.program split
  have counts : one.invocation.arguments.map (fun _ => ()) =
      two.invocation.arguments.map (fun _ => ()) := by
    rw [List.map_const', List.map_const', shape.arguments]
  obtain ⟨arguments, afterArguments⟩ := flatMap_cancel counts
    (fun _ member _ inside _ => closed_cancel (plain.arguments _ member) (plainTwo.arguments _ inside))
    afterProgram
  obtain ⟨settings, _⟩ := flatMap_cancel shape.names
    (fun _ member _ inside name =>
      setting_cancel name (plain.values _ member) (plainTwo.values _ inside))
    afterArguments
  refine eq_of_declared sound soundTwo ⟨?_, shape.paths⟩ same
  obtain ⟨⟨⟨_⟩, _, ⟨_, _⟩⟩, _, _⟩ := one
  obtain ⟨⟨⟨_⟩, _, ⟨_, _⟩⟩, _, _⟩ := two
  cases program
  cases arguments
  cases settings
  rfl

/-- Actions without zeros in their texts never feed the same bytes when no piece of one is confusable with
a different piece of the other. -/
theorem eq_of_texts (sound : one.Sound) (soundTwo : two.Sound)
    (plain : ∀ piece ∈ one.pieces ++ two.pieces, '\x00' ∉ piece.body.toList)
    (apart : ∀ piece ∈ one.pieces, ∀ other ∈ two.pieces, piece.Confusable other → piece = other)
    (same : one.bytes = two.bytes) : one = two := by
  have sized : ∀ input, .input input ∈ one.pieces ++ two.pieces → Sized input := by
    intro input member
    rcases List.mem_append.mp member with member | member
    · exact sound.sized input (by simpa [pieces] using member)
    · exact soundTwo.sized input (by simpa [pieces] using member)
  refine (bytes_eq_iff.mp same).resolve_right fun mistaken => ?_
  obtain ⟨common, piece, other, rest, more, first, second, different, confusable⟩ :=
    Piece.confusable_of_mistaken plain sized mistaken
  exact different (apart piece (by simp [first]) other (by simp [second]) confusable)

/-- Actions over files as they are, with recorded fingerprints or none, are separated by the bytes
they feed exactly unless they differ in what they declare and their pieces can be taken for each
other. -/
theorem separates_iff (tree treeTwo : FileTree) (invocation invocationTwo : Invocation)
    (paths pathsTwo : List Path) {recorded recordedTwo : List (Option String)}
    (prints : ∀ print, some print ∈ recorded → Hexadecimal print)
    (printsTwo : ∀ print, some print ∈ recordedTwo → Hexadecimal print) :
    ((onFiles tree invocation paths recorded).bytes =
        (onFiles treeTwo invocationTwo pathsTwo recordedTwo).bytes →
      onFiles tree invocation paths recorded = onFiles treeTwo invocationTwo pathsTwo recordedTwo) ↔
    ¬ (¬ (onFiles tree invocation paths recorded).SameDeclared
          (onFiles treeTwo invocationTwo pathsTwo recordedTwo) ∧
        Piece.Mistaken (onFiles tree invocation paths recorded).pieces
          (onFiles treeTwo invocationTwo pathsTwo recordedTwo).pieces) := by
  have sound := sound_onFiles tree invocation paths (spelled_of_hexadecimal prints)
  have soundTwo := sound_onFiles treeTwo invocationTwo pathsTwo (spelled_of_hexadecimal printsTwo)
  generalize onFiles tree invocation paths recorded = one at *
  generalize onFiles treeTwo invocationTwo pathsTwo recordedTwo = two at *
  constructor
  · rintro separates ⟨undeclared, mistaken⟩
    -- Actions that are taken for each other feed the same bytes, and here that makes them equal.
    have equal := separates (bytes_eq_iff.mpr (.inr mistaken))
    exact undeclared (equal ▸ ⟨rfl, rfl⟩)
  · intro apart same
    by_contra different
    have mistaken := (bytes_eq_iff.mp same).resolve_left different
    exact apart ⟨fun declared => different (eq_of_declared sound soundTwo declared same), mistaken⟩

def lone : Invocation := ⟨⟨"/verus/rust_verify"⟩, [], .empty⟩

/-- Over no files, the inputs `x` and `y` are taken for the input `x-y`. -/
theorem separates_iff_absent :
    (∀ print, some print ∈ ([] : List (Option String)) → Hexadecimal print) ∧
      (onFiles (.bare []) lone [⟨"x"⟩, ⟨"y"⟩] []).bytes = (onFiles (.bare []) lone [⟨"x-y"⟩] []).bytes ∧
      onFiles (.bare []) lone [⟨"x"⟩, ⟨"y"⟩] [] ≠ onFiles (.bare []) lone [⟨"x-y"⟩] [] ∧
      ¬ (onFiles (.bare []) lone [⟨"x"⟩, ⟨"y"⟩] []).SameDeclared (onFiles (.bare []) lone [⟨"x-y"⟩] []) ∧
      Piece.Mistaken (onFiles (.bare []) lone [⟨"x"⟩, ⟨"y"⟩] []).pieces
        (onFiles (.bare []) lone [⟨"x-y"⟩] []).pieces := by
  have prints : ∀ print, some print ∈ ([] : List (Option String)) → Hexadecimal print := by simp
  have same : (onFiles (.bare []) lone [⟨"x"⟩, ⟨"y"⟩] []).bytes =
      (onFiles (.bare []) lone [⟨"x-y"⟩] []).bytes := by decide
  have different : onFiles (.bare []) lone [⟨"x"⟩, ⟨"y"⟩] [] ≠ onFiles (.bare []) lone [⟨"x-y"⟩] [] := by
    decide
  refine ⟨prints, same, different, ?_⟩
  by_contra apart
  exact different ((separates_iff (.bare []) (.bare []) lone lone [⟨"x"⟩, ⟨"y"⟩] [⟨"x-y"⟩] prints
    prints).mpr apart same)

end Action

section Collisions
variable (invocation : Invocation) (inputs : List Input) (recorded : List (Option String))

/-- Two absent inputs are one absent input with the mark of absence in its name. -/
theorem encode_split_input (before after : List Input) (one two : Path) :
    encode invocation (before ++ (one, none) :: (two, none) :: after) recorded =
      encode invocation (before ++ (⟨one.text ++ "-" ++ two.text⟩, none) :: after) recorded := by
  have minus : Utf8.encode "-" = [byte '-'] := by decide
  simp [encode, inputBytes, Utf8.encode_append, minus]

/-- Two arguments are one argument with a zero in it. -/
theorem encode_split_argument (before after : List String) (one two : String) :
    encode { invocation with arguments := before ++ one :: two :: after } inputs recorded =
      encode { invocation with arguments := before ++ (one ++ "\x00" ++ two) :: after } inputs
        recorded := by
  have zero : Utf8.encode "\x00" = [0] := by decide
  simp [encode, invocationBytes, closed, Utf8.encode_append, zero]

/-- The first variable is a last argument that spells it. -/
theorem encode_moved_setting {fewer more : Table} {name value : String}
    (first : more.entries = (name, value) :: fewer.entries) (program : Path)
    (arguments : List String) :
    encode ⟨program, arguments ++ [name ++ "=" ++ value], fewer⟩ inputs recorded =
      encode ⟨program, arguments, more⟩ inputs recorded := by
  have equals : Utf8.encode "=" = [byte '='] := by decide
  simp [encode, invocationBytes, settingBytes, closed, Utf8.encode_append, equals, first]

/-- The fingerprint does not see the difference. -/
theorem fingerprint_split_input {tree : FileTree} {one two : Path}
    (absent : tree.read one = .error .notFound) (absentTwo : tree.read two = .error .notFound)
    (absentJoined : tree.read ⟨one.text ++ "-" ++ two.text⟩ = .error .notFound)
    (before after : List Path) (print : String) :
    fingerprint tree invocation (before ++ one :: two :: after) recorded = .ok print ↔
      fingerprint tree invocation (before ++ ⟨one.text ++ "-" ++ two.text⟩ :: after) recorded =
        .ok print := by
  have seen : ∀ {path}, tree.read path = .error .notFound → inputAt tree path = (path, none) := by
    intro path absent
    rw [inputAt, absent]
    rfl
  rw [fingerprint_eq_ok_iff, fingerprint_eq_ok_iff]
  simp only [List.map_append, List.map_cons, seen absent, seen absentTwo, seen absentJoined,
    encode_split_input, List.forall_mem_append, List.forall_mem_cons]
  have readable : ∀ {path}, tree.read path = .error .notFound → Readable tree path := .inl
  simp only [readable absent, readable absentTwo, readable absentJoined, true_and]

end Collisions

end Fingerprint
end ProofBuild
