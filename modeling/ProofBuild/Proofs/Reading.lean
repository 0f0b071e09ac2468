import ProofBuild.Manifest
import ProofBuild.Proofs.Cursors
import ProofBuild.Proofs.Spans

/-!
What is read from a document. A reading step ends behind what it has read, and what it gives starts in
front of a character of the text. So does the place that a manifest's misfit names, with all before it
printable or line ends (`Manifest.starts_of_parse`).
-/

namespace ProofBuild.Toml

/-- Whether an offset is that of a place reached from here, in front of a character if there are any. -/
def Cursor.Starts (origin : Cursor) (offset : Nat) : Prop :=
  ∃ here, origin.Moves here ∧ offset = here.offset origin.left ∧ (here.ahead = [] → origin.ahead = [])

section Steps
variable {origin cursor next : Cursor}

theorem Cursor.starts_of_ahead {c : Char} {rest : List Char} (reached : origin.Moves cursor)
    (ahead : cursor.ahead = c :: rest) : origin.Starts (cursor.offset origin.left) :=
  ⟨cursor, reached, rfl, fun none => by simp [ahead] at none⟩

/-- Where a text starts is a start even if there is nothing in it. -/
theorem Cursor.starts_zero : origin.Starts 0 :=
  ⟨origin, .refl _, by simp [offset], id⟩

theorem isPrintable_of_isBareKeyChar {c : Char} (among : isBareKeyChar c = true) :
    Cursor.isPrintable c = true := by
  simp only [isBareKeyChar, Bool.or_eq_true, beq_iff_eq] at among
  rcases among with (letter | rfl) | rfl
  · exact Cursor.isPrintable_of_isAlphanum letter
  · rfl
  · rfl

theorem isPrintable_of_isWordChar {c : Char} (among : isWordChar c = true) :
    Cursor.isPrintable c = true := by
  simp only [isWordChar, Bool.or_eq_true, beq_iff_eq] at among
  rcases among with ((((letter | rfl) | rfl) | rfl) | rfl) | rfl
  · exact Cursor.isPrintable_of_isAlphanum letter
  all_goals rfl

/-- A step that ends behind what it has read, which is as it should be. -/
def Step.Reads {Result : Type} (origin : Cursor) (good : Result → Prop) (step : Step Result) : Prop :=
  ∀ cursor result next, origin.Moves cursor → step cursor = some (result, next) →
    cursor.Moves next ∧ good result

/-- A key that starts in the text. -/
abbrev GoodKey (origin : Cursor) (key : Key) : Prop := origin.Starts key.span.start

theorem Cursor.moves_opening {c : Char} {rest : List Char} (ahead : cursor.ahead = c :: rest)
    (plain : isPrintable c = true) (single : c.utf8Size = 1) : cursor.Moves (cursor.advance 1) :=
  moves_run plain single (by simp [ahead])

theorem Cursor.moves_quotedName {quote : Char} {rest : List Char} {name : String}
    (ahead : cursor.ahead = quote :: rest) (plain : isPrintable quote = true)
    (single : quote.utf8Size = 1) (named : (cursor.advance 1).quotedLine? quote = some (name, next)) :
    cursor.Moves next :=
  (moves_opening ahead plain single).trans (moves_quotedLine? plain named)

theorem reads_simpleKey : Step.Reads origin (GoodKey origin) (simpleKey origin.left) := by
  intro cursor key next reached read
  unfold simpleKey at read
  dsimp only at read
  split at read
  · rename_i rest ahead
    rcases Option.bind_eq_some_iff.mp read with ⟨⟨name, further⟩, named, last⟩
    cases last
    exact ⟨Cursor.moves_quotedName ahead rfl rfl named, Cursor.starts_of_ahead reached ahead⟩
  · rename_i rest ahead
    rcases Option.bind_eq_some_iff.mp read with ⟨⟨name, further⟩, named, last⟩
    cases last
    exact ⟨Cursor.moves_quotedName ahead rfl rfl named, Cursor.starts_of_ahead reached ahead⟩
  · split at read
    · cases read
    · rename_i some
      cases read
      refine ⟨Cursor.moves_takeWhile (fun _ => isPrintable_of_isBareKeyChar) cursor, ?_⟩
      have ahead : cursor.ahead ≠ [] :=
        Cursor.ahead_of_takeWhile fun none => some (List.isEmpty_iff.mpr none)
      rcases List.exists_cons_of_ne_nil ahead with ⟨c, rest, whole⟩
      exact Cursor.starts_of_ahead reached whole

theorem reads_keyParts (fuel : Nat) :
    Step.Reads origin (Fields.KeysStart origin.Starts) (keyParts origin.left fuel) := by
  induction fuel with
  | zero =>
      intro cursor keys next reached read
      cases read
  | succ fuel ih =>
      intro cursor keys next reached read
      unfold keyParts at read
      rcases Option.bind_eq_some_iff.mp read with ⟨⟨key, further⟩, first, more⟩
      have blanks := Cursor.moves_skipBlanks cursor
      rcases reads_simpleKey _ _ _ (reached.trans blanks) first with ⟨keyed, starts⟩
      have behind := (blanks.trans keyed).trans (Cursor.moves_skipBlanks further)
      dsimp only at more
      split at more
      · cases more
        exact ⟨behind, by simpa [Fields.KeysStart] using starts⟩
      · rename_i inner dotted
        rcases Option.bind_eq_some_iff.mp more with ⟨⟨others, stop⟩, rest, last⟩
        cases last
        have inside := behind.trans (Cursor.moves_expect? rfl dotted)
        rcases ih _ _ _ (reached.trans inside) rest with ⟨on, othersStart⟩
        exact ⟨inside.trans on, List.forall_mem_cons.mpr ⟨starts, othersStart⟩⟩

theorem reads_dottedKey : Step.Reads origin
    (fun key => Fields.KeysStart origin.Starts key.1 ∧ GoodKey origin key.2)
    (dottedKey origin.left) := by
  intro cursor key next reached read
  rcases Option.bind_eq_some_iff.mp read with ⟨⟨keys, further⟩, parts, more⟩
  rcases reads_keyParts _ _ _ _ reached parts with ⟨moves, starts⟩
  dsimp only at more
  split at more
  · cases more
  · rcases Option.bind_eq_some_iff.mp more with ⟨final, ends, last⟩
    cases last
    refine ⟨moves, fun part member => ?_, starts final (List.mem_of_getLast? ends)⟩
    exact starts part ((List.dropLast_sublist keys).subset member)

/-- A step that reads a value. -/
abbrev ReadsValue (origin : Cursor) (step : Step Value) : Prop :=
  step.Reads origin (Value.Starts origin.Starts)

section Inner
variable {inner : Step Value} (reads : ReadsValue origin inner)
include reads

theorem reads_assignment : Step.Reads origin
    (fun line => Fields.KeysStart origin.Starts line.1.1 ∧ GoodKey origin line.1.2 ∧
      line.2.Starts origin.Starts) (assignment origin.left inner) := by
  intro cursor line next reached read
  rcases Option.bind_eq_some_iff.mp read with ⟨⟨key, further⟩, keyed, more⟩
  rcases reads_dottedKey _ _ _ reached keyed with ⟨first, way, starts⟩
  rcases Option.bind_eq_some_iff.mp more with ⟨behind, equals, more⟩
  rcases Option.bind_eq_some_iff.mp more with ⟨⟨given, stop⟩, valued, last⟩
  cases last
  have second := (first.trans (Cursor.moves_expect? rfl equals)).trans (Cursor.moves_skipBlanks behind)
  rcases reads _ _ _ (reached.trans second) valued with ⟨third, valueStarts⟩
  exact ⟨second.trans third, way, starts, valueStarts⟩

theorem reads_arrayRest (fuel : Nat) : Step.Reads origin
    (fun items => ∀ item ∈ items, Value.Starts origin.Starts item) (arrayRest inner fuel) := by
  induction fuel with
  | zero =>
      intro cursor items next reached read
      cases read
  | succ fuel ih =>
      intro cursor items next reached read
      unfold arrayRest at read
      dsimp only at read
      have opening := Cursor.moves_skipLines cursor
      split at read
      · rename_i stop closed
        cases read
        exact ⟨opening.trans (Cursor.moves_expect? rfl closed), by simp⟩
      · rcases Option.bind_eq_some_iff.mp read with ⟨⟨item, further⟩, first, more⟩
        rcases reads _ _ _ (reached.trans opening) first with ⟨moves, starts⟩
        have behind := (opening.trans moves).trans (Cursor.moves_skipLines further)
        dsimp only at more
        split at more
        · rename_i after separated
          rcases Option.bind_eq_some_iff.mp more with ⟨⟨others, stop⟩, rest, last⟩
          cases last
          have inside := behind.trans (Cursor.moves_expect? rfl separated)
          rcases ih _ _ _ (reached.trans inside) rest with ⟨on, othersStart⟩
          exact ⟨inside.trans on, List.forall_mem_cons.mpr ⟨starts, othersStart⟩⟩
        · rcases Option.bind_eq_some_iff.mp more with ⟨stop, closed, last⟩
          cases last
          exact ⟨behind.trans (Cursor.moves_expect? rfl closed), by simpa using starts⟩

theorem reads_inlineRest (fuel : Nat) {fields : Fields} (start : fields.Start origin.Starts) :
    Step.Reads origin (Fields.Start origin.Starts) (inlineRest origin.left inner fuel fields) := by
  induction fuel generalizing fields with
  | zero =>
      intro cursor grown next reached read
      cases read
  | succ fuel ih =>
      intro cursor grown next reached read
      unfold inlineRest at read
      rcases Option.bind_eq_some_iff.mp read with ⟨⟨⟨⟨path, key⟩, given⟩, further⟩, assigned, more⟩
      rcases reads_assignment reads _ _ _ reached assigned with ⟨moves, way, keyed, starts⟩
      rcases Option.bind_eq_some_iff.mp more with ⟨more, inserted, rest⟩
      have moreStart := Fields.start_insert way keyed starts start inserted
      have behind := moves.trans (Cursor.moves_skipBlanks further)
      dsimp only at rest
      split at rest
      · rename_i after separated
        have inside := behind.trans (Cursor.moves_expect? rfl separated)
        rcases ih moreStart _ _ _ (reached.trans inside) rest with ⟨on, grownStart⟩
        exact ⟨inside.trans on, grownStart⟩
      · rcases Option.bind_eq_some_iff.mp rest with ⟨stop, closed, last⟩
        cases last
        exact ⟨behind.trans (Cursor.moves_expect? rfl closed), moreStart⟩

theorem reads_inlineFields :
    Step.Reads origin (Fields.Start origin.Starts) (inlineFields origin.left inner) := by
  intro cursor fields next reached read
  unfold inlineFields at read
  split at read
  · rename_i stop closed
    cases read
    exact ⟨(Cursor.moves_skipBlanks cursor).trans (Cursor.moves_expect? rfl closed), Fields.start_nil⟩
  · exact reads_inlineRest reads _ Fields.start_nil _ _ _ reached read

end Inner

theorem starts_toValue {span : Span} (own : origin.Starts span.start) (scalar : Scalar) :
    (scalar.toValue span).Starts origin.Starts := by
  cases scalar with
  | integer => exact .integer own
  | float => exact .float own
  | boolean => exact .boolean own
  | moment => exact .moment own

theorem reads_scalar : ReadsValue origin (scalar origin.left) := by
  intro cursor given next reached read
  unfold scalar at read
  dsimp only at read
  rcases Option.bind_eq_some_iff.mp read with ⟨written, isWritten, last⟩
  have word : (cursor.takeWhile isWordChar).1 ≠ [] := by
    intro none
    rw [none] at isWritten
    cases isWritten
  rcases List.exists_cons_of_ne_nil (Cursor.ahead_of_takeWhile word) with ⟨c, rest, ahead⟩
  have behind := Cursor.moves_takeWhile (fun _ => isPrintable_of_isWordChar) cursor
  cases last
  refine ⟨?_, starts_toValue (Cursor.starts_of_ahead reached ahead) written⟩
  split
  · split
    · exact behind
    · rename_i time blank
      have onward := behind.trans (Cursor.moves_expect? rfl blank)
      split
      · exact onward.trans (Cursor.moves_takeWhile (fun _ => isPrintable_of_isWordChar) time)
      · exact behind
  · exact behind

/-- A finished table starts where its header or its brace does. -/
theorem starts_table {span : Span} (own : origin.Starts span.start) {fields : Fields}
    (start : fields.Start origin.Starts) :
    Value.Starts origin.Starts (.table (some span) (Draft.finishFields fields)) := by
  have draft : Draft.Starts origin.Starts (.table (.header span) fields) :=
    start.draft fun other same => by
      cases same
      exact own
  exact draft.finish Cursor.starts_zero

theorem reads_string {quote : Char} {rest : List Char} {text : String} (reached : origin.Moves cursor)
    (ahead : cursor.ahead = quote :: rest) (plain : Cursor.isPrintable quote = true)
    (single : quote.utf8Size = 1) (quoted : cursor.quotedText? quote = some (text, next)) :
    cursor.Moves next ∧ Value.Starts origin.Starts (.string (cursor.spanTo next origin.left) text) := by
  have opened : 1 ≤ Cursor.countQuotes quote cursor.ahead := by simp [Cursor.countQuotes, ahead]
  exact ⟨Cursor.moves_quotedText? plain single opened quoted,
    .string (Cursor.starts_of_ahead reached ahead)⟩

theorem reads_value (depth : Nat) : ReadsValue origin (value origin.left depth) := by
  induction depth using Nat.strong_induction_on with
  | h depth ih =>
      intro cursor given next reached read
      unfold value at read
      split at read
      · rename_i rest _ ahead
        rcases Option.bind_eq_some_iff.mp read with ⟨⟨text, further⟩, quoted, last⟩
        cases last
        exact reads_string reached ahead rfl rfl quoted
      · rename_i rest _ ahead
        rcases Option.bind_eq_some_iff.mp read with ⟨⟨text, further⟩, quoted, last⟩
        cases last
        exact reads_string reached ahead rfl rfl quoted
      · rename_i rest depth ahead
        rcases Option.bind_eq_some_iff.mp read with ⟨⟨items, further⟩, listed, last⟩
        cases last
        have opening := Cursor.moves_opening ahead rfl rfl
        rcases reads_arrayRest (ih depth (Nat.lt_succ_self depth)) _ _ _ _ (reached.trans opening) listed
          with ⟨moves, starts⟩
        exact ⟨opening.trans moves, .array (Cursor.starts_of_ahead reached ahead) starts⟩
      · rename_i rest depth ahead
        rcases Option.bind_eq_some_iff.mp read with ⟨⟨fields, further⟩, listed, last⟩
        cases last
        have opening := Cursor.moves_opening ahead rfl rfl
        rcases reads_inlineFields (ih depth (Nat.lt_succ_self depth)) _ _ _ (reached.trans opening) listed
          with ⟨moves, start⟩
        exact ⟨opening.trans moves, starts_table (Cursor.starts_of_ahead reached ahead) start⟩
      · exact reads_scalar _ _ _ reached read

/-- What the lines so far have made starts in the text. -/
structure Reading.Start (origin : Cursor) (reading : Reading) : Prop where
  span : reading.span.start = 0
  fields : reading.fields.Start origin.Starts
  current : ∀ around table, reading.current = some (around, table) →
    Fields.KeysStart origin.Starts around ∧ GoodKey origin table

section Lines
variable {reading : Reading} (start : reading.Start origin)
include start

theorem reads_headerLine {cursor next : Cursor} {opened : Reading} {rest : List Char}
    (reached : origin.Moves cursor) (ahead : cursor.ahead = '[' :: rest)
    (read : headerLine origin.left reading cursor = some (opened, next)) :
    cursor.Moves next ∧ opened.Start origin := by
  unfold headerLine at read
  dsimp only at read
  have opening : cursor.Moves
      (cursor.advance (if cursor.ahead.take 2 = ['[', '['] then 2 else 1)) := by
    split
    · rename_i double
      exact Cursor.moves_run rfl rfl double
    · exact Cursor.moves_opening ahead rfl rfl
  generalize (if cursor.ahead.take 2 = ['[', '['] then 2 else 1) = brackets at opening read
  rcases Option.bind_eq_some_iff.mp read with ⟨⟨⟨path, key⟩, further⟩, keyed, more⟩
  rcases reads_dottedKey _ _ _ (reached.trans opening) keyed with ⟨moves, way, keyStarts⟩
  dsimp only at more
  split at more
  · cases more
  · rename_i closes
    have closing := Cursor.moves_run rfl rfl (not_not.mp closes)
    rcases Option.bind_eq_some_iff.mp more with ⟨fields, grown, more⟩
    rcases Option.bind_eq_some_iff.mp more with ⟨stop, ended, last⟩
    cases last
    have own := Cursor.starts_of_ahead reached ahead
    refine ⟨((opening.trans moves).trans closing).trans (Cursor.moves_finishLine? ended), start.span, ?_, ?_⟩
    · refine Fields.start_within (fun old new oldStart made => ?_) way start.fields grown
      split at made
      · exact Fields.start_openElement keyStarts own oldStart made
      · exact Fields.start_openTable keyStarts own oldStart made
    · rintro around table same
      cases same
      exact ⟨way, keyStarts⟩

theorem reads_assignmentLine {cursor next : Cursor} {grown : Reading} (reached : origin.Moves cursor)
    (read : assignmentLine origin.left reading cursor = some (grown, next)) :
    cursor.Moves next ∧ grown.Start origin := by
  rcases Option.bind_eq_some_iff.mp read with ⟨⟨⟨⟨path, key⟩, given⟩, further⟩, assigned, more⟩
  rcases reads_assignment (reads_value _) _ _ _ reached assigned with ⟨moves, way, keyed, starts⟩
  dsimp only at more
  split at more
  · rename_i root
    rcases Option.bind_eq_some_iff.mp more with ⟨⟨span, fields⟩, inserted, more⟩
    rcases Option.bind_eq_some_iff.mp more with ⟨stop, ended, last⟩
    rcases Option.map_eq_some_iff.mp inserted with ⟨fields, grows, same⟩
    cases same
    cases last
    refine ⟨moves.trans (Cursor.moves_finishLine? ended), ?_, ?_, start.current⟩
    · exact (Fields.start_reachedFrom given reading.span).trans start.span
    · exact Fields.start_insert way keyed starts start.fields grows
  · rename_i around table inside
    rcases Option.bind_eq_some_iff.mp more with ⟨⟨span, fields⟩, inserted, more⟩
    rcases Option.bind_eq_some_iff.mp more with ⟨stop, ended, last⟩
    rcases Option.map_eq_some_iff.mp inserted with ⟨fields, grows, same⟩
    cases same
    cases last
    rcases start.current around table inside with ⟨aroundWay, tableKeyed⟩
    refine ⟨moves.trans (Cursor.moves_finishLine? ended), start.span, ?_, start.current⟩
    refine Fields.start_within (fun old new oldStart made => ?_) aroundWay start.fields grows
    exact Fields.start_addLine way keyed starts tableKeyed oldStart made

theorem start_of_lines {fuel : Nat} {cursor : Cursor} {last : Reading} (reached : origin.Moves cursor)
    (read : lines origin.left fuel reading cursor = some last) : last.Start origin := by
  induction fuel generalizing reading cursor with
  | zero => cases read
  | succ fuel ih =>
      have here := reached.trans (Cursor.moves_skipBlanks cursor)
      have skips (rest : (cursor.skipBlanks.finishLine?.bind fun next =>
          lines origin.left fuel reading next) = some last) : last.Start origin := by
        rcases Option.bind_eq_some_iff.mp rest with ⟨next, ended, more⟩
        exact ih start (here.trans (Cursor.moves_finishLine? ended)) more
      unfold lines at read
      dsimp only at read
      split at read
      · cases read
        exact start
      · exact skips read
      · exact skips read
      · exact skips read
      · rename_i rest ahead
        rcases Option.bind_eq_some_iff.mp read with ⟨⟨opened, next⟩, header, more⟩
        rcases reads_headerLine start here ahead header with ⟨moves, openedStart⟩
        exact ih openedStart (here.trans moves) more
      · rcases Option.bind_eq_some_iff.mp read with ⟨⟨grown, next⟩, assigned, more⟩
        rcases reads_assignmentLine start here assigned with ⟨moves, grownStart⟩
        exact ih grownStart (here.trans moves) more

end Lines

end Steps

/-- Every place of a document starts in front of a character of its text. -/
theorem starts_of_read? {text : String} {document : Value} (read : read? text = some document) :
    document.Starts (Cursor.ofText text).Starts := by
  unfold read? at read
  dsimp only at read
  rcases Option.map_eq_some_iff.mp read with ⟨reading, lined, rfl⟩
  have opened : ∃ opening, (Cursor.ofText text).Moves opening ∧
      lines (Cursor.ofText text).left ((Cursor.ofText text).left + 2) ⟨⟨0, 0⟩, [], none⟩ opening =
        some reading := by
    split at lined
    · rename_i rest ahead
      exact ⟨_, Cursor.moves_after ahead rfl, lined⟩
    · exact ⟨_, .refl _, lined⟩
  rcases opened with ⟨opening, opens, lined⟩
  have blank : Reading.Start (Cursor.ofText text) ⟨⟨0, 0⟩, [], none⟩ :=
    ⟨rfl, Fields.start_nil, by simp⟩
  have start := start_of_lines blank opens lined
  exact starts_table (start.span ▸ Cursor.starts_zero) start.fields

section Schema
variable {place : Nat → Prop}

/-- Whether the place that a misfit names, if it names one, starts where this holds. -/
def Misfit.Starts (place : Nat → Prop) (misfit : Misfit) : Prop :=
  ∀ span, misfit.span = some span → place span.start

/-- Whether a reader's misfits name places of the value that is read. -/
def Faithful {Result : Type} (place : Nat → Prop) (read : Value → Decoded Result) : Prop :=
  ∀ value misfit, value.Starts place → read value = .error misfit → misfit.Starts place

theorem Misfit.Starts.orAt {misfit : Misfit} (starts : misfit.Starts place) {span : Span}
    (own : place span.start) : (misfit.orAt span).Starts place := by
  intro named same
  unfold Misfit.orAt at same
  cases known : misfit.span with
  | none =>
      simp only [known, Option.none_or, Option.some.injEq] at same
      exact same ▸ own
  | some other =>
      simp only [known, Option.some_or, Option.some.injEq] at same
      exact starts named (same ▸ known)

theorem starts_mismatch {value : Value} (starts : value.Starts place) (wanted : String) :
    (value.mismatch wanted).Starts place :=
  fun _ named => starts.own named

theorem faithful_readText (wanted : String) : Faithful place (Value.readText wanted) := by
  intro value misfit starts failed
  cases value with
  | string => cases failed
  | integer | float | boolean | moment | array | table =>
      cases failed
      exact starts_mismatch starts wanted

/-- What is made of a value that was read has nothing to add. -/
theorem Faithful.andMake {Part Result : Type} {read : Value → Decoded Part}
    (faithful : Faithful place read) (make : Part → Result) :
    Faithful place fun value => do return make (← read value) := by
  intro value misfit starts failed
  rcases bind_eq_error failed with unread | ⟨part, _, last⟩
  · exact faithful value misfit starts unread
  · cases last

theorem faithful_readString : Faithful place Value.readString := faithful_readText "a string"

theorem faithful_readPath : Faithful place Value.readPath :=
  (faithful_readText "path string").andMake Path.mk

theorem error_of_mapM {Item Result : Type} {read : Item → Decoded Result} {items : List Item}
    {misfit : Misfit} (failed : items.mapM read = .error misfit) :
    ∃ item ∈ items, read item = .error misfit := by
  induction items with
  | nil => cases failed
  | cons item rest ih =>
      rw [List.mapM_cons] at failed
      rcases bind_eq_error failed with first | ⟨result, _, more⟩
      · exact ⟨item, List.mem_cons_self, first⟩
      · rcases bind_eq_error more with later | ⟨results, _, last⟩
        · rcases ih later with ⟨other, member, unread⟩
          exact ⟨other, List.mem_cons_of_mem item member, unread⟩
        · cases last

theorem faithful_readList {Result : Type} {read : Value → Decoded Result}
    (faithful : Faithful place read) : Faithful place (Value.readList read) := by
  intro value misfit starts failed
  cases value with
  | array span items =>
      rcases error_of_mapM failed with ⟨item, member, unread⟩
      cases starts with
      | array own inner => exact faithful item misfit (inner item member) unread
  | string | integer | float | boolean | moment | table =>
      cases failed
      exact starts_mismatch starts _

namespace Schema
variable {Record : Type} {schema : Schema Record}

/-- Whether fields are read faithfully. -/
def Faithful (place : Nat → Prop) (fields : List (Field Record)) : Prop :=
  ∀ field ∈ fields, ∀ record, Toml.Faithful place fun value => field.read value record

theorem faithful_nil : Faithful place ([] : List (Field Record)) := by
  intro field member
  cases member

theorem faithful_cons {field : Field Record} {rest : List (Field Record)}
    (first : ∀ record, Toml.Faithful place fun value => field.read value record)
    (others : Faithful place rest) : Faithful place (field :: rest) :=
  List.forall_mem_cons.mpr ⟨first, others⟩

theorem starts_readKey (faithful : Faithful place schema.fields) {record : Record} {key : Key}
    {value : Value} (keyed : place key.span.start) (starts : value.Starts place) {misfit : Misfit}
    (failed : schema.readKey record key value = .error misfit) : misfit.Starts place := by
  unfold readKey at failed
  split at failed
  · cases failed
    rintro span same
    cases same
    exact keyed
  · rename_i field found
    cases ended : field.read value record with
    | ok result =>
        rw [ended] at failed
        cases failed
    | error inner =>
        rw [ended] at failed
        cases failed
        exact (faithful field (List.mem_of_find?_eq_some found) record value inner starts ended).orAt
          keyed

theorem starts_ofTable (faithful : Faithful place schema.fields) {span : Option Span}
    {given : List (Key × Value)} (starts : Value.Starts place (.table span given)) {misfit : Misfit}
    (failed : schema.ofTable span given = .error misfit) : misfit.Starts place := by
  cases starts with
  | table own keys inner =>
      have filled : ∀ entries : List (Key × Value), (∀ entry ∈ entries, entry ∈ given) →
          ∀ record, entries.foldlM (fun record entry => schema.readKey record entry.1 entry.2) record =
            .error misfit → misfit.Starts place := by
        intro entries
        induction entries with
        | nil =>
            intro _ record unfilled
            cases unfilled
        | cons entry rest ih =>
            intro listed record unfilled
            rcases List.forall_mem_cons.mp listed with ⟨first, others⟩
            rw [List.foldlM_cons] at unfilled
            rcases bind_eq_error unfilled with unread | ⟨more, _, later⟩
            · exact starts_readKey faithful (keys entry first) (inner entry first) unread
            · exact ih others more later
      rcases bind_eq_error failed with unfilled | ⟨record, _, lacking⟩
      · exact filled given (fun _ => id) _ unfilled
      · split at lacking
        · cases lacking
          exact own
        · cases lacking

theorem starts_readPlaces {title : String} {span : Span} {count : Nat} (own : place span.start)
    {fields : List (Field Record)} (faithful : Faithful place fields) {items : List Value}
    (inner : ∀ item ∈ items, item.Starts place) {index : Nat} {record : Record} {misfit : Misfit}
    (failed : readPlaces title span count index fields items record = .error misfit) :
    misfit.Starts place := by
  induction fields generalizing items index record with
  | nil => cases failed
  | cons field rest ih =>
      rcases List.forall_mem_cons.mp faithful with ⟨first, others⟩
      cases items with
      | nil =>
          unfold readPlaces at failed
          split at failed
          · exact ih others inner failed
          · cases failed
            rintro named same
            cases same
            exact own
      | cons item items =>
          rcases List.forall_mem_cons.mp inner with ⟨itemStarts, itemsStart⟩
          unfold readPlaces at failed
          rcases bind_eq_error failed with unread | ⟨more, _, later⟩
          · exact first record item misfit itemStarts unread
          · exact ih others itemsStart later

theorem faithful_read (faithful : Faithful place schema.fields) :
    Toml.Faithful place schema.read := by
  intro value misfit starts failed
  cases value with
  | table span given => exact starts_ofTable faithful starts failed
  | array span items =>
      cases starts with
      | array own inner => exact starts_readPlaces own faithful inner failed
  | moment span =>
      cases starts with
      | moment own =>
          cases failed
          rintro named same
          cases same
          exact own
  | string | integer | float | boolean =>
      cases failed
      exact starts_mismatch starts _

end Schema

end Schema

end ProofBuild.Toml

namespace ProofBuild.Manifest
open Toml

variable {place : Nat → Prop}

theorem faithful_toolchain : Schema.Faithful place toolchainSchema.fields :=
  Schema.faithful_cons (fun _ => faithful_readPath.andMake _) <|
  Schema.faithful_cons (fun _ => faithful_readString.andMake _) <|
  Schema.faithful_cons (fun _ => faithful_readString.andMake _) <|
  Schema.faithful_cons (fun _ => faithful_readString.andMake _) Schema.faithful_nil

theorem faithful_unit : Schema.Faithful place unitSchema.fields :=
  Schema.faithful_cons (fun _ => faithful_readString.andMake _) <|
  Schema.faithful_cons (fun _ => (faithful_readList faithful_readPath).andMake _) <|
  Schema.faithful_cons (fun _ => faithful_readPath.andMake _) <|
  Schema.faithful_cons (fun _ => faithful_readString.andMake _) <|
  Schema.faithful_cons (fun _ => (faithful_readList faithful_readString).andMake _) <|
  Schema.faithful_cons (fun _ => (faithful_readList faithful_readString).andMake _)
    Schema.faithful_nil

theorem faithful_schema : Schema.Faithful place schema.fields :=
  Schema.faithful_cons (fun _ => (Schema.faithful_read faithful_toolchain).andMake _) <|
  Schema.faithful_cons
    (fun _ => (faithful_readList (Schema.faithful_read faithful_unit)).andMake _) Schema.faithful_nil

/-- The place that a misfit of a document names starts in front of a character of the text. -/
theorem starts_of_parse {source : String} {problem : ManifestProblem} {span : Span}
    (failed : parse source = .error (.manifest problem (some span))) (misfits : problem ≠ .malformed) :
    (Cursor.ofText source).Starts span.start := by
  unfold parse at failed
  split at failed
  · cases failed
    exact absurd rfl misfits
  · rename_i document read
    cases ended : ofDocument document with
    | ok manifest => simp [ended, Except.mapError] at failed
    | error misfit =>
        have starts : misfit.Starts (Cursor.ofText source).Starts :=
          Schema.faithful_read faithful_schema document misfit (starts_of_read? read) ended
        rw [ended, Except.mapError] at failed
        split at failed
        · simp only [Except.error.injEq, Error.manifest.injEq] at failed
          exact starts span failed.2
        · cases failed
          exact absurd rfl misfits

end ProofBuild.Manifest
