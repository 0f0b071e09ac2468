import ProofBuild.Proofs.Markable
import ProofBuild.Proofs.Retained

/-!
Recorded fingerprints are read back as they were recorded. The reader of documents runs one character at
a time, so what it does with a text that was written is stated for the text in any place: in front of
any rest, inside any containers. A string, an object of readable values and a table are readable in
this sense. Main statement: a file that was saved loads as the entries that were saved
(`Cache.of_save`).
-/

namespace ProofBuild

theorem Utf8.decode?_encode (text : String) : Utf8.decode? (Utf8.encode text) = some text := by
  have bytes : (⟨(Utf8.encode text).toArray⟩ : ByteArray) = text.toByteArray := by
    simp [Utf8.encode]
  unfold decode?
  rw [bytes, String.fromUTF8?, dif_pos text.isValidUTF8]
  rfl

namespace Json

/-- The codes of characters spell the characters: none of them is half of a pair. -/
theorem textOfCodes_toNat (characters : List Char) :
    textOfCodes (characters.map Char.toNat) = some characters := by
  have whole (c : Char) : c.toNat < 0xD800 ∨ 0xDFFF < c.toNat := by
    rcases c.valid with low | ⟨high, _⟩
    · exact .inl low
    · exact .inr high
  induction characters with
  | nil => rfl
  | cons c rest ih =>
      cases rest with
      | nil =>
          have lone : ¬ (0xD800 ≤ c.toNat ∧ c.toNat ≤ 0xDFFF) := by
            have := whole c
            omega
          simp only [List.map_cons, List.map_nil, textOfCodes, lone, ↓reduceIte, Char.ofNat_toNat]
      | cons next rest =>
          have notHigh : ¬ (0xD800 ≤ c.toNat ∧ c.toNat ≤ 0xDBFF) := by
            have := whole c
            omega
          have notLow : ¬ (0xDC00 ≤ c.toNat ∧ c.toNat ≤ 0xDFFF) := by
            have := whole c
            omega
          simp only [List.map_cons] at ih ⊢
          simp only [textOfCodes, notHigh, notLow, ↓reduceIte, ih, Option.map_some, Char.ofNat_toNat]

section Strings
variable (stack : List Open) (fields : Option (List (Literal × Json Literal)))

theorem run_cons (machine : Machine) (c : Char) (rest : List Char) :
    run machine (c :: rest) = (step machine c).bind (run · rest) := by
  rw [run]
  cases step machine c <;> rfl

/-- The reader takes an escaped character for the character. -/
theorem run_escape (codes : List Nat) (c : Char) (rest : List Char) :
    run ⟨stack, .string fields codes .plain⟩ (escape c ++ rest) =
      run ⟨stack, .string fields (c.toNat :: codes) .plain⟩ rest := by
  unfold escape
  split
  · subst_vars; rfl
  split
  · subst_vars; rfl
  split
  · subst_vars; rfl
  split
  · subst_vars; rfl
  split
  · subst_vars; rfl
  split
  · subst_vars; rfl
  split
  · subst_vars; rfl
  split
  · have high := Text.hexValue?_hexDigit (c.toNat / 16) (by omega)
    have low := Text.hexValue?_hexDigit (c.toNat % 16) (by omega)
    have zero : Text.hexValue? '0' = some 0 := by decide
    have joined : c.toNat / 16 * 16 + c.toNat % 16 = c.toNat := by omega
    simp [run_cons, step, stepString, high, low, zero, joined]
  · rename_i notQuote notBackslash _ _ _ _ _ printable
    simp [run_cons, step, stepString, notQuote, notBackslash, printable]

theorem run_characters (codes : List Nat) (characters rest : List Char) :
    run ⟨stack, .string fields codes .plain⟩ (characters.flatMap escape ++ rest) =
      run ⟨stack, .string fields ((characters.map Char.toNat).reverse ++ codes) .plain⟩ rest := by
  induction characters generalizing codes with
  | nil => rfl
  | cons c characters ih =>
      rw [List.flatMap_cons, List.append_assoc, run_escape, ih, List.map_cons, List.reverse_cons,
        List.append_assoc]
      rfl

end Strings

/-- A text that reads as a value, whatever stands around it. -/
def Reads (text : List Char) (value : Json Literal) : Prop :=
  ∀ stack rest, run ⟨stack, .value⟩ (text ++ rest) = run ⟨stack, .after value⟩ rest

theorem reads_quote (text : String) : Reads (quote text) (.string (some text)) := by
  intro stack rest
  have codes : textOfCodes (text.toList.map Char.toNat) = some text.toList :=
    textOfCodes_toNat text.toList
  rw [quote, List.cons_append, run_cons, List.append_assoc]
  show run ⟨stack, .string none [] .plain⟩ _ = _
  rw [run_characters]
  simp [run_cons, step, stepString, codes]

/-- Blanks in front of a part are passed over. -/
theorem run_newline {machine : Machine} (still : ∀ c, isSpace c = true → step machine c = some machine)
    (depth : Nat) (rest : List Char) : run machine (newline depth ++ rest) = run machine rest := by
  have blanks (count : Nat) : run machine (List.replicate count ' ' ++ rest) = run machine rest := by
    induction count with
    | zero => rfl
    | succ count ih => rw [List.replicate_succ, List.cons_append, run_cons, still ' ' rfl]; exact ih
  rw [newline, List.cons_append, run_cons, still '\n' rfl]
  exact blanks _

/-- The reader before a key. -/
inductive AtKey (done : List (Literal × Json Literal)) : Focus → Prop where
  | first : AtKey done (.firstKey done)
  | next : AtKey done (.nextKey done)

theorem run_key {stack : List Open} {done : List (Literal × Json Literal)} {focus : Focus}
    (atKey : AtKey done focus) (depth : Nat) (key : String) {text : List Char}
    {value : Json Literal} (reads : Reads text value) (rest : List Char) :
    run ⟨stack, focus⟩ (newline depth ++ (quote key ++ (':' :: ' ' :: (text ++ rest)))) =
      run ⟨.object done (some key) :: stack, .after value⟩ rest := by
  have codes : textOfCodes (key.toList.map Char.toNat) = some key.toList :=
    textOfCodes_toNat key.toList
  have opened (more : List Char) : run ⟨stack, focus⟩ ('"' :: more) =
      run ⟨stack, .string (some done) [] .plain⟩ more := by
    cases atKey <;> rfl
  rw [run_newline (by cases atKey <;> intro c space <;> simp [step, space]), quote, List.cons_append,
    opened, List.append_assoc, run_characters]
  simpa [run_cons, step, stepString, codes, isSpace] using
    reads (.object done (some key) :: stack) rest

section Objects
variable {Part : Type} (key : Part → String) {written : Part → Json String}
  {value : Part → Json Literal}

theorem run_fields {stack : List Open} {depth outer : Nat} {done : List (Literal × Json Literal)}
    {first : Literal} {found : Json Literal} {parts : List Part}
    (readable : ∀ part ∈ parts, Reads (render depth (written part)) (value part))
    (rest : List Char) :
    run ⟨.object done first :: stack, .after found⟩
        (renderFields depth (parts.map fun part => (key part, written part)) ++
          (newline outer ++ '}' :: rest)) =
      run ⟨stack, .after (.object (done.reverse ++
        (first, found) :: parts.map fun part => (some (key part), value part)))⟩ rest := by
  induction parts generalizing done first found with
  | nil =>
      rw [List.map_nil, renderFields, List.nil_append,
        run_newline (by intro c space; simp [step, continueAfter, space])]
      simp [run_cons, step, continueAfter, isSpace]
  | cons part parts ih =>
      rcases List.forall_mem_cons.mp readable with ⟨reads, others⟩
      rw [List.map_cons, renderFields]
      simp only [List.cons_append, List.append_assoc, List.nil_append]
      rw [run_cons]
      show run ⟨stack, .nextKey ((first, found) :: done)⟩ _ = _
      rw [run_key .next depth (key part) reads, ih others]
      simp

/-- An object of readable values is readable. -/
theorem reads_object {depth : Nat} {parts : List Part}
    (readable : ∀ part ∈ parts, Reads (render (depth + 1) (written part)) (value part)) :
    Reads (render depth (.object (parts.map fun part => (key part, written part))))
      (.object (parts.map fun part => (some (key part), value part))) := by
  intro stack rest
  cases parts with
  | nil =>
      rw [List.map_nil, render]
      rfl
  | cons part parts =>
      rcases List.forall_mem_cons.mp readable with ⟨reads, others⟩
      rw [List.map_cons, render]
      simp only [List.cons_append, List.append_assoc, List.nil_append]
      rw [run_cons]
      show run ⟨stack, .firstKey []⟩ _ = _
      rw [run_key .first (depth + 1) (key part) reads, run_fields key others]
      rfl

end Objects

/-- A document that is readable at the outermost level reads as its value. -/
theorem read?_pretty {document : Json String} {value : Json Literal}
    (reads : Reads (render 0 document) value) : read? document.pretty = some value := by
  have ends := reads [] []
  rw [List.append_nil] at ends
  simp [read?, pretty, start, ends, run, finish]

end Json

namespace Table

theorem get?_foldl_insert {entries : List (String × String)} (increasing : Increasing entries)
    (table : Table) (key : String) :
    (entries.foldl (fun table pair => table.insert pair.1 pair.2) table).get? key =
      (find key entries).or (table.get? key) := by
  induction entries generalizing table with
  | nil => rfl
  | cons first rest ih =>
      rcases List.pairwise_cons.mp increasing with ⟨below, ordered⟩
      rw [List.foldl_cons, ih ordered, get?_insert, find]
      by_cases same : key = first.1
      · rw [find_eq_none_of_below fun entry later => same ▸ below entry later]
        simp [same]
      · simp [same]

/-- A table is the table of its entries. -/
theorem ofList_entries (table : Table) : ofList table.entries = table := by
  apply ext_get?
  intro key
  rw [ofList, get?_foldl_insert table.increasing, get?_empty, Option.or_none]
  rfl

end Table

namespace Cache
open FileTree

/-- A table as it is read. -/
def tableRead (table : Table) : Json Json.Literal :=
  .object (table.entries.map fun entry => (some entry.1, .string (some entry.2)))

theorem reads_ofTable (depth : Nat) (table : Table) :
    Json.Reads (Json.render depth (Json.ofTable table.entries)) (tableRead table) := by
  apply Json.reads_object Prod.fst
  intro entry _
  rw [Json.render]
  exact Json.reads_quote entry.2

theorem tableOf?_tableRead (table : Table) : tableOf? (tableRead table) = some table := by
  have pairs (entries : List (String × String)) :
      (entries.map fun entry => (some entry.1, Json.string (some entry.2))).mapM
        (fun field : Json.Literal × Json Json.Literal => do
          return (← field.1, ← textOf? field.2)) = some entries := by
    induction entries with
    | nil => rfl
    | cons entry rest ih =>
        rw [List.map_cons, List.mapM_cons, ih]
        rfl
  simp only [tableRead, tableOf?, pairs]
  exact congrArg some table.ofList_entries

/-- What is written is read back, but for the look-ups. -/
theorem decode?_encode (cache : Cache) : decode? cache.encode = some ⟨cache.entries, .zero⟩ := by
  have readable : ∀ table ∈ [cache.entries],
      Json.Reads (Json.render 1 (Json.ofTable table.entries)) (tableRead table) :=
    fun table _ => reads_ofTable 1 table
  have reads : Json.Reads (Json.render 0 cache.toJson)
      (.object [(some "entries", tableRead cache.entries)]) :=
    Json.reads_object (fun _ => "entries") readable
  rw [decode?, encode, Json.read?_pretty reads]
  simp [entriesOf?, tableOf?_tableRead]

/-- The name of the file of recorded fingerprints. -/
theorem ordinaryName_file : Path.OrdinaryName "action-cache.json" := by
  constructor <;> decide

theorem ordinaryName_lastPiece_pathIn (directory : Path) :
    Path.OrdinaryName (pathIn directory).lastPiece := by
  rw [pathIn, Path.lastPiece_child (by decide)]
  exact ordinaryName_file

/-- Whether the file can be written does not depend on what is recorded. -/
theorem exists_save_eq_ok_iff {tree grown : FileTree} {directory : Path} (inward : directory.Inward)
    (made : tree.makeDirectories directory = (grown, .ok ())) (cache : Cache) :
    (∃ after, cache.save tree directory = (after, .ok ())) ↔
      (pathIn directory).Usable ∧ grown.Directory (directory.place grown.workingDirectory) ∧
        ¬ grown.Directory ("action-cache.json" :: directory.place grown.workingDirectory) := by
  rw [pathIn, ← exists_write_child_eq_ok_iff inward ordinaryName_file (Utf8.encode cache.encode), save,
    made, pathIn]
  dsimp only
  cases grown.write (directory.child "action-cache.json") (Utf8.encode cache.encode) with
  | error error => simp
  | ok written => simp

/-- A save makes the directories and then writes the file, or fails and does no more than the first. -/
theorem save_cases {cache : Cache} {tree after : FileTree} {directory : Path} {outcome : Outcome Unit}
    (saved : cache.save tree directory = (after, outcome)) :
    (∃ error, outcome = .error (.io (.writing (pathIn directory)) (.file error)) ∧
      after = (tree.makeDirectories directory).1) ∨
    outcome = .ok () ∧
      (tree.makeDirectories directory).1.write (pathIn directory) (Utf8.encode cache.encode) =
        .ok after := by
  unfold save at saved
  rcases made : tree.makeDirectories directory with ⟨grown, done⟩
  rw [made] at saved
  cases done with
  | error error =>
      cases saved
      exact .inl ⟨error, rfl, rfl⟩
  | ok =>
      dsimp only at saved ⊢
      cases put : grown.write (pathIn directory) (Utf8.encode cache.encode) with
      | error error =>
          rw [put] at saved
          cases saved
          exact .inl ⟨error, rfl, rfl⟩
      | ok written =>
          rw [put] at saved
          cases saved
          exact .inr ⟨rfl, rfl⟩

/-- Saving takes nothing away, and what was saved is loaded. -/
theorem of_save {cache : Cache} {tree after : FileTree} {directory : Path}
    (saved : cache.save tree directory = (after, .ok ())) :
    Retains ∅ tree after ∧ load after directory = .ok ⟨cache.entries, .zero⟩ := by
  rcases save_cases saved with ⟨_, failed, _⟩ | ⟨_, put⟩
  · cases failed
  · rcases of_write (ordinaryName_lastPiece_pathIn directory) put with ⟨filled, content⟩
    refine ⟨(retains_makeDirectories tree directory).trans filled, ?_⟩
    have text : after.readText (pathIn directory) = .ok cache.encode := by
      simp [readText, content, bind, Except.bind, Utf8.decode?_encode]
    unfold load
    simp only [text, decode?_encode]

end Cache

end ProofBuild
