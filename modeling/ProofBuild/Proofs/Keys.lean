import Mathlib.Data.List.Nodup
import ProofBuild.Proofs.Spans
import ProofBuild.Toml.Reader

/-!
No table of a document has a key twice. A line changes the field of its key if there is one and adds
one if there is none, and what opens a table takes its field away before it puts it at the end. Main
statement: `distinct_of_read?`.
-/

namespace ProofBuild.Toml

/-- No table in a value has two fields of one name. -/
inductive Value.Distinct : Value → Prop where
  | string (span : Span) (text : String) : Distinct (.string span text)
  | integer (span : Span) (value : Int) : Distinct (.integer span value)
  | float (span : Span) (value : Binary64) : Distinct (.float span value)
  | boolean (span : Span) (value : Bool) : Distinct (.boolean span value)
  | moment (span : Span) : Distinct (.moment span)
  | array {span : Span} {items : List Value} (inner : ∀ item ∈ items, Distinct item) :
      Distinct (.array span items)
  | table {span : Option Span} {fields : List (Key × Value)}
      (names : (fields.map (·.1.name)).Nodup) (inner : ∀ field ∈ fields, Distinct field.2) :
      Distinct (.table span fields)

/-- The same for a document that is still read. -/
inductive Draft.Distinct : Draft → Prop where
  | value {held : Value} (distinct : held.Distinct) : Distinct (.value held)
  | table {origin : Origin} {fields : Fields} (names : (fields.map (·.1.name)).Nodup)
      (inner : ∀ field ∈ fields, Distinct field.2) : Distinct (.table origin fields)
  | tables {elements : List (Span × Fields)}
      (names : ∀ element ∈ elements, (element.2.map (·.1.name)).Nodup)
      (inner : ∀ element ∈ elements, ∀ field ∈ element.2, Distinct field.2) :
      Distinct (.tables elements)

theorem Draft.Distinct.finish {draft : Draft} (distinct : draft.Distinct) :
    draft.finish.Distinct := by
  have fieldsOf {fields : Fields} (names : (fields.map (·.1.name)).Nodup)
      (inner : ∀ field ∈ fields, field.2.finish.Distinct) (span : Option Span) :
      Value.Distinct (.table span (Draft.finishFields fields)) := by
    rw [finishFields_eq_map]
    exact .table (by rwa [List.map_map]) (List.forall_mem_map.mpr inner)
  induction distinct with
  | value distinct => exact distinct
  | @table origin fields names inner ih =>
      cases origin with
      | header | implied | dotted => exact fieldsOf names ih _
  | @tables elements names inner ih =>
      rw [Draft.finish, finishElements_eq_map]
      refine .array fun item member => ?_
      rcases List.mem_map.mp (List.mem_reverse.mp member) with ⟨element, listed, rfl⟩
      exact fieldsOf (names element listed) (ih element listed) _

namespace Fields
variable {fields altered : Fields} {key : Key}

/-- The same for the fields of a table. -/
structure Distinct (fields : Fields) : Prop where
  names : (fields.map (·.1.name)).Nodup
  inner : ∀ field ∈ fields, field.2.Distinct

theorem distinct_nil : Distinct [] := ⟨List.nodup_nil, by simp⟩

theorem distinct_cons {draft : Draft} :
    Distinct ((key, draft) :: fields) ↔
      (key.name ∉ fields.map (·.1.name) ∧ draft.Distinct) ∧ Distinct fields := by
  constructor
  · rintro ⟨names, inner⟩
    rcases List.nodup_cons.mp names with ⟨new, others⟩
    rcases List.forall_mem_cons.mp inner with ⟨own, rest⟩
    exact ⟨⟨new, own⟩, others, rest⟩
  · rintro ⟨⟨new, own⟩, others, rest⟩
    exact ⟨List.nodup_cons.mpr ⟨new, others⟩, List.forall_mem_cons.mpr ⟨own, rest⟩⟩

theorem Distinct.draft (distinct : Distinct fields) (origin : Origin) :
    Draft.Distinct (.table origin fields) :=
  .table distinct.names distinct.inner

theorem distinct_of_table {origin : Origin} (distinct : Draft.Distinct (.table origin fields)) :
    Distinct fields := by
  cases distinct with
  | table names inner => exact ⟨names, inner⟩

theorem distinct_tables_cons {span : Span} {before : List (Span × Fields)} :
    Draft.Distinct (.tables ((span, fields) :: before)) ↔
      Distinct fields ∧ Draft.Distinct (.tables before) := by
  constructor
  · intro distinct
    cases distinct with
    | tables names inner =>
        rcases List.forall_mem_cons.mp names with ⟨namesFirst, namesRest⟩
        rcases List.forall_mem_cons.mp inner with ⟨innerFirst, innerRest⟩
        exact ⟨⟨namesFirst, innerFirst⟩, .tables namesRest innerRest⟩
  · rintro ⟨first, others⟩
    cases others with
    | tables names inner =>
        exact .tables (List.forall_mem_cons.mpr ⟨first.names, names⟩)
          (List.forall_mem_cons.mpr ⟨first.inner, inner⟩)

section Alter
variable {change : Option Draft → Option Draft}

theorem names_of_alter (changed : alter key change fields = some altered) {name : String}
    (named : name ∈ altered.map (·.1.name)) : name = key.name ∨ name ∈ fields.map (·.1.name) := by
  induction fields generalizing altered with
  | nil =>
      rcases Option.map_eq_some_iff.mp changed with ⟨draft, _, rfl⟩
      exact .inl (by simpa using named)
  | cons field rest ih =>
      unfold alter at changed
      split at changed
      · rcases Option.map_eq_some_iff.mp changed with ⟨draft, _, rfl⟩
        exact .inr named
      · rcases Option.map_eq_some_iff.mp changed with ⟨more, made, rfl⟩
        rcases List.mem_cons.mp named with own | others
        · exact .inr (own ▸ List.mem_cons_self)
        · exact (ih made others).imp id (List.mem_cons_of_mem _)

theorem distinct_alter
    (changes : ∀ old draft, (∀ held, old = some held → held.Distinct) →
      change old = some draft → draft.Distinct)
    (distinct : Distinct fields) (changed : alter key change fields = some altered) :
    Distinct altered := by
  induction fields generalizing altered with
  | nil =>
      rcases Option.map_eq_some_iff.mp changed with ⟨draft, made, rfl⟩
      exact distinct_cons.mpr ⟨⟨by simp, changes none draft (by simp) made⟩, distinct⟩
  | cons field rest ih =>
      rcases distinct_cons.mp distinct with ⟨⟨new, inner⟩, others⟩
      unfold alter at changed
      split at changed
      · rcases Option.map_eq_some_iff.mp changed with ⟨draft, made, rfl⟩
        refine distinct_cons.mpr ⟨⟨new, changes _ draft ?_ made⟩, others⟩
        rintro held same
        exact Option.some.inj same ▸ inner
      · rename_i other
        rcases Option.map_eq_some_iff.mp changed with ⟨more, made, rfl⟩
        refine distinct_cons.mpr ⟨⟨fun named => ?_, inner⟩, ih others made⟩
        exact (names_of_alter made named).elim other new

end Alter

theorem distinct_insert {path : List Key} {value : Value} (given : value.Distinct)
    (distinct : Distinct fields) (inserted : insert path key value fields = some altered) :
    Distinct altered := by
  induction path generalizing fields altered with
  | nil =>
      refine distinct_alter (fun old draft _ made => ?_) distinct inserted
      split at made
      · cases made
        exact .value given
      · cases made
  | cons step path ih =>
      refine distinct_alter (fun old draft held made => ?_) distinct inserted
      split at made
      · rcases Option.map_eq_some_iff.mp made with ⟨grown, within, rfl⟩
        exact (ih distinct_nil within).draft _
      · cases made
      · cases made
      · split at made
        · cases made
        · rcases Option.map_eq_some_iff.mp made with ⟨grown, within, rfl⟩
          exact (ih (distinct_of_table (held _ rfl)) within).draft _
      · rcases Option.map_eq_some_iff.mp made with ⟨grown, within, rfl⟩
        exact (ih (distinct_of_table (held _ rfl)) within).draft _
      · cases made
      · rcases distinct_tables_cons.mp (held _ rfl) with ⟨first, others⟩
        split at made
        · cases made
        · rcases Option.map_eq_some_iff.mp made with ⟨grown, within, rfl⟩
          exact distinct_tables_cons.mpr ⟨ih first within, others⟩

theorem distinct_within {change : Fields → Option Fields} {path : List Key}
    (changes : ∀ old new, Distinct old → change old = some new → Distinct new)
    (distinct : Distinct fields) (changed : within change path fields = some altered) :
    Distinct altered := by
  induction path generalizing fields altered with
  | nil => exact changes fields altered distinct changed
  | cons step path ih =>
      refine distinct_alter (fun old draft held made => ?_) distinct changed
      split at made
      · rcases Option.map_eq_some_iff.mp made with ⟨grown, inside, rfl⟩
        exact (ih distinct_nil inside).draft _
      · cases made
      · rcases Option.map_eq_some_iff.mp made with ⟨grown, inside, rfl⟩
        exact (ih (distinct_of_table (held _ rfl)) inside).draft _
      · cases made
      · rcases distinct_tables_cons.mp (held _ rfl) with ⟨first, others⟩
        rcases Option.map_eq_some_iff.mp made with ⟨grown, inside, rfl⟩
        exact distinct_tables_cons.mpr ⟨ih first inside, others⟩

/-- A field at the end whose name the others do not have. -/
theorem Distinct.concat {draft : Draft} (distinct : Distinct fields) (own : draft.Distinct)
    (new : key.name ∉ fields.map (·.1.name)) : Distinct (fields ++ [(key, draft)]) := by
  constructor
  · rw [List.map_append]
    exact distinct.names.append (List.nodup_singleton _) (by simpa using new)
  · exact List.forall_mem_append.mpr ⟨distinct.inner, by simpa using own⟩

/-- No field has a name that was taken away. -/
theorem Distinct.notMem_eraseP (distinct : Distinct fields) (name : String) :
    name ∉ (fields.eraseP fun field => field.1.name = name).map (·.1.name) := by
  induction fields with
  | nil => simp
  | cons field rest ih =>
      rcases distinct_cons.mp distinct with ⟨⟨new, _⟩, others⟩
      by_cases same : field.1.name = name
      · rw [List.eraseP_cons_of_pos (by simpa using same)]
        exact same ▸ new
      · rw [List.eraseP_cons_of_neg (by simpa using same), List.map_cons, List.mem_cons, not_or]
        exact ⟨Ne.symm same, ih others⟩

theorem distinct_openTable {span : Span} (distinct : Distinct fields)
    (opened : openTable key span fields = some altered) : Distinct altered := by
  unfold openTable at opened
  split at opened
  · rename_i missing
    cases opened
    refine distinct.concat (distinct_nil.draft _) ?_
    simpa using List.find?_eq_none.mp missing
  · rename_i other held found
    cases opened
    have fewer := List.eraseP_sublist (l := fields) (p := fun field => field.1.name = key.name)
    have left : Distinct (fields.eraseP fun field => field.1.name = key.name) :=
      ⟨distinct.names.sublist (fewer.map _),
        fun field member => distinct.inner field (fewer.subset member)⟩
    have inner := distinct.inner _ (List.mem_of_find?_eq_some found)
    exact left.concat ((distinct_of_table inner).draft _) (distinct.notMem_eraseP key.name)
  · cases opened

theorem distinct_openElement {span : Span} (distinct : Distinct fields)
    (opened : openElement key span fields = some altered) : Distinct altered := by
  refine distinct_alter (fun old draft held made => ?_) distinct opened
  split at made
  · cases made
    exact distinct_tables_cons.mpr ⟨distinct_nil, .tables (by simp) (by simp)⟩
  · cases made
    exact distinct_tables_cons.mpr ⟨distinct_nil, held _ rfl⟩
  · cases made

theorem distinct_addLine {path : List Key} {table : Key} {value : Value} (given : value.Distinct)
    (distinct : Distinct fields) (added : addLine path key value table fields = some altered) :
    Distinct altered := by
  refine distinct_alter (fun old draft held made => ?_) distinct added
  split at made
  · rcases Option.map_eq_some_iff.mp made with ⟨grown, inserted, rfl⟩
    exact (distinct_insert given (distinct_of_table (held _ rfl)) inserted).draft _
  · rcases distinct_tables_cons.mp (held _ rfl) with ⟨first, others⟩
    rcases Option.map_eq_some_iff.mp made with ⟨grown, inserted, rfl⟩
    exact distinct_tables_cons.mpr ⟨distinct_insert given first inserted, others⟩
  · cases made

end Fields

section Steps

/-- Whether all results of a reading step are such that this holds. -/
def Step.Gives {Result : Type} (good : Result → Prop) (step : Step Result) : Prop :=
  ∀ cursor result next, step cursor = some (result, next) → good result

variable {total : Nat}

section Inner
variable {inner : Step Value} (gives : inner.Gives Value.Distinct)
include gives

theorem gives_assignment : Step.Gives (·.2.Distinct) (assignment total inner) := by
  intro cursor line next read
  rcases Option.bind_eq_some_iff.mp read with ⟨⟨key, further⟩, _, more⟩
  rcases Option.bind_eq_some_iff.mp more with ⟨behind, _, more⟩
  rcases Option.bind_eq_some_iff.mp more with ⟨⟨given, stop⟩, valued, last⟩
  cases last
  exact gives _ _ _ valued

theorem gives_arrayRest (fuel : Nat) :
    Step.Gives (fun items => ∀ item ∈ items, item.Distinct) (arrayRest inner fuel) := by
  induction fuel with
  | zero =>
      intro cursor items next read
      cases read
  | succ fuel ih =>
      intro cursor items next read
      unfold arrayRest at read
      dsimp only at read
      split at read
      · cases read
        simp
      · rcases Option.bind_eq_some_iff.mp read with ⟨⟨item, further⟩, first, more⟩
        have own := gives _ _ _ first
        dsimp only at more
        split at more
        · rcases Option.bind_eq_some_iff.mp more with ⟨⟨others, stop⟩, rest, last⟩
          cases last
          exact List.forall_mem_cons.mpr ⟨own, ih _ _ _ rest⟩
        · rcases Option.bind_eq_some_iff.mp more with ⟨stop, _, last⟩
          cases last
          simpa using own

theorem gives_inlineRest (fuel : Nat) {fields : Fields} (distinct : fields.Distinct) :
    Step.Gives Fields.Distinct (inlineRest total inner fuel fields) := by
  induction fuel generalizing fields with
  | zero =>
      intro cursor grown next read
      cases read
  | succ fuel ih =>
      intro cursor grown next read
      unfold inlineRest at read
      rcases Option.bind_eq_some_iff.mp read with ⟨⟨⟨⟨path, key⟩, given⟩, further⟩, assigned, more⟩
      rcases Option.bind_eq_some_iff.mp more with ⟨more, inserted, rest⟩
      have own := gives_assignment gives _ _ _ assigned
      have moreDistinct := Fields.distinct_insert own distinct inserted
      dsimp only at rest
      split at rest
      · exact ih moreDistinct _ _ _ rest
      · rcases Option.bind_eq_some_iff.mp rest with ⟨stop, _, last⟩
        cases last
        exact moreDistinct

theorem gives_inlineFields : Step.Gives Fields.Distinct (inlineFields total inner) := by
  intro cursor fields next read
  unfold inlineFields at read
  split at read
  · cases read
    exact Fields.distinct_nil
  · exact gives_inlineRest gives _ Fields.distinct_nil _ _ _ read

end Inner

theorem gives_scalar : Step.Gives Value.Distinct (scalar total) := by
  intro cursor given next read
  rcases Option.bind_eq_some_iff.mp read with ⟨written, _, last⟩
  cases last
  cases written with
  | integer | float | boolean | moment => constructor

theorem Fields.Distinct.finish {fields : Fields} (distinct : fields.Distinct) (span : Span) :
    Value.Distinct (.table (some span) (Draft.finishFields fields)) :=
  (distinct.draft (.header span)).finish

theorem gives_value (depth : Nat) : Step.Gives Value.Distinct (value total depth) := by
  induction depth using Nat.strongRecOn with
  | ind depth ih =>
      intro cursor given next read
      unfold value at read
      split at read
      · rcases Option.bind_eq_some_iff.mp read with ⟨⟨text, further⟩, _, last⟩
        cases last
        constructor
      · rcases Option.bind_eq_some_iff.mp read with ⟨⟨text, further⟩, _, last⟩
        cases last
        constructor
      · rename_i rest depth ahead
        rcases Option.bind_eq_some_iff.mp read with ⟨⟨items, further⟩, listed, last⟩
        cases last
        exact .array (gives_arrayRest (ih depth (Nat.lt_succ_self depth)) _ _ _ _ listed)
      · rename_i rest depth ahead
        rcases Option.bind_eq_some_iff.mp read with ⟨⟨fields, further⟩, listed, last⟩
        cases last
        exact (gives_inlineFields (ih depth (Nat.lt_succ_self depth)) _ _ _ listed).finish _
      · exact gives_scalar _ _ _ read

section Lines
variable {reading : Reading} (distinct : reading.fields.Distinct)
include distinct

theorem gives_headerLine : Step.Gives (·.fields.Distinct) (headerLine total reading) := by
  intro cursor opened next read
  unfold headerLine at read
  dsimp only at read
  generalize (if cursor.ahead.take 2 = ['[', '['] then 2 else 1) = brackets at read
  rcases Option.bind_eq_some_iff.mp read with ⟨⟨⟨path, key⟩, further⟩, _, more⟩
  dsimp only at more
  split at more
  · cases more
  · rcases Option.bind_eq_some_iff.mp more with ⟨fields, grown, more⟩
    rcases Option.bind_eq_some_iff.mp more with ⟨stop, _, last⟩
    cases last
    refine Fields.distinct_within (fun old new oldDistinct made => ?_) distinct grown
    split at made
    · exact Fields.distinct_openElement oldDistinct made
    · exact Fields.distinct_openTable oldDistinct made

theorem gives_assignmentLine : Step.Gives (·.fields.Distinct) (assignmentLine total reading) := by
  intro cursor grown next read
  rcases Option.bind_eq_some_iff.mp read with ⟨⟨⟨⟨path, key⟩, given⟩, further⟩, assigned, more⟩
  have own := gives_assignment (gives_value _) _ _ _ assigned
  dsimp only at more
  split at more
  all_goals
    rcases Option.bind_eq_some_iff.mp more with ⟨⟨span, fields⟩, inserted, more⟩
    rcases Option.bind_eq_some_iff.mp more with ⟨stop, _, last⟩
    rcases Option.map_eq_some_iff.mp inserted with ⟨fields, grows, same⟩
    cases same
    cases last
  · exact Fields.distinct_insert own distinct grows
  · refine Fields.distinct_within (fun old new oldDistinct made => ?_) distinct grows
    exact Fields.distinct_addLine own oldDistinct made

theorem distinct_of_lines {fuel : Nat} {cursor : Cursor} {last : Reading}
    (read : lines total fuel reading cursor = some last) : last.fields.Distinct := by
  induction fuel generalizing reading cursor with
  | zero => cases read
  | succ fuel ih =>
      unfold lines at read
      dsimp only at read
      split at read
      · cases read
        exact distinct
      case h_5 =>
        rcases Option.bind_eq_some_iff.mp read with ⟨⟨opened, next⟩, header, more⟩
        exact ih (gives_headerLine distinct _ _ _ header) more
      case h_6 =>
        rcases Option.bind_eq_some_iff.mp read with ⟨⟨grown, next⟩, assigned, more⟩
        exact ih (gives_assignmentLine distinct _ _ _ assigned) more
      all_goals
        rcases Option.bind_eq_some_iff.mp read with ⟨next, _, more⟩
        exact ih distinct more

end Lines

end Steps

theorem distinct_of_read? {text : String} {document : Value} (read : read? text = some document) :
    document.Distinct := by
  rcases Option.map_eq_some_iff.mp read with ⟨reading, lined, rfl⟩
  exact (distinct_of_lines Fields.distinct_nil lined).finish _

end ProofBuild.Toml
