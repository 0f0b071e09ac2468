import ProofBuild.Toml.Draft

/-!
Where the places of values lie. Whatever is put into a document carries the places of its keys, values and
headers along, and a place that grows keeps its start. So all places of a finished value start where
those of its parts do.
-/

namespace ProofBuild.Toml

section Start
variable {place : Nat → Prop}

/-- Whether all places of a value start where this holds. -/
inductive Value.Starts (place : Nat → Prop) : Value → Prop where
  | string {span : Span} {text : String} (own : place span.start) : Starts place (.string span text)
  | integer {span : Span} {value : Int} (own : place span.start) : Starts place (.integer span value)
  | float {span : Span} {value : Binary64} (own : place span.start) : Starts place (.float span value)
  | boolean {span : Span} {value : Bool} (own : place span.start) : Starts place (.boolean span value)
  | moment {span : Span} (own : place span.start) : Starts place (.moment span)
  | array {span : Span} {items : List Value} (own : place span.start)
      (inner : ∀ item ∈ items, Starts place item) : Starts place (.array span items)
  | table {span : Option Span} {fields : List (Key × Value)} (own : ∀ own ∈ span, place own.start)
      (keys : ∀ field ∈ fields, place field.1.span.start)
      (inner : ∀ field ∈ fields, Starts place field.2) : Starts place (.table span fields)

/-- The same for a document that is still read. -/
inductive Draft.Starts (place : Nat → Prop) : Draft → Prop where
  | value {held : Value} (starts : held.Starts place) : Starts place (.value held)
  | table {origin : Origin} {fields : Fields} (own : ∀ span, origin = .header span → place span.start)
      (keys : ∀ field ∈ fields, place field.1.span.start)
      (inner : ∀ field ∈ fields, Starts place field.2) : Starts place (.table origin fields)
  | tables {elements : List (Span × Fields)} (own : ∀ element ∈ elements, place element.1.start)
      (keys : ∀ element ∈ elements, ∀ field ∈ element.2, place field.1.span.start)
      (inner : ∀ element ∈ elements, ∀ field ∈ element.2, Starts place field.2) :
      Starts place (.tables elements)

theorem Value.Starts.own {value : Value} (starts : value.Starts place) {span : Span}
    (placed : value.span? = some span) : place span.start := by
  cases starts with
  | table own => exact own span placed
  | string own | integer own | float own | boolean own | moment own | array own =>
      cases placed
      exact own

theorem finishFields_eq_map (fields : Fields) :
    Draft.finishFields fields = fields.map fun field => (field.1, field.2.finish) := by
  induction fields with
  | nil => rfl
  | cons field rest ih => rw [Draft.finishFields, ih, List.map_cons]

theorem finishElements_eq_map (elements : List (Span × Fields)) :
    Draft.finishElements elements =
      elements.map fun element => .table (some element.1) (Draft.finishFields element.2) := by
  induction elements with
  | nil => rfl
  | cons element rest ih => rw [Draft.finishElements, ih, List.map_cons]

theorem Draft.Starts.finish (zero : place 0) {draft : Draft} (starts : draft.Starts place) :
    draft.finish.Starts place := by
  have fieldsOf {fields : Fields} (keys : ∀ field ∈ fields, place field.1.span.start)
      (inner : ∀ field ∈ fields, field.2.finish.Starts place) {span : Option Span}
      (own : ∀ own ∈ span, place own.start) :
      Value.Starts place (.table span (Draft.finishFields fields)) := by
    rw [finishFields_eq_map]
    constructor
    · exact own
    · exact List.forall_mem_map.mpr keys
    · exact List.forall_mem_map.mpr inner
  induction starts with
  | value starts => exact starts
  | @table origin fields own keys inner ih =>
      cases origin with
      | header span => exact fieldsOf keys ih (by simpa using own span rfl)
      | implied => exact fieldsOf keys ih (by simp)
      | dotted => exact fieldsOf keys ih (by simp)
  | @tables elements own keys inner ih =>
      rw [Draft.finish]
      constructor
      · -- The array starts where its first element does.
        split
        · rename_i first last ends _
          exact own first (List.mem_of_getLast? ends)
        · exact zero
      · rw [finishElements_eq_map]
        intro item member
        rcases List.mem_map.mp (List.mem_reverse.mp member) with ⟨element, listed, rfl⟩
        exact fieldsOf (keys element listed) (ih element listed) (by simpa using own element listed)

/-- The same for the fields of a table. -/
def Fields.Start (place : Nat → Prop) (fields : Fields) : Prop :=
  ∀ field ∈ fields, place field.1.span.start ∧ field.2.Starts place

namespace Fields
variable {fields altered : Fields} {key : Key}

theorem start_cons {draft : Draft} :
    Start place ((key, draft) :: fields) ↔
      (place key.span.start ∧ draft.Starts place) ∧ Start place fields :=
  List.forall_mem_cons

theorem Start.draft {origin : Origin} (start : Start place fields)
    (own : ∀ span, origin = .header span → place span.start) :
    Draft.Starts place (.table origin fields) :=
  .table own (fun field member => (start field member).1) fun field member => (start field member).2

theorem start_of_table {origin : Origin} (starts : Draft.Starts place (.table origin fields)) :
    Start place fields := by
  cases starts with
  | table own keys inner => exact fun field member => ⟨keys field member, inner field member⟩

theorem start_alter {change : Option Draft → Option Draft} (keyed : place key.span.start)
    (changes : ∀ old draft, (∀ held, old = some held → held.Starts place) →
      change old = some draft → draft.Starts place)
    (start : Start place fields) (changed : alter key change fields = some altered) :
    Start place altered := by
  induction fields generalizing altered with
  | nil =>
      rcases Option.map_eq_some_iff.mp changed with ⟨draft, made, rfl⟩
      exact start_cons.mpr ⟨⟨keyed, changes none draft (by simp) made⟩, start⟩
  | cons field rest ih =>
      rcases start_cons.mp start with ⟨⟨own, inner⟩, others⟩
      unfold alter at changed
      split at changed
      · rcases Option.map_eq_some_iff.mp changed with ⟨draft, made, rfl⟩
        refine start_cons.mpr ⟨⟨own, changes _ draft ?_ made⟩, others⟩
        rintro held same
        exact Option.some.inj same ▸ inner
      · rcases Option.map_eq_some_iff.mp changed with ⟨more, made, rfl⟩
        exact start_cons.mpr ⟨⟨own, inner⟩, ih others made⟩

theorem starts_tables_cons {span : Span} {before : List (Span × Fields)} :
    Draft.Starts place (.tables ((span, fields) :: before)) ↔
      (place span.start ∧ Start place fields) ∧ Draft.Starts place (.tables before) := by
  constructor
  · intro starts
    cases starts with
    | tables own keys inner =>
        rcases List.forall_mem_cons.mp own with ⟨ownFirst, ownRest⟩
        rcases List.forall_mem_cons.mp keys with ⟨keysFirst, keysRest⟩
        rcases List.forall_mem_cons.mp inner with ⟨innerFirst, innerRest⟩
        exact ⟨⟨ownFirst, fun field member => ⟨keysFirst field member, innerFirst field member⟩⟩,
          .tables ownRest keysRest innerRest⟩
  · rintro ⟨⟨own, start⟩, others⟩
    cases others with
    | tables ownRest keys inner =>
        exact .tables (List.forall_mem_cons.mpr ⟨own, ownRest⟩)
          (List.forall_mem_cons.mpr ⟨fun field member => (start field member).1, keys⟩)
          (List.forall_mem_cons.mpr ⟨fun field member => (start field member).2, inner⟩)

theorem start_nil : Start place [] := by
  intro field member
  cases member

/-- Whether all keys of a path start where this holds. -/
def KeysStart (place : Nat → Prop) (path : List Key) : Prop := ∀ key ∈ path, place key.span.start

theorem start_insert {path : List Key} {value : Value} (way : KeysStart place path)
    (keyed : place key.span.start) (starts : value.Starts place) (start : Start place fields)
    (inserted : insert path key value fields = some altered) : Start place altered := by
  induction path generalizing fields altered with
  | nil =>
      refine start_alter keyed (fun old draft _ made => ?_) start inserted
      split at made
      · cases made
        exact .value starts
      · cases made
  | cons step path ih =>
      rcases List.forall_mem_cons.mp way with ⟨stepKeyed, wayRest⟩
      refine start_alter stepKeyed (fun old draft held made => ?_) start inserted
      split at made
      · rcases Option.map_eq_some_iff.mp made with ⟨grown, within, rfl⟩
        exact (ih wayRest start_nil within).draft (by simp)
      · cases made
      · cases made
      · rename_i inner
        split at made
        · cases made
        · rcases Option.map_eq_some_iff.mp made with ⟨grown, within, rfl⟩
          exact (ih wayRest (start_of_table (held _ rfl)) within).draft (by simp)
      · rename_i inner
        rcases Option.map_eq_some_iff.mp made with ⟨grown, within, rfl⟩
        exact (ih wayRest (start_of_table (held _ rfl)) within).draft (by simp)
      · cases made
      · rename_i span inner before
        rcases starts_tables_cons.mp (held _ rfl) with ⟨⟨own, innerStart⟩, others⟩
        split at made
        · cases made
        · rcases Option.map_eq_some_iff.mp made with ⟨grown, within, rfl⟩
          exact starts_tables_cons.mpr ⟨⟨own, ih wayRest innerStart within⟩, others⟩

theorem start_within {change : Fields → Option Fields} {path : List Key}
    (changes : ∀ old new, Start place old → change old = some new → Start place new)
    (way : KeysStart place path) (start : Start place fields)
    (changed : within change path fields = some altered) : Start place altered := by
  induction path generalizing fields altered with
  | nil => exact changes fields altered start changed
  | cons step path ih =>
      rcases List.forall_mem_cons.mp way with ⟨stepKeyed, wayRest⟩
      refine start_alter stepKeyed (fun old draft held made => ?_) start changed
      split at made
      · rcases Option.map_eq_some_iff.mp made with ⟨grown, inside, rfl⟩
        exact (ih wayRest start_nil inside).draft (by simp)
      · cases made
      · rename_i origin inner
        rcases Option.map_eq_some_iff.mp made with ⟨grown, inside, rfl⟩
        have starts := held _ rfl
        refine (ih wayRest (start_of_table starts) inside).draft ?_
        cases starts with
        | table own => exact own
      · cases made
      · rename_i span inner before
        rcases starts_tables_cons.mp (held _ rfl) with ⟨⟨own, innerStart⟩, others⟩
        rcases Option.map_eq_some_iff.mp made with ⟨grown, inside, rfl⟩
        exact starts_tables_cons.mpr ⟨⟨own, ih wayRest innerStart inside⟩, others⟩

section Header
variable {span : Span} (keyed : place key.span.start) (own : place span.start)
  (start : Start place fields)
include keyed own start

theorem start_openTable (opened : openTable key span fields = some altered) :
    Start place altered := by
  have headed {held : Fields} (starts : Start place held) :
      Draft.Starts place (.table (.header span) held) :=
    starts.draft fun other same => by
      cases same
      exact own
  unfold openTable at opened
  split at opened
  · cases opened
    exact List.forall_mem_append.mpr ⟨start, start_cons.mpr ⟨⟨keyed, headed start_nil⟩, start_nil⟩⟩
  · rename_i found
    cases opened
    have inner := (start _ (List.mem_of_find?_eq_some found)).2
    refine List.forall_mem_append.mpr ⟨fun field member => ?_, ?_⟩
    · exact start field (List.mem_of_mem_eraseP member)
    · exact start_cons.mpr ⟨⟨keyed, headed (start_of_table inner)⟩, start_nil⟩
  · cases opened

theorem start_openElement (opened : openElement key span fields = some altered) :
    Start place altered := by
  refine start_alter keyed (fun old draft held made => ?_) start opened
  have none : Draft.Starts place (.tables []) := .tables (by simp) (by simp) (by simp)
  split at made
  · cases made
    exact starts_tables_cons.mpr ⟨⟨own, start_nil⟩, none⟩
  · cases made
    exact starts_tables_cons.mpr ⟨⟨own, start_nil⟩, held _ rfl⟩
  · cases made

end Header

theorem start_reachedFrom (value : Value) (span : Span) :
    (value.reachedFrom span).start = span.start := by
  unfold Value.reachedFrom
  split <;> rfl

theorem start_addLine {path : List Key} {table : Key} {value : Value}
    (way : KeysStart place path) (keyed : place key.span.start) (starts : value.Starts place)
    (tableKeyed : place table.span.start) (start : Start place fields)
    (added : addLine path key value table fields = some altered) : Start place altered := by
  refine start_alter tableKeyed (fun old draft held made => ?_) start added
  split at made
  · rename_i span inner
    rcases Option.map_eq_some_iff.mp made with ⟨grown, inserted, rfl⟩
    have tableStarts := held _ rfl
    refine (start_insert way keyed starts (start_of_table tableStarts) inserted).draft ?_
    cases tableStarts with
    | table own =>
        rintro other same
        cases same
        rw [start_reachedFrom]
        exact own span rfl
  · rename_i span inner before
    rcases starts_tables_cons.mp (held _ rfl) with ⟨⟨own, innerStart⟩, others⟩
    rcases Option.map_eq_some_iff.mp made with ⟨grown, inserted, rfl⟩
    refine starts_tables_cons.mpr ⟨⟨?_, start_insert way keyed starts innerStart inserted⟩, others⟩
    rw [start_reachedFrom]
    exact own
  · cases made

end Fields

end Start

end ProofBuild.Toml
