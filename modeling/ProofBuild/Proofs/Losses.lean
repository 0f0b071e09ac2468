import Mathlib.Data.List.Forall2
import ProofBuild.Proofs.Keys
import ProofBuild.Proofs.Slots

/-!
Documents with one key or one element less. Reading does not look at places, so a document gives what its
bare form gives. Texts, paths and lists of them tell the bare form of the value that they were read from,
so nothing can be taken from such a value without a change of what it gives.
-/

namespace ProofBuild.Toml

mutual

/-- A value without its places. -/
def Value.bare : Value → Value
  | .string _ text => .string ⟨0, 0⟩ text
  | .integer _ value => .integer ⟨0, 0⟩ value
  | .float _ value => .float ⟨0, 0⟩ value
  | .boolean _ value => .boolean ⟨0, 0⟩ value
  | .moment _ => .moment ⟨0, 0⟩
  | .array _ items => .array ⟨0, 0⟩ (bareItems items)
  | .table _ fields => .table none (bareFields fields)

def bareItems : List Value → List Value
  | [] => []
  | item :: rest => item.bare :: bareItems rest

def bareFields : List (Key × Value) → List (Key × Value)
  | [] => []
  | (key, value) :: rest => (⟨key.name, ⟨0, 0⟩⟩, value.bare) :: bareFields rest

end

theorem bareItems_eq_map (items : List Value) : bareItems items = items.map Value.bare := by
  induction items with
  | nil => rfl
  | cons item rest ih => rw [bareItems, ih, List.map_cons]

theorem bareFields_eq_map (fields : List (Key × Value)) :
    bareFields fields = fields.map fun field => (⟨field.1.name, ⟨0, 0⟩⟩, field.2.bare) := by
  induction fields with
  | nil => rfl
  | cons field rest ih => rw [bareFields, ih, List.map_cons]

/-- A value loses one key or one element, at any depth, and the second one is left. -/
inductive Value.Loses : Value → Value → Prop where
  | element {span : Span} {before after : List Value} {item : Value} :
      Loses (.array span (before ++ item :: after)) (.array span (before ++ after))
  | field {span : Option Span} {before after : List (Key × Value)} {entry : Key × Value} :
      Loses (.table span (before ++ entry :: after)) (.table span (before ++ after))
  | inElement {span : Span} {before after : List Value} {item less : Value} (loses : Loses item less) :
      Loses (.array span (before ++ item :: after)) (.array span (before ++ less :: after))
  | inField {span : Option Span} {before after : List (Key × Value)} {key : Key} {value less : Value}
      (loses : Loses value less) :
      Loses (.table span (before ++ (key, value) :: after)) (.table span (before ++ (key, less) :: after))

namespace Value
variable {value less : Value}

theorem Loses.bare_ne (loses : value.Loses less) : value.bare ≠ less.bare := by
  induction loses with
  | element => simp [bare, bareItems_eq_map]
  | field => simp [bare, bareFields_eq_map]
  | inElement loses ih => simpa [bare, bareItems_eq_map] using ih
  | inField loses ih => simpa [bare, bareFields_eq_map] using ih

theorem loses_first {span : Span} {item : Value} {items : List Value} :
    (Value.array span (item :: items)).Loses (.array span items) :=
  @Loses.element span [] items item

/-- An array loses its first element, or something in it, or something behind it. -/
theorem loses_array_cases {span : Span} {item : Value} {items : List Value}
    (loses : (Value.array span (item :: items)).Loses less) :
    less = .array span items ∨ (∃ part, item.Loses part ∧ less = .array span (part :: items)) ∨
      ∃ rest, (Value.array span items).Loses (.array span rest) ∧
        less = .array span (item :: rest) := by
  generalize whole : item :: items = all at loses
  cases loses with
  | @element _ before after other =>
      cases before with
      | nil =>
          cases whole
          exact .inl rfl
      | cons first before =>
          cases whole
          exact .inr (.inr ⟨_, .element, rfl⟩)
  | @inElement _ before after other part inner =>
      cases before with
      | nil =>
          cases whole
          exact .inr (.inl ⟨part, inner, rfl⟩)
      | cons first before =>
          cases whole
          exact .inr (.inr ⟨_, .inElement inner, rfl⟩)

theorem not_loses_array_nil {span : Span} : ¬ (Value.array span []).Loses less := by
  intro loses
  generalize whole : [] = items at loses
  cases loses <;> simp at whole

end Value

section Readers
variable {Content Result : Type} {read : Value → Decoded Content}

/-- Whether a reader does not look at places. -/
def Blind (read : Value → Decoded Content) : Prop :=
  ∀ value result, read value.bare = .ok result ↔ read value = .ok result

/-- Whether a reader's result tells the value that it was read from, up to places. -/
def Exact (read : Value → Decoded Content) : Prop :=
  ∀ value other result, read value = .ok result → read other = .ok result → value.bare = other.bare

theorem Blind.of_bare_eq (blind : Blind read) {value other : Value} (same : value.bare = other.bare)
    {result : Content} : read value = .ok result ↔ read other = .ok result := by
  rw [← blind, same, blind]

theorem Exact.not_kept (exact : Exact read) {value less : Value} (loses : value.Loses less)
    {result : Content} (given : read value = .ok result) : read less ≠ .ok result :=
  fun kept => loses.bare_ne (exact value less result given kept)

theorem make_eq_ok_iff {make : Content → Result} {value : Value} {result : Result} :
    (do return make (← read value)) = Except.ok result ↔
      ∃ content, read value = .ok content ∧ make content = result := by
  rw [Decoded.bind_eq_ok_iff]
  simp only [pure, Except.pure, Except.ok.injEq]

theorem Blind.andMake (blind : Blind read) (make : Content → Result) :
    Blind fun value => do return make (← read value) := by
  intro value result
  simp only [make_eq_ok_iff, blind value]

theorem Exact.andMake (exact : Exact read) {make : Content → Result}
    (injective : Function.Injective make) : Exact fun value => do return make (← read value) := by
  intro value other result given also
  rcases make_eq_ok_iff.mp given with ⟨content, own, rfl⟩
  rcases make_eq_ok_iff.mp also with ⟨twin, others, same⟩
  exact exact value other content own (injective same ▸ others)

theorem blind_readText (wanted : String) : Blind (Value.readText wanted) := by
  intro value result
  cases value <;> simp [Value.bare, Value.readText]

theorem exact_readText (wanted : String) : Exact (Value.readText wanted) := by
  intro value other result given also
  cases value <;> cases other <;> simp_all [Value.bare, Value.readText]

theorem mapM_eq_ok_iff {items : List Value} {results : List Content} :
    items.mapM read = .ok results ↔
      List.Forall₂ (fun item result => read item = .ok result) items results := by
  induction items generalizing results with
  | nil =>
      rw [List.forall₂_nil_left_iff]
      exact ⟨fun same => (Except.ok.inj same).symm, fun same => same ▸ rfl⟩
  | cons item rest ih =>
      rw [List.mapM_cons, List.forall₂_cons_left_iff]
      constructor
      · intro given
        rcases bind_eq_ok given with ⟨result, first, more⟩
        rcases bind_eq_ok more with ⟨others, later, last⟩
        exact ⟨result, others, first, ih.mp later, (Except.ok.inj last).symm⟩
      · rintro ⟨result, others, first, later, rfl⟩
        rw [first, ih.mpr later]
        rfl

theorem readList_eq_ok_iff {value : Value} {results : List Content} :
    value.readList read = .ok results ↔ ∃ span items, value = .array span items ∧
      List.Forall₂ (fun item result => read item = .ok result) items results := by
  cases value <;> simp [Value.readList, mapM_eq_ok_iff]

/-- An array gives what each of its elements is read as. -/
theorem readArray_eq_ok_iff_map {span : Span} {items : List Value} {results : List Content} :
    (Value.array span items).readList read = .ok results ↔ items.map read = results.map Except.ok := by
  rw [Value.readList, mapM_eq_ok_iff, ← List.forall₂_eq_eq_eq, List.forall₂_map_left_iff,
    List.forall₂_map_right_iff]

section Middle
variable {span : Span} {before after : List Value} {item less : Value} {results : List Content}
  (given : (Value.array span (before ++ item :: after)).readList read = .ok results)
include given

theorem readArray_element : ∃ result, read item = .ok result := by
  rw [readArray_eq_ok_iff_map] at given
  have listed : read item ∈ results.map Except.ok := given ▸ List.mem_map_of_mem (by simp)
  rcases List.mem_map.mp listed with ⟨result, _, same⟩
  exact ⟨result, same.symm⟩

/-- An array gives the same results with one element changed exactly if the element gives the same. -/
theorem readArray_changed_iff :
    (Value.array span (before ++ less :: after)).readList read = .ok results ↔ read less = read item := by
  rw [readArray_eq_ok_iff_map] at given ⊢
  rw [← given]
  simp

theorem readArray_without_ne :
    (Value.array span (before ++ after)).readList read ≠ .ok results := by
  intro kept
  rw [readArray_eq_ok_iff_map] at given kept
  rw [← kept] at given
  simp at given

end Middle

theorem Blind.list (blind : Blind read) : Blind (Value.readList read) := by
  intro value results
  cases value with
  | array span items =>
      rw [Value.bare, bareItems_eq_map, Value.readList, Value.readList, mapM_eq_ok_iff, mapM_eq_ok_iff,
        List.forall₂_map_left_iff]
      simp only [blind _ _]
  | string | integer | float | boolean | moment | table => simp [Value.bare, Value.readList]

theorem Exact.list (exact : Exact read) : Exact (Value.readList read) := by
  intro value other results given also
  rcases readList_eq_ok_iff.mp given with ⟨span, items, rfl, own⟩
  rcases readList_eq_ok_iff.mp also with ⟨place, others, rfl, twin⟩
  have same : items.map Value.bare = others.map Value.bare := by
    clear given also
    induction own generalizing others with
    | nil =>
        cases twin
        rfl
    | cons first rest ih =>
        cases twin with
        | cons second more => rw [List.map_cons, List.map_cons, exact _ _ _ first second, ih _ more]
  rw [Value.bare, Value.bare, bareItems_eq_map, bareItems_eq_map, same]

/-- Whether a reader gives the same for two values exactly if they are the same but for their places. -/
structure Plain (read : Value → Decoded Content) : Prop where
  blind : Blind read
  exact : Exact read

theorem Plain.andMake (plain : Plain read) {make : Content → Result}
    (injective : Function.Injective make) : Plain fun value => do return make (← read value) :=
  ⟨plain.blind.andMake make, plain.exact.andMake injective⟩

theorem Plain.optional (plain : Plain read) : Plain fun value => do return some (← read value) :=
  plain.andMake fun _ _ => Option.some.inj

theorem Plain.list (plain : Plain read) : Plain (Value.readList read) :=
  ⟨plain.blind.list, plain.exact.list⟩

theorem plain_readString : Plain Value.readString := ⟨blind_readText _, exact_readText _⟩

theorem plain_readPath : Plain Value.readPath :=
  Plain.andMake ⟨blind_readText _, exact_readText _⟩ fun _ _ => Path.mk.inj

end Readers

namespace Schema.Slots
variable {Record : Type} {schema : Schema Record} (slots : schema.Slots) {start record : Record}

section Blind
variable (blind : ∀ slot ∈ slots.all, Blind slot.parse)
include blind

theorem blind_field {slot : Slot Record} (member : slot ∈ slots.all) :
    Blind fun value => slot.field.read value start := by
  intro value result
  simp only [Slot.read_eq_ok_iff, blind slot member value]

theorem readKey_bare {key : Key} {value : Value} {next : Record} :
    schema.readKey start ⟨key.name, ⟨0, 0⟩⟩ value.bare = .ok next ↔
      schema.readKey start key value = .ok next := by
  rw [slots.readKey_eq_ok_iff, slots.readKey_eq_ok_iff]
  refine exists_congr fun slot => and_congr_right fun member => and_congr_right fun _ => ?_
  exact slots.blind_field blind member value next

theorem foldlM_bare {given : List (Key × Value)} :
    (bareFields given).foldlM (fun record entry => schema.readKey record entry.1 entry.2) start =
        .ok record ↔
      given.foldlM (fun record entry => schema.readKey record entry.1 entry.2) start = .ok record := by
  induction given generalizing start with
  | nil => rfl
  | cons entry rest ih =>
      rw [bareFields, List.foldlM_cons, List.foldlM_cons, Decoded.bind_eq_ok_iff, Decoded.bind_eq_ok_iff]
      exact exists_congr fun next => and_congr (slots.readKey_bare blind) ih

theorem filled_bare {blank : Record} {rest : List (Slot Record)} {items : List Value}
    (listed : ∀ slot ∈ rest, slot ∈ slots.all) :
    Filled blank record rest (bareItems items) ↔ Filled blank record rest items := by
  induction rest generalizing items with
  | nil => rfl
  | cons slot rest ih =>
      rcases List.forall_mem_cons.mp listed with ⟨own, others⟩
      cases items with
      | nil => rfl
      | cons item items => exact and_congr (blind slot own item _) (ih others)

/-- A record is read without a look at places if its slots are. -/
theorem blind_read : Blind schema.read := by
  intro value record
  cases value with
  | table span given =>
      rw [Value.bare, read, read, ofTable_eq_ok_split, ofTable_eq_ok_split, slots.foldlM_bare blind,
        slots.missing?_eq_none_iff, slots.missing?_eq_none_iff, bareFields_eq_map, List.map_map]
      rfl
  | array span items =>
      rw [Value.bare, slots.readArray_eq_ok_iff, slots.readArray_eq_ok_iff]
      exact slots.filled_bare blind fun _ member => member
  | string | integer | float | boolean | moment => simp [Value.bare, Schema.read]

end Blind

end Schema.Slots

end ProofBuild.Toml
