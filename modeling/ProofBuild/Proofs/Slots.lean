import Mathlib.Data.List.Nodup
import ProofBuild.Manifest

/-!
Records taken apart. Each field of a schema owns one slot of the record: it sets that slot to what it reads
and leaves the others alone. So a table, or an array, is read as a record exactly if each value is read as
what the record has in the slot of its field, and a slot without a value has what the blank record has there
and may be left out. Main statements: `Schema.Slots.ofTable_eq_ok_iff` and
`Schema.Slots.readArray_eq_ok_iff`.
-/

namespace ProofBuild.Toml

theorem Decoded.bind_eq_ok_iff {First Last : Type} {first : Decoded First}
    {next : First → Decoded Last} {last : Last} :
    (first >>= next) = .ok last ↔ ∃ value, first = .ok value ∧ next value = .ok last := by
  refine ⟨bind_eq_ok, ?_⟩
  rintro ⟨value, same, ended⟩
  rw [same]
  exact ended

/-- A field with the slot of the record that it owns. -/
structure Slot (Record : Type) where
  name : String
  need : Need
  Content : Type
  parse : Value → Decoded Content
  get : Record → Content
  set : Content → Record → Record
  get_set : ∀ content record, get (set content record) = content

namespace Slot
variable {Record : Type} {slot : Slot Record} {value : Value} {record next : Record}

def field (slot : Slot Record) : Field Record where
  name := slot.name
  need := slot.need
  read value record := do return slot.set (← slot.parse value) record

/-- Whether a value is read as what the record has in this slot. -/
def Gives (slot : Slot Record) (value : Value) (record : Record) : Prop :=
  slot.parse value = .ok (slot.get record)

theorem read_eq_ok_iff : slot.field.read value record = .ok next ↔
    ∃ content, slot.parse value = .ok content ∧ slot.set content record = next := by
  rw [field, Decoded.bind_eq_ok_iff]
  simp only [pure, Except.pure, Except.ok.injEq]

end Slot

/-- The slots of the records of a schema: they do not overlap, and there is nothing else to a record. -/
structure Schema.Slots {Record : Type} (schema : Schema Record) where
  all : List (Slot Record)
  fields_eq : schema.fields = all.map Slot.field
  names : (all.map Slot.name).Nodup
  apart : ∀ slot ∈ all, ∀ other ∈ all, slot.name ≠ other.name →
    ∀ content record, slot.get (other.set content record) = slot.get record
  ext : ∀ record other, (∀ slot ∈ all, slot.get record = slot.get other) → record = other

/-- A table gives a record if reading its keys does and none is missing. -/
theorem Schema.ofTable_eq_ok_split {Record : Type} {schema : Schema Record} {record : Record}
    {given : List (Key × Value)} {span : Option Span} : schema.ofTable span given = .ok record ↔
      given.foldlM (fun record entry => schema.readKey record entry.1 entry.2) schema.blank = .ok record ∧
        schema.missing? given = none := by
  rw [ofTable, Decoded.bind_eq_ok_iff]
  constructor
  · rintro ⟨filled, fills, last⟩
    split at last
    · cases last
    · cases last
      exact ⟨fills, ‹_›⟩
  · rintro ⟨fills, full⟩
    exact ⟨record, fills, by rw [full]⟩

namespace Schema.Slots
variable {Record : Type} {schema : Schema Record} (slots : schema.Slots) {slot other : Slot Record}
  {record start next : Record}

theorem eq_of_name (member : slot ∈ slots.all) (listed : other ∈ slots.all)
    (same : slot.name = other.name) : slot = other :=
  List.inj_on_of_nodup_map slots.names member listed same

/-- Setting a slot to what it holds changes nothing. -/
theorem set_get (member : slot ∈ slots.all) : slot.set (slot.get record) record = record := by
  refine slots.ext _ _ fun other listed => ?_
  by_cases same : other.name = slot.name
  · obtain rfl := slots.eq_of_name listed member same
    exact other.get_set _ _
  · exact slots.apart other listed slot member same _ _

/-- A record with one slot set holds that there, and elsewhere what it held before. -/
theorem set_eq_iff (member : slot ∈ slots.all) {content : slot.Content} :
    slot.set content start = record ↔
      content = slot.get record ∧
        ∀ other ∈ slots.all, other.name ≠ slot.name → other.get record = other.get start := by
  constructor
  · rintro rfl
    refine ⟨(slot.get_set _ _).symm, fun other listed differ => ?_⟩
    exact slots.apart other listed slot member differ _ _
  · rintro ⟨rfl, others⟩
    refine slots.ext _ _ fun other listed => ?_
    by_cases same : other.name = slot.name
    · obtain rfl := slots.eq_of_name listed member same
      exact other.get_set _ _
    · rw [slots.apart other listed slot member same, others other listed same]

/-- A field reads a value without a change of the record if that is what its slot holds. -/
theorem read_eq_ok_self_iff (member : slot ∈ slots.all) {value : Value} :
    slot.field.read value record = .ok record ↔ slot.Gives value record := by
  rw [Slot.read_eq_ok_iff]
  constructor
  · rintro ⟨content, parsed, same⟩
    obtain ⟨rfl, _⟩ := (slots.set_eq_iff member).mp same
    exact parsed
  · exact fun gives => ⟨_, gives, slots.set_get member⟩

section Table
variable {given : List (Key × Value)}

theorem find?_name_eq_some_iff {name : String} :
    slots.all.find? (·.name = name) = some slot ↔ slot ∈ slots.all ∧ slot.name = name := by
  constructor
  · intro found
    exact ⟨List.mem_of_find?_eq_some found, by simpa using List.find?_some found⟩
  · rintro ⟨member, named⟩
    cases found : slots.all.find? (·.name = name) with
    | none => exact absurd named (by simpa using List.find?_eq_none.mp found slot member)
    | some other =>
        have same : other.name = name := by simpa using List.find?_some found
        rw [slots.eq_of_name (List.mem_of_find?_eq_some found) member (same.trans named.symm)]

theorem find?_eq_some_iff {name : String} {field : Field Record} :
    schema.fields.find? (·.name = name) = some field ↔
      ∃ slot ∈ slots.all, slot.name = name ∧ slot.field = field := by
  rw [slots.fields_eq, List.find?_map, Option.map_eq_some_iff]
  exact exists_congr fun slot =>
    (and_congr_left fun _ => slots.find?_name_eq_some_iff).trans and_assoc

theorem readKey_eq_ok_iff {key : Key} {value : Value} :
    schema.readKey start key value = .ok next ↔
      ∃ slot ∈ slots.all, slot.name = key.name ∧ slot.field.read value start = .ok next := by
  unfold readKey
  constructor
  · intro read
    split at read
    · cases read
    · rename_i field found
      rcases slots.find?_eq_some_iff.mp found with ⟨slot, member, named, rfl⟩
      refine ⟨slot, member, named, ?_⟩
      cases ended : slot.field.read value start with
      | ok result => simpa [ended, Except.mapError] using read
      | error misfit => simp [ended, Except.mapError] at read
  · rintro ⟨slot, member, named, read⟩
    rw [slots.find?_eq_some_iff.mpr ⟨slot, member, named, rfl⟩]
    simp [read, Except.mapError]

/-- Whether each value of a table is read as what the slot of its key holds. -/
def Fits (given : List (Key × Value)) (record : Record) : Prop :=
  ∀ entry ∈ given, ∃ slot ∈ slots.all, slot.name = entry.1.name ∧ slot.Gives entry.2 record

theorem fits_with_iff {before after : List (Key × Value)} {entry : Key × Value} :
    slots.Fits (before ++ entry :: after) record ↔
      (∃ slot ∈ slots.all, slot.name = entry.1.name ∧ slot.Gives entry.2 record) ∧
        slots.Fits (before ++ after) record := by
  simp only [Fits, List.forall_mem_append, List.forall_mem_cons]
  exact and_left_comm

/-- Reading keys that differ, from any record on. -/
theorem foldlM_eq_ok_iff (distinct : (given.map (·.1.name)).Nodup) :
    given.foldlM (fun record entry => schema.readKey record entry.1 entry.2) start = .ok record ↔
      slots.Fits given record ∧
        ∀ slot ∈ slots.all, slot.name ∉ given.map (·.1.name) → slot.get record = slot.get start := by
  induction given generalizing start with
  | nil =>
      constructor
      · intro same
        cases same
        exact ⟨by simp [Fits], fun _ _ _ => rfl⟩
      · intro ⟨_, same⟩
        rw [slots.ext record start fun slot member => same slot member (by simp)]
        rfl
  | cons entry rest ih =>
      rcases List.nodup_cons.mp distinct with ⟨new, others⟩
      rw [List.foldlM_cons]
      constructor
      · intro read
        rcases bind_eq_ok read with ⟨next, first, more⟩
        rcases slots.readKey_eq_ok_iff.mp first with ⟨slot, member, named, own⟩
        rcases Slot.read_eq_ok_iff.mp own with ⟨content, parsed, same⟩
        rcases (slots.set_eq_iff member).mp same with ⟨rfl, kept⟩
        rcases (ih others).mp more with ⟨given, left⟩
        -- No later key has this name, so the slot still holds what was read here.
        have ownGiven : slot.Gives entry.2 record := by
          rw [Slot.Gives, left slot member (named ▸ new), parsed]
        refine ⟨List.forall_mem_cons.mpr ⟨⟨slot, member, named, ownGiven⟩, given⟩, ?_⟩
        intro other listed unnamed
        rcases not_or.mp (mt List.mem_cons.mpr unnamed) with ⟨differs, absent⟩
        rw [left other listed absent, kept other listed (named ▸ differs)]
      · rintro ⟨given, left⟩
        rcases List.forall_mem_cons.mp given with ⟨⟨slot, member, named, own⟩, given⟩
        have first : schema.readKey start entry.1 entry.2 = .ok (slot.set (slot.get record) start) :=
          slots.readKey_eq_ok_iff.mpr ⟨slot, member, named, Slot.read_eq_ok_iff.mpr ⟨_, own, rfl⟩⟩
        rw [first]
        refine (ih others).mpr ⟨given, fun other listed absent => ?_⟩
        by_cases same : other.name = slot.name
        · obtain rfl := slots.eq_of_name listed member same
          exact (other.get_set _ _).symm
        · rw [slots.apart other listed slot member same]
          exact left other listed (by simp [absent, ← named, same])

theorem missing?_eq_none_iff : schema.missing? given = none ↔
    ∀ slot ∈ slots.all, slot.name ∉ given.map (·.1.name) → slot.need ≠ .always := by
  rw [missing?, slots.fields_eq, List.find?_eq_none, List.forall_mem_map]
  refine forall₂_congr fun slot member => ?_
  rw [decide_eq_true_eq, not_and']
  simp only [List.mem_map, not_exists, not_and, ne_eq]
  rfl

theorem ofTable_eq_ok_iff {span : Option Span} (distinct : (given.map (·.1.name)).Nodup) :
    schema.ofTable span given = .ok record ↔
      slots.Fits given record ∧
        ∀ slot ∈ slots.all, slot.name ∉ given.map (·.1.name) →
          slot.need ≠ .always ∧ slot.get record = slot.get schema.blank := by
  rw [ofTable_eq_ok_split, slots.foldlM_eq_ok_iff distinct, slots.missing?_eq_none_iff, and_assoc]
  refine and_congr_right fun _ => ?_
  constructor
  · rintro ⟨kept, full⟩ slot member absent
    exact ⟨full slot member absent, kept slot member absent⟩
  · intro both
    exact ⟨fun slot member absent => (both slot member absent).2,
      fun slot member absent => (both slot member absent).1⟩

/-- Whether a table gives what a record holds outside the slot of one name. -/
def Besides (name : String) (given : List (Key × Value)) (record : Record) : Prop :=
  slots.Fits given record ∧
    ∀ slot ∈ slots.all, slot.name ≠ name → slot.name ∉ given.map (·.1.name) →
      slot.need ≠ .always ∧ slot.get record = slot.get schema.blank

section Entry
variable {span : Option Span} {before after : List (Key × Value)} {key : Key} {value : Value}

theorem ofTable_with_iff
    (distinct : ((before ++ (key, value) :: after).map (·.1.name)).Nodup) :
    schema.ofTable span (before ++ (key, value) :: after) = .ok record ↔
      ∃ slot ∈ slots.all, slot.name = key.name ∧ slot.Gives value record ∧
        slots.Besides key.name (before ++ after) record := by
  rw [slots.ofTable_eq_ok_iff distinct, slots.fits_with_iff]
  constructor
  · rintro ⟨⟨⟨slot, listed, named, gives⟩, fits⟩, left⟩
    refine ⟨slot, listed, named, gives, fits, fun other member differs absent => ?_⟩
    exact left other member (by simpa [differs] using absent)
  · rintro ⟨slot, listed, named, gives, fits, left⟩
    refine ⟨⟨⟨slot, listed, named, gives⟩, fits⟩, fun other member absent => ?_⟩
    have fewer := (List.sublist_cons_self (key, value) after).append_left before
    refine left other member (fun same => ?_) fun mentioned => ?_
    · exact absent (by simp [same])
    · exact absent ((fewer.map _).subset mentioned)

theorem ofTable_without_iff (listed : slot ∈ slots.all) (named : slot.name = key.name)
    (distinct : ((before ++ (key, value) :: after).map (·.1.name)).Nodup) :
    schema.ofTable span (before ++ after) = .ok record ↔
      (slot.need ≠ .always ∧ slot.get record = slot.get schema.blank) ∧
        slots.Besides key.name (before ++ after) record := by
  rw [List.map_append, List.map_cons, List.nodup_middle, ← List.map_append] at distinct
  rcases List.nodup_cons.mp distinct with ⟨new, others⟩
  rw [slots.ofTable_eq_ok_iff others]
  constructor
  · rintro ⟨given, left⟩
    exact ⟨left slot listed (named ▸ new), given, fun other member _ => left other member⟩
  · rintro ⟨own, given, left⟩
    refine ⟨given, fun other member absent => ?_⟩
    by_cases same : other.name = key.name
    · obtain rfl := slots.eq_of_name member listed (same.trans named.symm)
      exact own
    · exact left other member same absent

end Entry

end Table

section Array
variable {items : List Value}

/-- Whether values by place give what a record holds: each is read as what is in the slot at its place, and
the slots behind the last value may be left out and hold what they do in the blank record. -/
def Filled (blank record : Record) : List (Slot Record) → List Value → Prop
  | [], _ => True
  | slot :: rest, [] =>
      (slot.need = .never ∧ slot.get record = slot.get blank) ∧ Filled blank record rest []
  | slot :: rest, item :: items => slot.Gives item record ∧ Filled blank record rest items

/-- Only what the blank record holds in these slots matters. -/
theorem filled_congr {blank other : Record} {rest : List (Slot Record)}
    (same : ∀ slot ∈ rest, slot.get blank = slot.get other) :
    Filled blank record rest items ↔ Filled other record rest items := by
  induction rest generalizing items with
  | nil => exact Iff.rfl
  | cons slot rest ih =>
      rcases List.forall_mem_cons.mp same with ⟨own, others⟩
      cases items with
      | nil => rw [Filled, Filled, own, ih others]
      | cons item items => rw [Filled, Filled, ih others]

/-- Setting a slot leaves those before it and behind it alone. -/
theorem apart_middle {before rest : List (Slot Record)} (split : slots.all = before ++ slot :: rest)
    (member : other ∈ before ++ rest) (content : slot.Content) :
    other.get (slot.set content start) = other.get start := by
  have names := slots.names
  rw [split, List.map_append, List.map_cons, List.nodup_middle, ← List.map_append] at names
  have listed : other ∈ slots.all := by
    rw [split]
    exact List.mem_append.mpr ((List.mem_append.mp member).imp_right (List.mem_cons_of_mem _))
  refine slots.apart other listed slot (by simp [split]) (fun same => ?_) _ _
  exact (List.nodup_cons.mp names).1 (List.mem_map.mpr ⟨other, member, same⟩)

/-- Reading by place, from any record on, behind the slots that were read. -/
theorem readPlaces_eq_ok_iff {title : String} {span : Span} {count place : Nat}
    {before rest : List (Slot Record)} (split : slots.all = before ++ rest) :
    readPlaces title span count place (rest.map Slot.field) items start = .ok record ↔
      Filled start record rest items ∧ ∀ slot ∈ before, slot.get record = slot.get start := by
  induction rest generalizing before items start place with
  | nil =>
      rw [List.append_nil] at split
      constructor
      · intro same
        cases same
        exact ⟨trivial, fun _ _ => rfl⟩
      · rintro ⟨_, same⟩
        rw [slots.ext record start (split ▸ same)]
        rfl
  | cons slot rest ih =>
      have further : slots.all = (before ++ [slot]) ++ rest := by simp [split]
      have apart (other) (member : other ∈ before ++ rest) (content) :
          other.get (slot.set content start) = other.get start :=
        slots.apart_middle split member content
      rw [List.map_cons]
      cases items with
      | nil =>
          rw [readPlaces, Filled]
          by_cases need : slot.need = .never
          · rw [if_pos (show slot.field.need = .never from need), ih further, List.forall_mem_append,
              List.forall_mem_singleton]
            exact ⟨fun ⟨filled, kept, own⟩ => ⟨⟨⟨need, own⟩, filled⟩, kept⟩,
              fun ⟨⟨⟨_, own⟩, filled⟩, kept⟩ => ⟨filled, kept, own⟩⟩
          · rw [if_neg (show slot.field.need ≠ .never from need)]
            constructor
            · intro read
              cases read
            · rintro ⟨⟨⟨never, _⟩, _⟩, _⟩
              exact absurd never need
      | cons item items =>
          rw [readPlaces, Filled]
          constructor
          · intro read
            rcases bind_eq_ok read with ⟨next, first, more⟩
            rcases Slot.read_eq_ok_iff.mp first with ⟨content, parsed, rfl⟩
            rcases (ih further).mp more with ⟨filled, kept⟩
            rcases List.forall_mem_append.mp kept with ⟨kept, own⟩
            rw [List.forall_mem_singleton, slot.get_set] at own
            refine ⟨⟨by rw [Slot.Gives, own, parsed], ?_⟩, fun other member => ?_⟩
            · exact (filled_congr fun other member => apart other (by simp [member]) content).mp filled
            · rw [kept other member, apart other (by simp [member])]
          · rintro ⟨⟨own, filled⟩, kept⟩
            rw [show slot.field.read item start = .ok (slot.set (slot.get record) start) from
              Slot.read_eq_ok_iff.mpr ⟨_, own, rfl⟩]
            refine (ih further).mpr ⟨?_, List.forall_mem_append.mpr ⟨fun other member => ?_, ?_⟩⟩
            · exact (filled_congr fun other member => apart other (by simp [member]) _).mpr filled
            · rw [kept other member, apart other (by simp [member])]
            · exact List.forall_mem_singleton.mpr (slot.get_set _ _).symm

theorem readArray_eq_ok_iff {span : Span} :
    schema.read (.array span items) = .ok record ↔ Filled schema.blank record slots.all items := by
  rw [read, slots.fields_eq, slots.readPlaces_eq_ok_iff (List.nil_append _).symm]
  simp

end Array

end Schema.Slots

end ProofBuild.Toml

namespace ProofBuild.Manifest
open Toml

def toolchainSlots : toolchainSchema.Slots where
  all := [
    ⟨"path", .always, _, Value.readPath, (·.path),
      fun path choice => { choice with path }, fun _ _ => rfl⟩,
    ⟨"version", .always, _, Value.readString, (·.version),
      fun version choice => { choice with version }, fun _ _ => rfl⟩,
    ⟨"platform", .byPlace, _, fun value => do return some (← value.readString), (·.platform),
      fun platform choice => { choice with platform }, fun _ _ => rfl⟩,
    ⟨"edition", .never, _, Value.readString, (·.edition),
      fun edition choice => { choice with edition }, fun _ _ => rfl⟩]
  fields_eq := by simp [toolchainSchema, Slot.field]
  names := by decide
  apart := by simp
  ext record other same := by
    simp only [List.forall_mem_cons] at same
    cases record
    cases other
    simp_all

def unitSlots : unitSchema.Slots where
  all := [
    ⟨"name", .always, _, Value.readString, (·.name),
      fun name spec => { spec with name }, fun _ _ => rfl⟩,
    ⟨"srcs", .never, _, Value.readList Value.readPath, (·.sources),
      fun sources spec => { spec with sources }, fun _ _ => rfl⟩,
    ⟨"crate_root", .byPlace, _, fun value => do return some (← value.readPath), (·.entry),
      fun entry spec => { spec with entry }, fun _ _ => rfl⟩,
    ⟨"crate_name", .byPlace, _, fun value => do return some (← value.readString), (·.identity),
      fun identity spec => { spec with identity }, fun _ _ => rfl⟩,
    ⟨"deps", .never, _, Value.readList Value.readString, (·.dependencies),
      fun dependencies spec => { spec with dependencies }, fun _ _ => rfl⟩,
    ⟨"extra_args", .never, _, Value.readList Value.readString, (·.extraArguments),
      fun extraArguments spec => { spec with extraArguments }, fun _ _ => rfl⟩]
  fields_eq := by simp [unitSchema, Slot.field]
  names := by decide
  apart := by simp
  ext record other same := by
    simp only [List.forall_mem_cons] at same
    cases record
    cases other
    simp_all

def toolchainSlot : Slot Manifest where
  name := "toolchain"
  need := .always
  Content := ToolchainChoice
  parse := toolchainSchema.read
  get manifest := manifest.toolchain
  set toolchain manifest := { manifest with toolchain }
  get_set _ _ := rfl

def unitSlot : Slot Manifest where
  name := "unit"
  need := .never
  Content := List Spec
  parse := Value.readList unitSchema.read
  get manifest := manifest.units
  set units manifest := { manifest with units }
  get_set _ _ := rfl

def slots : schema.Slots where
  all := [toolchainSlot, unitSlot]
  fields_eq := by simp [schema, Slot.field, toolchainSlot, unitSlot]
  names := by decide
  apart := by simp [toolchainSlot, unitSlot]
  ext record other same := by
    simp only [List.forall_mem_cons, toolchainSlot, unitSlot] at same
    cases record
    cases other
    simp_all

end ProofBuild.Manifest
