import Mathlib
import ProofBuild.Proofs.Losses

/-!
What a manifest does not tell of its document. A key that sets an optional field to its default may be left
out, and so may the last value of a record by place. Values behind the last field of such a record are not
looked at, whatever they hold. Without anything else the document is not accepted any more, or it gives
another manifest. Main statement: `Manifest.parse_without_iff`.
-/

namespace ProofBuild.Toml

/-- What values by place may lose without a change of the record: anything behind the last field, or the
last value if it is the default of a field that may be left out. -/
inductive Schema.PlacesDrop {Record : Type} (blank : Record) :
    List (Field Record) → List Value → List Value → Prop where
  | surplus {span : Span} {items shorter : List Value}
      (loses : (Value.array span items).Loses (.array span shorter)) : PlacesDrop blank [] items shorter
  | default {field : Field Record} {rest : List (Field Record)} {item : Value} (need : field.need = .never)
      (same : field.read item blank = .ok blank) : PlacesDrop blank (field :: rest) [item] []
  | next {field : Field Record} {rest : List (Field Record)} {item : Value} {items shorter : List Value}
      (drops : PlacesDrop blank rest items shorter) :
      PlacesDrop blank (field :: rest) (item :: items) (item :: shorter)

/-- What a record may lose: by key the default of a field that may be left out, and what it may lose by
place. -/
inductive Schema.Drops {Record : Type} (schema : Schema Record) : Value → Value → Prop where
  | key {span : Option Span} {before after : List (Key × Value)} {key : Key} {value : Value}
      {field : Field Record} (member : field ∈ schema.fields) (named : field.name = key.name)
      (need : field.need ≠ .always) (same : field.read value schema.blank = .ok schema.blank) :
      Drops schema (.table span (before ++ (key, value) :: after)) (.table span (before ++ after))
  | places {span : Span} {items shorter : List Value}
      (drops : PlacesDrop schema.blank schema.fields items shorter) :
      Drops schema (.array span items) (.array span shorter)

namespace Value

theorem distinct_names {span : Option Span} {given : List (Key × Value)}
    (distinct : Distinct (.table span given)) : (given.map (·.1.name)).Nodup := by
  cases distinct with
  | table names inner => exact names

theorem distinct_within {span : Option Span} {before after : List (Key × Value)} {key : Key}
    {value : Value} (distinct : Distinct (.table span (before ++ (key, value) :: after))) :
    value.Distinct := by
  cases distinct with
  | table names inner => exact inner (key, value) (by simp)

theorem distinct_among {span : Span} {before after : List Value} {item : Value}
    (distinct : Distinct (.array span (before ++ item :: after))) : item.Distinct := by
  cases distinct with
  | array inner => exact inner item (by simp)

end Value

namespace Schema.Slots
variable {Record : Type} {schema : Schema Record} (slots : schema.Slots) {record : Record}

include slots

theorem exists_slot {field : Field Record} (member : field ∈ schema.fields) :
    ∃ slot ∈ slots.all, slot.field = field :=
  List.mem_map.mp (slots.fields_eq ▸ member)

/-- A value is the default of its field if the blank record holds what was read. -/
theorem read_blank_iff {slot : Slot Record} (listed : slot ∈ slots.all) {value : Value}
    (gives : slot.Gives value record) :
    slot.field.read value schema.blank = .ok schema.blank ↔ slot.get record = slot.get schema.blank := by
  rw [slots.read_eq_ok_self_iff listed, Slot.Gives, show slot.parse value = _ from gives, Except.ok.injEq]

theorem filled_of_drops {rest : List (Slot Record)} {items shorter : List Value}
    (listed : ∀ slot ∈ rest, slot ∈ slots.all)
    (drops : PlacesDrop schema.blank (rest.map Slot.field) items shorter)
    (filled : Filled schema.blank record rest items) : Filled schema.blank record rest shorter := by
  induction rest generalizing items shorter with
  | nil => trivial
  | cons slot rest ih =>
      rcases List.forall_mem_cons.mp listed with ⟨own, others⟩
      cases drops with
      | default need same =>
          rcases filled with ⟨gives, behind⟩
          exact ⟨⟨need, (slots.read_blank_iff own gives).mp same⟩, behind⟩
      | next drops => exact ⟨filled.1, ih others drops filled.2⟩

theorem ofTable_changed {span : Option Span} {before after : List (Key × Value)} {key : Key}
    {value less : Value} (distinct : ((before ++ (key, value) :: after).map (·.1.name)).Nodup)
    (given : schema.ofTable span (before ++ (key, value) :: after) = .ok record)
    (keeps : ∀ slot ∈ slots.all, slot.name = key.name →
      slot.Gives value record → slot.Gives less record) :
    schema.ofTable span (before ++ (key, less) :: after) = .ok record := by
  rcases (slots.ofTable_with_iff distinct).mp given with ⟨slot, listed, named, gives, besides⟩
  refine (slots.ofTable_with_iff ?_).mpr ⟨slot, listed, named, keeps slot listed named gives, besides⟩
  simpa using distinct

/-- What a record drops makes no difference. -/
theorem read_of_drops {value shorter : Value} (distinct : value.Distinct)
    (drops : schema.Drops value shorter) (given : schema.read value = .ok record) :
    schema.read shorter = .ok record := by
  cases drops with
  | key member named need same =>
      have names := Value.distinct_names distinct
      rcases slots.exists_slot member with ⟨slot, listed, rfl⟩
      rcases (slots.ofTable_with_iff names).mp given with ⟨other, also, twin, gives, besides⟩
      obtain rfl := slots.eq_of_name also listed (twin.trans (Eq.symm named))
      exact (slots.ofTable_without_iff listed named names).mpr
        ⟨⟨need, (slots.read_blank_iff listed gives).mp same⟩, besides⟩
  | places drops =>
      rw [slots.fields_eq] at drops
      rw [slots.readArray_eq_ok_iff] at given ⊢
      exact slots.filled_of_drops (fun _ => id) drops given

/-- A table that loses something and still gives the same record has lost a default, or something in a
value that its field still reads in the same way. -/
theorem table_cases {span : Option Span} {given : List (Key × Value)} {shorter : Value}
    (distinct : Value.Distinct (.table span given)) (loses : (Value.table span given).Loses shorter)
    (read : schema.read (.table span given) = .ok record) (kept : schema.read shorter = .ok record) :
    schema.Drops (.table span given) shorter ∨
      ∃ slot ∈ slots.all, ∃ before key value less after, given = before ++ (key, value) :: after ∧
        shorter = .table span (before ++ (key, less) :: after) ∧ slot.name = key.name ∧
        value.Loses less ∧ slot.Gives value record ∧ slot.Gives less record := by
  have names := Value.distinct_names distinct
  cases loses with
  | @field _ before after entry =>
      rcases (slots.ofTable_with_iff names).mp read with ⟨slot, listed, named, gives, _⟩
      rcases (slots.ofTable_without_iff listed named names).mp kept with ⟨⟨need, same⟩, _⟩
      have default := (slots.read_blank_iff listed gives).mpr same
      exact .inl (.key (slots.fields_eq ▸ List.mem_map_of_mem listed) named need default)
  | @inField _ before after key value less inner =>
      rcases (slots.ofTable_with_iff names).mp read with ⟨slot, listed, named, gives, _⟩
      have same : ((before ++ (key, less) :: after).map (·.1.name)) =
          (before ++ (key, value) :: after).map (·.1.name) := by simp
      rcases (slots.ofTable_with_iff (same ▸ names)).mp kept with ⟨other, also, twin, keeps, _⟩
      obtain rfl := slots.eq_of_name also listed (twin.trans named.symm)
      exact .inr ⟨other, also, before, key, value, less, after, rfl, rfl, named, inner, gives, keeps⟩

/-- Whether the values of all slots are read plainly. -/
def Plain : Prop := ∀ slot ∈ slots.all, Toml.Plain slot.parse

/-- Values by place that lose something and still give the same record have lost what may be lost, but for
values that are alike. -/
theorem drops_of_filled {rest : List (Slot Record)} {items shorter : List Value} {span : Span}
    (plain : ∀ slot ∈ rest, slot ∈ slots.all ∧ Toml.Plain slot.parse)
    (loses : (Value.array span items).Loses (.array span shorter))
    (filled : Filled schema.blank record rest items) (kept : Filled schema.blank record rest shorter) :
    ∃ left, PlacesDrop schema.blank (rest.map Slot.field) items left ∧
      bareItems left = bareItems shorter := by
  induction rest generalizing items shorter with
  | nil => exact ⟨shorter, .surplus loses, rfl⟩
  | cons slot rest ih =>
      rcases List.forall_mem_cons.mp plain with ⟨⟨listed, own⟩, others⟩
      cases items with
      | nil => exact absurd loses Value.not_loses_array_nil
      | cons item items =>
          rcases filled with ⟨gives, behind⟩
          rcases Value.loses_array_cases loses with same | ⟨less, inner, same⟩ | ⟨less, inner, same⟩
          · -- The first value is lost: the ones behind it take the places before their own.
            obtain rfl := (Value.array.inj same).2
            cases shorter with
            | nil =>
                rcases kept with ⟨⟨need, same⟩, _⟩
                exact ⟨[], .default need ((slots.read_blank_iff listed gives).mpr same), rfl⟩
            | cons next further =>
                rcases kept with ⟨keeps, moved⟩
                rcases ih others Value.loses_first behind moved with ⟨left, drops, alike⟩
                refine ⟨item :: left, .next drops, ?_⟩
                rw [bareItems, bareItems, alike, own.exact item next _ gives keeps]
          · obtain rfl := (Value.array.inj same).2
            exact absurd kept.1 (own.exact.not_kept inner gives)
          · obtain rfl := (Value.array.inj same).2
            rcases ih others inner behind kept.2 with ⟨left, drops, alike⟩
            refine ⟨item :: left, .next drops, ?_⟩
            rw [bareItems, bareItems, alike]

theorem read_without_iff (plain : slots.Plain) {value shorter : Value} (distinct : value.Distinct)
    (loses : value.Loses shorter) (read : schema.read value = .ok record) :
    schema.read shorter = .ok record ↔ ∃ left, schema.Drops value left ∧ left.bare = shorter.bare := by
  have blind := slots.blind_read fun slot member => (plain slot member).blind
  constructor
  · intro kept
    cases value with
    | table span given =>
        rcases slots.table_cases distinct loses read kept with
          drops | ⟨slot, listed, _, _, _, _, _, _, _, _, inner, gives, keeps⟩
        · exact ⟨shorter, drops, rfl⟩
        · exact absurd keeps ((plain slot listed).exact.not_kept inner gives)
    | array span items =>
        have arrayed : ∃ others, shorter = .array span others := by
          cases loses with
          | element | inElement => exact ⟨_, rfl⟩
        rcases arrayed with ⟨others, rfl⟩
        rw [slots.readArray_eq_ok_iff] at read kept
        have listed := fun slot member => And.intro member (plain slot member)
        rcases slots.drops_of_filled listed loses read kept with ⟨left, drops, alike⟩
        refine ⟨.array span left, .places (slots.fields_eq ▸ drops), ?_⟩
        rw [Value.bare, Value.bare, alike]
    | string | integer | float | boolean | moment => cases loses
  · rintro ⟨left, drops, same⟩
    exact (blind.of_bare_eq same).mp (slots.read_of_drops distinct drops read)

end Schema.Slots

end ProofBuild.Toml

namespace ProofBuild.Manifest
open Toml

theorem plain_toolchain : toolchainSlots.Plain := by
  simp only [Schema.Slots.Plain, toolchainSlots, List.forall_mem_cons]
  exact ⟨plain_readPath, plain_readString, plain_readString.optional, plain_readString, by simp⟩

theorem plain_unit : unitSlots.Plain := by
  simp only [Schema.Slots.Plain, unitSlots, List.forall_mem_cons]
  exact ⟨plain_readString, plain_readPath.list, plain_readPath.optional, plain_readString.optional,
    plain_readString.list, plain_readString.list, by simp⟩

theorem blind_ofDocument : Blind ofDocument := by
  refine slots.blind_read ?_
  have toolchain := toolchainSlots.blind_read fun slot member => (plain_toolchain slot member).blind
  have unit := unitSlots.blind_read fun slot member => (plain_unit slot member).blind
  simp only [slots, List.forall_mem_cons]
  exact ⟨toolchain, unit.list, by simp⟩

/-- What a manifest's document may lose: a default of its own, or what its toolchain or one of its units
may lose. -/
inductive Drops : Value → Value → Prop where
  | own {document shorter : Value} (drops : schema.Drops document shorter) : Drops document shorter
  | toolchain {span : Option Span} {before after : List (Key × Value)} {key : Key} {choice less : Value}
      (named : key.name = "toolchain") (drops : toolchainSchema.Drops choice less) :
      Drops (.table span (before ++ (key, choice) :: after)) (.table span (before ++ (key, less) :: after))
  | unit {span : Option Span} {place : Span} {before after : List (Key × Value)} {key : Key}
      {earlier later : List Value} {given less : Value} (named : key.name = "unit")
      (drops : unitSchema.Drops given less) :
      Drops (.table span (before ++ (key, .array place (earlier ++ given :: later)) :: after))
        (.table span (before ++ (key, .array place (earlier ++ less :: later)) :: after))

section Document
variable {document shorter : Value} {manifest : Manifest} (distinct : document.Distinct)
  (given : ofDocument document = .ok manifest)
include distinct given

/-- What a manifest drops makes no difference. -/
theorem ofDocument_of_drops (drops : Drops document shorter) : ofDocument shorter = .ok manifest := by
  cases drops with
  | own drops => exact slots.read_of_drops distinct drops given
  | toolchain named drops =>
      refine slots.ofTable_changed (Value.distinct_names distinct) given fun slot listed same gives => ?_
      rcases List.mem_pair.mp listed with rfl | rfl
      · exact toolchainSlots.read_of_drops (Value.distinct_within distinct) drops gives
      · exact absurd (same.trans named) (by decide)
  | @unit _ place _ _ _ earlier later unit _ named drops =>
      refine slots.ofTable_changed (Value.distinct_names distinct) given fun slot listed same gives => ?_
      rcases List.mem_pair.mp listed with rfl | rfl
      · exact absurd (same.trans named) (by decide)
      · have own := Value.distinct_among (Value.distinct_within distinct)
        have gives : (Value.array place (earlier ++ unit :: later)).readList unitSchema.read =
            .ok manifest.units := gives
        rcases readArray_element gives with ⟨spec, read⟩
        exact (readArray_changed_iff gives).mpr ((unitSlots.read_of_drops own drops read).trans read.symm)

/-- Whatever else a document loses is missed. -/
theorem exists_drops {span : Option Span} {fields : List (Key × Value)}
    (whole : document = .table span fields) (loses : document.Loses shorter)
    (kept : ofDocument shorter = .ok manifest) :
    ∃ left, Drops document left ∧ left.bare = shorter.bare := by
  subst whole
  rcases slots.table_cases distinct loses given kept with
    drops | ⟨slot, listed, before, key, value, less, after, rfl, rfl, named, inner, gives, keeps⟩
  · exact ⟨shorter, .own drops, rfl⟩
  · have own := Value.distinct_within distinct
    rcases List.mem_pair.mp listed with rfl | rfl
    · rcases (toolchainSlots.read_without_iff plain_toolchain own inner gives).mp keeps with
        ⟨left, drops, same⟩
      exact ⟨_, .toolchain named.symm drops, by simp [Value.bare, bareFields_eq_map, same]⟩
    · replace gives : value.readList unitSchema.read = .ok manifest.units := gives
      replace keeps : less.readList unitSchema.read = .ok manifest.units := keeps
      rcases readList_eq_ok_iff.mp gives with ⟨place, items, rfl, _⟩
      cases inner with
      | element => exact absurd keeps (readArray_without_ne gives)
      | inElement inner =>
          rcases readArray_element gives with ⟨spec, read⟩
          have reread := ((readArray_changed_iff gives).mp keeps).trans read
          rcases (unitSlots.read_without_iff plain_unit (Value.distinct_among own) inner read).mp reread
            with ⟨left, drops, same⟩
          refine ⟨_, .unit named.symm drops, ?_⟩
          simp [Value.bare, bareFields_eq_map, bareItems_eq_map, same]

end Document

theorem exists_table_of_read? {source : String} {document : Value} (read : read? source = some document) :
    ∃ span fields, document = .table span fields := by
  rcases Option.map_eq_some_iff.mp read with ⟨reading, _, rfl⟩
  exact ⟨_, _, rfl⟩

theorem parse_eq_ok_iff {source : String} {document : Value} {manifest : Manifest}
    (read : read? source = some document) :
    parse source = .ok manifest ↔ ofDocument document = .ok manifest := by
  rw [parse, read]
  cases ended : ofDocument document <;> simp [ended, Except.mapError]

/-- A manifest is the same without some key or element of its text exactly if what is left out is the
default of an optional field, or lies behind the last field of a record by place. By place, values that are
alike may stand for one another, so what is left is compared. -/
theorem parse_without_iff {source other : String} {document shorter changed : Value} {manifest : Manifest}
    (read : read? source = some document) (parsed : parse source = .ok manifest)
    (loses : document.Loses shorter) (readOther : read? other = some changed)
    (same : changed.bare = shorter.bare) :
    parse other = .ok manifest ↔ ∃ left, Drops document left ∧ left.bare = shorter.bare := by
  have given := (parse_eq_ok_iff read).mp parsed
  have distinct := distinct_of_read? read
  rw [parse_eq_ok_iff readOther, blind_ofDocument.of_bare_eq same]
  constructor
  · intro kept
    rcases exists_table_of_read? read with ⟨span, fields, whole⟩
    exact exists_drops distinct given whole loses kept
  · rintro ⟨left, drops, alike⟩
    exact (blind_ofDocument.of_bare_eq alike).mp (ofDocument_of_drops distinct given drops)

section Surplus

def fittingText : String := "toolchain = [\"t\", \"1.93.0\", \"x86_64-linux\", \"2021\"]\n"

/-- The same with a value behind the last field. -/
def surplusText : String := "toolchain = [\"t\", \"1.93.0\", \"x86_64-linux\", \"2021\", \"--strict\"]\n"

def fittingChoice : List Value :=
  [.string ⟨13, 16⟩ "t", .string ⟨18, 26⟩ "1.93.0", .string ⟨28, 42⟩ "x86_64-linux",
    .string ⟨44, 50⟩ "2021"]

def surplusChoice : List Value := fittingChoice ++ [.string ⟨52, 62⟩ "--strict"]

/-- A document that gives its toolchain by place and stops with it. -/
def choosing (choice : List Value) (stop : Nat) : Value :=
  .table (some ⟨0, stop⟩) [(⟨"toolchain", ⟨0, 9⟩⟩, .array ⟨12, stop⟩ choice)]

def chosen : Manifest := ⟨⟨⟨"t"⟩, "1.93.0", some "x86_64-linux", "2021"⟩, []⟩

theorem read_fittingText : read? fittingText = some (choosing fittingChoice 51) := by
  cbv

theorem read_surplusText : read? surplusText = some (choosing surplusChoice 63) := by
  cbv

theorem parse_without_iff_surplus :
    (read? surplusText = some (choosing surplusChoice 63) ∧ parse surplusText = .ok chosen ∧
      (choosing surplusChoice 63).Loses (choosing fittingChoice 63) ∧
      read? fittingText = some (choosing fittingChoice 51) ∧
      (choosing fittingChoice 51).bare = (choosing fittingChoice 63).bare) ∧
    parse fittingText = .ok chosen ∧
    ∃ left, Drops (choosing surplusChoice 63) left ∧ left.bare = (choosing fittingChoice 63).bare := by
  have parsed : parse surplusText = .ok chosen := by
    rw [parse_eq_ok_iff read_surplusText]
    rfl
  have loses : (choosing surplusChoice 63).Loses (choosing fittingChoice 63) :=
    @Value.Loses.inField _ [] [] _ _ _ (@Value.Loses.element _ fittingChoice [] _)
  have behind : Schema.PlacesDrop toolchainSchema.blank [] [.string ⟨52, 62⟩ "--strict"] [] :=
    @Schema.PlacesDrop.surplus _ _ ⟨12, 63⟩ _ _ Value.loses_first
  have past : toolchainSchema.Drops (.array ⟨12, 63⟩ surplusChoice) (.array ⟨12, 63⟩ fittingChoice) :=
    .places (.next (.next (.next (.next behind))))
  have drops : Drops (choosing surplusChoice 63) (choosing fittingChoice 63) :=
    @Drops.toolchain _ [] [] _ _ _ rfl past
  have without := parse_without_iff read_surplusText parsed loses read_fittingText rfl
  exact ⟨⟨read_surplusText, parsed, loses, read_fittingText, rfl⟩, without.mpr ⟨_, drops, rfl⟩,
    _, drops, rfl⟩

end Surplus

end ProofBuild.Manifest
