import Mathlib.Data.List.Forall2
import ProofBuild.Proofs.Search
import ProofBuild.Proofs.Settled

/-!
Which declared units make a graph. A unit is settled when its entry file can be told and its
identity is new, and the crate that comes of it has the unit's own names, files and dependencies.
Main statement: a graph is made exactly of well-formed units (`exists_ofSpecs_eq_ok_iff_wellFormed`),
and it then has one crate for each unit, every crate after those it depends on.
-/

namespace ProofBuild

namespace Spec

/-- Whether the entry file of a unit can be told. -/
def Resolvable (spec : Spec) : Prop :=
  spec.sources ≠ [] ∧ ∀ entry, spec.entry = some entry → entry.Among spec.sources

/-- The identity that a unit settles to. -/
def settledIdentity (spec : Spec) : String := crateIdentity spec.name spec.identity

theorem exists_entryAmong_eq_ok_iff (spec : Spec) :
    (∃ entry, entryAmong spec.sources spec.entry = .ok entry) ↔ spec.Resolvable := by
  unfold entryAmong Resolvable
  cases spec.sources with
  | nil => simp
  | cons first rest =>
      cases spec.entry with
      | none => simp
      | some entry =>
          by_cases among : entry.Among (first :: rest)
          · simp [among]
          · simp [among]

/-- Units that make a graph. -/
structure WellFormed (specs : List Spec) : Prop where
  names : (specs.map (·.name)).Nodup
  known : ∀ spec ∈ specs, ∀ name ∈ spec.dependencies, ∃ lower ∈ specs, lower.name = name
  acyclic : Acyclic specs
  resolvable : ∀ spec ∈ specs, spec.Resolvable
  identities : (specs.map settledIdentity).Nodup

end Spec

/-- Whether a crate is what a declared unit settles to, with its marker in `directory`. -/
structure Crate.Settles (directory : Path) (spec : Spec) (crate : Crate) : Prop where
  name : crate.name = spec.name
  identity : crate.identity = spec.settledIdentity
  entry : Spec.entryAmong spec.sources spec.entry = .ok crate.entry
  sources : crate.sources = spec.sources
  extraArguments : crate.extraArguments = spec.extraArguments
  dependencies : crate.dependencies = spec.dependencies
  marker : crate.marker = markerIn directory spec.name

namespace Graph

section Checks
variable {specs : List Spec}

theorem repeatedName?_eq_none_iff : repeatedName? specs = none ↔ (specs.map (·.name)).Nodup := by
  have goes : ∀ (specs : List Spec) (seen : List String), repeatedName?.go seen specs = none ↔
      (specs.map (·.name)).Nodup ∧ ∀ name ∈ specs.map (·.name), name ∉ seen := by
    intro specs
    induction specs with
    | nil => simp [repeatedName?.go]
    | cons spec rest ih =>
        intro seen
        rw [repeatedName?.go]
        by_cases member : spec.name ∈ seen
        · simp [member]
        · rw [if_neg member, ih]
          rw [List.map_cons, List.nodup_cons, List.forall_mem_cons]
          constructor
          · rintro ⟨distinct, others⟩
            refine ⟨⟨fun again => others _ again List.mem_cons_self, distinct⟩, member, ?_⟩
            exact fun name later known => others name later (List.mem_cons_of_mem _ known)
          · rintro ⟨⟨once, distinct⟩, _, others⟩
            refine ⟨distinct, fun name later known => ?_⟩
            rcases List.mem_cons.mp known with same | old
            · exact once (same ▸ later)
            · exact others name later old
  rw [repeatedName?, goes]
  simp

theorem unknownDependency?_eq_none_iff : unknownDependency? specs = none ↔
    ∀ spec ∈ specs, ∀ name ∈ spec.dependencies, ∃ lower ∈ specs, lower.name = name := by
  have declared : ∀ name, (Spec.find? specs name).isNone = false ↔
      ∃ lower ∈ specs, lower.name = name := by
    intro name
    rw [← Option.not_isSome, Bool.not_eq_false', Spec.find?_isSome_iff, List.mem_map]
  simp only [unknownDependency?, List.findSome?_eq_none_iff, Option.map_eq_none_iff,
    List.find?_eq_none, Bool.not_eq_true, declared]

end Checks

section Settling
variable {directory : Path} {settled : List Crate} {spec : Spec}

theorem map_name_select {names : List String}
    (ready : ∀ name ∈ names, ∃ lower ∈ settled, lower.name = name) :
    (Crate.select settled names).map (·.name) = names := by
  induction names with
  | nil => rfl
  | cons name rest ih =>
      obtain ⟨lower, inside, named⟩ := ready name List.mem_cons_self
      have some : (Crate.find? settled name).isSome := by
        apply List.find?_isSome.mpr
        exact ⟨lower, inside, by simpa using named⟩
      obtain ⟨crate, found⟩ := Option.isSome_iff_exists.mp some
      have others := ih fun other member => ready other (List.mem_cons_of_mem name member)
      unfold Crate.select at others ⊢
      rw [List.filterMap_cons_some found, List.map_cons, others, (Crate.find?_eq_some found).2]

theorem exists_ofSpec_eq_ok_iff :
    (∃ crate, Crate.ofSpec directory settled spec = .ok crate) ↔ spec.Resolvable := by
  rw [← Spec.exists_entryAmong_eq_ok_iff]
  unfold Crate.ofSpec Spec.resolve
  cases Spec.entryAmong spec.sources spec.entry <;> simp

theorem settles_of_ofSpec (ready : ∀ name ∈ spec.dependencies, ∃ lower ∈ settled, lower.name = name)
    {crate : Crate} (made : Crate.ofSpec directory settled spec = .ok crate) :
    crate.Settles directory spec := by
  unfold Crate.ofSpec Spec.resolve at made
  cases entered : Spec.entryAmong spec.sources spec.entry with
  | error error =>
      rw [entered] at made
      cases made
  | ok entry =>
      rw [entered] at made
      cases made
      exact ⟨rfl, rfl, entered, rfl, rfl, map_name_select ready, rfl⟩

/-- A unit is settled when its crate can be made and has an identity of its own. -/
theorem settle_eq_ok_iff {grown : List Crate} : settle directory settled spec = .ok grown ↔
    ∃ crate, Crate.ofSpec directory settled spec = .ok crate ∧
      (∀ earlier ∈ settled, earlier.identity ≠ crate.identity) ∧ grown = settled ++ [crate] := by
  unfold settle
  cases Crate.ofSpec directory settled spec with
  | error error => simp
  | ok crate =>
      simp only [Except.ok.injEq, exists_eq_left']
      split
      · rename_i earlier shared
        have inside := List.mem_of_find?_eq_some shared
        have same : earlier.identity = crate.identity := by simpa using List.find?_some shared
        constructor
        · intro made
          cases made
        · rintro ⟨apart, _⟩
          exact absurd same (apart earlier inside)
      · rename_i shared
        have apart : ∀ earlier ∈ settled, earlier.identity ≠ crate.identity := by
          simpa using List.find?_eq_none.mp shared
        constructor
        · intro made
          cases made
          exact ⟨apart, rfl⟩
        · rintro ⟨_, same⟩
          rw [same]

theorem settleAll_concat (units : List Spec) (last : Spec) :
    settleAll directory settled (units ++ [last]) =
      match settleAll directory settled units with
      | .error error => .error error
      | .ok grown => settle directory grown last := by
  induction units generalizing settled with
  | nil =>
      simp only [List.nil_append, settleAll]
      cases settle directory settled last <;> rfl
  | cons first rest ih =>
      rw [List.cons_append, settleAll, settleAll]
      cases settle directory settled first with
      | error error => rfl
      | ok grown => exact ih

end Settling

section Order
variable {specs : List Spec} {directory : Path}

theorem map_name_units {names : List String} (ordered : Order.Ordered specs names) :
    (names.filterMap (Spec.find? specs)).map (·.name) = names := by
  induction ordered with
  | none => rfl
  | @next listed name below fresh declared ready ih =>
      obtain ⟨spec, found⟩ := Option.isSome_iff_exists.mp (Spec.find?_isSome_iff.mpr declared)
      have last : [name].filterMap (Spec.find? specs) = [spec] := List.filterMap_cons_some found
      rw [List.filterMap_append, last, List.map_append, ih, List.map_singleton,
        (Spec.find?_eq_some found).2]

/-- What crates take over from their units, they take over one by one. -/
theorem map_eq_map_of_settles {units : List Spec} {crates : List Crate}
    {ofSpec : Spec → String} {ofCrate : Crate → String}
    (same : ∀ spec crate, Crate.Settles directory spec crate → ofCrate crate = ofSpec spec)
    (settles : List.Forall₂ (Crate.Settles directory) units crates) :
    crates.map ofCrate = units.map ofSpec := by
  induction settles with
  | nil => rfl
  | cons first _ ih => rw [List.map_cons, List.map_cons, same _ _ first, ih]

variable (distinct : (specs.map (·.name)).Nodup) {listed : List String}
include distinct

theorem ready_of_settles {name : String} {spec : Spec} {settled : List Crate}
    (below : Order.Ordered specs listed) (found : Spec.find? specs name = some spec)
    (ready : ∀ lower, Spec.Needs specs name lower → lower ∈ listed)
    (settles : List.Forall₂ (Crate.Settles directory) (listed.filterMap (Spec.find? specs)) settled) :
    ∀ lower ∈ spec.dependencies, ∃ crate ∈ settled, crate.name = lower := by
  have names : settled.map (·.name) = listed := by
    rw [map_eq_map_of_settles (fun _ _ settles => settles.name) settles, map_name_units below]
  intro lower wanted
  have member := ready lower ((Spec.needs_iff distinct found).mpr wanted)
  rw [← names] at member
  exact List.mem_map.mp member

/-- Units in an execution order settle to crates of their own. -/
theorem settles_of_settleAll (ordered : Order.Ordered specs listed) {crates : List Crate}
    (done : settleAll directory [] (listed.filterMap (Spec.find? specs)) = .ok crates) :
    List.Forall₂ (Crate.Settles directory) (listed.filterMap (Spec.find? specs)) crates ∧
      (crates.map (·.identity)).Nodup := by
  induction ordered generalizing crates with
  | none =>
      cases done
      exact ⟨.nil, List.nodup_nil⟩
  | @next listed name below fresh declared ready ih =>
      obtain ⟨spec, found⟩ := Option.isSome_iff_exists.mp (Spec.find?_isSome_iff.mpr declared)
      have last : [name].filterMap (Spec.find? specs) = [spec] := List.filterMap_cons_some found
      rw [List.filterMap_append, last] at done ⊢
      rw [settleAll_concat] at done
      cases first : settleAll directory [] (listed.filterMap (Spec.find? specs)) with
      | error error =>
          rw [first] at done
          cases done
      | ok settled =>
          rw [first] at done
          obtain ⟨crate, made, apart, rfl⟩ := settle_eq_ok_iff.mp done
          obtain ⟨settles, identities⟩ := ih first
          have own := settles_of_ofSpec (ready_of_settles distinct below found ready settles) made
          constructor
          · exact List.rel_append settles (.cons own .nil)
          · rw [List.map_append, List.map_singleton]
            apply List.nodup_append.mpr
            refine ⟨identities, List.nodup_singleton _, ?_⟩
            intro earlier member other final
            obtain ⟨lower, inside, rfl⟩ := List.mem_map.mp member
            rw [List.mem_singleton.mp final]
            exact apart lower inside

/-- Units in an execution order settle when each of them can and their identities are apart. -/
theorem exists_settleAll_eq_ok (ordered : Order.Ordered specs listed)
    (resolvable : ∀ spec ∈ specs, spec.Resolvable)
    (identities : ((listed.filterMap (Spec.find? specs)).map Spec.settledIdentity).Nodup) :
    ∃ crates, settleAll directory [] (listed.filterMap (Spec.find? specs)) = .ok crates := by
  induction ordered with
  | none => exact ⟨[], rfl⟩
  | @next listed name below fresh declared ready ih =>
      obtain ⟨spec, found⟩ := Option.isSome_iff_exists.mp (Spec.find?_isSome_iff.mpr declared)
      have last : [name].filterMap (Spec.find? specs) = [spec] := List.filterMap_cons_some found
      rw [List.filterMap_append, last, List.map_append, List.map_singleton] at identities
      obtain ⟨earlier, _, across⟩ := List.nodup_append.mp identities
      obtain ⟨settled, first⟩ := ih earlier
      obtain ⟨settles, _⟩ := settles_of_settleAll distinct below first
      obtain ⟨crate, made⟩ : ∃ crate, Crate.ofSpec directory settled spec = .ok crate :=
        exists_ofSpec_eq_ok_iff.mpr (resolvable spec (Spec.find?_eq_some found).1)
      have own := settles_of_ofSpec (ready_of_settles distinct below found ready settles) made
      have apart : ∀ lower ∈ settled, lower.identity ≠ crate.identity := by
        intro lower member
        rw [own.identity]
        apply across lower.identity ?_ _ List.mem_cons_self
        rw [← map_eq_map_of_settles (fun _ _ settles => settles.identity) settles]
        exact List.mem_map.mpr ⟨lower, member, rfl⟩
      rw [List.filterMap_append, last]
      refine ⟨settled ++ [crate], ?_⟩
      rw [settleAll_concat, first]
      exact settle_eq_ok_iff.mpr ⟨crate, made, apart, rfl⟩

end Order

section Accepted
variable {specs : List Spec} {directory : Path}

/-- The checks that come before the units are settled, one after the other. -/
theorem ofSpecs_eq_ok_iff {graph : Graph} : ofSpecs specs directory = .ok graph ↔
    (specs.map (·.name)).Nodup ∧
      (∀ spec ∈ specs, ∀ name ∈ spec.dependencies, ∃ lower ∈ specs, lower.name = name) ∧
      ∃ names, Order.ofSpecs specs = .ok names ∧
        settleAll directory [] (names.filterMap (Spec.find? specs)) = .ok graph.crates := by
  rw [← repeatedName?_eq_none_iff, ← unknownDependency?_eq_none_iff, ofSpecs]
  cases repeatedName? specs with
  | some name => simp
  | none =>
      cases unknownDependency? specs with
      | some pair => simp
      | none =>
          cases Order.ofSpecs specs with
          | error error => simp
          | ok names =>
              cases done : settleAll directory [] (names.filterMap (Spec.find? specs)) with
              | error error => simp [done, Except.map]
              | ok crates =>
                  cases graph
                  simp [done, Except.map]

theorem known_of_needs
    (known : ∀ spec ∈ specs, ∀ name ∈ spec.dependencies, ∃ lower ∈ specs, lower.name = name) :
    ∀ upper lower, Spec.Needs specs upper lower → lower ∈ specs.map (·.name) := by
  rintro upper lower ⟨spec, member, _, wanted⟩
  exact List.mem_map.mpr (known spec member lower wanted)

theorem perm_units (distinct : (specs.map (·.name)).Nodup) {names : List String}
    (permutation : names.Perm (specs.map (·.name))) :
    (names.filterMap (Spec.find? specs)).Perm specs := by
  have looked := permutation.filterMap (Spec.find? specs)
  rwa [Spec.filterMap_find?_names distinct] at looked

theorem settles_of_ofSpecs {graph : Graph} (accepted : ofSpecs specs directory = .ok graph) :
    ∃ units, units.Perm specs ∧ List.Forall₂ (Crate.Settles directory) units graph.crates := by
  obtain ⟨distinct, known, names, listing, done⟩ := ofSpecs_eq_ok_iff.mp accepted
  obtain ⟨ordered, permutation⟩ := Order.of_ofSpecs_eq_ok distinct (known_of_needs known) listing
  refine ⟨_, perm_units distinct permutation, ?_⟩
  exact (settles_of_settleAll distinct ordered done).1

theorem wellFormed_of_ofSpecs {graph : Graph} (accepted : ofSpecs specs directory = .ok graph) :
    Spec.WellFormed specs := by
  obtain ⟨distinct, known, names, listing, _⟩ := ofSpecs_eq_ok_iff.mp accepted
  obtain ⟨units, permutation, settles⟩ := settles_of_ofSpecs accepted
  refine ⟨distinct, known, ?_, ?_, ?_⟩
  · exact (Order.exists_ofSpecs_eq_ok_iff distinct (known_of_needs known)).mp ⟨names, listing⟩
  · have both := settles.imp fun spec crate own =>
      And.intro ((Spec.exists_entryAmong_eq_ok_iff spec).mp ⟨crate.entry, own.entry⟩) own
    intro spec member
    exact ((List.forall₂_and_left _ _).mp both).1 spec (permutation.mem_iff.mpr member)
  · have apart := (settled_of_ofSpecs accepted).1.nodup_identities
    rw [map_eq_map_of_settles (fun _ _ own => own.identity) settles] at apart
    exact (permutation.map Spec.settledIdentity).nodup_iff.mp apart

/-- A graph is made exactly of well-formed units. It has one crate for each unit, and a crate
depends on the crates that its unit names, all of them before it. -/
theorem exists_ofSpecs_eq_ok_iff_wellFormed (specs : List Spec) (directory : Path) :
    ((∃ graph, ofSpecs specs directory = .ok graph) ↔ Spec.WellFormed specs) ∧
      ∀ graph, ofSpecs specs directory = .ok graph →
        (∃ units, units.Perm specs ∧
          List.Forall₂ (Crate.Settles directory) units graph.crates) ∧
        ∀ before crate after, graph.crates = before ++ crate :: after →
          (graph.dependencies crate).map (·.name) = crate.dependencies ∧
            ∀ lower ∈ graph.dependencies crate, lower ∈ before := by
  constructor
  · constructor
    · rintro ⟨graph, accepted⟩
      exact wellFormed_of_ofSpecs accepted
    · intro wellFormed
      obtain ⟨distinct, known, acyclic, resolvable, identities⟩ := wellFormed
      obtain ⟨names, listing⟩ :=
        (Order.exists_ofSpecs_eq_ok_iff distinct (known_of_needs known)).mpr acyclic
      obtain ⟨ordered, permutation⟩ :=
        Order.of_ofSpecs_eq_ok distinct (known_of_needs known) listing
      have apart := (perm_units distinct permutation).map Spec.settledIdentity
      obtain ⟨crates, done⟩ := exists_settleAll_eq_ok distinct ordered resolvable
        (apart.nodup_iff.mpr identities)
      exact ⟨⟨crates⟩, ofSpecs_eq_ok_iff.mpr ⟨distinct, known, names, listing, done⟩⟩
  · intro graph accepted
    constructor
    · exact settles_of_ofSpecs accepted
    · intro before crate after place
      have settled := (settled_of_ofSpecs accepted).1
      have inside : crate ∈ graph.crates := by simp [place]
      constructor
      · exact map_name_select (settled.ready crate inside)
      · intro lower below
        obtain ⟨member, wanted⟩ := Crate.of_mem_select below
        exact settled.mem_before (List.Sublist.refl _) place member wanted

/-- The lower unit is declared after the upper one and comes before it in the graph. -/
theorem exists_ofSpecs_eq_ok_iff_wellFormed_tandem :
    Spec.WellFormed tandemSpecs ∧ ofSpecs tandemSpecs ⟨"out"⟩ = .ok tandem ∧
      (∃ units, units.Perm tandemSpecs ∧
        List.Forall₂ (Crate.Settles ⟨"out"⟩) units tandem.crates) ∧
      (tandem.dependencies tandem.crates[1]).map (·.name) = ["core"] ∧
      ∀ lower ∈ tandem.dependencies tandem.crates[1], lower ∈ [tandem.crates[0]] := by
  obtain ⟨accepted, made⟩ := exists_ofSpecs_eq_ok_iff_wellFormed tandemSpecs ⟨"out"⟩
  obtain ⟨settles, order⟩ := made tandem ofSpecs_tandemSpecs
  have upper := order [tandem.crates[0]] tandem.crates[1] [] rfl
  exact ⟨accepted.mp ⟨tandem, ofSpecs_tandemSpecs⟩, ofSpecs_tandemSpecs, settles, upper⟩

end Accepted

end Graph

end ProofBuild
