import Mathlib.Data.List.Nodup
import Mathlib.Logic.Relation
import ProofBuild.Invocation
import ProofBuild.Proofs.Places

/-!
Graphs that were accepted. The crates of such a graph were settled one after the other, each on
those before it (`settled_of_ofSpecs`), so names and identities are apart and nothing depends on
itself or on what comes later. Main statement: a closure is closed under dependencies and keeps
the order (`closed_of_closure`).
-/

namespace ProofBuild

namespace Crate

theorem find?_eq_some {crates : List Crate} {name : String} {crate : Crate}
    (found : find? crates name = some crate) : crate ∈ crates ∧ crate.name = name :=
  ⟨List.mem_of_find?_eq_some found, by simpa using List.find?_some found⟩

theorem mem_select {crates : List Crate} {names : List String} {crate : Crate} :
    crate ∈ select crates names ↔ ∃ name ∈ names, find? crates name = some crate :=
  List.mem_filterMap

theorem of_mem_select {crates : List Crate} {names : List String} {crate : Crate}
    (member : crate ∈ select crates names) : crate ∈ crates ∧ crate.name ∈ names := by
  obtain ⟨name, wanted, found⟩ := mem_select.mp member
  obtain ⟨inside, rfl⟩ := find?_eq_some found
  exact ⟨inside, wanted⟩

/-- The names of selected crates select them again. -/
theorem select_map_name (crates : List Crate) (names : List String) :
    select crates ((select crates names).map (·.name)) = select crates names := by
  induction names with
  | nil => rfl
  | cons name rest ih =>
      unfold select at ih ⊢
      cases found : find? crates name with
      | none => simpa [found] using ih
      | some crate =>
          obtain ⟨_, named⟩ := find?_eq_some found
          simpa [found, named] using ih

theorem select_append {crates more : List Crate} {names : List String}
    (ready : ∀ name ∈ names, ∃ crate ∈ crates, crate.name = name) :
    select (crates ++ more) names = select crates names := by
  apply List.filterMap_congr
  intro name wanted
  obtain ⟨crate, inside, named⟩ := ready name wanted
  unfold find?
  rw [List.find?_append, Option.or_of_isSome]
  exact List.find?_isSome.mpr ⟨crate, inside, by simpa using named⟩

end Crate

namespace Graph

/-- Crates settled one after the other, each on those before it. -/
inductive Settled (directory : Path) : List Crate → Prop where
  | none : Settled directory []
  | next {settled : List Crate} {crate : Crate} (below : Settled directory settled)
      (names : ∀ earlier ∈ settled, earlier.name ≠ crate.name)
      (identities : ∀ earlier ∈ settled, earlier.identity ≠ crate.identity)
      (marker : crate.marker = Crate.markerIn directory crate.name)
      (ready : ∀ name ∈ crate.dependencies, ∃ earlier ∈ settled, earlier.name = name)
      (markers : crate.markers =
        Crate.markersWith crate.marker (Crate.select settled crate.dependencies)) :
      Settled directory (settled ++ [crate])

/-- Whether a crate comes from the declared unit of its name. -/
def Declared (specs : List Spec) (crate : Crate) : Prop :=
  ∃ spec, Spec.find? specs crate.name = some spec ∧
    crate.identity = Spec.crateIdentity spec.name spec.identity

theorem Declared.identity_eq {specs : List Spec} {one two : Crate} (first : Declared specs one)
    (second : Declared specs two) (names : one.name = two.name) : one.identity = two.identity := by
  obtain ⟨spec, found, identity⟩ := first
  obtain ⟨other, foundOther, identityOther⟩ := second
  rw [names, foundOther] at found
  cases found
  rw [identity, identityOther]

section Accepted
variable {specs : List Spec} {directory : Path}

/-- One more unit is settled. Names are apart because identities are, and one name has one
declaration. -/
theorem settled_settle {settled grown : List Crate} {spec : Spec}
    (below : Settled directory settled) (declared : ∀ crate ∈ settled, Declared specs crate)
    (found : Spec.find? specs spec.name = some spec)
    (accepted : settle directory settled spec = .ok grown) :
    Settled directory grown ∧ ∀ crate ∈ grown, Declared specs crate := by
  unfold settle Crate.ofSpec Spec.resolve at accepted
  cases entered : Spec.entryAmong spec.sources spec.entry with
  | error error => simp [entered] at accepted
  | ok entry =>
      simp only [entered] at accepted
      split at accepted
      · cases accepted
      · rename_i apart
        cases accepted
        -- Two crates of one name come from one unit, so they would share its identity.
        have identities := List.find?_eq_none.mp apart
        simp only [decide_eq_true_eq] at identities
        have fresh : Declared specs
            { name := spec.name
              identity := Spec.crateIdentity spec.name spec.identity
              entry
              sources := spec.sources
              extraArguments := spec.extraArguments
              dependencies := (Crate.select settled spec.dependencies).map (·.name)
              marker := Crate.markerIn directory spec.name
              markers := Crate.markersWith (Crate.markerIn directory spec.name)
                (Crate.select settled spec.dependencies) } := ⟨spec, found, rfl⟩
        refine ⟨.next below ?_ identities rfl ?_ ?_, ?_⟩
        · intro earlier member same
          exact identities earlier member ((declared earlier member).identity_eq fresh same)
        · intro name member
          obtain ⟨lower, selected, rfl⟩ := List.mem_map.mp member
          exact ⟨lower, (Crate.of_mem_select selected).1, rfl⟩
        · rw [Crate.select_map_name]
        · intro crate member
          rcases List.mem_append.mp member with old | new
          · exact declared crate old
          · rw [List.mem_singleton.mp new]
            exact fresh

theorem settled_settleAll {settled crates : List Crate} {units : List Spec}
    (below : Settled directory settled) (declared : ∀ crate ∈ settled, Declared specs crate)
    (found : ∀ spec ∈ units, Spec.find? specs spec.name = some spec)
    (accepted : settleAll directory settled units = .ok crates) :
    Settled directory crates ∧ ∀ crate ∈ crates, Declared specs crate := by
  induction units generalizing settled with
  | nil =>
      cases accepted
      exact ⟨below, declared⟩
  | cons spec rest ih =>
      unfold settleAll at accepted
      split at accepted
      · cases accepted
      · rename_i grown first
        obtain ⟨higher, grownDeclared⟩ :=
          settled_settle below declared (found spec List.mem_cons_self) first
        exact ih higher grownDeclared (fun other member => found other (List.mem_cons_of_mem spec member))
          accepted

/-- The crates of an accepted graph were settled one after the other, and each of them has the
name of a declared unit. -/
theorem settled_of_ofSpecs {graph : Graph} (accepted : ofSpecs specs directory = .ok graph) :
    Settled directory graph.crates ∧ ∀ crate ∈ graph.crates, Declared specs crate := by
  unfold ofSpecs at accepted
  split at accepted
  · cases accepted
  · split at accepted
    · cases accepted
    · split at accepted
      · cases accepted
      · rename_i names _
        cases done : settleAll directory [] (names.filterMap (Spec.find? specs)) with
        | error error => simp [done, Except.map] at accepted
        | ok crates =>
            simp only [done, Except.map, Except.ok.injEq] at accepted
            cases accepted
            refine settled_settleAll .none (by simp) ?_ done
            intro spec member
            obtain ⟨name, _, found⟩ := List.mem_filterMap.mp member
            have named : spec.name = name := by simpa using List.find?_some found
            rw [named]
            exact found

end Accepted

/-- A workspace of one crate on top of another one. -/
def tandemSpecs : List Spec := [
  ⟨"app", [⟨"app.rs"⟩], none, none, [], ["core"]⟩,
  ⟨"core", [⟨"core.rs"⟩], none, none, [], []⟩]

def tandem : Graph where
  crates := [
    ⟨"core", "core", ⟨"core.rs"⟩, [⟨"core.rs"⟩], [], [], ⟨"out/core.success"⟩,
      [⟨"out/core.success"⟩]⟩,
    ⟨"app", "app", ⟨"app.rs"⟩, [⟨"app.rs"⟩], [], ["core"], ⟨"out/app.success"⟩,
      [⟨"out/app.success"⟩, ⟨"out/core.success"⟩]⟩]

theorem ofSpecs_tandemSpecs : ofSpecs tandemSpecs ⟨"out"⟩ = .ok tandem := by
  have distinct : repeatedName? tandemSpecs = none := by decide
  have known : unknownDependency? tandemSpecs = none := by decide
  have order : Order.ofSpecs tandemSpecs = .ok ["core", "app"] := by cbv
  have settled : settleAll ⟨"out"⟩ [] (["core", "app"].filterMap (Spec.find? tandemSpecs)) =
      .ok tandem.crates := by decide
  simp only [ofSpecs, distinct, known, order, settled]
  rfl

namespace Settled
variable {directory : Path} {crates : List Crate}

/-- Two crates that stand in this order. -/
def InOrder (earlier later : Crate) : Prop :=
  earlier.name ≠ later.name ∧ earlier.identity ≠ later.identity ∧
    later.name ∉ earlier.dependencies

theorem ready (settled : Settled directory crates) :
    ∀ crate ∈ crates, ∀ name ∈ crate.dependencies, ∃ lower ∈ crates, lower.name = name := by
  induction settled with
  | none => simp
  | next below _ _ _ ready _ ih =>
      intro crate member name wanted
      rcases List.mem_append.mp member with old | new
      · obtain ⟨lower, inside, named⟩ := ih crate old name wanted
        exact ⟨lower, List.mem_append_left _ inside, named⟩
      · rw [List.mem_singleton.mp new] at wanted
        obtain ⟨lower, inside, named⟩ := ready name wanted
        exact ⟨lower, List.mem_append_left _ inside, named⟩

theorem pairwise (settled : Settled directory crates) : crates.Pairwise InOrder := by
  induction settled with
  | none => exact .nil
  | next below names identities _ _ _ ih =>
      refine List.pairwise_append.mpr ⟨ih, List.pairwise_singleton .., ?_⟩
      intro earlier member later last
      rw [List.mem_singleton.mp last]
      refine ⟨names earlier member, identities earlier member, fun wanted => ?_⟩
      obtain ⟨lower, inside, named⟩ := below.ready earlier member _ wanted
      exact names lower inside named

theorem own_name_not_mem (settled : Settled directory crates) :
    ∀ crate ∈ crates, crate.name ∉ crate.dependencies := by
  induction settled with
  | none => simp
  | next below names _ _ ready _ ih =>
      intro crate member wanted
      rcases List.mem_append.mp member with old | new
      · exact ih crate old wanted
      · cases List.mem_singleton.mp new
        obtain ⟨lower, inside, named⟩ := ready _ wanted
        exact names lower inside named

theorem marker_eq (settled : Settled directory crates) :
    ∀ crate ∈ crates, crate.marker = Crate.markerIn directory crate.name := by
  induction settled with
  | none => simp
  | next below _ _ marker _ _ ih =>
      intro crate member
      rcases List.mem_append.mp member with old | new
      · exact ih crate old
      · rw [List.mem_singleton.mp new]
        exact marker

theorem nodup_names (settled : Settled directory crates) : (crates.map (·.name)).Nodup :=
  List.pairwise_map.mpr (settled.pairwise.imp fun order => order.1)

theorem nodup_identities (settled : Settled directory crates) :
    (crates.map (·.identity)).Nodup :=
  List.pairwise_map.mpr (settled.pairwise.imp fun order => order.2.1)

theorem eq_of_name_eq (settled : Settled directory crates) {one two : Crate} (first : one ∈ crates)
    (second : two ∈ crates) (same : one.name = two.name) : one = two :=
  List.inj_on_of_nodup_map settled.nodup_names first second same

/-- The crates that a crate names are those that bear the names. -/
theorem mem_select (settled : Settled directory crates) {names : List String} {crate : Crate} :
    crate ∈ Crate.select crates names ↔ crate ∈ crates ∧ crate.name ∈ names := by
  refine ⟨Crate.of_mem_select, fun ⟨inside, wanted⟩ => Crate.mem_select.mpr ⟨_, wanted, ?_⟩⟩
  have found : (Crate.find? crates crate.name).isSome :=
    List.find?_isSome.mpr ⟨crate, inside, by simp⟩
  obtain ⟨other, same⟩ := Option.isSome_iff_exists.mp found
  obtain ⟨otherInside, named⟩ := Crate.find?_eq_some same
  rw [same, settled.eq_of_name_eq otherInside inside named]

/-- In any part of the crates that keeps the order, what a crate depends on comes before it. -/
theorem mem_before (settled : Settled directory crates) {selected before after : List Crate}
    {crate lower : Crate} (part : selected.Sublist crates) (place : selected = before ++ crate :: after)
    (chosen : lower ∈ selected) (wanted : lower.name ∈ crate.dependencies) : lower ∈ before := by
  have order := settled.pairwise.sublist part
  subst place
  rcases List.mem_append.mp chosen with earlier | rest
  · exact earlier
  · exfalso
    rcases List.mem_cons.mp rest with same | later
    · rw [same] at wanted
      exact settled.own_name_not_mem crate (part.subset (by simp)) wanted
    · have apart := (List.pairwise_cons.mp (List.pairwise_append.mp order).2.1).1 lower later
      exact apart.2.2 wanted

end Settled

/-- One crate depends on the other, directly or through others. -/
def Below (graph : Graph) : Crate → Crate → Prop :=
  Relation.TransGen fun upper lower => lower ∈ graph.dependencies upper

/-- Whether a crate has this name. -/
def Known (graph : Graph) (name : String) : Prop := ∃ crate ∈ graph.crates, crate.name = name

instance (graph : Graph) (name : String) : Decidable (graph.Known name) :=
  inferInstanceAs (Decidable (∃ crate ∈ graph.crates, crate.name = name))

section Names
variable {graph : Graph} {names : List String} {selected : List Crate}

theorem isSome_find?_iff {name : String} : (graph.find? name).isSome = true ↔ graph.Known name := by
  rw [find?, Crate.find?, List.find?_isSome]
  simp [Known]

theorem isNone_find?_iff {name : String} : (graph.find? name).isNone = true ↔ ¬ graph.Known name := by
  rw [← isSome_find?_iff]
  simp

/-- A request for some names succeeds when all of them are known, with the crates whose names are wanted
in the end. -/
theorem closure_eq_ok_iff (some : names ≠ []) :
    graph.closure names = .ok selected ↔ (∀ name ∈ names, graph.Known name) ∧
      selected = graph.crates.filter fun crate => crate.name ∈ spread graph.crates [] names.reverse := by
  have allKnown : names.find? (fun name => (graph.find? name).isNone) = none ↔
      ∀ name ∈ names, graph.Known name := by
    simp only [List.find?_eq_none, isNone_find?_iff, not_not]
  rw [closure, if_neg some, ← allKnown]
  cases names.find? fun name => (graph.find? name).isNone with
  | none => simp [eq_comm]
  | some name => simp

/-- A request succeeds when all its names are known. -/
theorem exists_closure_eq_ok_iff :
    (∃ selected, graph.closure names = .ok selected) ↔ ∀ name ∈ names, graph.Known name := by
  by_cases all : names = []
  · simp [closure, all]
  · simp [closure_eq_ok_iff all]

theorem exists_closure_eq_ok {crate : Crate} (member : crate ∈ graph.crates) :
    ∃ selected, graph.closure [crate.name] = .ok selected :=
  exists_closure_eq_ok_iff.mpr (List.forall_mem_singleton.mpr ⟨crate, member, rfl⟩)

/-- A closure is the part of the graph that passes some test, in the graph's order. -/
theorem eq_filter_of_closure (chosen : graph.closure names = .ok selected) :
    ∃ test : Crate → Bool, selected = graph.crates.filter test := by
  by_cases all : names = []
  · rw [closure, if_pos all] at chosen
    cases chosen
    exact ⟨fun _ => true, by simp⟩
  · exact ⟨_, ((closure_eq_ok_iff all).mp chosen).2⟩

end Names

section Closure
variable {graph : Graph} {directory : Path}

/-- What the wanted crates depend on is wanted or waits. -/
def Covered (crates : List Crate) (wanted waiting : List String) : Prop :=
  ∀ name ∈ wanted, ∀ crate, Crate.find? crates name = some crate →
    ∀ lower ∈ crate.dependencies, lower ∈ wanted ∨ lower ∈ waiting

/-- A name that is taken from those that wait is wanted, and what it needs waits. -/
theorem Covered.take {crates : List Crate} {wanted waiting : List String} {name : String}
    {crate : Crate} (covered : Covered crates wanted (name :: waiting))
    (found : Crate.find? crates name = some crate) :
    Covered crates (name :: wanted) (crate.dependencies.reverse ++ waiting) := by
  intro upper inside other foundOther lower needed
  rcases List.mem_cons.mp inside with rfl | old
  · cases found.symm.trans foundOther
    exact .inr (List.mem_append_left _ (List.mem_reverse.mpr needed))
  · rcases covered upper old other foundOther lower needed with before | waits
    · exact .inl (List.mem_cons_of_mem name before)
    · rcases List.mem_cons.mp waits with rfl | later
      · exact .inl List.mem_cons_self
      · exact .inr (List.mem_append_right _ later)

/-- A name that is wanted already can be passed over. -/
theorem Covered.skip {crates : List Crate} {wanted waiting : List String} {name : String}
    (covered : Covered crates wanted (name :: waiting)) (seen : name ∈ wanted) :
    Covered crates wanted waiting := by
  intro upper inside other foundOther lower needed
  rcases covered upper inside other foundOther lower needed with before | waits
  · exact .inl before
  · rcases List.mem_cons.mp waits with rfl | later
    · exact .inl seen
    · exact .inr later

theorem mem_spread_of_mem {crates : List Crate} {wanted waiting : List String} {name : String}
    (member : name ∈ wanted) : name ∈ spread crates wanted waiting := by
  fun_induction spread crates wanted waiting with
  | case1 => exact member
  | case2 _ _ _ _ ih => exact ih member
  | case3 _ _ _ _ _ ih => exact ih member
  | case4 _ first _ _ _ _ ih => exact ih (List.mem_cons_of_mem first member)

/-- When nothing waits any more, every name that waited is wanted, and every crate that is wanted has
passed on what it depends on. -/
theorem covered_spread {crates : List Crate}
    (ready : ∀ crate ∈ crates, ∀ name ∈ crate.dependencies, ∃ lower ∈ crates, lower.name = name)
    {wanted waiting : List String} (known : ∀ name ∈ waiting, ∃ crate ∈ crates, crate.name = name)
    (covered : Covered crates wanted waiting) :
    (∀ name ∈ waiting, name ∈ spread crates wanted waiting) ∧
      Covered crates (spread crates wanted waiting) [] := by
  fun_induction spread crates wanted waiting with
  | case1 => exact ⟨by simp, covered⟩
  | case2 wanted name waiting seen ih =>
      rcases List.forall_mem_cons.mp known with ⟨_, others⟩
      rcases ih others (covered.skip seen) with ⟨taken, closed⟩
      exact ⟨List.forall_mem_cons.mpr ⟨mem_spread_of_mem seen, taken⟩, closed⟩
  | case3 wanted name waiting fresh missing ih =>
      rcases known name List.mem_cons_self with ⟨crate, inside, named⟩
      have other := List.find?_eq_none.mp missing crate inside
      simp [named] at other
  | case4 wanted name waiting fresh crate found ih =>
      rcases List.forall_mem_cons.mp known with ⟨_, others⟩
      have below : ∀ lower ∈ crate.dependencies.reverse ++ waiting,
          ∃ other ∈ crates, other.name = lower := by
        intro lower waits
        rcases List.mem_append.mp waits with new | old
        · exact ready crate (Crate.find?_eq_some found).1 lower (List.mem_reverse.mp new)
        · exact others lower old
      rcases ih below (covered.take found) with ⟨taken, closed⟩
      refine ⟨List.forall_mem_cons.mpr ⟨mem_spread_of_mem List.mem_cons_self, ?_⟩, closed⟩
      exact fun later waits => taken later (List.mem_append_right _ waits)

/-- With names that are all known, the names wanted in the end hold the given ones and, with a crate,
what it depends on. -/
theorem spread_closed (settled : Settled directory graph.crates) {names : List String}
    (known : ∀ name ∈ names, graph.Known name) :
    (∀ name ∈ names, name ∈ spread graph.crates [] names.reverse) ∧
      ∀ crate ∈ graph.crates, crate.name ∈ spread graph.crates [] names.reverse →
        ∀ name ∈ crate.dependencies, name ∈ spread graph.crates [] names.reverse := by
  have listed : ∀ name ∈ names.reverse, ∃ crate ∈ graph.crates, crate.name = name :=
    fun name member => known name (List.mem_reverse.mp member)
  have start : Covered graph.crates [] names.reverse := fun name none => absurd none (by simp)
  rcases covered_spread settled.ready listed start with ⟨taken, closed⟩
  refine ⟨fun name member => taken name (List.mem_reverse.mpr member), ?_⟩
  intro crate inside wanted name needed
  have present : (Crate.find? graph.crates crate.name).isSome :=
    List.find?_isSome.mpr ⟨crate, inside, by simp⟩
  rcases Option.isSome_iff_exists.mp present with ⟨other, found⟩
  rcases Crate.find?_eq_some found with ⟨otherInside, named⟩
  rw [settled.eq_of_name_eq otherInside inside named] at found
  rcases closed crate.name wanted crate found name needed with done | waits
  · exact done
  · cases waits

/-- A closure keeps the order of the graph and holds what its crates depend on. -/
theorem closed_of_closure {names : List String} {selected : List Crate}
    (settled : Settled directory graph.crates) (chosen : graph.closure names = .ok selected) :
    selected.Sublist graph.crates ∧
      ∀ crate ∈ selected, ∀ lower, graph.Below crate lower → lower ∈ selected := by
  have direct : selected.Sublist graph.crates ∧
      ∀ crate ∈ selected, ∀ lower ∈ graph.dependencies crate, lower ∈ selected := by
    by_cases all : names = []
    · rw [closure, if_pos all] at chosen
      cases chosen
      exact ⟨List.Sublist.refl _, fun _ _ lower member => (Crate.of_mem_select member).1⟩
    · rcases (closure_eq_ok_iff all).mp chosen with ⟨known, rfl⟩
      refine ⟨List.filter_sublist, fun crate member lower wanted => ?_⟩
      simp only [List.mem_filter, decide_eq_true_eq] at member ⊢
      rcases Crate.of_mem_select wanted with ⟨inside, named⟩
      exact ⟨inside, (spread_closed settled known).2 crate member.1 member.2 _ named⟩
  refine ⟨direct.1, fun crate member lower below => ?_⟩
  induction below with
  | single step => exact direct.2 crate member _ step
  | tail _ step ih => exact direct.2 _ ih _ step

end Closure

end Graph

end ProofBuild
