import ProofBuild.Build
import ProofBuild.Proofs.Cycles
import ProofBuild.Proofs.Linked

/-!
The order of declaration. It decides in which order units are searched and settled, and which mistake
is met first, but not what is settled: a crate comes of its own unit and of the crates below it. Main
statement: units in another order make a graph exactly when they do in this one, with the same crate,
the same task and the same fingerprint for every name (`ofSpecs_of_perm`).
-/

namespace ProofBuild

/-- Whether an error is about the configuration or the graph. -/
def Error.OfUnits : Error → Prop
  | .config _ | .graph _ => True
  | _ => False

namespace Spec

theorem needs_of_perm {specs others : List Spec} (reordered : specs.Perm others) :
    Needs specs = Needs others := by
  funext upper lower
  unfold Needs
  simp only [reordered.mem_iff]

/-- What makes units a graph says nothing about their order. -/
theorem WellFormed.of_perm {specs others : List Spec} (wellFormed : WellFormed specs)
    (reordered : specs.Perm others) : WellFormed others := by
  constructor
  · exact (reordered.map _).nodup_iff.mp wellFormed.names
  · intro spec member name wanted
    rcases wellFormed.known spec (reordered.mem_iff.mpr member) name wanted with ⟨lower, inside, named⟩
    exact ⟨lower, reordered.mem_iff.mp inside, named⟩
  · have acyclic := wellFormed.acyclic
    unfold Acyclic at acyclic ⊢
    rwa [← needs_of_perm reordered]
  · intro spec member
    exact wellFormed.resolvable spec (reordered.mem_iff.mpr member)
  · exact (reordered.map _).nodup_iff.mp wellFormed.identities

theorem ofUnits_of_resolve {spec : Spec} {error : Error} (failed : spec.resolve = .error error) :
    error.OfUnits := by
  unfold resolve at failed
  split at failed
  · rename_i problem entered
    cases failed
    unfold entryAmong at entered
    split at entered
    · cases entered
      trivial
    · split at entered
      · split at entered
        · cases entered
        · cases entered
          trivial
      · cases entered
  · cases failed

end Spec

namespace Graph

section Failing
variable {directory : Path}

theorem ofUnits_settle {settled : List Crate} {spec : Spec} {error : Error}
    (failed : settle directory settled spec = .error error) : error.OfUnits := by
  unfold settle at failed
  split at failed
  · rename_i problem unmade
    cases failed
    unfold Crate.ofSpec at unmade
    split at unmade
    · rename_i unresolved
      cases unmade
      exact Spec.ofUnits_of_resolve unresolved
    · cases unmade
  · split at failed
    · cases failed
      trivial
    · cases failed

theorem ofUnits_settleAll {settled : List Crate} {units : List Spec} {error : Error}
    (failed : settleAll directory settled units = .error error) : error.OfUnits := by
  induction units generalizing settled with
  | nil => cases failed
  | cons spec rest ih =>
      rw [settleAll] at failed
      split at failed
      · rename_i first
        cases failed
        exact ofUnits_settle first
      · exact ih failed

/-- Units that make no graph fail with a mistake in the configuration or in the graph. -/
theorem ofUnits_ofSpecs {specs : List Spec} {error : Error}
    (failed : ofSpecs specs directory = .error error) : error.OfUnits := by
  unfold ofSpecs at failed
  split at failed
  · cases failed
    trivial
  · split at failed
    · cases failed
      trivial
    · split at failed
      · rename_i unordered
        cases failed
        obtain ⟨first, rest, rfl, _⟩ := Order.closed_of_ofSpecs unordered
        trivial
      · rename_i names _
        cases unsettled : settleAll directory [] (names.filterMap (Spec.find? specs)) with
        | error problem =>
            rw [unsettled] at failed
            cases failed
            exact ofUnits_settleAll unsettled
        | ok crates =>
            rw [unsettled] at failed
            cases failed

end Failing

/-- A name denotes a crate when the crate is there and bears it. -/
theorem Settled.find?_eq_some_iff {directory : Path} {crates : List Crate}
    (settled : Settled directory crates) {name : String} {crate : Crate} :
    Crate.find? crates name = some crate ↔ crate ∈ crates ∧ crate.name = name := by
  constructor
  · exact Crate.find?_eq_some
  · rintro ⟨member, rfl⟩
    have some : (Crate.find? crates crate.name).isSome :=
      List.find?_isSome.mpr ⟨crate, member, by simp⟩
    rcases Option.isSome_iff_exists.mp some with ⟨other, found⟩
    rcases Crate.find?_eq_some found with ⟨inside, named⟩
    rw [found, settled.eq_of_name_eq inside member named]

/-- A crate is what its unit settles to, and it knows the markers of the crates below it. -/
theorem eq_of_settles {directory : Path} {spec : Spec} {one two : Crate}
    (first : one.Settles directory spec) (second : two.Settles directory spec)
    (markers : one.markers = two.markers) : one = two := by
  have entries : one.entry = two.entry := by
    have both := first.entry.symm.trans second.entry
    exact Except.ok.inj both
  cases one
  cases two
  simp only [Crate.mk.injEq]
  constructor
  · exact first.name.trans second.name.symm
  constructor
  · exact first.identity.trans second.identity.symm
  constructor
  · exact entries
  constructor
  · exact first.sources.trans second.sources.symm
  constructor
  · exact first.extraArguments.trans second.extraArguments.symm
  constructor
  · exact first.dependencies.trans second.dependencies.symm
  constructor
  · exact first.marker.trans second.marker.symm
  · exact markers

section Reordered
variable {specs others : List Spec} (reordered : specs.Perm others) {directory : Path}
  {graph other : Graph} (accepted : ofSpecs specs directory = .ok graph)
  (acceptedToo : ofSpecs others directory = .ok other)

theorem exists_settles_of_mem {crate : Crate} (accepted : ofSpecs specs directory = .ok graph)
    (member : crate ∈ graph.crates) : ∃ spec ∈ specs, crate.Settles directory spec := by
  rcases settles_of_ofSpecs accepted with ⟨units, permutation, settles⟩
  rcases List.forall₂_iff_get.mp settles with ⟨lengths, each⟩
  rcases List.mem_iff_get.mp member with ⟨⟨place, bound⟩, found⟩
  have bounded : place < units.length := by omega
  refine ⟨units.get ⟨place, bounded⟩, permutation.mem_iff.mp (List.get_mem ..), ?_⟩
  rw [← found]
  exact each place bounded bound

theorem exists_mem_settles {spec : Spec} (accepted : ofSpecs specs directory = .ok graph)
    (member : spec ∈ specs) : ∃ crate ∈ graph.crates, crate.Settles directory spec := by
  rcases settles_of_ofSpecs accepted with ⟨units, permutation, settles⟩
  rcases List.forall₂_iff_get.mp settles with ⟨lengths, each⟩
  rcases List.mem_iff_get.mp (permutation.mem_iff.mpr member) with ⟨⟨place, bound⟩, found⟩
  have bounded : place < graph.crates.length := by omega
  refine ⟨graph.crates.get ⟨place, bounded⟩, List.get_mem .., ?_⟩
  rw [← found]
  exact each place bound bounded

theorem find?_isSome_of_mem {spec : Spec} (accepted : ofSpecs specs directory = .ok graph)
    (member : spec ∈ specs) : (graph.find? spec.name).isSome := by
  rcases exists_mem_settles accepted member with ⟨crate, inside, settles⟩
  exact List.find?_isSome.mpr ⟨crate, inside, by simpa using settles.name⟩

include reordered accepted acceptedToo

/-- By induction on how the crates of one graph were settled: the crates below a crate are in the
other graph, so the crate that its unit settles to there knows the same markers. -/
theorem mem_crates_of_perm : ∀ crate ∈ graph.crates, crate ∈ other.crates := by
  have settled := (settled_of_ofSpecs accepted).1
  have settledToo := (settled_of_ofSpecs acceptedToo).1
  have parts : ∀ crates, Settled directory crates → crates ⊆ graph.crates →
      ∀ crate ∈ crates, crate ∈ other.crates := by
    intro crates below
    induction below with
    | none => simp
    | @next lower crate below names identities marker ready markers ih =>
        intro inside one member
        have lowerInside : lower ⊆ graph.crates := fun _ old => inside (List.mem_append_left _ old)
        rcases List.mem_append.mp member with old | new
        · exact ih lowerInside one old
        · rw [List.mem_singleton.mp new]
          have here : crate ∈ graph.crates := inside (by simp)
          rcases exists_settles_of_mem accepted here with ⟨spec, declared, settles⟩
          rcases exists_mem_settles acceptedToo (reordered.mem_iff.mp declared) with
            ⟨twin, twinInside, twinSettles⟩
          -- Both name the same crates below them.
          have named : twin.dependencies = crate.dependencies :=
            twinSettles.dependencies.trans settles.dependencies.symm
          have selects : Crate.select other.crates crate.dependencies =
              Crate.select lower crate.dependencies := by
            apply List.filterMap_congr
            intro name wanted
            rcases ready name wanted with ⟨earlier, place, same⟩
            rw [below.find?_eq_some_iff.mpr ⟨place, same⟩]
            exact settledToo.find?_eq_some_iff.mpr ⟨ih lowerInside earlier place, same⟩
          have sameMarkers : twin.markers = crate.markers := by
            rw [markers_eq settledToo twinInside, markers, Crate.markersWith_eq, dependencies, named,
              selects, settles.marker, twinSettles.marker]
          rwa [← eq_of_settles twinSettles settles sameMarkers]
  exact parts graph.crates settled (List.Subset.refl _)

theorem find?_of_perm (name : String) : graph.find? name = other.find? name := by
  have settled := (settled_of_ofSpecs accepted).1
  have settledToo := (settled_of_ofSpecs acceptedToo).1
  have there := mem_crates_of_perm reordered accepted acceptedToo
  have back := mem_crates_of_perm reordered.symm acceptedToo accepted
  apply Option.ext
  intro crate
  unfold find?
  rw [settled.find?_eq_some_iff, settledToo.find?_eq_some_iff]
  constructor
  · exact fun ⟨member, named⟩ => ⟨there crate member, named⟩
  · exact fun ⟨member, named⟩ => ⟨back crate member, named⟩

theorem dependencies_of_perm (crate : Crate) : graph.dependencies crate = other.dependencies crate := by
  apply List.filterMap_congr
  intro name _
  exact find?_of_perm reordered accepted acceptedToo name

end Reordered

/-- Units in any order make a graph or none. If they do, a name denotes the same crate in both graphs, so
every task is prepared and declared alike and has the same fingerprint. If they do not, both fail
with a mistake in the configuration or in the graph. -/
theorem ofSpecs_of_perm {specs others : List Spec} (reordered : specs.Perm others)
    (directory : Path) :
    (∃ graph other, ofSpecs specs directory = .ok graph ∧ ofSpecs others directory = .ok other ∧
      (∀ spec ∈ specs, (graph.find? spec.name).isSome) ∧
      (∀ name, graph.find? name = other.find? name) ∧
      ∀ crate, graph.dependencies crate = other.dependencies crate ∧
        (∀ bundle environment edition,
          Invocation.ofCrate crate bundle (Linkage.ofCrates (graph.dependencies crate)) environment
              edition =
            Invocation.ofCrate crate bundle (Linkage.ofCrates (other.dependencies crate)) environment
              edition) ∧
        (∀ bundle, Declaration.ofCrate crate bundle (Linkage.ofCrates (graph.dependencies crate)) =
          Declaration.ofCrate crate bundle (Linkage.ofCrates (other.dependencies crate))) ∧
        ∀ (context : Context) (state : State),
          context.prepare graph state.world.tree crate =
            context.prepare other state.world.tree crate ∧
          ∀ prepared, context.fingerprintOf graph crate prepared state =
            context.fingerprintOf other crate prepared state) ∨
    ∃ error another, ofSpecs specs directory = .error error ∧
      ofSpecs others directory = .error another ∧ error.OfUnits ∧ another.OfUnits := by
  have made := (exists_ofSpecs_eq_ok_iff_wellFormed specs directory).1
  have madeToo := (exists_ofSpecs_eq_ok_iff_wellFormed others directory).1
  cases accepted : ofSpecs specs directory with
  | ok graph =>
      left
      have wellFormed := wellFormed_of_ofSpecs accepted
      rcases madeToo.mpr (wellFormed.of_perm reordered) with ⟨other, acceptedToo⟩
      have same := dependencies_of_perm reordered accepted acceptedToo
      refine ⟨graph, other, rfl, acceptedToo, ?_, find?_of_perm reordered accepted acceptedToo, ?_⟩
      · intro spec member
        exact find?_isSome_of_mem accepted member
      · intro crate
        unfold Context.prepare Context.fingerprintOf
        rw [same crate]
        exact ⟨rfl, fun _ _ _ => rfl, fun _ => rfl, fun _ _ => ⟨rfl, fun _ => rfl⟩⟩
  | error error =>
      right
      cases acceptedToo : ofSpecs others directory with
      | ok other =>
          have wellFormed := wellFormed_of_ofSpecs acceptedToo
          rcases made.mpr (wellFormed.of_perm reordered.symm) with ⟨graph, accept⟩
          rw [accepted] at accept
          cases accept
      | error another =>
          exact ⟨error, another, rfl, rfl, ofUnits_ofSpecs accepted, ofUnits_ofSpecs acceptedToo⟩

/-- The lower unit declared first or last. -/
theorem ofSpecs_of_perm_tandem : tandemSpecs.Perm tandemSpecs.reverse ∧
    ∃ other, ofSpecs tandemSpecs.reverse ⟨"out"⟩ = .ok other ∧
      other.find? "app" = tandem.find? "app" ∧
      ∀ (context : Context) (state : State) prepared,
        context.fingerprintOf tandem tandem.crates[1] prepared state =
          context.fingerprintOf other tandem.crates[1] prepared state := by
  have reordered : tandemSpecs.Perm tandemSpecs.reverse := (List.reverse_perm tandemSpecs).symm
  refine ⟨reordered, ?_⟩
  rcases ofSpecs_of_perm reordered ⟨"out"⟩ with
    ⟨graph, other, accepted, acceptedToo, _, names, tasks⟩ | ⟨error, another, failed, _⟩
  · rw [ofSpecs_tandemSpecs] at accepted
    cases accepted
    refine ⟨other, acceptedToo, (names "app").symm, ?_⟩
    intro context state prepared
    exact ((tasks tandem.crates[1]).2.2.2 context state).2 prepared
  · rw [ofSpecs_tandemSpecs] at failed
    cases failed

end Graph

end ProofBuild
