import ProofBuild.Proofs.Reordering

/-!
What the command line of a crate binds. Dependencies are declared by name and told apart by identity,
and in an accepted graph either tells the crates apart, so what is left of repeated dependencies is
each named crate once, in the order in which the unit first names them. Main statement: the arguments
of a crate bind its direct dependencies so, each to its own marker, and bind nothing else
(`binds_direct_dependencies`).
-/

namespace ProofBuild

namespace Linkage

/-- Identities that came before can be left out, or can be taken out of the crates. -/
theorem go_filter {seen out both : List String}
    (joined : ∀ identity, identity ∈ both ↔ identity ∈ seen ∨ identity ∈ out) (crates : List Crate) :
    distinct.go seen (crates.filter fun crate => crate.identity ∉ out) = distinct.go both crates := by
  induction crates generalizing seen both with
  | nil => rfl
  | cons crate rest ih =>
      by_cases taken : crate.identity ∈ out
      · have known : crate.identity ∈ both := (joined _).mpr (.inr taken)
        rw [List.filter_cons_of_neg (by simpa using taken), distinct.go, if_pos known]
        exact ih joined
      · rw [List.filter_cons_of_pos (by simpa using taken), distinct.go, distinct.go]
        by_cases known : crate.identity ∈ seen
        · rw [if_pos known, if_pos ((joined _).mpr (.inl known))]
          exact ih joined
        · have fresh : crate.identity ∉ both := fun member =>
            ((joined _).mp member).elim known taken
          rw [if_neg known, if_neg fresh]
          congr 1
          apply ih
          intro identity
          rw [List.mem_cons, List.mem_cons, joined, or_assoc]

theorem distinct_cons (crate : Crate) (rest : List Crate) :
    distinct (crate :: rest) =
      crate :: distinct (rest.filter fun other => other.identity ≠ crate.identity) := by
  have onward : distinct.go [] (rest.filter fun other => other.identity ∉ [crate.identity]) =
      distinct.go [crate.identity] rest := go_filter (by simp) rest
  simp only [List.mem_singleton] at onward
  rw [distinct, distinct.go, if_neg List.not_mem_nil, distinct, ← onward]

theorem nodup_identities_distinct : ∀ crates : List Crate,
    ((distinct crates).map (·.identity)).Nodup
  | [] => List.nodup_nil
  | crate :: rest => by
      rw [distinct_cons, List.map_cons, List.nodup_cons]
      refine ⟨?_, nodup_identities_distinct _⟩
      intro again
      obtain ⟨other, kept, same⟩ := List.mem_map.mp again
      exact absurd same (by simpa using (List.mem_filter.mp (of_mem_distinct kept)).2)
termination_by crates => crates.length
decreasing_by exact Nat.lt_succ_of_le (List.length_filter_le _ _)

end Linkage

namespace Graph

namespace Settled
variable {directory : Path} {crates : List Crate} (settled : Settled directory crates)
include settled

theorem identity_eq_iff {one two : Crate} (first : one ∈ crates) (second : two ∈ crates) :
    one.identity = two.identity ↔ one.name = two.name := by
  constructor
  · intro same
    rw [List.inj_on_of_nodup_map settled.nodup_identities first second same]
  · intro same
    rw [settled.eq_of_name_eq first second same]

/-- Taking a crate's identity out of the crates of some names is taking its name out of the names. -/
theorem filter_select {crate : Crate} (member : crate ∈ crates) (names : List String) :
    (Crate.select crates names).filter (fun other => other.identity ≠ crate.identity) =
      Crate.select crates (names.filter fun name => !name == crate.name) := by
  unfold Crate.select
  rw [List.filter_filterMap, List.filterMap_filter]
  apply List.filterMap_congr
  intro name _
  cases found : Crate.find? crates name with
  | none => simp
  | some lower =>
      obtain ⟨inside, rfl⟩ := Crate.find?_eq_some found
      by_cases same : lower.name = crate.name
      · simp [same, (settled.identity_eq_iff inside member).mpr same]
      · have apart : lower.identity ≠ crate.identity :=
          fun equal => same ((settled.identity_eq_iff inside member).mp equal)
        simp [same, apart]

/-- What is left of the crates of some names is each of them where it is first named. -/
theorem distinct_select : ∀ names : List String,
    (∀ name ∈ names, ∃ crate ∈ crates, crate.name = name) →
    Linkage.distinct (Crate.select crates names) = Crate.select crates names.eraseDups
  | [], _ => rfl
  | name :: rest, ready => by
      obtain ⟨⟨crate, member, rfl⟩, others⟩ := List.forall_mem_cons.mp ready
      have opens : ∀ names, Crate.select crates (crate.name :: names) =
          crate :: Crate.select crates names :=
        fun names => List.filterMap_cons_some ((settled.find?_eq_some_iff).mpr ⟨member, rfl⟩)
      rw [List.eraseDups_cons, opens, opens, Linkage.distinct_cons, settled.filter_select member,
        distinct_select _ fun other kept => others other (List.mem_of_mem_filter kept)]
termination_by names => names.length
decreasing_by exact Nat.lt_succ_of_le (List.length_filter_le _ _)

end Settled

/-- The crates that a unit names, each where it is first named. -/
def namedBy (graph : Graph) (spec : Spec) : List Crate :=
  Crate.select graph.crates spec.dependencies.eraseDups

/-- Whether these crates are the ones to be bound for the unit: they are crates of declared units,
each of its direct dependencies is among them once, in the order of the first declarations, and no
other crate of the graph is, nor its own. -/
structure BoundFor (specs : List Spec) (directory : Path) (graph : Graph) (spec : Spec)
    (bound : List Crate) : Prop where
  names : bound.map (·.name) = spec.dependencies.eraseDups
  inside : ∀ lower ∈ bound, lower ∈ graph.crates ∧ ∃ unit ∈ specs, lower.Settles directory unit
  once : (bound.map (·.identity)).Nodup
  direct : ∀ lower ∈ graph.crates,
    lower.identity ∈ bound.map (·.identity) ↔ lower.name ∈ spec.dependencies
  own : ∀ crate ∈ graph.crates, crate.Settles directory spec →
    crate.identity ∉ bound.map (·.identity)

section Accepted
variable {specs : List Spec} {directory : Path} {graph : Graph}
  (accepted : ofSpecs specs directory = .ok graph) {crate : Crate} (member : crate ∈ graph.crates)
  {spec : Spec} (settles : crate.Settles directory spec)
include accepted member settles

theorem distinct_dependencies : Linkage.distinct (graph.dependencies crate) = graph.namedBy spec := by
  have settled := (settled_of_ofSpecs accepted).1
  rw [dependencies, settled.distinct_select _ (settled.ready crate member), settles.dependencies]
  rfl

theorem boundFor_namedBy : BoundFor specs directory graph spec (graph.namedBy spec) := by
  have settled := (settled_of_ofSpecs accepted).1
  have ready := settled.ready crate member
  rw [settles.dependencies] at ready
  have direct : ∀ lower ∈ graph.crates,
      lower.identity ∈ (graph.namedBy spec).map (·.identity) ↔ lower.name ∈ spec.dependencies := by
    intro lower known
    rw [List.mem_map]
    constructor
    · rintro ⟨other, chosen, same⟩
      obtain ⟨inside, named⟩ := settled.mem_select.mp chosen
      rw [← (settled.identity_eq_iff inside known).mp same]
      exact List.mem_eraseDups.mp named
    · intro named
      exact ⟨lower, settled.mem_select.mpr ⟨known, List.mem_eraseDups.mpr named⟩, rfl⟩
  constructor
  · exact map_name_select fun name named => ready name (List.mem_eraseDups.mp named)
  · intro lower chosen
    have inside := (settled.mem_select.mp chosen).1
    exact ⟨inside, exists_settles_of_mem accepted inside⟩
  · rw [← distinct_dependencies accepted member settles]
    exact Linkage.nodup_identities_distinct _
  · exact direct
  · intro own known alike bound
    have named := (direct own known).mp bound
    rw [← alike.dependencies] at named
    exact settled.own_name_not_mem own known named

end Accepted

/-- The arguments for a crate of an accepted graph: what every crate gets, the libraries of the bundle
in their order, the direct dependencies in the order in which the unit first names them, each bound
once and to its own marker, the unit's own arguments as they are, and the crate itself. -/
theorem binds_direct_dependencies {specs : List Spec} {directory : Path} {graph : Graph}
    (accepted : ofSpecs specs directory = .ok graph) {crate : Crate}
    (member : crate ∈ graph.crates) :
    ∃ spec ∈ specs, crate.Settles directory spec ∧
      ∃ bound, BoundFor specs directory graph spec bound ∧
        ∀ (bundle : Bundle) (environment : Environment) (edition : String),
          (Invocation.ofCrate crate bundle (Linkage.ofCrates (graph.dependencies crate)) environment
              edition).arguments =
            ["--crate-type=lib", "--edition=" ++ edition, "--sysroot", environment.sysroot.text]
              ++ bundle.libraries.flatMap (fun library =>
                [library.kind.flag, library.name ++ "=" ++ library.path.text])
              ++ bound.flatMap (fun lower =>
                ["--extern", lower.identity ++ "=" ++ lower.marker.text])
              ++ spec.extraArguments ++ ["--crate-name", crate.identity, crate.entry.text] := by
  obtain ⟨spec, declared, settles⟩ := exists_settles_of_mem accepted member
  refine ⟨spec, declared, settles, graph.namedBy spec,
    boundFor_namedBy accepted member settles, ?_⟩
  intro bundle environment edition
  rw [← settles.extraArguments, ← distinct_dependencies accepted member settles]
  simp only [Invocation.ofCrate, Linkage.arguments, Linkage.ofCrates, List.flatMap_map]
  rfl

/-- A unit that names one dependency twice, with a third unit below it. -/
def layeredSpecs : List Spec := [
  ⟨"app", [⟨"app.rs"⟩], none, none, ["--time"], ["net-io", "core", "net-io"]⟩,
  ⟨"net-io", [⟨"net.rs"⟩], none, none, [], ["base"]⟩,
  ⟨"core", [⟨"core.rs"⟩], none, some "kernel", [], []⟩,
  ⟨"base", [⟨"base.rs"⟩], none, none, [], []⟩]

def layered : Graph where
  crates := [
    ⟨"base", "base", ⟨"base.rs"⟩, [⟨"base.rs"⟩], [], [], ⟨"out/base.success"⟩,
      [⟨"out/base.success"⟩]⟩,
    ⟨"net-io", "net_io", ⟨"net.rs"⟩, [⟨"net.rs"⟩], [], ["base"], ⟨"out/net-io.success"⟩,
      [⟨"out/net-io.success"⟩, ⟨"out/base.success"⟩]⟩,
    ⟨"core", "kernel", ⟨"core.rs"⟩, [⟨"core.rs"⟩], [], [], ⟨"out/core.success"⟩,
      [⟨"out/core.success"⟩]⟩,
    ⟨"app", "app", ⟨"app.rs"⟩, [⟨"app.rs"⟩], ["--time"], ["net-io", "core", "net-io"],
      ⟨"out/app.success"⟩, [⟨"out/app.success"⟩, ⟨"out/net-io.success"⟩, ⟨"out/base.success"⟩,
        ⟨"out/core.success"⟩]⟩]

theorem ofSpecs_layeredSpecs : ofSpecs layeredSpecs ⟨"out"⟩ = .ok layered := by
  have distinct : repeatedName? layeredSpecs = none := by decide
  have known : unknownDependency? layeredSpecs = none := by decide
  have order : Order.ofSpecs layeredSpecs = .ok ["base", "net-io", "core", "app"] := by cbv
  have settled : settleAll ⟨"out"⟩ []
      (["base", "net-io", "core", "app"].filterMap (Spec.find? layeredSpecs)) =
        .ok layered.crates := by decide
  simp only [ofSpecs, distinct, known, order, settled]
  rfl

theorem binds_direct_dependencies_layered :
    ofSpecs layeredSpecs ⟨"out"⟩ = .ok layered ∧ layered.crates[3] ∈ layered.crates ∧
      ∃ spec ∈ layeredSpecs, layered.crates[3].Settles ⟨"out"⟩ spec ∧
        ∃ bound, BoundFor layeredSpecs ⟨"out"⟩ layered spec bound ∧
          bound.map (·.name) = ["net-io", "core"] := by
  have member : layered.crates[3] ∈ layered.crates := by decide
  obtain ⟨spec, declared, settles, bound, boundFor, _⟩ :=
    binds_direct_dependencies ofSpecs_layeredSpecs member
  have each : bound.map (·.name) = ["net-io", "core"] := by
    rw [boundFor.names, ← settles.dependencies]
    decide
  exact ⟨ofSpecs_layeredSpecs, member, spec, declared, settles, bound, boundFor, each⟩

example : (Linkage.ofCrates (layered.dependencies layered.crates[3])).arguments =
    ["--extern", "net_io=out/net-io.success", "--extern", "kernel=out/core.success"] := by decide

end Graph

end ProofBuild
