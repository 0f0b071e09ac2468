import ProofBuild.Proofs.Reordering
import ProofBuild.Proofs.Turns

/-!
What a crate reaches. The declared dependencies say which units lie below a unit, and three parts
of the library follow them in ways of their own: a crate carries the markers of everything below it, a
task reads the markers that its direct dependencies carry, and a closure lists the crates themselves.
Main statement: the three agree on every accepted graph (`markers_eq_closure`).
-/

namespace ProofBuild

namespace Path

/-- No path of a list names what an earlier one names. -/
def Apart (paths : List Path) : Prop := paths.Pairwise fun one two => ¬ Same one two

theorem Apart.nodup {paths : List Path} (apart : Apart paths) : paths.Nodup :=
  apart.imp fun different same => different (congrArg components same)

theorem apart_fresh (seen : List (List Component)) (paths : List Path) :
    Apart (fresh seen paths) ∧ ∀ path ∈ fresh seen paths, path.components ∉ seen := by
  induction paths generalizing seen with
  | nil => exact ⟨.nil, by simp [fresh]⟩
  | cons first rest ih =>
      unfold fresh
      split
      · exact ih seen
      · rename_i new
        rcases ih (first.components :: seen) with ⟨apart, others⟩
        constructor
        · apply List.pairwise_cons.mpr
          exact ⟨fun path member same => others path member (same ▸ List.mem_cons_self), apart⟩
        · intro path member
          rcases List.mem_cons.mp member with same | later
          · rw [same]
            exact new
          · exact fun old => others path later (List.mem_cons_of_mem _ old)

theorem Apart.addAll {paths : List Path} (apart : Apart paths) (more : List Path) :
    Apart (addAll paths more) := by
  rcases apart_fresh (paths.map components) more with ⟨new, others⟩
  apply List.pairwise_append.mpr
  refine ⟨apart, new, ?_⟩
  intro one first two second same
  exact others two second (same ▸ List.mem_map_of_mem first)

theorem Among.of_same {one two : Path} {paths : List Path} (among : one.Among paths)
    (same : Same one two) : two.Among paths := by
  rcases among with ⟨other, member, alike⟩
  exact ⟨other, member, alike.trans same⟩

end Path

namespace Crate

/-- A crate of the one name depends on the other name. -/
def Needs (crates : List Crate) (upper lower : String) : Prop :=
  ∃ crate ∈ crates, crate.name = upper ∧ lower ∈ crate.dependencies

theorem apart_gather {gathered : List Path} (apart : Path.Apart gathered) (crates : List Crate) :
    Path.Apart (gather gathered crates) := by
  induction crates generalizing gathered with
  | nil => exact apart
  | cons crate rest ih => exact ih (apart.addAll crate.markers)

theorem head?_gather {marker : Path} {gathered : List Path} (crates : List Crate) :
    (gather (marker :: gathered) crates).head? = some marker := by
  induction crates generalizing gathered with
  | nil => rfl
  | cons crate rest ih => exact ih

end Crate

namespace Graph

/-- Names that are wanted in the end were wanted before, or they lie at or below one that waited. -/
theorem reached_of_mem_spread {crates : List Crate} {wanted waiting : List String} {name : String}
    (member : name ∈ spread crates wanted waiting) :
    name ∈ wanted ∨ ∃ start ∈ waiting, Relation.ReflTransGen (Crate.Needs crates) start name := by
  fun_induction spread crates wanted waiting with
  | case1 => exact .inl member
  | case2 wanted first waiting seen ih | case3 wanted first waiting fresh missing ih =>
      rcases ih member with here | ⟨start, later, onward⟩
      · exact .inl here
      · exact .inr ⟨start, List.mem_cons_of_mem first later, onward⟩
  | case4 wanted first waiting fresh crate found ih =>
      rcases ih member with here | ⟨start, waits, onward⟩
      · rcases List.mem_cons.mp here with rfl | old
        · exact .inr ⟨name, List.mem_cons_self, .refl⟩
        · exact .inl old
      · rcases List.mem_append.mp waits with new | old
        · rcases Crate.find?_eq_some found with ⟨inside, named⟩
          have step : Crate.Needs crates first start :=
            ⟨crate, inside, named, List.mem_reverse.mp new⟩
          exact .inr ⟨first, List.mem_cons_self, onward.head step⟩
        · exact .inr ⟨start, List.mem_cons_of_mem first old, onward⟩

section Accepted
variable {specs : List Spec} {directory : Path} {graph : Graph}
  (accepted : ofSpecs specs directory = .ok graph)
include accepted

theorem needs_of_mem_dependencies {crate : Crate} (member : crate ∈ graph.crates) {name : String} :
    name ∈ crate.dependencies ↔ Spec.Needs specs crate.name name := by
  rcases exists_settles_of_mem accepted member with ⟨spec, declared, settles⟩
  have distinct := (wellFormed_of_ofSpecs accepted).names
  have found : Spec.find? specs crate.name = some spec := by
    rw [settles.name]
    exact Spec.find?_name distinct declared
  rw [settles.dependencies, Spec.needs_iff distinct found]

/-- One crate lies directly below another one when the unit of the one needs the other by name. -/
theorem mem_dependencies_iff_needs {upper lower : Crate} (member : upper ∈ graph.crates) :
    lower ∈ graph.dependencies upper ↔
      lower ∈ graph.crates ∧ Spec.Needs specs upper.name lower.name := by
  have settled := (settled_of_ofSpecs accepted).1
  rw [mem_dependencies_iff settled, needs_of_mem_dependencies accepted member]

/-- A crate lies below another one when its name is needed, directly or through others. -/
theorem below_iff {upper lower : Crate} (member : upper ∈ graph.crates) :
    graph.Below upper lower ↔
      lower ∈ graph.crates ∧ Relation.TransGen (Spec.Needs specs) upper.name lower.name := by
  have settled := (settled_of_ofSpecs accepted).1
  constructor
  · intro below
    refine ⟨mem_crates_of_below settled below, ?_⟩
    induction below with
    | single step => exact .single ((mem_dependencies_iff_needs accepted member).mp step).2
    | tail first step ih =>
        have middle := mem_crates_of_below settled first
        exact ih.tail ((mem_dependencies_iff_needs accepted middle).mp step).2
  · -- Along the names, and every needed name has its crate.
    have reaches : ∀ name, Relation.TransGen (Spec.Needs specs) upper.name name →
        ∀ lower ∈ graph.crates, lower.name = name → graph.Below upper lower := by
      intro name needed
      induction needed with
      | single step =>
          intro lower inside named
          exact .single ((mem_dependencies_iff_needs accepted member).mpr ⟨inside, named ▸ step⟩)
      | @tail middle name _ step ih =>
          intro lower inside named
          rcases step with ⟨spec, declared, same, wanted⟩
          rcases exists_mem_settles accepted declared with ⟨crate, place, settles⟩
          have crateNamed : crate.name = middle := settles.name.trans same
          have direct : Spec.Needs specs crate.name lower.name :=
            ⟨spec, declared, settles.name.symm, named ▸ wanted⟩
          exact (ih crate place crateNamed).tail
            ((mem_dependencies_iff_needs accepted place).mpr ⟨inside, direct⟩)
    exact fun ⟨inside, needed⟩ => reaches lower.name needed lower inside rfl

/-- A closure has the crates that are reached from its names. -/
theorem mem_closure_iff {names : List String} {selected : List Crate} (some : names ≠ [])
    (chosen : graph.closure names = .ok selected) {crate : Crate} :
    crate ∈ selected ↔ crate ∈ graph.crates ∧
      ∃ name ∈ names, Relation.ReflTransGen (Spec.Needs specs) name crate.name := by
  have settled := (settled_of_ofSpecs accepted).1
  have closed := (closed_of_closure settled chosen).2
  rcases (closure_eq_ok_iff some).mp chosen with ⟨known, rfl⟩
  constructor
  · intro member
    rcases List.mem_filter.mp member with ⟨inside, wanted⟩
    rcases reached_of_mem_spread (of_decide_eq_true wanted) with none | ⟨start, given, reached⟩
    · cases none
    · refine ⟨inside, start, List.mem_reverse.mp given, reached.lift id ?_⟩
      rintro upper lower ⟨other, place, rfl, step⟩
      exact (needs_of_mem_dependencies accepted place).mp step
  · rintro ⟨inside, name, given, reached⟩
    rcases known name given with ⟨start, place, named⟩
    have chosenStart : start ∈ graph.crates.filter fun crate =>
        crate.name ∈ spread graph.crates [] names.reverse := by
      have wanted := (spread_closed settled known).1 name given
      rw [List.mem_filter, named]
      exact ⟨place, decide_eq_true wanted⟩
    rcases Relation.reflTransGen_iff_eq_or_transGen.mp reached with same | further
    · have itself : crate = start := settled.eq_of_name_eq inside place (same.trans named.symm)
      rw [itself]
      exact chosenStart
    · rw [← named] at further
      exact closed start chosenStart crate ((below_iff accepted place).mpr ⟨inside, further⟩)

end Accepted

section Settled
variable {directory : Path} {graph : Graph} (settled : Settled directory graph.crates)
include settled

theorem among_markers_of_below {upper lower : Crate} (below : graph.Below upper lower)
    (member : upper ∈ graph.crates) : lower.marker.Among upper.markers := by
  induction below using Relation.TransGen.head_induction_on with
  | single step =>
      have inside := ((mem_dependencies_iff settled).mp step).1
      rw [markers_eq settled member]
      exact Crate.among_gather step (own_marker_mem settled inside)
  | head step _ ih =>
      have inside := ((mem_dependencies_iff settled).mp step).1
      rcases ih inside with ⟨path, known, same⟩
      rw [markers_eq settled member]
      exact (Crate.among_gather step known).of_same same

/-- A crate carries its own marker and the markers of everything below it. -/
theorem among_markers_iff {crate : Crate} (member : crate ∈ graph.crates) (path : Path) :
    path.Among crate.markers ↔
      ∃ lower, (lower = crate ∨ graph.Below crate lower) ∧ Path.Same lower.marker path := by
  constructor
  · rintro ⟨other, known, same⟩
    rcases of_mem_markers settled member known with ⟨lower, reached, rfl⟩
    exact ⟨lower, reached, same⟩
  · rintro ⟨lower, own | below, same⟩
    · rw [own] at same
      exact ⟨crate.marker, own_marker_mem settled member, same⟩
    · exact (among_markers_of_below settled below member).of_same same

/-- A task reads the markers of everything below its crate. -/
theorem among_linkage_iff {crate : Crate} (path : Path) :
    path.Among (Linkage.ofCrates (graph.dependencies crate)).markers ↔
      ∃ lower, graph.Below crate lower ∧ Path.Same lower.marker path := by
  constructor
  · rintro ⟨other, known, same⟩
    rcases of_mem_markers_ofCrates settled known with ⟨lower, below, rfl⟩
    exact ⟨lower, below, same⟩
  · rintro ⟨lower, below, same⟩
    rcases Relation.TransGen.head'_iff.mp below with ⟨direct, step, rest⟩
    have inside := ((mem_dependencies_iff settled).mp step).1
    -- Only a crate that is listed twice is dropped, since identities are apart.
    rcases Linkage.mem_distinct step with ⟨kept, distinct, identity⟩
    have keptInside := ((mem_dependencies_iff settled).mp (Linkage.of_mem_distinct distinct)).1
    have itself : kept = direct :=
      List.inj_on_of_nodup_map settled.nodup_identities keptInside inside identity
    rw [itself] at distinct
    have carried : lower.marker.Among direct.markers := by
      apply (among_markers_iff settled inside lower.marker).mpr
      exact ⟨lower, Relation.reflTransGen_iff_eq_or_transGen.mp rest, rfl⟩
    rcases carried with ⟨other, known, alike⟩
    rw [Linkage.markers_ofCrates]
    exact (Crate.among_gather distinct known).of_same (alike.trans same)

theorem apart_markers {crate : Crate} (member : crate ∈ graph.crates) : Path.Apart crate.markers := by
  rw [markers_eq settled member]
  exact Crate.apart_gather (List.pairwise_singleton ..) _

theorem head?_markers {crate : Crate} (member : crate ∈ graph.crates) :
    crate.markers.head? = some crate.marker := by
  rw [markers_eq settled member]
  exact Crate.head?_gather _

/-- With plain names, the markers carried are those of the crates reached, one for each. -/
theorem perm_markers {crate : Crate} (plain : ∀ crate ∈ graph.crates, '/' ∉ crate.name.toList)
    (member : crate ∈ graph.crates) {reached : List Crate} (distinct : reached.Nodup)
    (exact : ∀ lower, lower ∈ reached ↔ lower = crate ∨ graph.Below crate lower) :
    crate.markers.Perm (reached.map (·.marker)) := by
  have inside : ∀ lower ∈ reached, lower ∈ graph.crates := by
    intro lower place
    rcases (exact lower).mp place with own | below
    · rw [own]
      exact member
    · exact mem_crates_of_below settled below
  have apart : (reached.map (·.marker)).Nodup := by
    apply List.Nodup.map_on ?_ distinct
    intro one first two second same
    exact eq_of_same_marker settled plain (inside one first) (inside two second)
      (congrArg Path.components same)
  apply (List.perm_ext_iff_of_nodup (apart_markers settled member).nodup apart).mpr
  intro path
  rw [List.mem_map]
  constructor
  · intro known
    rcases of_mem_markers settled member known with ⟨lower, place, rfl⟩
    exact ⟨lower, (exact lower).mpr place, rfl⟩
  · rintro ⟨lower, place, rfl⟩
    have carried := (among_markers_iff settled member lower.marker).mpr
      ⟨lower, (exact lower).mp place, rfl⟩
    rcases carried with ⟨other, known, same⟩
    rcases of_mem_markers settled member known with ⟨deep, deepPlace, rfl⟩
    have deepInside := inside deep ((exact deep).mpr deepPlace)
    rw [← eq_of_same_marker settled plain deepInside (inside lower place) same]
    exact known

end Settled

/-- The markers that a crate carries, its own first, are those of the closure of its name, and that
closure has the crates whose units are reached. The task of the crate reads its sources, the bundle and
the markers of all units properly below. With plain names each set has one marker for each unit, and
the task does not read the crate's own. -/
theorem markers_eq_closure {specs : List Spec} {directory : Path} {graph : Graph}
    (accepted : ofSpecs specs directory = .ok graph) {crate : Crate} (member : crate ∈ graph.crates) :
    ∃ reached, graph.closure [crate.name] = .ok reached ∧
      (∀ lower, lower ∈ reached ↔ lower ∈ graph.crates ∧
        Relation.ReflTransGen (Spec.Needs specs) crate.name lower.name) ∧
      (∀ path : Path, path.Among crate.markers ↔ path.Among (reached.map (·.marker))) ∧
      crate.markers.head? = some crate.marker ∧
      (∀ path, path.Among (Linkage.ofCrates (graph.dependencies crate)).markers ↔
        ∃ lower ∈ graph.crates, Relation.TransGen (Spec.Needs specs) crate.name lower.name ∧
          Path.Same lower.marker path) ∧
      (∀ bundle path,
        path.Among (Declaration.ofCrate crate bundle
          (Linkage.ofCrates (graph.dependencies crate))).inputs ↔
        path.Among crate.sources ∨ path.Among bundle.artifacts ∨
          ∃ lower ∈ graph.crates, Relation.TransGen (Spec.Needs specs) crate.name lower.name ∧
            Path.Same lower.marker path) ∧
      ((∀ spec ∈ specs, '/' ∉ spec.name.toList) →
        crate.markers.Perm (reached.map (·.marker)) ∧ Path.Apart crate.markers ∧
          ¬ crate.marker.Among (Linkage.ofCrates (graph.dependencies crate)).markers) := by
  have settled := (settled_of_ofSpecs accepted).1
  rcases exists_closure_eq_ok member with ⟨reached, chosen⟩
  have isReached : ∀ lower, lower ∈ reached ↔ lower ∈ graph.crates ∧
      Relation.ReflTransGen (Spec.Needs specs) crate.name lower.name := by
    intro lower
    simpa using mem_closure_iff accepted (List.cons_ne_nil _ _) chosen
  have isBelow : ∀ lower, lower ∈ reached ↔ lower = crate ∨ graph.Below crate lower := by
    intro lower
    rw [isReached, below_iff accepted member, Relation.reflTransGen_iff_eq_or_transGen]
    constructor
    · rintro ⟨inside, same | below⟩
      · exact .inl (settled.eq_of_name_eq inside member same)
      · exact .inr ⟨inside, below⟩
    · rintro (own | ⟨inside, below⟩)
      · rw [own]
        exact ⟨member, .inl rfl⟩
      · exact ⟨inside, .inr below⟩
  have reads : ∀ path, path.Among (Linkage.ofCrates (graph.dependencies crate)).markers ↔
      ∃ lower ∈ graph.crates, Relation.TransGen (Spec.Needs specs) crate.name lower.name ∧
        Path.Same lower.marker path := by
    intro path
    simp only [among_linkage_iff settled, below_iff accepted member, and_assoc]
  refine ⟨reached, chosen, isReached, ?_, head?_markers settled member, reads, ?_, ?_⟩
  · intro path
    rw [among_markers_iff settled member]
    simp [← isBelow, Path.Among]
  · intro bundle path
    rw [← reads]
    simp only [Declaration.ofCrate, Path.Among, List.mem_append, or_and_right, exists_or, or_assoc]
  · intro names
    have plain := plain_of_ofSpecs accepted names
    have distinct : reached.Nodup :=
      ((settled.nodup_names.of_map _).sublist (closed_of_closure settled chosen).1)
    refine ⟨perm_markers settled plain member distinct isBelow, apart_markers settled member, ?_⟩
    intro own
    rcases (reads crate.marker).mp own with ⟨lower, inside, below, same⟩
    rw [eq_of_same_marker settled plain inside member same] at below
    exact (wellFormed_of_ofSpecs accepted).acyclic crate.name below

/-- The upper crate carries its own marker and that of the lower one. -/
theorem markers_eq_closure_tandem : ofSpecs tandemSpecs ⟨"out"⟩ = .ok tandem ∧
    tandem.crates[1] ∈ tandem.crates ∧ tandem.closure ["app"] = .ok tandem.crates ∧
    Relation.ReflTransGen (Spec.Needs tandemSpecs) "app" "core" ∧
    tandem.crates[1].markers.Perm (tandem.crates.map (·.marker)) ∧
    ¬ tandem.crates[1].marker.Among
      (Linkage.ofCrates (tandem.dependencies tandem.crates[1])).markers := by
  have member : tandem.crates[1] ∈ tandem.crates := List.getElem_mem _
  have chosen : tandem.closure ["app"] = .ok tandem.crates := by decide
  rcases markers_eq_closure ofSpecs_tandemSpecs member with
    ⟨reached, chosenToo, isReached, _, _, _, _, plain⟩
  have same : reached = tandem.crates := Except.ok.inj (chosenToo.symm.trans chosen)
  rw [same] at isReached plain
  have both := plain (by decide)
  exact ⟨ofSpecs_tandemSpecs, member, chosen, ((isReached tandem.crates[0]).mp (by decide)).2, both.1,
    both.2.2⟩

end Graph

end ProofBuild
