import ProofBuild.Proofs.Rebuilds

/-!
The build of a part beside the build of the whole. Both start from one state, and the whole build
puts turns of other crates between those of the part. These leave the markers and entries of the
part alone, so before each of its turns the two states look the same to the crate
(`alike_part_whole`). Main statement: every crate of the part meets the same fate in both builds
(`same_in_part_and_whole`).
-/

namespace ProofBuild

open FileTree

namespace Fate

theorem Alike.success_iff {one two : Fate} (alike : one.Alike two) : one.Success ↔ two.Success := by
  cases one with
  | failed reason =>
      cases two with
      | failed other => exact Iff.rfl
      | verified | cached | blocked => cases alike
  | verified | cached | blocked =>
      have same : _ = two := alike
      rw [← same]

end Fate

namespace Context

variable {context : Context} {graph : Graph} {crate : Crate}

/-- Whether the marker and the entry of a crate are the same in two states. -/
structure Matching (crate : Crate) (one two : State) : Prop where
  files : ∀ content, two.world.tree.read crate.marker = .ok content ↔
    one.world.tree.read crate.marker = .ok content
  entry : two.cache.entry? crate.name = one.cache.entry? crate.name

theorem Matching.symm {one two : State} (matching : Matching crate one two) :
    Matching crate two one :=
  ⟨fun content => (matching.files content).symm, matching.entry.symm⟩

theorem Matching.trans {one two three : State} (first : Matching crate one two)
    (second : Matching crate two three) : Matching crate one three :=
  ⟨fun content => (second.files content).trans (first.files content),
    second.entry.trans first.entry⟩

theorem Matching.present_eq {one two : State} (matching : Matching crate one two)
    (solid : two.world.tree.isDirectory crate.marker = one.world.tree.isDirectory crate.marker) :
    two.world.tree.present crate.marker = one.world.tree.present crate.marker := by
  apply Bool.eq_iff_iff.mpr
  rw [present_iff_read, present_iff_read, solid]
  simp only [matching.files]

theorem Matching.fresh_iff {one two : State} (matching : Matching crate one two)
    (solid : two.world.tree.isDirectory crate.marker = one.world.tree.isDirectory crate.marker)
    (print : String) : two.cache.Fresh two.world.tree crate.name crate.marker print ↔
      one.cache.Fresh one.world.tree crate.name crate.marker print := by
  rw [Cache.Fresh, Cache.Fresh, matching.present_eq solid, matching.entry]

section Turns
variable {one two afterOne afterTwo : State} {fateOne fateTwo : Fate}
  (turnOne : Turn context graph crate one afterOne fateOne)
  (turnTwo : Turn context graph crate two afterTwo fateTwo)
  (matching : Matching crate one two)
  {directory : Path} (regular : graph.Regular directory) (known : crate ∈ graph.crates)
  (onward : fateOne.Success → ∀ prepared print,
    Printed context graph crate one prepared print → Printed context graph crate two prepared print)
include turnOne turnTwo matching regular known onward

section Conditions
variable
  (solid : two.world.tree.isDirectory crate.marker = one.world.tree.isDirectory crate.marker)
  (repeatable : context.Repeatable)
  (markable : Marker.Markable two.world.tree directory (Crate.markerName crate.name)
      context.process ↔
    Marker.Markable one.world.tree directory (Crate.markerName crate.name) context.process)
include solid repeatable markable

/-- What makes a crate succeed in one turn makes it succeed in the other, in the same way. -/
theorem success_of_matching :
    (fateOne = .cached → fateTwo = .cached) ∧ (fateOne = .verified → fateTwo = .verified) := by
  constructor
  · rintro rfl
    obtain ⟨prepared, print, printed, current⟩ := turnOne.cached_iff.mp rfl
    exact turnTwo.cached_iff.mpr ⟨prepared, print, onward trivial prepared print printed,
      (matching.fresh_iff solid print).mpr current⟩
  · rintro rfl
    obtain ⟨prepared, print, printed, stale, able⟩ := (turnOne.verified_iff regular known).mp rfl
    refine (turnTwo.verified_iff regular known).mpr
      ⟨prepared, print, onward trivial prepared print printed, ?_,
        (able_iff repeatable markable).mpr able⟩
    rwa [matching.fresh_iff solid print]

/-- Two turns before which everything looked the same to the crate have the same fate. -/
theorem alike_of_matching (alike : Alike context graph crate one two)
    (back : fateTwo.Success → ∀ prepared print,
      Printed context graph crate two prepared print →
        Printed context graph crate one prepared print) :
    fateOne.Alike fateTwo := by
  obtain ⟨cachedThere, verifiedThere⟩ := success_of_matching turnOne turnTwo matching regular known
    onward solid repeatable markable
  obtain ⟨cachedHere, verifiedHere⟩ := success_of_matching turnTwo turnOne matching.symm regular
    known back solid.symm repeatable markable.symm
  apply Fate.alike_of
  · intro names
    rw [turnTwo.blocked_iff, turnOne.blocked_iff, alike.missing_eq]
  · exact ⟨cachedHere, cachedThere⟩
  · exact ⟨verifiedHere, verifiedThere⟩

end Conditions

/-- Two turns of one fate leave the same marker and entry. -/
theorem Matching.after (alike : fateOne.Alike fateTwo) : Matching crate afterOne afterTwo := by
  have unread {after before : State} {fate : Fate}
      (turn : Turn context graph crate before after fate) (unsuccessful : ¬ fate.Success)
      (content : Bytes) : after.world.tree.read crate.marker ≠ .ok content := by
    intro read
    obtain ⟨executable, found⟩ := (read_eq_ok_iff _ _ _).mp read
    cases (turn.status_of_not_success regular known unsuccessful found).2
  by_cases success : fateOne.Success
  · cases fateOne with
    | failed | blocked => exact absurd success id
    | cached =>
        cases alike
        cases turnOne with
        | current =>
            cases turnTwo with
            | current => exact ⟨matching.files, matching.entry⟩
    | verified =>
        cases alike
        -- Both turns wrote the same marker and recorded the same fingerprint.
        obtain ⟨prepared, print, printed, entry, _⟩ := turnOne.of_verified
        obtain ⟨_, _, other, another, _⟩ := turnTwo.of_verified
        obtain ⟨rfl, rfl⟩ := (onward trivial prepared print printed).unique other
        constructor
        · intro content
          cases turnOne with
          | verified _ _ executedOne =>
              cases turnTwo with
              | verified _ _ executedTwo =>
                  rw [executedTwo.read_of_ok regular known, executedOne.read_of_ok regular known]
        · rw [entry, another]
  · -- Neither turn left a file in the marker's place, or an entry.
    have unsuccessful : ¬ fateTwo.Success := by rwa [← alike.success_iff]
    constructor
    · intro content
      simp only [unread turnOne success content, unread turnTwo unsuccessful content]
    · rw [turnOne.entry?_of_not_success success, turnTwo.entry?_of_not_success unsuccessful]

end Turns

/-- Whether the inputs of a crate that are absent at the start are told as absent in the crate's
turn, and not refused for the length of their names. -/
def LegibleInTurn (context : Context) (graph : Graph) (crates : List Crate) (crate : Crate)
    (state : State) : Prop :=
  ∀ before after, crates = before ++ crate :: after → context.Legible crate state.world.tree
    (context.buildAll graph before state).1.world.tree

/-- Between two builds of one start a fingerprint carries over to the one in which the crate's inputs
are not refused. -/
theorem Alike.printed_of_legible {directory : Path} (regular : graph.Regular directory)
    {first second : List Crate} (insideFirst : ∀ other ∈ first, other ∈ graph.crates)
    (insideSecond : ∀ other ∈ second, other ∈ graph.crates) {state : State} {selected : List Crate}
    (member : crate ∈ selected) (apart : context.Apart directory selected state.world.tree)
    (alike : Alike context graph crate (context.buildAll graph first state).1
      (context.buildAll graph second state).1)
    (legible : context.Legible crate state.world.tree
      (context.buildAll graph second state).1.world.tree)
    {prepared : Prepared} {print : String}
    (printed : Printed context graph crate (context.buildAll graph first state).1 prepared print) :
    Printed context graph crate (context.buildAll graph second state).1 prepared print := by
  apply alike.printed _ regular printed
  intro path input
  have one := (upheld_own regular insideFirst member apart input).eq_of_readable
    (printed.readable (List.mem_append_left _ input))
  have two := (upheld_own regular insideSecond member apart input).resolve_right
    (legible path input)
  rw [one, two]

section Part
variable {directory : Path} (regular : graph.Regular directory) {chosen : Crate → Bool}
  {state : State}

section Frame
variable {crates : List Crate} (inside : ∀ other ∈ crates, other ∈ graph.crates)
  (known : crate ∈ graph.crates) (others : ∀ other ∈ crates, crate.name ≠ other.name)
include regular inside known others

theorem matching_buildAll : Matching crate state (context.buildAll graph crates state).1 :=
  ⟨read_marker_buildAll regular inside known others, entry?_buildAll others state⟩

end Frame

variable
  (closed : ∀ crate ∈ graph.crates.filter chosen, ∀ lower, graph.Below crate lower →
    lower ∈ graph.crates.filter chosen)
  (apart : context.Apart directory (graph.crates.filter chosen) state.world.tree)
  (steady : context.Steady graph directory state.world.tree) (repeatable : context.Repeatable)

section Turn
variable {done rest : List Crate} (place : graph.crates = done ++ crate :: rest)
  (wanted : chosen crate = true)
  (tracked : ∀ other ∈ graph.crates.filter chosen, Matching other
    (context.buildAll graph (done.filter chosen) state).1 (context.buildAll graph done state).1)

theorem place_filter (place : graph.crates = done ++ crate :: rest) (wanted : chosen crate = true) :
    graph.crates.filter chosen = done.filter chosen ++ crate :: rest.filter chosen := by
  rw [place, List.filter_append, List.filter_cons_of_pos wanted]

theorem mem_crates_of_prefix (chosen : Crate → Bool) (place : graph.crates = done ++ rest) :
    (∀ other ∈ done, other ∈ graph.crates) ∧
      ∀ other ∈ done.filter chosen, other ∈ graph.crates := by
  have all : ∀ other ∈ done, other ∈ graph.crates := by
    intro other member
    rw [place]
    exact List.mem_append_left rest member
  exact ⟨all, fun other member => all other (List.mem_of_mem_filter member)⟩

theorem isDirectory_marker_part_whole (regular : graph.Regular directory)
    (known : crate ∈ graph.crates) (state : State) (place : graph.crates = done ++ rest)
    (chosen : Crate → Bool) :
    (context.buildAll graph done state).1.world.tree.isDirectory crate.marker =
      (context.buildAll graph (done.filter chosen) state).1.world.tree.isDirectory crate.marker := by
  obtain ⟨whole, part⟩ := mem_crates_of_prefix chosen place
  have keptWhole : KeptIn directory _ (context.buildAll graph done state).1.world.tree :=
    keptIn_buildAll regular whole state
  have keptPart : KeptIn directory _
      (context.buildAll graph (done.filter chosen) state).1.world.tree :=
    keptIn_buildAll regular part state
  exact isDirectory_marker_kept regular known (keptPart.symm.trans keptWhole)

include regular place wanted

/-- Before its turn a crate of the part sees the same in both builds. -/
theorem alike_part_whole
    (closed : ∀ crate ∈ graph.crates.filter chosen, ∀ lower, graph.Below crate lower →
      lower ∈ graph.crates.filter chosen)
    (steady : context.Steady graph directory state.world.tree)
    (tracked : ∀ other ∈ graph.crates.filter chosen, Matching other
      (context.buildAll graph (done.filter chosen) state).1 (context.buildAll graph done state).1) :
    Alike context graph crate (context.buildAll graph (done.filter chosen) state).1
      (context.buildAll graph done state).1 := by
  have placed := place_filter place wanted
  have member : crate ∈ graph.crates.filter chosen := by simp [placed]
  obtain ⟨whole, part⟩ := mem_crates_of_prefix chosen place
  refine ⟨?_, ?_, ?_, ?_, founded_buildAll regular List.filter_sublist closed placed state⟩
  · intro lower below
    exact (tracked lower (closed crate member lower below)).files
  · intro lower direct
    have known := Graph.mem_crates_of_below regular.settled (.single direct)
    exact isDirectory_marker_part_whole regular known state place chosen
  · apply List.map_congr_left
    intro lower direct
    exact (tracked lower (closed crate member lower (.single direct))).entry
  · rw [synthesize_buildAll regular whole steady, synthesize_buildAll regular part steady]

include closed apart steady repeatable tracked

theorem fates_and_matching_in_turn
    (legibleWhole : (context.buildCrate graph crate
        (context.buildAll graph (done.filter chosen) state).1).2.Success →
      context.Legible crate state.world.tree (context.buildAll graph done state).1.world.tree)
    (legiblePart : (context.buildCrate graph crate (context.buildAll graph done state).1).2.Success →
      context.Legible crate state.world.tree
        (context.buildAll graph (done.filter chosen) state).1.world.tree) :
    (context.buildCrate graph crate (context.buildAll graph (done.filter chosen) state).1).2.Alike
        (context.buildCrate graph crate (context.buildAll graph done state).1).2 ∧
      Matching crate
        (context.buildCrate graph crate (context.buildAll graph (done.filter chosen) state).1).1
        (context.buildCrate graph crate (context.buildAll graph done state).1).1 := by
  have placed := place_filter place wanted
  have member : crate ∈ graph.crates.filter chosen := by simp [placed]
  have known : crate ∈ graph.crates := List.mem_of_mem_filter member
  obtain ⟨whole, part⟩ := mem_crates_of_prefix chosen place
  have alike := alike_part_whole regular place wanted closed steady tracked
  have turnPart := turn_buildCrate context graph crate
    (context.buildAll graph (done.filter chosen) state).1
  have turnWhole := turn_buildCrate context graph crate (context.buildAll graph done state).1
  have onward (success) (prepared : Prepared) (print : String)
      (printed : Printed context graph crate _ prepared print) :=
    alike.printed_of_legible regular part whole member apart (legibleWhole success) printed
  have back (success) (prepared : Prepared) (print : String)
      (printed : Printed context graph crate _ prepared print) :=
    alike.symm.printed_of_legible regular whole part member apart (legiblePart success) printed
  have matching := tracked crate member
  have fates := alike_of_matching turnPart turnWhole matching regular known onward
    (isDirectory_marker_part_whole regular known state place chosen) repeatable
    (by rw [markable_buildAll regular whole, markable_buildAll regular part]) alike back
  exact ⟨fates, matching.after turnPart turnWhole regular known onward fates⟩

end Turn

/-- Whether no crate that succeeds in the build of the part or of the whole has an input that is
refused for its name in the turn of the other build. -/
def LegibleInBoth (context : Context) (graph : Graph) (selected : List Crate) (state : State) :
    Prop :=
  ∀ crate ∈ selected, ∀ fate, fate.Success →
    ((context.build graph selected state).2.fate? crate.name = some fate →
      context.LegibleInTurn graph graph.crates crate state) ∧
    ((context.build graph graph.crates state).2.fate? crate.name = some fate →
      context.LegibleInTurn graph selected crate state)

theorem legibleInBoth_of_short {selected : List Crate} {state : State}
    (short : ∀ crate ∈ selected, ∀ path ∈ crate.sources ++ context.bundle.artifacts,
      path.Inward ∧ ∀ step ∈ path.steps, step.utf8ByteSize ≤ nameLimit) :
    context.LegibleInBoth graph selected state :=
  fun crate member _ _ => ⟨fun _ _ _ _ => legible_of_short (short crate member),
    fun _ _ _ _ => legible_of_short (short crate member)⟩

section Run
variable (legible : context.LegibleInBoth graph (graph.crates.filter chosen) state)
include regular closed apart steady repeatable legible

/-- The step of the run: a crate of the part has the same fate, marker and entry in both builds if
everything was the same up to its turn. -/
theorem agree_in_turn {done rest : List Crate} (place : graph.crates = done ++ crate :: rest)
    (wanted : chosen crate = true)
    (tracked : ∀ other ∈ graph.crates.filter chosen, Matching other
      (context.buildAll graph (done.filter chosen) state).1 (context.buildAll graph done state).1) :
    (context.buildCrate graph crate (context.buildAll graph (done.filter chosen) state).1).2.Alike
        (context.buildCrate graph crate (context.buildAll graph done state).1).2 ∧
      Matching crate
        (context.buildCrate graph crate (context.buildAll graph (done.filter chosen) state).1).1
        (context.buildCrate graph crate (context.buildAll graph done state).1).1 := by
  have placed := place_filter place wanted
  have member : crate ∈ graph.crates.filter chosen := by simp [placed]
  apply fates_and_matching_in_turn regular closed apart steady repeatable place wanted tracked
  · intro success
    exact (legible crate member _ success).1
      (fate?_build regular List.filter_sublist placed state) done rest place
  · intro success
    exact (legible crate member _ success).2
      (fate?_build regular (List.Sublist.refl _) place state) _ _ placed

/-- All through the build of the whole the markers and entries of the part are those of its own
build. -/
theorem matching_part_whole {done rest : List Crate} (place : graph.crates = done ++ rest) :
    ∀ other ∈ graph.crates.filter chosen, Matching other
      (context.buildAll graph (done.filter chosen) state).1
      (context.buildAll graph done state).1 := by
  -- The invariant speaks of all crates of the part, also of those that come later.
  induction done using List.reverseRecOn generalizing rest with
  | nil => exact fun _ _ => ⟨fun _ => Iff.rfl, rfl⟩
  | append_singleton done crate ih =>
      have placed : graph.crates = done ++ crate :: rest := by simpa using place
      have tracked := ih placed
      have known : crate ∈ graph.crates := by simp [placed]
      intro other member
      have otherKnown : other ∈ graph.crates := List.mem_of_mem_filter member
      -- A turn of one crate leaves all others of the part alone, in either build.
      have frame (different : other ≠ crate) (before : State) :
          Matching other before (context.buildAll graph [crate] before).1 := by
        apply matching_buildAll regular (by simpa using known) otherKnown
        intro single member same
        rw [List.mem_singleton.mp member] at same
        exact different (regular.settled.eq_of_name_eq otherKnown known same)
      rw [List.filter_append, buildAll_append_fst, buildAll_append_fst]
      by_cases wanted : chosen crate = true
      · rw [List.filter_cons_of_pos wanted, List.filter_nil]
        by_cases same : other = crate
        · rw [same]
          exact (agree_in_turn regular closed apart steady repeatable legible placed wanted tracked).2
        · exact ((frame same _).symm.trans (tracked other member)).trans (frame same _)
      · -- A turn of the whole that the part does not have.
        rw [List.filter_cons_of_neg wanted, List.filter_nil, buildAll_nil]
        have different : other ≠ crate := by
          rintro rfl
          exact wanted (List.of_mem_filter member)
        exact (tracked other member).trans (frame different _)

end Run

end Part

theorem exists_closure_eq_filter {names : List String}
    (known : ∀ name ∈ names, ∃ crate ∈ graph.crates, crate.name = name) :
    ∃ test : Crate → Bool, graph.closure names = .ok (graph.crates.filter test) := by
  rcases Graph.exists_closure_eq_ok_iff.mpr known with ⟨selected, chosen⟩
  rcases Graph.eq_filter_of_closure chosen with ⟨test, rfl⟩
  exact ⟨test, chosen⟩

theorem legibleInTurn_of_success {directory : Path} (regular : graph.Regular directory)
    {crates before after : List Crate} (part : crates.Sublist graph.crates)
    (place : crates = before ++ crate :: after) {state : State}
    (success : (context.buildCrate graph crate (context.buildAll graph before state).1).2.Success) :
    context.LegibleInTurn graph crates crate state := by
  have known : crate ∈ graph.crates := part.subset (by simp [place])
  have turn := turn_buildCrate context graph crate (context.buildAll graph before state).1
  obtain ⟨prepared, print, printed, _⟩ := turn.of_success regular known success
  rintro first last split path input ⟨_, refused⟩
  -- A crate has one turn only.
  obtain ⟨earlier, later⟩ := names_apart regular part place
  have same : first = before :=
    ((List.append_cons_inj_of_notMem (fun member => earlier crate member rfl)
      fun member => later crate member rfl).mp (place.symm.trans split)).1.symm
  rw [same] at refused
  exact Fingerprint.not_readable refused (by decide) (printed.readable (List.mem_append_left _ input))

/-- Whether a closure is built alone or with the whole graph, each of its crates meets the same fate,
exactly unless a crate that succeeds in one build has an input that was absent at the start and is
refused for the length of its name in the crate's turn of the other. Then markers and entries of the
closure are the same as well. -/
theorem same_in_part_and_whole {specs : List Spec} {directory : Path} {graph : Graph}
    {names : List String} (accepted : Graph.ofSpecs specs directory = .ok graph)
    (plain : ∀ spec ∈ specs, '/' ∉ spec.name.toList) (inward : directory.Inward)
    (known : ∀ name ∈ names, ∃ crate ∈ graph.crates, crate.name = name)
    (context : Context) (state : State)
    (apart : context.Apart directory graph.crates state.world.tree)
    (repeatable : context.Repeatable) (steady : context.Steady graph directory state.world.tree) :
    ∃ selected, graph.closure names = .ok selected ∧
      ((∀ crate ∈ selected, ∃ one two,
          (context.build graph selected state).2.fate? crate.name = some one ∧
          (context.build graph graph.crates state).2.fate? crate.name = some two ∧
          one.Alike two) ↔ context.LegibleInBoth graph selected state) ∧
      (context.LegibleInBoth graph selected state → ∀ crate ∈ selected,
        (context.build graph selected state).1.world.tree.present crate.marker =
          (context.build graph graph.crates state).1.world.tree.present crate.marker ∧
        (context.build graph selected state).1.cache.entry? crate.name =
          (context.build graph graph.crates state).1.cache.entry? crate.name) := by
  have regular := Graph.regular_of_ofSpecs accepted plain inward
  obtain ⟨test, chosen⟩ := exists_closure_eq_filter known
  obtain ⟨part, closed⟩ := Graph.closed_of_closure regular.settled chosen
  have apartPart : context.Apart directory (graph.crates.filter test) state.world.tree :=
    fun crate member => apart crate (part.subset member)
  refine ⟨_, chosen, ⟨?_, ?_⟩, ?_⟩
  · intro same crate member fate success
    obtain ⟨one, two, reportedOne, reportedTwo, alike⟩ := same crate member
    obtain ⟨done, rest, place⟩ := List.append_of_mem (part.subset member)
    have placed := place_filter place (List.of_mem_filter member)
    constructor
    · intro reported
      rw [reported] at reportedOne
      cases reportedOne
      rw [fate?_build regular (List.Sublist.refl _) place] at reportedTwo
      cases reportedTwo
      exact legibleInTurn_of_success regular (List.Sublist.refl _) place (alike.success_iff.mp success)
    · intro reported
      rw [reported] at reportedTwo
      cases reportedTwo
      rw [fate?_build regular part placed] at reportedOne
      cases reportedOne
      exact legibleInTurn_of_success regular part placed (alike.success_iff.mpr success)
  · intro legible crate member
    obtain ⟨done, rest, place⟩ := List.append_of_mem (part.subset member)
    have wanted := List.of_mem_filter member
    have tracked := matching_part_whole regular closed apartPart steady repeatable legible place
    refine ⟨_, _, fate?_build regular part (place_filter place wanted) state,
      fate?_build regular (List.Sublist.refl _) place state, ?_⟩
    exact (agree_in_turn regular closed apartPart steady repeatable legible place wanted tracked).1
  · intro legible crate member
    have matching := matching_part_whole regular closed apartPart steady repeatable legible
      (List.append_nil graph.crates).symm crate member
    have present := matching.present_eq (isDirectory_marker_part_whole regular (part.subset member)
      state (List.append_nil graph.crates).symm test)
    rw [build_fst, build_fst]
    exact ⟨present.symm, matching.entry.symm⟩

theorem same_in_part_and_whole_tandem :
    Graph.ofSpecs Graph.tandemSpecs ⟨"out"⟩ = .ok Graph.tandem ∧
      (∀ spec ∈ Graph.tandemSpecs, '/' ∉ spec.name.toList) ∧ (⟨"out"⟩ : Path).Inward ∧
      (∀ name ∈ ["core"], ∃ crate ∈ Graph.tandem.crates, crate.name = name) ∧
      accepting.Apart ⟨"out"⟩ Graph.tandem.crates blank.world.tree ∧
      accepting.Repeatable ∧ accepting.Steady Graph.tandem ⟨"out"⟩ blank.world.tree ∧
      ∃ selected, Graph.tandem.closure ["core"] = .ok selected ∧
        accepting.LegibleInBoth Graph.tandem selected blank ∧
        ∀ crate ∈ selected,
          (∃ one two,
            (accepting.build Graph.tandem selected blank).2.fate? crate.name = some one ∧
            (accepting.build Graph.tandem Graph.tandem.crates blank).2.fate? crate.name = some two ∧
            one.Alike two) ∧
          (accepting.build Graph.tandem selected blank).1.world.tree.present crate.marker =
            (accepting.build Graph.tandem Graph.tandem.crates blank).1.world.tree.present
              crate.marker := by
  have accepted := Graph.ofSpecs_tandemSpecs
  have plain : ∀ spec ∈ Graph.tandemSpecs, '/' ∉ spec.name.toList := by decide
  have inward : (⟨"out"⟩ : Path).Inward := by decide
  have known : ∀ name ∈ ["core"], ∃ crate ∈ Graph.tandem.crates, crate.name = name := by decide
  have chosen : Graph.tandem.closure ["core"] = .ok (Graph.tandem.crates.take 1) := by decide
  have apart : accepting.Apart ⟨"out"⟩ Graph.tandem.crates blank.world.tree := by decide +kernel
  have repeatable : accepting.Repeatable := fun _ _ _ => rfl
  have steady : accepting.Steady Graph.tandem ⟨"out"⟩ blank.world.tree := fun _ _ => rfl
  have short : ∀ crate ∈ Graph.tandem.crates.take 1,
      ∀ path ∈ crate.sources ++ accepting.bundle.artifacts,
        path.Inward ∧ ∀ step ∈ path.steps, step.utf8ByteSize ≤ nameLimit := by decide +kernel
  have legible : accepting.LegibleInBoth Graph.tandem (Graph.tandem.crates.take 1) blank :=
    legibleInBoth_of_short short
  obtain ⟨selected, closure, fates, left⟩ := same_in_part_and_whole accepted plain inward known
    accepting blank apart repeatable steady
  rw [chosen] at closure
  cases closure
  refine ⟨accepted, plain, inward, known, apart, repeatable, steady, _, chosen, legible, ?_⟩
  intro crate member
  exact ⟨fates.mpr legible crate member, (left legible crate member).1⟩

end Context

namespace Graph

/-- The source with too long a name is that of the second crate. -/
def flankedSpecs : List Spec := [
  ⟨"t", [⟨"lib.rs"⟩], none, none, [], []⟩,
  ⟨"u", [besideSource], none, none, [], []⟩]

def flankingCrate : Crate where
  name := "t"
  identity := "t"
  entry := ⟨"lib.rs"⟩
  sources := [⟨"lib.rs"⟩]
  extraArguments := []
  dependencies := []
  marker := ⟨"x/z/t.success"⟩
  markers := [⟨"x/z/t.success"⟩]

def flanked : Graph := ⟨[flankingCrate, besideCrate]⟩

theorem ofSpecs_flankedSpecs : ofSpecs flankedSpecs ⟨"x/z"⟩ = .ok flanked := by
  have order : ∀ source, Order.ofSpecs [⟨"t", [⟨"lib.rs"⟩], none, none, [], []⟩,
      ⟨"u", [source], none, none, [], []⟩] = .ok ["t", "u"] := by
    intro source
    cbv
  have entry : ∀ source, Spec.entryAmong [source] none = .ok source := by
    intro source
    simp only [Spec.entryAmong, List.find?_singleton]
    split <;> rfl
  have settled : settleAll ⟨"x/z"⟩ [] flankedSpecs = .ok flanked.crates := by
    simp only [flankedSpecs, settleAll, settle, Crate.ofSpec, Spec.resolve, entry]
    rfl
  have found : ["t", "u"].filterMap (Spec.find? flankedSpecs) = flankedSpecs := by rfl
  have distinct : repeatedName? flankedSpecs = none := by rfl
  have known : unknownDependency? flankedSpecs = none := by rfl
  have ordered : Order.ofSpecs flankedSpecs = .ok ["t", "u"] := order besideSource
  simp only [ofSpecs, distinct, known, ordered, found, settled]
  rfl

theorem regular_flanked : flanked.Regular ⟨"x/z"⟩ :=
  regular_of_ofSpecs ofSpecs_flankedSpecs (by decide) (by decide)

end Graph

namespace Context

theorem apart_flanked : accepting.Apart ⟨"x/z"⟩ Graph.flanked.crates blank.world.tree := by
  have inputs : ∀ path ∈ (⟨"lib.rs"⟩ : Path) :: accepting.bundle.artifacts,
      path.Inward ∧ path.ClearOf [] ((⟨"x/z"⟩ : Path).place []) := by decide
  intro crate member path input
  rcases List.mem_cons.mp member with rfl | last
  · exact inputs path input
  · exact apart_beside crate last path input

theorem printed_flanking : ∃ prepared print,
    Printed accepting Graph.flanked Graph.flankingCrate blank prepared print := by
  have absent : ∀ path ∈ accepting.inputsOf Graph.flanked Graph.flankingCrate,
      blank.world.tree.read path = .error .notFound := by
    have inputs : accepting.inputsOf Graph.flanked Graph.flankingCrate =
        ⟨"lib.rs"⟩ :: accepting.bundle.artifacts := by rfl
    rw [inputs]
    decide
  have prepares : accepting.prepare Graph.flanked blank.world.tree Graph.flankingCrate = .ok _ :=
    prepare_eq_ok (by intro lower member; cases member) rfl
  exact ⟨_, printed_of_readable rfl prepares fun path input => .inl (absent path input)⟩

theorem verified_flanking :
    (accepting.buildCrate Graph.flanked Graph.flankingCrate blank).2 = .verified := by
  have written : (Marker.write (Marker.remove blank.world.tree ⟨"x/z/t.success"⟩).1
      ⟨"x/z/t.success"⟩ accepting.process).2 = .ok () := by decide +kernel
  obtain ⟨prepared, print, printed⟩ := printed_flanking
  exact (turn_buildCrate accepting Graph.flanked Graph.flankingCrate blank).verified_of_write
    Graph.regular_flanked List.mem_cons_self printed rfl written (fun _ => ⟨_, rfl, rfl⟩)

theorem verified_flanked :
    (accepting.buildCrate Graph.flanked Graph.besideCrate blank).2 = .verified := by
  have written : (Marker.write (Marker.remove blank.world.tree ⟨"x/z/u.success"⟩).1
      ⟨"x/z/u.success"⟩ accepting.process).2 = .ok () := by decide +kernel
  obtain ⟨prepared, print, printed⟩ := printed_beside
  have same : Printed accepting Graph.flanked Graph.besideCrate blank prepared print :=
    ⟨rfl, printed.prepares, printed.prints⟩
  exact (turn_buildCrate accepting Graph.flanked Graph.besideCrate blank).verified_of_write
    Graph.regular_flanked (List.mem_cons_of_mem _ List.mem_cons_self) same rfl written
    (fun _ => ⟨_, rfl, rfl⟩)

/-- The first crate's marker opens the directory of the second crate's source. -/
theorem fates_flanked : ∃ reason,
    (accepting.build Graph.flanked Graph.flanked.crates blank).2.fates =
      [("t", .verified), ("u", .failed reason)] := by
  have turn := turn_buildCrate accepting Graph.flanked Graph.flankingCrate blank
  have working := (turn.changedIn Graph.regular_flanked List.mem_cons_self).working
  have success : (accepting.buildCrate Graph.flanked Graph.flankingCrate blank).2.Success := by
    rw [verified_flanking]
    trivial
  have opened := turn.directory_of_success Graph.regular_flanked List.mem_cons_self success
  have refused := read_besideSource_of_directory working opened
  have next := turn_buildCrate accepting Graph.flanked Graph.besideCrate
    (accepting.buildCrate Graph.flanked Graph.flankingCrate blank).1
  obtain ⟨reason, failed⟩ := next.failed_of_not_printed (missing_of_alone rfl _) <| by
    intro prepared print printed
    have input : Graph.besideSource ∈ accepting.inputsOf Graph.flanked Graph.besideCrate :=
      List.mem_append_left _ (List.mem_append_left _ (List.mem_singleton.mpr rfl))
    exact Fingerprint.not_readable refused (by decide) (printed.readable input)
  refine ⟨reason, ?_⟩
  rw [fates_build, show Graph.flanked.crates = [Graph.flankingCrate, Graph.besideCrate] from rfl,
    buildAll_cons, buildAll_singleton_snd, verified_flanking, failed]
  rfl

/-- The first crate's marker shows a toolchain manager. -/
theorem fates_managed : ∃ reason,
    (probing.build Graph.managed Graph.managed.crates blank).2.fates =
      [("lexer", .verified), ("parser", .failed reason)] := by
  have place : Graph.managed.crates = [Graph.lexerCrate, Graph.parserCrate] := rfl
  have first : Graph.lexerCrate ∈ Graph.managed.crates := List.mem_cons_self
  have turn := turn_buildCrate probing Graph.managed Graph.lexerCrate blank
  have success : (probing.buildCrate Graph.managed Graph.lexerCrate blank).2.Success := by
    rw [verified_managed _ first]
    trivial
  have next := turn_buildCrate probing Graph.managed Graph.parserCrate
    (probing.buildCrate Graph.managed Graph.lexerCrate blank).1
  obtain ⟨reason, failed⟩ := next.failed_of_not_printed (missing_of_alone rfl _)
    (not_printed_probing (managed_of_success first turn success))
  refine ⟨reason, ?_⟩
  rw [fates_build, place, buildAll_cons, buildAll_singleton_snd, verified_managed _ first, failed]
  rfl

/-- A crate can be verified on its own and fail in the build of the whole: the marker of another
crate turns an absent source into one whose name is too long, or shows the synthesis another
machine. -/
theorem differing_in_part_and_whole :
    (Graph.ofSpecs Graph.flankedSpecs ⟨"x/z"⟩ = .ok Graph.flanked ∧
      (∀ spec ∈ Graph.flankedSpecs, '/' ∉ spec.name.toList) ∧ (⟨"x/z"⟩ : Path).Inward ∧
      Graph.flanked.closure ["u"] = .ok [Graph.besideCrate] ∧
      accepting.Apart ⟨"x/z"⟩ Graph.flanked.crates blank.world.tree ∧ accepting.Repeatable ∧
      accepting.Steady Graph.flanked ⟨"x/z"⟩ blank.world.tree ∧
      (accepting.build Graph.flanked [Graph.besideCrate] blank).2.fates = [("u", .verified)] ∧
      ∃ reason, (accepting.build Graph.flanked Graph.flanked.crates blank).2.fates =
        [("t", .verified), ("u", .failed reason)]) ∧
    (Graph.ofSpecs Graph.managedSpecs ⟨"home/.rustup"⟩ = .ok Graph.managed ∧
      (∀ spec ∈ Graph.managedSpecs, '/' ∉ spec.name.toList) ∧ (⟨"home/.rustup"⟩ : Path).Inward ∧
      Graph.managed.closure ["parser"] = .ok [Graph.parserCrate] ∧
      probing.Apart ⟨"home/.rustup"⟩ Graph.managed.crates blank.world.tree ∧
      probing.Repeatable ∧
      probing.LegibleInBoth Graph.managed [Graph.parserCrate] blank ∧
      (probing.build Graph.managed [Graph.parserCrate] blank).2.fates =
        [("parser", .verified)] ∧
      ∃ reason, (probing.build Graph.managed Graph.managed.crates blank).2.fates =
        [("lexer", .verified), ("parser", .failed reason)]) := by
  have short : ∀ crate ∈ [Graph.parserCrate],
      ∀ path ∈ crate.sources ++ probing.bundle.artifacts,
        path.Inward ∧ ∀ step ∈ path.steps, step.utf8ByteSize ≤ nameLimit := by decide +kernel
  constructor
  · refine ⟨Graph.ofSpecs_flankedSpecs, by decide, by decide, rfl, apart_flanked, fun _ _ _ => rfl,
      fun _ _ => rfl, ?_, fates_flanked⟩
    rw [fates_build, buildAll_singleton_snd, verified_flanked]
    rfl
  · refine ⟨Graph.ofSpecs_managedSpecs, by decide, by decide, by decide, by decide +kernel,
      fun _ _ _ => rfl, legibleInBoth_of_short short, ?_, fates_managed⟩
    rw [fates_build, buildAll_singleton_snd, verified_managed _ (by decide)]
    rfl

end Context

end ProofBuild
