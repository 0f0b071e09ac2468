import Mathlib.Data.List.Find
import ProofBuild.Proofs.Agreement
import ProofBuild.Proofs.Attempts

/-!
Two states that look the same to a crate: the markers below it are files in both or in neither, the
recorded fingerprints of its dependencies and the environment are the same. If its sources read the
same, too, the fingerprint that is made in one is made in the other (`Alike.printed`). All markers
below are read and not only the direct ones, but where these are files the others are as well
(`Founded`), and in a build it is so (`founded_buildAll`).
-/

namespace ProofBuild

namespace Fate

/-- The same fate, up to the reason of a failure. -/
def Alike : Fate → Fate → Prop
  | .failed _, .failed _ => True
  | one, two => one = two

theorem alike_of {one two : Fate} (blocked : ∀ names, two = .blocked names ↔ one = .blocked names)
    (cached : two = .cached ↔ one = .cached) (verified : two = .verified ↔ one = .verified) :
    one.Alike two := by
  cases one with
  | verified => exact (verified.mpr rfl).symm
  | cached => exact (cached.mpr rfl).symm
  | blocked names => exact ((blocked names).mpr rfl).symm
  | failed reason =>
      cases two with
      | verified => cases verified.mp rfl
      | cached => cases cached.mp rfl
      | blocked names => cases (blocked names).mp rfl
      | failed other => trivial

end Fate

namespace FileTree

theorem present_iff_read (tree : FileTree) (path : Path) : tree.present path = true ↔
    (∃ content, tree.read path = .ok content) ∨ tree.isDirectory path = true := by
  rw [present_eq_true_iff, isDirectory_iff]
  simp only [read_eq_ok_iff]
  constructor
  · rintro ⟨node, lies⟩
    cases node with
    | directory => exact .inr lies
    | file content executable => exact .inl ⟨content, executable, lies⟩
  · rintro (⟨content, executable, lies⟩ | lies)
    · exact ⟨_, lies⟩
    · exact ⟨_, lies⟩

/-- An answer that is upheld twice was the same in between, unless it ends in a refusal. -/
theorem Upheld.between {Answer : Type} {was mid now : Except FileError Answer}
    (first : Upheld was mid) (second : Upheld mid now)
    (named : ¬ (was = .error .notFound ∧ now = .error .nameTooLong)) : mid = was := by
  rcases first with same | ⟨absent, refused⟩
  · exact same
  · rw [refused] at second
    rcases second with same | ⟨gone, _⟩
    · exact absurd ⟨absent, same⟩ named
    · cases gone

theorem Upheld.eq_of_readable {tree : FileTree} {path : Path} {was : Except FileError Bytes}
    (upheld : Upheld was (tree.read path)) (readable : Fingerprint.Readable tree path) :
    tree.read path = was := by
  rcases upheld with same | ⟨_, refused⟩
  · exact same
  · exact absurd readable (Fingerprint.not_readable refused (by decide))

theorem reach_ne_nameTooLong {tree : FileTree} {here : Location} {steps : List String}
    (inward : ".." ∉ steps) (short : ∀ step ∈ steps, step.utf8ByteSize ≤ nameLimit) :
    tree.reach here steps ≠ .error .nameTooLong := by
  induction steps generalizing here with
  | nil =>
      rw [reach_nil]
      cases tree.node? here <;> simp
  | cons step rest ih =>
      have stepInward : step ≠ ".." := fun same => inward (by simp [same])
      have restInward : ".." ∉ rest := fun member => inward (List.mem_cons_of_mem step member)
      obtain ⟨first, others⟩ := List.forall_mem_cons.mp short
      rw [reach_cons _ _ _ _ stepInward]
      cases tree.node? here with
      | none => simp
      | some node =>
          cases node with
          | file content executable => simp
          | directory =>
              by_cases dot : step = "."
              · simpa [dot] using ih restInward others
              · simpa [dot, Nat.not_lt.mpr first] using ih restInward others

theorem read_ne_nameTooLong {before after : FileTree} {path : Path} (inward : path.Inward)
    (short : ∀ step ∈ path.steps, step.utf8ByteSize ≤ nameLimit)
    (absent : before.read path = .error .notFound) : after.read path ≠ .error .nameTooLong := by
  rw [read_eq, status_eq] at absent ⊢
  cases addressed : path.address with
  | error error =>
      simp only [addressed, bind, Except.bind] at absent ⊢
      rw [absent]
      simp
  | ok address =>
      obtain ⟨_, _, _, rfl⟩ := Path.of_address_eq_ok addressed
      simp only [bind, Except.bind]
      have allInward : ".." ∉ path.steps ++
          if decide (path.text.toList.getLast? = some '/') then ["."] else [] := by
        rw [List.mem_append, not_or]
        refine ⟨(Path.inward_iff path).mp inward, ?_⟩
        split <;> simp
      have allShort : ∀ step ∈ path.steps ++
          if decide (path.text.toList.getLast? = some '/') then ["."] else [],
            step.utf8ByteSize ≤ nameLimit := by
        rw [List.forall_mem_append]
        refine ⟨short, ?_⟩
        split
        · intro step member
          rw [List.mem_singleton.mp member]
          decide
        · simp
      intro refused
      split at refused
      · rename_i error walked
        cases refused
        exact reach_ne_nameTooLong allInward allShort walked
      · cases refused
      · cases refused
end FileTree

open FileTree

/-- Whether the environment stays the same when markers come and go. -/
def Context.Steady (context : Context) (graph : Graph) (directory : Path) (tree : FileTree) : Prop :=
  ∀ later, ChangedIn (directory.place tree.workingDirectory)
      {name | ∃ crate ∈ graph.crates, name ∈ crate.markerFiles context.process} tree later →
    context.synthesize later context.bundle = context.synthesize tree context.bundle

namespace Context

variable {context : Context} {graph : Graph} {crate : Crate}

/-- Whether no input of the crate is absent before and refused after for the length of its name. -/
def Legible (context : Context) (crate : Crate) (before after : FileTree) : Prop :=
  ∀ path ∈ crate.sources ++ context.bundle.artifacts,
    ¬ (before.read path = .error .notFound ∧ after.read path = .error .nameTooLong)

theorem legible_of_short {before after : FileTree}
    (short : ∀ path ∈ crate.sources ++ context.bundle.artifacts,
      path.Inward ∧ ∀ step ∈ path.steps, step.utf8ByteSize ≤ nameLimit) :
    context.Legible crate before after := by
  rintro path input ⟨absent, refused⟩
  obtain ⟨inward, names⟩ := short path input
  exact read_ne_nameTooLong inward names absent refused

/-- Where the markers of the direct dependencies are files, those of everything below are. -/
def Founded (graph : Graph) (crate : Crate) (tree : FileTree) : Prop :=
  (∀ lower ∈ graph.dependencies crate, ∃ content, tree.read lower.marker = .ok content) →
    ∀ lower, graph.Below crate lower → ∃ content, tree.read lower.marker = .ok content

/-- Whether two states look the same to a crate, apart from its sources and the artifacts. -/
structure Alike (context : Context) (graph : Graph) (crate : Crate) (one two : State) : Prop where
  below : ∀ lower, graph.Below crate lower → ∀ content,
    two.world.tree.read lower.marker = .ok content ↔ one.world.tree.read lower.marker = .ok content
  solid : ∀ lower ∈ graph.dependencies crate,
    two.world.tree.isDirectory lower.marker = one.world.tree.isDirectory lower.marker
  recorded : recordedOf graph crate two.cache = recordedOf graph crate one.cache
  synthesized : context.synthesize two.world.tree context.bundle =
    context.synthesize one.world.tree context.bundle
  founded : Founded graph crate one.world.tree

namespace Alike
variable {one two : State} (alike : Alike context graph crate one two)
include alike

theorem symm : Alike context graph crate two one := by
  refine ⟨fun lower below content => (alike.below lower below content).symm,
    fun lower direct => (alike.solid lower direct).symm, alike.recorded.symm,
    alike.synthesized.symm, ?_⟩
  -- The markers are files in both states or in neither, so the other state is founded, too.
  intro files lower below
  have direct : ∀ lower ∈ graph.dependencies crate, ∃ content,
      one.world.tree.read lower.marker = .ok content := by
    intro lower direct
    obtain ⟨content, read⟩ := files lower direct
    exact ⟨content, (alike.below lower (.single direct) content).mp read⟩
  obtain ⟨content, read⟩ := alike.founded direct lower below
  exact ⟨content, (alike.below lower below content).mpr read⟩

theorem present_eq {lower : Crate} (direct : lower ∈ graph.dependencies crate) :
    two.world.tree.present lower.marker = one.world.tree.present lower.marker := by
  apply Bool.eq_iff_iff.mpr
  rw [present_iff_read, present_iff_read, alike.solid lower direct]
  simp only [alike.below lower (.single direct)]

theorem missing_eq : graph.missing two.world.tree crate = graph.missing one.world.tree crate := by
  rw [Graph.missing, Graph.missing]
  congr 1
  apply List.filter_congr
  intro lower direct
  rw [alike.present_eq direct]

theorem prepare_eq : context.prepare graph two.world.tree crate =
    context.prepare graph one.world.tree crate := by
  have first : (graph.dependencies crate).find? (fun lower => !two.world.tree.present lower.marker) =
      (graph.dependencies crate).find? fun lower => !one.world.tree.present lower.marker := by
    apply List.find?_congr
    intro lower direct
    rw [alike.present_eq direct]
  simp only [prepare, first, alike.synthesized]

section Own
variable (own : ∀ path ∈ crate.sources ++ context.bundle.artifacts,
    two.world.tree.read path = one.world.tree.read path)
  {directory : Path} (regular : graph.Regular directory) {prepared : Prepared} {print : String}
  (made : Printed context graph crate one prepared print)
include own regular made

/-- All inputs of a fingerprint that is made in one state read the same in the other. -/
theorem read_eq_of_printed {path : Path} (input : path ∈ context.inputsOf graph crate) :
    two.world.tree.read path = one.world.tree.read path := by
  -- The direct dependencies have markers that can be read, so these are files.
  have direct : ∀ lower ∈ graph.dependencies crate, ∃ content,
      one.world.tree.read lower.marker = .ok content := by
    intro lower wanted
    have known := Graph.marker_mem_markers_ofCrates regular.settled regular.plain wanted
    rcases made.readable (List.mem_append_right _ known) with absent | file
    · have none := List.map_eq_nil_iff.mp made.ready
      have present : one.world.tree.present lower.marker = true := by
        simpa using List.filter_eq_nil_iff.mp none lower wanted
      obtain ⟨node, lies⟩ := (present_eq_true_iff _ _).mp present
      rw [read_eq, lies] at absent
      cases node <;> cases absent
    · exact file
  rcases List.mem_append.mp input with mine | marker
  · exact own path mine
  · -- Then all markers below are files.
    obtain ⟨lower, below, rfl⟩ := Graph.of_mem_markers_ofCrates regular.settled marker
    obtain ⟨content, read⟩ := alike.founded direct lower below
    rw [read, (alike.below lower below content).mpr read]

theorem printed : Printed context graph crate two prepared print := by
  have prints := made.prints
  rw [fingerprintOf_eq] at prints
  obtain ⟨readable, same⟩ := fingerprint_eq_ok_iff.mp prints
  have reads {path : Path} (input : path ∈ context.inputsOf graph crate) :=
    alike.read_eq_of_printed own regular made input
  refine ⟨alike.missing_eq.trans made.ready, alike.prepare_eq.trans made.prepares, ?_⟩
  rw [fingerprintOf_eq, fingerprint_eq_ok_iff, alike.recorded]
  constructor
  · intro path input
    rw [Fingerprint.Readable, reads input]
    exact readable path input
  · have inputs : (context.inputsOf graph crate).map (Fingerprint.inputAt two.world.tree) =
        (context.inputsOf graph crate).map (Fingerprint.inputAt one.world.tree) := by
      apply List.map_congr_left
      intro path input
      rw [Fingerprint.inputAt, Fingerprint.inputAt, reads input]
    rw [same, inputs]

end Own

end Alike

theorem upheld_own {directory : Path} (regular : graph.Regular directory) {crates : List Crate}
    (inside : ∀ other ∈ crates, other ∈ graph.crates) {state : State} {selected : List Crate}
    (member : crate ∈ selected) (apart : context.Apart directory selected state.world.tree)
    {path : Path} (input : path ∈ crate.sources ++ context.bundle.artifacts) :
    Upheld (state.world.tree.read path)
      ((context.buildAll graph crates state).1.world.tree.read path) := by
  obtain ⟨inward, clear⟩ := apart crate member path input
  exact read_buildAll regular inside state inward clear

theorem read_marker_buildAll {directory : Path} (regular : graph.Regular directory)
    {crates : List Crate} (inside : ∀ other ∈ crates, other ∈ graph.crates) {state : State}
    {lower : Crate} (known : lower ∈ graph.crates) (others : ∀ other ∈ crates, lower.name ≠ other.name)
    (content : Bytes) :
    (context.buildAll graph crates state).1.world.tree.read lower.marker = .ok content ↔
      state.world.tree.read lower.marker = .ok content := by
  simp only [read_eq_ok_iff]
  apply exists_congr
  intro executable
  exact status_marker_buildAll regular inside known others state _

theorem synthesize_buildAll {directory : Path} (regular : graph.Regular directory)
    {crates : List Crate} (inside : ∀ crate ∈ crates, crate ∈ graph.crates) {state : State}
    (steady : context.Steady graph directory state.world.tree) :
    context.synthesize (context.buildAll graph crates state).1.world.tree context.bundle =
      context.synthesize state.world.tree context.bundle := by
  apply steady
  apply (changedIn_buildAll regular inside state).mono
  rintro name ⟨crate, member, owns⟩
  exact ⟨crate, inside crate member, owns⟩

theorem sublist_before {selected before after : List Crate} (part : selected.Sublist graph.crates)
    (place : selected = before ++ crate :: after) : before.Sublist graph.crates := by
  rw [place] at part
  exact (List.sublist_append_left before (crate :: after)).trans part

theorem mem_crates_of_place {selected before after : List Crate}
    (part : selected.Sublist graph.crates) (place : selected = before ++ crate :: after) :
    (∀ other ∈ before, other ∈ graph.crates) ∧ ∀ other ∈ crate :: after, other ∈ graph.crates := by
  rw [place] at part
  exact List.forall_mem_append.mp fun other member => part.subset member

section Selection
variable {directory : Path} (regular : graph.Regular directory) {selected : List Crate}
  (part : selected.Sublist graph.crates)
  (closed : ∀ crate ∈ selected, ∀ lower, graph.Below crate lower → lower ∈ selected)
  {before after : List Crate} (place : selected = before ++ crate :: after)
include regular part closed place

/-- In a selection everything below a crate comes before it. -/
theorem mem_before_of_below {lower : Crate} (below : graph.Below crate lower) : lower ∈ before := by
  -- One step down comes earlier each time.
  induction below with
  | single direct =>
      have chosen := closed crate (by simp [place]) _ (.single direct)
      have known := (Graph.mem_dependencies_iff regular.settled).mp direct
      exact regular.settled.mem_before part place chosen known.2
  | @tail middle lower above direct ih =>
      obtain ⟨first, last, split⟩ := List.append_of_mem ih
      have chosen := closed crate (by simp [place]) _ (.tail above direct)
      have known := (Graph.mem_dependencies_iff regular.settled).mp direct
      have placed : selected = first ++ middle :: (last ++ crate :: after) := by simp [place, split]
      have earlier := regular.settled.mem_before part placed chosen known.2
      rw [split]
      exact List.mem_append_left _ earlier

theorem closed_before : ∀ upper ∈ before, ∀ lower, graph.Below upper lower → lower ∈ before := by
  intro upper member lower below
  obtain ⟨first, last, split⟩ := List.append_of_mem member
  have placed : selected = first ++ upper :: (last ++ crate :: after) := by simp [place, split]
  rw [split]
  exact List.mem_append_left _ (mem_before_of_below regular part closed placed below)

/-- The marker of everything below a crate whose fingerprint is made is a file. -/
theorem file_of_below {state : State} {prepared : Prepared} {print : String}
    (printed : Printed context graph crate (context.buildAll graph before state).1 prepared print)
    {lower : Crate} (below : graph.Below crate lower) : ∃ content,
      (context.buildAll graph selected state).1.world.tree.read lower.marker = .ok content := by
  have input {upper lower : Crate} (direct : lower ∈ graph.dependencies upper) :=
    Graph.marker_mem_markers_ofCrates regular.settled regular.plain direct
  cases below with
  | single direct =>
      obtain ⟨content, _, read⟩ := read_marker_of_printed regular part place closed printed
        (.single direct) (input direct)
      exact ⟨content, read⟩
  | @tail middle _ above direct =>
      -- The crate in the middle has succeeded, so its own fingerprint has been made.
      obtain ⟨first, last, split, success⟩ :=
        succeeds_of_below regular part closed place printed above
      have placed : selected = first ++ middle :: (last ++ crate :: after) := by simp [place, split]
      have known : middle ∈ graph.crates := part.subset (by simp [placed])
      obtain ⟨_, _, middlePrinted, _⟩ :=
        (turn_buildCrate context graph middle _).of_success regular known success
      obtain ⟨content, _, read⟩ := read_marker_of_printed regular part placed closed middlePrinted
        (.single direct) (input direct)
      exact ⟨content, read⟩

/-- Before a crate's turn only crates that succeeded have files for markers, and so has all that is
below them. -/
theorem founded_buildAll (state : State) :
    Founded graph crate (context.buildAll graph before state).1.world.tree := by
  have earlier := sublist_before part place
  have closedBefore := closed_before regular part closed place
  intro files lower below
  obtain ⟨middle, direct, rest⟩ : ∃ middle ∈ graph.dependencies crate,
      lower = middle ∨ graph.Below middle lower := by
    rcases Relation.TransGen.head'_iff.mp below with ⟨middle, direct, rest⟩
    rcases Relation.reflTransGen_iff_eq_or_transGen.mp rest with same | further
    · exact ⟨middle, direct, .inl same⟩
    · exact ⟨middle, direct, .inr further⟩
  rcases rest with rfl | further
  · exact files lower direct
  · have chosen := mem_before_of_below regular part closed place (.single direct)
    obtain ⟨first, last, split⟩ := List.append_of_mem chosen
    have known : middle ∈ graph.crates := earlier.subset chosen
    have turn := turn_buildCrate context graph middle (context.buildAll graph first state).1
    have success : (context.buildCrate graph middle (context.buildAll graph first state).1).2.Success := by
      -- Otherwise its turn has left no file in the marker's place, and none came later.
      by_contra unsuccessful
      obtain ⟨content, read⟩ := files middle direct
      obtain ⟨executable, found⟩ := (read_eq_ok_iff _ _ _).mp read
      have left := (status_marker_build regular earlier split state _).mp found
      cases (turn.status_of_not_success regular known unsuccessful left).2
    obtain ⟨_, _, printed, _⟩ := turn.of_success regular known success
    exact file_of_below regular earlier closedBefore split printed further

end Selection

end Context

end ProofBuild
