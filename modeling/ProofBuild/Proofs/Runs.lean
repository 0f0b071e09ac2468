import ProofBuild.Proofs.Prints
import ProofBuild.Proofs.Turns

/-!
Whole builds as sequences of turns. A build of one list after another is a build of both
(`buildAll_append`), it touches the files and entries of its own crates only, and it says of each
crate what that crate's turn says. Main statement: the verifier is started for a crate only when
everything below the crate has succeeded in the same build.
-/

namespace ProofBuild

namespace Context
open FileTree

variable {context : Context} {graph : Graph}

@[simp] theorem buildAll_nil (state : State) : context.buildAll graph [] state = (state, []) := rfl

theorem buildAll_cons (crate : Crate) (rest : List Crate) (state : State) :
    context.buildAll graph (crate :: rest) state =
      ((context.buildAll graph rest (context.buildCrate graph crate state).1).1,
        (crate.name, (context.buildCrate graph crate state).2) ::
          (context.buildAll graph rest (context.buildCrate graph crate state).1).2) := rfl

theorem buildAll_singleton_fst (context : Context) (graph : Graph) (crate : Crate)
    (state : State) :
    (context.buildAll graph [crate] state).1 = (context.buildCrate graph crate state).1 := rfl

theorem buildAll_singleton_snd (context : Context) (graph : Graph) (crate : Crate)
    (state : State) :
    (context.buildAll graph [crate] state).2 =
      [(crate.name, (context.buildCrate graph crate state).2)] := rfl

theorem buildAll_append (one two : List Crate) (state : State) :
    context.buildAll graph (one ++ two) state =
      ((context.buildAll graph two (context.buildAll graph one state).1).1,
        (context.buildAll graph one state).2 ++
          (context.buildAll graph two (context.buildAll graph one state).1).2) := by
  induction one generalizing state with
  | nil => rfl
  | cons crate rest ih => rw [List.cons_append, buildAll_cons, buildAll_cons, ih, List.cons_append]

theorem buildAll_cons_fst (crate : Crate) (rest : List Crate) (state : State) :
    (context.buildAll graph (crate :: rest) state).1 =
      (context.buildAll graph rest (context.buildCrate graph crate state).1).1 := rfl

theorem buildAll_append_fst (one two : List Crate) (state : State) :
    (context.buildAll graph (one ++ two) state).1 =
      (context.buildAll graph two (context.buildAll graph one state).1).1 := by
  rw [buildAll_append]

theorem length_fates (context : Context) (graph : Graph) (crates : List Crate) (state : State) :
    (context.buildAll graph crates state).2.length = crates.length := by
  induction crates generalizing state with
  | nil => rfl
  | cons crate rest ih => rw [buildAll_cons, List.length_cons, List.length_cons, ih]

theorem build_fst (context : Context) (graph : Graph) (selected : List Crate) (state : State) :
    (context.build graph selected state).1 = (context.buildAll graph selected state).1 := rfl

theorem fates_build (context : Context) (graph : Graph) (selected : List Crate) (state : State) :
    (context.build graph selected state).2.fates = (context.buildAll graph selected state).2 := rfl

/-- A build keeps the entries of all other crates. -/
theorem entry?_buildAll {crates : List Crate} {name : String}
    (others : ∀ crate ∈ crates, name ≠ crate.name) (state : State) :
    (context.buildAll graph crates state).1.cache.entry? name = state.cache.entry? name := by
  induction crates generalizing state with
  | nil => rfl
  | cons crate rest ih =>
      rw [buildAll_cons, ih fun other member => others other (List.mem_cons_of_mem crate member)]
      exact (turn_buildCrate context graph crate state).entry?_of_ne (others crate List.mem_cons_self)

/-- No file of another crate has the name of this crate's marker. -/
theorem markerName_not_mem_files {crates : List Crate} {lower : Crate}
    (others : ∀ crate ∈ crates, lower.name ≠ crate.name) (process : Nat) :
    Crate.markerName lower.name ∉ {name | ∃ crate ∈ crates, name ∈ crate.markerFiles process} := by
  rintro ⟨crate, member, owns⟩
  rcases owns with same | temporary
  · exact others crate member (Crate.markerName_inj.mp same)
  · exact Crate.temporaryName_ne_markerName _ _ _ (Set.mem_singleton_iff.mp temporary).symm

section Regular
variable {directory : Path} (regular : graph.Regular directory)
include regular

theorem changedIn_buildAll {crates : List Crate} (inside : ∀ crate ∈ crates, crate ∈ graph.crates)
    (state : State) :
    ChangedIn (directory.place state.world.tree.workingDirectory)
      {name | ∃ crate ∈ crates, name ∈ crate.markerFiles context.process} state.world.tree
      (context.buildAll graph crates state).1.world.tree := by
  induction crates generalizing state with
  | nil => exact .refl ..
  | cons crate rest ih =>
      have turn := (turn_buildCrate context graph crate state).changedIn regular
        (inside crate List.mem_cons_self)
      have others := ih (fun other member => inside other (List.mem_cons_of_mem crate member))
        (context.buildCrate graph crate state).1
      rw [turn.working] at others
      rw [buildAll_cons]
      refine (turn.mono ?_).trans (others.mono ?_)
      · exact fun name member => ⟨crate, List.mem_cons_self, member⟩
      · exact fun name ⟨other, member, owns⟩ => ⟨other, List.mem_cons_of_mem crate member, owns⟩

/-- What is found at the marker of another crate stays. -/
theorem status_marker_buildAll {crates : List Crate}
    (inside : ∀ crate ∈ crates, crate ∈ graph.crates) {lower : Crate} (known : lower ∈ graph.crates)
    (others : ∀ crate ∈ crates, lower.name ≠ crate.name) (state : State) (node : Node) :
    (context.buildAll graph crates state).1.world.tree.status lower.marker = .ok node ↔
      state.world.tree.status lower.marker = .ok node := by
  rw [marker_eq_child regular known]
  exact (changedIn_buildAll regular inside state).status_child_eq_ok_iff
    (ordinaryName_marker regular known) regular.inward
    (markerName_not_mem_files others context.process) node

/-- Reading an inward path that lies clear of the markers. -/
theorem read_buildAll {crates : List Crate} (inside : ∀ crate ∈ crates, crate ∈ graph.crates)
    (state : State) {path : Path} (inward : path.Inward)
    (clear : path.ClearOf state.world.tree.workingDirectory
      (directory.place state.world.tree.workingDirectory)) :
    Upheld (state.world.tree.read path)
      ((context.buildAll graph crates state).1.world.tree.read path) :=
  (changedIn_buildAll regular inside state).read inward clear

end Regular

/-- The files that a crate's task reads. -/
def inputsOf (context : Context) (graph : Graph) (crate : Crate) : List Path :=
  crate.sources ++ context.bundle.artifacts ++
    (Linkage.ofCrates (graph.dependencies crate)).markers

/-- The recorded fingerprints of a crate's direct dependencies. -/
def recordedOf (graph : Graph) (crate : Crate) (cache : Cache) : List (Option String) :=
  (graph.dependencies crate).map fun dependency => cache.entry? dependency.name

theorem fingerprintOf_eq (context : Context) (graph : Graph) (crate : Crate) (prepared : Prepared)
    (state : State) :
    context.fingerprintOf graph crate prepared state =
      fingerprint state.world.tree prepared.invocation (context.inputsOf graph crate)
        (recordedOf graph crate state.cache) := rfl

/-- What goes into a fingerprint that is made can be read, or is absent. -/
theorem Printed.readable {crate : Crate} {state : State} {prepared : Prepared} {print : String}
    (printed : Printed context graph crate state prepared print) {path : Path}
    (input : path ∈ context.inputsOf graph crate) : Fingerprint.Readable state.world.tree path := by
  have prints := printed.prints
  rw [fingerprintOf_eq] at prints
  exact (fingerprint_eq_ok_iff.mp prints).1 path input

/-- Whether a crate's turn succeeds in the build of a list, after these others. -/
def Succeeds (context : Context) (graph : Graph) (state : State) (crates : List Crate)
    (crate : Crate) : Prop :=
  ∃ before after, crates = before ++ crate :: after ∧
    (context.buildCrate graph crate (context.buildAll graph before state).1).2.Success

theorem Succeeds.append {state : State} {crates : List Crate} {crate : Crate}
    (success : Succeeds context graph state crates crate) (more : List Crate) :
    Succeeds context graph state (crates ++ more) crate := by
  obtain ⟨before, after, rfl, good⟩ := success
  exact ⟨before, after ++ more, by simp, good⟩

/-- The report says of a crate that it succeeded. -/
theorem Succeeds.mem_fates {state : State} {crates : List Crate} {crate : Crate}
    (success : Succeeds context graph state crates crate) :
    ∃ fate, (crate.name, fate) ∈ (context.buildAll graph crates state).2 ∧ fate.Success := by
  obtain ⟨before, after, rfl, good⟩ := success
  refine ⟨_, ?_, good⟩
  rw [buildAll_append, buildAll_cons]
  exact List.mem_append_right _ List.mem_cons_self

section Selection
variable {directory : Path} (regular : graph.Regular directory) {selected : List Crate}
  (part : selected.Sublist graph.crates)

section Names
include regular part

/-- No crate of a selection has the name of another one. -/
theorem names_apart {before after : List Crate} {crate : Crate}
    (place : selected = before ++ crate :: after) :
    (∀ other ∈ before, crate.name ≠ other.name) ∧ ∀ other ∈ after, crate.name ≠ other.name := by
  have order := regular.settled.pairwise.sublist part
  rw [place] at order
  obtain ⟨_, later, across⟩ := List.pairwise_append.mp order
  refine ⟨fun other member => (across other member crate List.mem_cons_self).1.symm, ?_⟩
  exact fun other member => ((List.pairwise_cons.mp later).1 other member).1

/-- What a build does from a crate's turn on is for crates of other names. -/
theorem names_apart_from {before after : List Crate} {crate : Crate}
    (place : selected = before ++ crate :: after) {lower : Crate} (earlier : lower ∈ before) :
    ∀ other ∈ crate :: after, lower.name ≠ other.name := by
  have order := regular.settled.pairwise.sublist part
  rw [place] at order
  exact fun other later => ((List.pairwise_append.mp order).2.2 lower earlier other later).1

end Names

variable
  (closed : ∀ crate ∈ selected, ∀ lower, graph.Below crate lower → lower ∈ selected)
include regular part closed

/-- A fingerprint is made only when every direct dependency has a readable marker, and only a
crate that succeeded leaves one. -/
theorem succeeds_of_dependency {before after : List Crate} {crate lower : Crate}
    (place : selected = before ++ crate :: after) {state : State} {prepared : Prepared}
    {print : String}
    (printed : Printed context graph crate (context.buildAll graph before state).1 prepared print)
    (direct : lower ∈ graph.dependencies crate) :
    Succeeds context graph state before lower := by
  have known := (Graph.mem_dependencies_iff regular.settled).mp direct
  have chosen : lower ∈ selected := closed crate (by simp [place]) lower (.single direct)
  obtain ⟨first, last, split⟩ :=
    List.append_of_mem (regular.settled.mem_before part place chosen known.2)
  refine ⟨first, last, split, ?_⟩
  by_contra unsuccessful
  have inside : ∀ other ∈ last, other ∈ graph.crates := fun other member =>
    part.subset (by simp [place, split, member])
  have placed : selected = first ++ lower :: (last ++ crate :: after) := by simp [place, split]
  have others : ∀ other ∈ last, lower.name ≠ other.name := fun other member =>
    (names_apart regular part placed).2 other (List.mem_append_left _ member)
  -- The marker is found, since nothing is missing, and it can be read, since it is an input.
  have present : (context.buildAll graph before state).1.world.tree.present lower.marker = true := by
    have none := List.map_eq_nil_iff.mp printed.ready
    simpa using List.filter_eq_nil_iff.mp none lower direct
  obtain ⟨node, found⟩ := (present_eq_true_iff _ _).mp present
  have left := found
  rw [split, buildAll_append, buildAll_cons,
    status_marker_buildAll regular inside known.1 others] at left
  have turn := turn_buildCrate context graph lower (context.buildAll graph first state).1
  obtain ⟨_, rfl⟩ := turn.status_of_not_success regular known.1 unsuccessful left
  have readable := printed.readable <| List.mem_append_right _
    (Graph.marker_mem_markers_ofCrates regular.settled regular.plain direct)
  have refused : (context.buildAll graph before state).1.world.tree.read lower.marker =
      .error .isDirectory := by rw [read_eq, found]
  exact Fingerprint.not_readable refused (by decide) readable

/-- Everything below a crate whose fingerprint is made has succeeded in the same build. -/
theorem succeeds_of_below {before after : List Crate} {crate lower : Crate}
    (place : selected = before ++ crate :: after) {state : State} {prepared : Prepared}
    {print : String}
    (printed : Printed context graph crate (context.buildAll graph before state).1 prepared print)
    (below : graph.Below crate lower) : Succeeds context graph state before lower := by
  induction below with
  | single direct => exact succeeds_of_dependency regular part closed place printed direct
  | @tail middle lower _ direct ih =>
      obtain ⟨first, last, split, success⟩ := ih
      have known : middle ∈ graph.crates := part.subset (by simp [place, split])
      have turn := turn_buildCrate context graph middle (context.buildAll graph first state).1
      obtain ⟨_, _, middlePrinted, _⟩ := turn.of_success regular known success
      have higher := succeeds_of_dependency regular part closed
        (by rw [place, split, List.append_assoc]; rfl) middlePrinted direct
      rw [split]
      exact higher.append _

end Selection

end Context

end ProofBuild
