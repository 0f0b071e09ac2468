import Mathlib.Data.String.Basic
import ProofBuild.Proofs.Runs

/-!
What a build leaves behind. For every crate of the selection success, a marker and an entry are one
and the same, as long as no directory lies at a marker. The entry is the fingerprint that the files
and entries after the build give again; only a file that was absent and whose name is too long
can be in the way, once a directory around it has been made for the markers.
-/

namespace ProofBuild

/-- Whether no input of these crates lies around the markers or among them. -/
def Context.Apart (context : Context) (directory : Path) (crates : List Crate)
    (tree : FileTree) : Prop :=
  ∀ crate ∈ crates, ∀ path ∈ crate.sources ++ context.bundle.artifacts,
    path.Inward ∧ path.ClearOf tree.workingDirectory (directory.place tree.workingDirectory)

instance (context : Context) (directory : Path) (crates : List Crate) (tree : FileTree) :
    Decidable (context.Apart directory crates tree) :=
  inferInstanceAs (Decidable (∀ crate ∈ crates,
    ∀ path ∈ crate.sources ++ context.bundle.artifacts, _ ∧ _))

namespace Context
open FileTree

section
variable {context : Context} {graph : Graph} {directory : Path}
  (regular : graph.Regular directory) {selected : List Crate}
  (part : selected.Sublist graph.crates)
include regular part

/-- The report says of a crate what its turn says. -/
theorem fate?_build {before after : List Crate} {crate : Crate}
    (place : selected = before ++ crate :: after) (state : State) :
    (context.build graph selected state).2.fate? crate.name =
      some (context.buildCrate graph crate (context.buildAll graph before state).1).2 := by
  have names : ∀ (crates : List Crate) (state : State),
      (context.buildAll graph crates state).2.map (·.1) = crates.map (·.name) := by
    intro crates
    induction crates with
    | nil => exact fun _ => rfl
    | cons first rest ih => intro state; rw [buildAll_cons, List.map_cons, List.map_cons, ih]
  have absent : (context.buildAll graph before state).2.find? (fun entry => entry.1 = crate.name) =
      none := by
    apply List.find?_eq_none.mpr
    intro entry member same
    have named : crate.name ∈ before.map (·.name) := by
      rw [← names before state]
      exact List.mem_map.mpr ⟨entry, member, by simpa using same⟩
    obtain ⟨other, inside, same⟩ := List.mem_map.mp named
    exact (names_apart regular part place).1 other inside same.symm
  unfold Report.fate?
  rw [fates_build, place, buildAll_append, buildAll_cons, List.find?_append, absent]
  simp

section Turn
variable {before after : List Crate} {crate : Crate}
  (place : selected = before ++ crate :: after)
include place

/-- What is found at a crate's marker after the build is what its own turn left there. -/
theorem status_marker_build (state : State) (node : Node) :
    (context.buildAll graph selected state).1.world.tree.status crate.marker = .ok node ↔
      (context.buildCrate graph crate (context.buildAll graph before state).1).1.world.tree.status
        crate.marker = .ok node := by
  have known : crate ∈ graph.crates := part.subset (by simp [place])
  rw [place, buildAll_append, buildAll_cons]
  exact status_marker_buildAll regular
    (fun other member => part.subset (by simp [place, member])) known
    (names_apart regular part place).2 _ node

theorem entry?_build (state : State) :
    (context.buildAll graph selected state).1.cache.entry? crate.name =
      (context.buildCrate graph crate (context.buildAll graph before state).1).1.cache.entry?
        crate.name := by
  rw [place, buildAll_append, buildAll_cons]
  exact entry?_buildAll (names_apart regular part place).2 _

/-- A crate that succeeds has its marker and the entry of its turn when the build returns. -/
theorem of_success_build {state : State}
    (success : (context.buildCrate graph crate (context.buildAll graph before state).1).2.Success) :
    ∃ prepared print,
      Printed context graph crate (context.buildAll graph before state).1 prepared print ∧
        (context.buildAll graph selected state).1.cache.entry? crate.name = some print ∧
        (context.buildAll graph selected state).1.world.tree.present crate.marker = true := by
  have known : crate ∈ graph.crates := part.subset (by simp [place])
  obtain ⟨prepared, print, printed, entry, present⟩ :=
    (turn_buildCrate context graph crate _).of_success regular known success
  refine ⟨prepared, print, printed, ?_, ?_⟩
  · rw [entry?_build regular part place, entry]
  · rw [present_eq_true_iff] at present ⊢
    exact present.imp fun node => (status_marker_build regular part place state node).mpr

/-- A crate that does not succeed has neither a marker nor an entry, unless a directory lay in the
place of the marker. -/
theorem of_not_success_build {state : State} (free : state.world.tree.isDirectory crate.marker = false)
    (unsuccessful :
      ¬ (context.buildCrate graph crate (context.buildAll graph before state).1).2.Success) :
    (context.buildAll graph selected state).1.cache.entry? crate.name = none ∧
      (context.buildAll graph selected state).1.world.tree.present crate.marker = false := by
  have known : crate ∈ graph.crates := part.subset (by simp [place])
  have turn := turn_buildCrate context graph crate (context.buildAll graph before state).1
  refine ⟨?_, ?_⟩
  · rw [entry?_build regular part place, turn.entry?_of_not_success unsuccessful]
  · by_contra present
    obtain ⟨node, found⟩ := (present_eq_true_iff _ _).mp (by simpa using present)
    have left := (status_marker_build regular part place state node).mp found
    have lay := (turn.status_of_not_success regular known unsuccessful left).1
    rw [isDirectory_iff, status_marker_buildAll regular
      (fun other member => part.subset (by simp [place, member])) known
      (names_apart regular part place).1, ← isDirectory_iff, free] at lay
    cases lay

/-- A fingerprint that is made during a build reads the sources and the artifacts as they were
before the build. -/
theorem read_of_printed {state : State} (apart : context.Apart directory selected state.world.tree)
    {prepared : Prepared} {print : String}
    (printed : Printed context graph crate (context.buildAll graph before state).1 prepared print)
    {path : Path} (input : path ∈ crate.sources ++ context.bundle.artifacts) :
    (context.buildAll graph before state).1.world.tree.read path = state.world.tree.read path := by
  obtain ⟨inward, clear⟩ := apart crate (by simp [place]) path input
  have inside : ∀ other ∈ before, other ∈ graph.crates := fun other member =>
    part.subset (by simp [place, member])
  have readable := printed.readable (List.mem_append_left _ input)
  rcases read_buildAll regular inside state inward clear with same | ⟨_, refused⟩
  · exact same
  · exact absurd readable (Fingerprint.not_readable refused (by decide))

variable (closed : ∀ crate ∈ selected, ∀ lower, graph.Below crate lower → lower ∈ selected)
include closed

/-- The marker of a crate below one whose fingerprint is made is a file, and stays. -/
theorem read_marker_of_printed {state : State} {prepared : Prepared} {print : String}
    (printed : Printed context graph crate (context.buildAll graph before state).1 prepared print)
    {lower : Crate} (below : graph.Below crate lower)
    (input : lower.marker ∈ (Linkage.ofCrates (graph.dependencies crate)).markers) :
    ∃ content,
      (context.buildAll graph before state).1.world.tree.read lower.marker = .ok content ∧
        (context.buildAll graph selected state).1.world.tree.read lower.marker = .ok content := by
  have known := Graph.mem_crates_of_below regular.settled below
  obtain ⟨first, last, split, success⟩ := succeeds_of_below regular part closed place printed below
  have earlier : before.Sublist graph.crates :=
    (List.sublist_append_left before (crate :: after)).trans (place ▸ part)
  obtain ⟨_, _, _, _, present⟩ := of_success_build regular earlier split success
  obtain ⟨node, found⟩ := (present_eq_true_iff _ _).mp present
  have readable := printed.readable (List.mem_append_right _ input)
  -- Something is at the marker, so it is not absent, and as an input it can be read.
  have file : ∃ content, (context.buildAll graph before state).1.world.tree.read lower.marker =
      .ok content := by
    rcases readable with absent | some
    · rw [read_eq, found] at absent
      cases node <;> cases absent
    · exact some
  obtain ⟨content, read⟩ := file
  refine ⟨content, read, ?_⟩
  rw [read_eq_ok_iff] at read ⊢
  refine read.imp fun executable lies => ?_
  rw [place, buildAll_append]
  refine (status_marker_buildAll regular (fun other member => ?_) known
    (names_apart_from regular part place (by simp [split])) _ _).mpr lies
  exact part.subset (by rw [place]; exact List.mem_append_right before member)

/-- The entries of the direct dependencies stay as they were in a crate's turn. -/
theorem recordedOf_build {state : State} {prepared : Prepared} {print : String}
    (printed : Printed context graph crate (context.buildAll graph before state).1 prepared print) :
    recordedOf graph crate (context.buildAll graph selected state).1.cache =
      recordedOf graph crate (context.buildAll graph before state).1.cache := by
  apply List.map_congr_left
  intro lower direct
  obtain ⟨first, last, split, _⟩ :=
    succeeds_of_dependency regular part closed place printed direct
  rw [place, buildAll_append]
  exact entry?_buildAll (names_apart_from regular part place (by simp [split])) _

/-- Every input reads as it did in a crate's turn, unless it was absent and is refused now for its
name. -/
theorem read_input_build {state : State}
    (apart : context.Apart directory selected state.world.tree) {prepared : Prepared}
    {print : String}
    (printed : Printed context graph crate (context.buildAll graph before state).1 prepared print)
    (named : ∀ path ∈ crate.sources ++ context.bundle.artifacts,
      ¬ (state.world.tree.read path = .error .notFound ∧
        (context.buildAll graph selected state).1.world.tree.read path = .error .nameTooLong))
    {path : Path} (input : path ∈ context.inputsOf graph crate) :
    (context.buildAll graph selected state).1.world.tree.read path =
      (context.buildAll graph before state).1.world.tree.read path := by
  rcases List.mem_append.mp input with own | marker
  · rw [read_of_printed regular part place apart printed own]
    obtain ⟨inward, clear⟩ := apart crate (by simp [place]) path own
    have inside : ∀ other ∈ selected, other ∈ graph.crates := fun _ member => part.subset member
    exact (read_buildAll regular inside state inward clear).resolve_right (named path own)
  · obtain ⟨lower, below, rfl⟩ := Graph.of_mem_markers_ofCrates regular.settled marker
    obtain ⟨content, old, new⟩ :=
      read_marker_of_printed regular part place closed printed below marker
    rw [old, new]

/-- After the build the fingerprint of a crate's turn is made again, exactly when no absent input
is refused now for its name. -/
theorem fingerprintOf_build {state : State}
    (apart : context.Apart directory selected state.world.tree) {prepared : Prepared}
    {print : String}
    (printed : Printed context graph crate (context.buildAll graph before state).1 prepared print) :
    context.fingerprintOf graph crate prepared (context.buildAll graph selected state).1 =
        .ok print ↔
      ∀ path ∈ crate.sources ++ context.bundle.artifacts,
        ¬ (state.world.tree.read path = .error .notFound ∧
          (context.buildAll graph selected state).1.world.tree.read path =
            .error .nameTooLong) := by
  have prints := printed.prints
  rw [fingerprintOf_eq] at prints
  obtain ⟨readable, same⟩ := fingerprint_eq_ok_iff.mp prints
  rw [fingerprintOf_eq, fingerprint_eq_ok_iff]
  constructor
  · rintro ⟨still, _⟩ path input ⟨_, refused⟩
    exact Fingerprint.not_readable refused (by decide)
      (still path (List.mem_append_left _ input))
  · intro named
    have reads {path : Path} (input : path ∈ context.inputsOf graph crate) :=
      read_input_build regular part place closed apart printed named input
    have inputs : (context.inputsOf graph crate).map (Fingerprint.inputAt
          (context.buildAll graph selected state).1.world.tree) =
        (context.inputsOf graph crate).map (Fingerprint.inputAt
          (context.buildAll graph before state).1.world.tree) := by
      apply List.map_congr_left
      intro path input
      rw [Fingerprint.inputAt, reads input, Fingerprint.inputAt]
    refine ⟨fun path input => ?_, ?_⟩
    · rw [Fingerprint.Readable, reads input]
      exact readable path input
    · rw [same, inputs, recordedOf_build regular part place closed printed]

end Turn

end

/-- A task is prepared again when its direct dependencies have markers and the environment is the
same. -/
theorem prepare_eq_ok {context : Context} {graph : Graph} {tree : FileTree} {crate : Crate}
    {environment : Environment}
    (present : ∀ lower ∈ graph.dependencies crate, tree.present lower.marker = true)
    (synthesized : context.synthesize tree context.bundle = .ok environment) :
    context.prepare graph tree crate =
      .ok ⟨Invocation.ofCrate crate context.bundle (Linkage.ofCrates (graph.dependencies crate))
        environment context.edition, environment⟩ := by
  have none : (graph.dependencies crate).find? (fun lower => !tree.present lower.marker) = none :=
    List.find?_eq_none.mpr fun lower member => by simp [present lower member]
  simp only [prepare, none, synthesized]

/-- When the build of a closure returns, success, a marker and an entry are one and the same for
every crate of the closure. The entry is what the crate's fingerprint over the files and entries
after the build would be, and that fingerprint can be made again unless an input that was absent is
refused now for the length of its name. -/
theorem marker_and_entry_after_build {specs : List Spec} {directory : Path} {graph : Graph}
    {names : List String} {selected : List Crate}
    (accepted : Graph.ofSpecs specs directory = .ok graph)
    (plain : ∀ spec ∈ specs, '/' ∉ spec.name.toList) (inward : directory.Inward)
    (chosen : graph.closure names = .ok selected) (context : Context) (state : State)
    (free : ∀ crate ∈ selected, state.world.tree.isDirectory crate.marker = false)
    (apart : context.Apart directory selected state.world.tree) :
    ∀ crate ∈ selected, ∃ fate,
      (context.build graph selected state).2.fate? crate.name = some fate ∧
      (fate.Success ↔
        (context.build graph selected state).1.world.tree.present crate.marker = true) ∧
      (fate.Success ↔
        ((context.build graph selected state).1.cache.entry? crate.name).isSome = true) ∧
      (fate.Success → ∃ prepared print,
        (context.build graph selected state).1.cache.entry? crate.name = some print ∧
        (∃ before after, selected = before ++ crate :: after ∧
          context.prepare graph (context.buildAll graph before state).1.world.tree crate =
            .ok prepared) ∧
        (context.synthesize (context.build graph selected state).1.world.tree context.bundle =
            .ok prepared.environment →
          context.prepare graph (context.build graph selected state).1.world.tree crate =
            .ok prepared) ∧
        (context.fingerprintOf graph crate prepared (context.build graph selected state).1 =
            .ok print ↔
          ∀ path ∈ crate.sources ++ context.bundle.artifacts,
            ¬ (state.world.tree.read path = .error .notFound ∧
              (context.build graph selected state).1.world.tree.read path =
                .error .nameTooLong))) := by
  have regular := Graph.regular_of_ofSpecs accepted plain inward
  obtain ⟨part, closed⟩ := Graph.closed_of_closure regular.settled chosen
  intro crate member
  obtain ⟨before, after, place⟩ := List.append_of_mem member
  refine ⟨_, fate?_build regular part place state, ?_⟩
  rw [build_fst]
  by_cases success :
    (context.buildCrate graph crate (context.buildAll graph before state).1).2.Success
  · obtain ⟨prepared, print, printed, entry, present⟩ :=
      of_success_build regular part place success
    refine ⟨by simp [success, present], by simp [success, entry], fun _ => ?_⟩
    refine ⟨prepared, print, entry, ⟨before, after, place, printed.prepares⟩, ?_,
      fingerprintOf_build regular part place closed apart printed⟩
    intro synthesized
    -- The direct dependencies have succeeded too, so the task can be prepared once more.
    have markers : ∀ lower ∈ graph.dependencies crate,
        (context.buildAll graph selected state).1.world.tree.present lower.marker = true := by
      intro lower direct
      obtain ⟨first, last, split, good⟩ :=
        succeeds_of_dependency regular part closed place printed direct
      have placed : selected = first ++ lower :: (last ++ crate :: after) := by
        simp [place, split]
      obtain ⟨_, _, _, _, found⟩ := of_success_build regular part placed good
      exact found
    rw [prepare_eq_ok markers synthesized, ← printed.invocation_eq]
  · obtain ⟨entry, absent⟩ :=
      of_not_success_build regular part place (free crate member) success
    exact ⟨by simp [success, absent], by simp [success, entry], fun good => absurd good success⟩

/-- A tandem of accepted crates is left in agreement. -/
theorem marker_and_entry_after_build_tandem :
    Graph.ofSpecs Graph.tandemSpecs ⟨"out"⟩ = .ok Graph.tandem ∧
      (∀ spec ∈ Graph.tandemSpecs, '/' ∉ spec.name.toList) ∧ (⟨"out"⟩ : Path).Inward ∧
      Graph.tandem.closure [] = .ok Graph.tandem.crates ∧
      (∀ crate ∈ Graph.tandem.crates, blank.world.tree.isDirectory crate.marker = false) ∧
      accepting.Apart ⟨"out"⟩ Graph.tandem.crates blank.world.tree ∧
      ∀ crate ∈ Graph.tandem.crates, ∃ fate,
        (accepting.build Graph.tandem Graph.tandem.crates blank).2.fate? crate.name = some fate ∧
        (fate.Success ↔ (accepting.build Graph.tandem Graph.tandem.crates
          blank).1.world.tree.present crate.marker = true) ∧
        (fate.Success ↔ ((accepting.build Graph.tandem Graph.tandem.crates
          blank).1.cache.entry? crate.name).isSome = true) := by
  have accepted := Graph.ofSpecs_tandemSpecs
  have plain : ∀ spec ∈ Graph.tandemSpecs, '/' ∉ spec.name.toList := by decide
  have inward : (⟨"out"⟩ : Path).Inward := by decide
  have chosen : Graph.tandem.closure [] = .ok Graph.tandem.crates := by rfl
  have free : ∀ crate ∈ Graph.tandem.crates, blank.world.tree.isDirectory crate.marker = false := by
    decide
  have apart : accepting.Apart ⟨"out"⟩ Graph.tandem.crates blank.world.tree := by decide +kernel
  refine ⟨accepted, plain, inward, chosen, free, apart, fun crate member => ?_⟩
  obtain ⟨fate, reported, marker, entry, _⟩ :=
    marker_and_entry_after_build accepted plain inward chosen accepting blank free apart crate member
  exact ⟨fate, reported, marker, entry⟩

end Context

/-- A name too long for any directory. -/
def longName : String := String.ofList (List.replicate 256 'a')

theorem toList_longName : longName.toList = List.replicate 256 'a' := String.toList_ofList

theorem ordinaryName_longName : Path.OrdinaryName longName := by
  have ending : ∀ text : String, text.toList.length ≠ 256 → longName ≠ text := by
    intro text short same
    rw [← same, toList_longName, List.length_replicate] at short
    exact short rfl
  refine ⟨?_, ending "" (by decide), ending "." (by decide), ending ".." (by decide)⟩
  rw [toList_longName]
  intro member
  have same := List.eq_of_mem_replicate member
  cases same

theorem utf8ByteSize_longName : longName.utf8ByteSize = 256 := by
  have size : ∀ count, String.utf8Len (List.replicate count 'a') = count := by
    intro count
    induction count with
    | zero => rfl
    | succ count ih =>
        have one : 'a'.utf8Size = 1 := by decide
        rw [List.replicate_succ, String.utf8Len_cons, ih, one]
  exact (String.utf8ByteSize_ofList _).trans (size 256)

namespace Graph

/-- A workspace whose only source has a name too long, beside the directory of its markers. -/
def besideSource : Path := ⟨"x/" ++ longName⟩

def besideSpecs : List Spec := [⟨"u", [besideSource], none, none, [], []⟩]

def besideCrate : Crate where
  name := "u"
  identity := "u"
  entry := besideSource
  sources := [besideSource]
  extraArguments := []
  dependencies := []
  marker := ⟨"x/z/u.success"⟩
  markers := [⟨"x/z/u.success"⟩]

def beside : Graph := ⟨[besideCrate]⟩

theorem marker_besideCrate : besideCrate.marker = ⟨"x/z/u.success"⟩ := rfl

theorem ofSpecs_besideSpecs : ofSpecs besideSpecs ⟨"x/z"⟩ = .ok beside := by
  have order : ∀ source, Order.ofSpecs [⟨"u", [source], none, none, [], []⟩] = .ok ["u"] := by
    intro source
    cbv
  have entry : Spec.entryAmong [besideSource] none = .ok besideSource := by
    simp only [Spec.entryAmong, List.find?_singleton]
    split <;> rfl
  have settled : settleAll ⟨"x/z"⟩ [] besideSpecs = .ok beside.crates := by
    simp only [besideSpecs, settleAll, settle, Crate.ofSpec, Spec.resolve, entry]
    rfl
  have found : ["u"].filterMap (Spec.find? besideSpecs) = besideSpecs := by rfl
  have distinct : repeatedName? besideSpecs = none := by rfl
  have known : unknownDependency? besideSpecs = none := by rfl
  have ordered : Order.ofSpecs besideSpecs = .ok ["u"] := order besideSource
  simp only [ofSpecs, distinct, known, ordered, found, settled]
  rfl

end Graph

theorem besideSource_eq_child : Graph.besideSource = (⟨"x"⟩ : Path).child longName := by
  have relative : (⟨longName⟩ : Path).isAbsolute = false := by
    apply Bool.eq_false_iff.mpr
    intro absolute
    obtain ⟨rest, characters⟩ := (Path.isAbsolute_iff ⟨longName⟩).mp absolute
    have slash : '/' ∈ longName.toList := by
      rw [show longName.toList = '/' :: rest from characters]
      exact List.mem_cons_self
    exact ordinaryName_longName.plain slash
  unfold Path.child Path.join
  rw [relative]
  rfl

open FileTree in
/-- The source is looked for beside the markers: first its directory is not there, then its name
is too long. -/
theorem status_besideSource (tree : FileTree) (here : tree.workingDirectory = []) :
    tree.status Graph.besideSource = match tree.node? ["x"] with
      | none => .error .notFound
      | some (.file ..) => .error .notDirectory
      | some .directory => .error .nameTooLong := by
  have long : nameLimit < longName.utf8ByteSize := by rw [utf8ByteSize_longName]; decide
  have steps : Graph.besideSource.steps = ["x", longName] := by
    rw [besideSource_eq_child, Path.steps_child ordinaryName_longName]; rfl
  have relative : Graph.besideSource.isAbsolute = false := by
    rw [besideSource_eq_child, Path.isAbsolute_child ordinaryName_longName]; rfl
  have slashed : Graph.besideSource.text.toList.getLast? ≠ some '/' := fun ends =>
    Path.not_forDirectory_child ordinaryName_longName ⟨"x"⟩ (.inl (besideSource_eq_child ▸ ends))
  have characters : Graph.besideSource.text.toList = "x/".toList ++ longName.toList :=
    String.toList_append
  have zero : '\x00' ∉ Graph.besideSource.text.toList := by
    rw [characters, List.mem_append, toList_longName, not_or]
    refine ⟨by decide, fun member => ?_⟩
    have same := List.eq_of_mem_replicate member
    cases same
  have blank : Graph.besideSource.text ≠ "" := by
    intro blank
    rw [blank] at characters
    cases characters
  have short : Graph.besideSource.text.utf8ByteSize ≤ pathLimit := by
    rw [Graph.besideSource, String.utf8ByteSize_append, utf8ByteSize_longName]; decide
  rw [status_eq_reach tree zero blank short slashed, steps, relative, here]
  simp only [Bool.false_eq_true, ↓reduceIte]
  have first : ("x" : String) ≠ "." := by decide
  have second : longName ≠ "." := ordinaryName_longName.notHere
  have fits : ¬ nameLimit < "x".utf8ByteSize := by decide
  rw [reach_cons _ _ _ _ (by decide), node?_root]
  simp only [first, fits, ↓reduceIte]
  rw [reach_cons _ _ _ _ ordinaryName_longName.notUp]
  cases tree.node? ["x"] with
  | none => rfl
  | some node => cases node <;> simp only [second, long, ↓reduceIte]

namespace Context
open FileTree

theorem apart_beside : accepting.Apart ⟨"x/z"⟩ Graph.beside.crates blank.world.tree := by
  have place : Graph.besideSource.place [] = [longName, "x"] := by
    rw [besideSource_eq_child, Path.place_child ordinaryName_longName]
    rfl
  have different : [longName, "x"] ≠ ["z", "x"] := by
    intro same
    have sizes := congrArg String.utf8ByteSize (List.cons.inj same).1
    rw [utf8ByteSize_longName] at sizes
    exact absurd sizes (by decide)
  have room : (⟨"x/z"⟩ : Path).place [] = ["z", "x"] := by decide
  have clear : Graph.besideSource.ClearOf [] ["z", "x"] := by
    have lengths : [longName, "x"].length = ["z", "x"].length := by
      rw [List.length_cons, List.length_cons, List.length_cons, List.length_cons]
    refine .inr ⟨fun around => ?_, fun inside => ?_⟩
    · rw [place] at around
      exact different (List.IsSuffix.eq_of_length around lengths)
    · rw [place] at inside
      exact different (List.IsSuffix.eq_of_length inside lengths.symm).symm
  have inward : Graph.besideSource.Inward := by
    rw [besideSource_eq_child]
    exact Path.inward_child ordinaryName_longName (by decide)
  have artifacts : ∀ path ∈ accepting.bundle.artifacts,
      path.Inward ∧ path.ClearOf [] ["z", "x"] := by decide
  intro crate member path input
  rw [List.mem_singleton.mp member] at input
  rw [show blank.world.tree.workingDirectory = [] from rfl, room]
  rcases List.mem_cons.mp input with rfl | artifact
  · exact ⟨inward, clear⟩
  · exact artifacts path artifact

theorem read_besideSource_blank : blank.world.tree.read Graph.besideSource = .error .notFound := by
  rw [read_eq, status_besideSource _ rfl]
  rfl

theorem printed_beside : ∃ prepared print,
    Printed accepting Graph.beside Graph.besideCrate blank prepared print := by
  have readable : ∀ path ∈ accepting.inputsOf Graph.beside Graph.besideCrate,
      Fingerprint.Readable blank.world.tree path := by
    have inputs : accepting.inputsOf Graph.beside Graph.besideCrate =
        Graph.besideSource :: accepting.bundle.artifacts := by rfl
    have artifacts : ∀ path ∈ accepting.bundle.artifacts,
        blank.world.tree.read path = .error .notFound := by decide
    rw [inputs]
    intro path member
    rcases List.mem_cons.mp member with rfl | artifact
    · exact .inl read_besideSource_blank
    · exact .inl (artifacts path artifact)
  have prepares : accepting.prepare Graph.beside blank.world.tree Graph.besideCrate = .ok _ :=
    prepare_eq_ok (by intro lower member; cases member) rfl
  have prints : ∀ invocation recorded, ∃ print, fingerprint blank.world.tree invocation
      (accepting.inputsOf Graph.beside Graph.besideCrate) recorded = .ok print :=
    fun _ _ => ⟨_, fingerprint_eq_ok_iff.mpr ⟨readable, rfl⟩⟩
  obtain ⟨print, printed⟩ := prints _ (recordedOf Graph.beside Graph.besideCrate blank.cache)
  have ready : Graph.beside.missing blank.world.tree Graph.besideCrate = [] := by rfl
  refine ⟨_, print, ready, prepares, ?_⟩
  rw [fingerprintOf_eq]
  exact printed

theorem fate_beside :
    (accepting.buildCrate Graph.beside Graph.besideCrate blank).2 = .verified := by
  have ⟨prepared, print, printed⟩ := printed_beside
  have removed : (Marker.remove blank.world.tree ⟨"x/z/u.success"⟩).2 = .ok () := by decide +kernel
  have written : (Marker.write (Marker.remove blank.world.tree ⟨"x/z/u.success"⟩).1
      ⟨"x/z/u.success"⟩ accepting.process).2 = .ok () := by decide +kernel
  have turn := turn_buildCrate accepting Graph.beside Graph.besideCrate blank
  generalize accepting.buildCrate Graph.beside Graph.besideCrate blank = result at turn
  obtain ⟨after, fate⟩ := result
  cases turn with
  | blocked lacking => exact absurd rfl lacking
  | refused ready reason =>
      rcases reason with unprepared | ⟨_, prepares, unprinted⟩
      · rw [printed.prepares] at unprepared
        cases unprepared
      · rw [printed.prepares] at prepares
        cases prepares
        rw [printed.prints] at unprinted
        cases unprinted
  | current _ fresh =>
      have unknown : blank.cache.entry? Graph.besideCrate.name = none := rfl
      have known := fresh.2
      rw [unknown] at known
      cases known
  | verified => rfl
  | failed _ _ executed =>
      cases executed with
      | stuck kept =>
          rw [World.outcome_removeMarker, Graph.marker_besideCrate, removed] at kept
          cases kept
      | run _ started =>
          cases started with
          | unanswered answer => cases answer
          | rejected answer refused =>
              cases answer
              exact absurd rfl refused
          | unmarked _ _ failed =>
              rw [World.outcome_writeMarker, World.tree_called, World.tree_removeMarker,
                Graph.marker_besideCrate, written] at failed
              cases failed

theorem regular_beside : Graph.beside.Regular ⟨"x/z"⟩ :=
  Graph.regular_of_ofSpecs Graph.ofSpecs_besideSpecs (by decide) (by decide)

theorem read_besideSource_of_directory {tree : FileTree} (here : tree.workingDirectory = [])
    (opened : tree.Directory ["z", "x"]) :
    tree.read Graph.besideSource = .error .nameTooLong := by
  have around : tree.Directory ["x"] := directory_of_within opened (by decide) (by decide)
  rw [read_eq, status_besideSource _ here, around]

/-- The marker lies in the directories that the turn made, and the source would lie in one. -/
theorem read_besideSource_of_turn {after : State}
    (turn : Turn accepting Graph.beside Graph.besideCrate blank after .verified) :
    after.world.tree.read Graph.besideSource = .error .nameTooLong := by
  have working : after.world.tree.workingDirectory = [] :=
    (turn.changedIn regular_beside List.mem_cons_self).working
  obtain ⟨_, _, _, _, present⟩ := turn.of_success regular_beside List.mem_cons_self trivial
  obtain ⟨node, found⟩ := (present_eq_true_iff _ _).mp present
  rw [Graph.marker_besideCrate] at found
  have lies := ((status_eq_ok_iff _ (by decide) node).mp found).2.1
  have place : (⟨"x/z/u.success"⟩ : Path).place [] = ["u.success", "z", "x"] := by decide
  rw [working, place] at lies
  exact read_besideSource_of_directory working (directory_of_node? lies)

/-- A build can leave a marker and an entry that no fingerprint over the files after it equals:
the build has made the directory of an absent source, and its name is too long for any. -/
theorem entry_without_print_after_build :
    Graph.ofSpecs Graph.besideSpecs ⟨"x/z"⟩ = .ok Graph.beside ∧
      (∀ spec ∈ Graph.besideSpecs, '/' ∉ spec.name.toList) ∧ (⟨"x/z"⟩ : Path).Inward ∧
      Graph.beside.closure [] = .ok [Graph.besideCrate] ∧
      blank.world.tree.isDirectory Graph.besideCrate.marker = false ∧
      accepting.Apart ⟨"x/z"⟩ [Graph.besideCrate] blank.world.tree ∧
      (accepting.build Graph.beside [Graph.besideCrate] blank).2.fates =
        [(Graph.besideCrate.name, .verified)] ∧
      (∃ print, (accepting.build Graph.beside [Graph.besideCrate] blank).1.cache.entry?
        Graph.besideCrate.name = some print) ∧
      ∀ invocation recorded print,
        fingerprint (accepting.build Graph.beside [Graph.besideCrate] blank).1.world.tree invocation
          (accepting.inputsOf Graph.beside Graph.besideCrate) recorded ≠ .ok print := by
  have free : blank.world.tree.isDirectory Graph.besideCrate.marker = false := by
    rw [Graph.marker_besideCrate]
    decide
  have turn := turn_buildCrate accepting Graph.beside Graph.besideCrate blank
  rw [fate_beside] at turn
  have ⟨_, print, _, entry, _⟩ := turn.of_success regular_beside List.mem_cons_self trivial
  rw [build_fst, fates_build, buildAll_singleton_fst, buildAll_singleton_snd, fate_beside]
  refine ⟨Graph.ofSpecs_besideSpecs, by decide, by decide, rfl, free, apart_beside, rfl,
    ⟨print, entry⟩, ?_⟩
  have input : Graph.besideSource ∈ accepting.inputsOf Graph.beside Graph.besideCrate :=
    List.mem_append_left _ (List.mem_append_left _ (List.mem_singleton.mpr rfl))
  have unreadable := Fingerprint.not_readable (read_besideSource_of_turn turn) (by decide)
  exact fun _ _ _ printed => unreadable ((fingerprint_eq_ok_iff.mp printed).1 _ input)

end Context

end ProofBuild
