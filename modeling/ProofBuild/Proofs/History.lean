import Mathlib.Data.List.Dedup
import Mathlib.Data.List.Induction
import ProofBuild.Proofs.Agreement
import ProofBuild.Proofs.Encoding
import ProofBuild.Proofs.Invocations

/-!
Builds one after the other. Anything may happen to the files between two builds, and a build whose
process ends before it has saved its entries leaves those saved before. An entry that is saved was
made by a build that verified its crate (`backed_saved`), and two builds in which a crate has one
fingerprint agree on all that the crate stands on (`agree_below`). Main statement: a crate is
reported as current only when an earlier build verified it over the same sources and artifacts,
those of everything below it included.
-/

namespace ProofBuild

namespace Sha256

/-- No two of these byte strings have one digest. -/
def CollisionFree (strings : List Bytes) : Prop :=
  ∀ one ∈ strings, ∀ two ∈ strings, digest one = digest two → one = two

theorem CollisionFree.subset {strings more : List Bytes} (free : CollisionFree more)
    (inside : strings ⊆ more) : CollisionFree strings :=
  fun one member two other => free one (inside member) two (inside other)

theorem collisionFree_iff (strings : List Bytes) :
    CollisionFree strings ↔ (strings.dedup.map digest).Nodup := by
  rw [List.nodup_map_iff_inj_on strings.nodup_dedup]
  simp only [List.mem_dedup]
  exact ⟨fun free one member two other => free one member two other,
    fun free one member two other => free one member two other⟩

instance (strings : List Bytes) : Decidable (CollisionFree strings) :=
  decidable_of_iff _ (collisionFree_iff strings).symm

end Sha256

namespace Fingerprint

/-- Files with one digest and no collision between them have one content. -/
theorem read_eq_of_inputAt_eq {tree treeTwo : FileTree} {path : Path} (readable : Readable tree path)
    (readableTwo : Readable treeTwo path) (same : inputAt tree path = inputAt treeTwo path)
    (free : ∀ one two, tree.read path = .ok one → treeTwo.read path = .ok two →
      Sha256.digest one = Sha256.digest two → one = two) : tree.read path = treeTwo.read path := by
  have digests := congrArg Prod.snd same
  simp only [inputAt] at digests
  rcases readable with absent | ⟨content, found⟩
  · rcases readableTwo with absentTwo | ⟨contentTwo, foundTwo⟩
    · rw [absent, absentTwo]
    · rw [absent, foundTwo] at digests
      cases digests
  · rcases readableTwo with absentTwo | ⟨contentTwo, foundTwo⟩
    · rw [found, absentTwo] at digests
      cases digests
    · have contents := free content contentTwo found foundTwo
      rw [found, foundTwo] at digests
      rw [found, foundTwo, contents (Option.some.inj digests)]

/-- What is digested for a fingerprint that is made: the contents of the inputs, and the action. -/
def digested (tree : FileTree) (invocation : Invocation) (paths : List Path)
    (recorded : List (Option String)) : List Bytes :=
  match fingerprint tree invocation paths recorded with
  | .error _ => []
  | .ok _ =>
      paths.filterMap (fun path => (tree.read path).toOption)
        ++ [(Action.onFiles tree invocation paths recorded).bytes]

theorem digested_of_ok {tree : FileTree} {invocation : Invocation} {paths : List Path}
    {recorded : List (Option String)} {print : String}
    (prints : fingerprint tree invocation paths recorded = .ok print) :
    (Action.onFiles tree invocation paths recorded).bytes ∈
        digested tree invocation paths recorded ∧
      ∀ path ∈ paths, ∀ content, tree.read path = .ok content →
        content ∈ digested tree invocation paths recorded := by
  rw [digested, prints]
  refine ⟨List.mem_append_right _ (List.mem_singleton.mpr rfl), fun path input content read => ?_⟩
  refine List.mem_append_left _ (List.mem_filterMap.mpr ⟨path, input, ?_⟩)
  rw [read]
  rfl

end Fingerprint

namespace Context
variable {context : Context} {graph : Graph}

/-- What is digested in the turn of a crate. -/
def digested (context : Context) (graph : Graph) (crate : Crate) (state : State) : List Bytes :=
  match graph.missing state.world.tree crate, context.prepare graph state.world.tree crate with
  | [], .ok prepared =>
      Fingerprint.digested state.world.tree prepared.invocation (context.inputsOf graph crate)
        (recordedOf graph crate state.cache)
  | _, _ => []

def digestedAll (context : Context) (graph : Graph) : List Crate → State → List Bytes
  | [], _ => []
  | crate :: rest, state =>
      context.digested graph crate state
        ++ digestedAll context graph rest (context.buildCrate graph crate state).1

theorem mem_digestedAll {before after : List Crate} {crate : Crate} {state : State} {bytes : Bytes}
    (member : bytes ∈ context.digested graph crate (context.buildAll graph before state).1) :
    bytes ∈ context.digestedAll graph (before ++ crate :: after) state := by
  induction before generalizing state with
  | nil => exact List.mem_append_left _ member
  | cons first rest ih =>
      rw [List.cons_append, digestedAll]
      rw [buildAll_cons] at member
      exact List.mem_append_right _ (ih member)

theorem Printed.digested_eq {crate : Crate} {state : State} {prepared : Prepared} {print : String}
    (printed : Printed context graph crate state prepared print) :
    context.digested graph crate state =
      Fingerprint.digested state.world.tree prepared.invocation (context.inputsOf graph crate)
        (recordedOf graph crate state.cache) := by
  rw [digested, printed.ready, printed.prepares]

end Context

/-- What stays the same in a whole history. -/
structure Setup where
  bundle : Bundle
  environment : Environment
  edition : String

namespace Setup

def invocationOf (setup : Setup) (graph : Graph) (crate : Crate) : Invocation :=
  Invocation.ofCrate crate setup.bundle (Linkage.ofCrates (graph.dependencies crate))
    setup.environment setup.edition

def inputsOf (setup : Setup) (graph : Graph) (crate : Crate) : List Path :=
  crate.sources ++ setup.bundle.artifacts ++
    (Linkage.ofCrates (graph.dependencies crate)).markers

/-- The action of a crate on these files and entries. -/
def actionOf (setup : Setup) (graph : Graph) (crate : Crate) (tree : FileTree)
    (entries : String → Option String) : Fingerprint.Action :=
  .onFiles tree (setup.invocationOf graph crate) (setup.inputsOf graph crate)
    ((graph.dependencies crate).map fun lower => entries lower.name)

end Setup

/-- A build in a history. -/
structure Round where
  context : Context
  /-- the files as the build finds them, whatever was done to them since the build before -/
  tree : FileTree
  selected : List Crate
  /-- whether the process lived until the entries were saved -/
  saved : Bool

namespace Round

def start (round : Round) (cache : Cache) : State := ⟨.start round.tree, cache⟩

def result (graph : Graph) (cache : Cache) (round : Round) : State × Report :=
  round.context.build graph round.selected (round.start cache)

/-- What the next build loads: the entries saved last, with no look-ups counted. -/
def leaves (graph : Graph) (cache : Cache) (round : Round) : Cache :=
  if round.saved then ⟨(round.result graph cache).1.cache.entries, .zero⟩ else cache

def digested (graph : Graph) (cache : Cache) (round : Round) : List Bytes :=
  round.context.digestedAll graph round.selected (round.start cache)

/-- A build of a closure with this setup, and with its inputs away from the markers. -/
structure Lawful (graph : Graph) (directory : Path) (setup : Setup) (round : Round) : Prop where
  bundle : round.context.bundle = setup.bundle
  environment : ∀ tree made, round.context.synthesize tree setup.bundle = .ok made →
    made = setup.environment
  edition : round.context.edition = setup.edition
  chosen : ∃ names, graph.closure names = .ok round.selected
  apart : round.context.Apart directory round.selected round.tree

/-- Whether a crate succeeds in a build, with this fingerprint. -/
def Made (graph : Graph) (cache : Cache) (round : Round) (crate : Crate) (print : String) : Prop :=
  ∃ before after prepared, round.selected = before ++ crate :: after ∧
    Context.Printed round.context graph crate
      (round.context.buildAll graph before (round.start cache)).1 prepared print ∧
    (round.context.buildCrate graph crate
      (round.context.buildAll graph before (round.start cache)).1).1.cache.entry? crate.name =
        some print

/-- What the fingerprint of a crate stands on in a build. The files and the entries are those of
the crate's turn; as far as sources and artifacts go the build found the same files, and the entries
of the direct dependencies were made in the same build. -/
structure Basis (graph : Graph) (setup : Setup) (cache : Cache) (round : Round) (crate : Crate)
    (print : String) (tree : FileTree) (entries : String → Option String) : Prop where
  print_eq : print = Sha256.hex (Sha256.digest (setup.actionOf graph crate tree entries).bytes)
  action : (setup.actionOf graph crate tree entries).bytes ∈ round.digested graph cache
  contents : ∀ path ∈ setup.inputsOf graph crate, ∀ content, tree.read path = .ok content →
    content ∈ round.digested graph cache
  readable : ∀ path ∈ setup.inputsOf graph crate, Fingerprint.Readable tree path
  reads : ∀ path ∈ crate.sources ++ setup.bundle.artifacts, tree.read path = round.tree.read path
  dependencies : ∀ lower ∈ graph.dependencies crate, ∃ print,
    entries lower.name = some print ∧ round.Made graph cache lower print

end Round

namespace Graph

/-- What is saved after a history that began with no entries. -/
def saved (graph : Graph) (rounds : List Round) : Cache :=
  rounds.foldl (Round.leaves graph) .empty

/-- What is digested in a history that begins with these entries. -/
def digestedFrom (graph : Graph) : Cache → List Round → List Bytes
  | _, [] => []
  | cache, round :: rest =>
      round.digested graph cache ++ digestedFrom graph (round.leaves graph cache) rest

theorem digested_subset {graph : Graph} {earlier later : List Round} {round : Round} {cache : Cache} :
    round.digested graph (earlier.foldl (Round.leaves graph) cache) ⊆
      graph.digestedFrom cache (earlier ++ round :: later) := by
  intro bytes member
  induction earlier generalizing cache with
  | nil => exact List.mem_append_left _ member
  | cons first rest ih => exact List.mem_append_right _ (ih member)

theorem saved_append_singleton (graph : Graph) (rounds : List Round) (round : Round) :
    graph.saved (rounds ++ [round]) = round.leaves graph (graph.saved rounds) := by
  rw [saved, List.foldl_append]
  rfl

end Graph

namespace Round
open Context
variable {graph : Graph} {setup : Setup} {cache cacheTwo : Cache} {round roundTwo : Round}
  {crate : Crate} {print : String}

theorem Made.spelled (made : round.Made graph cache crate print) :
    Fingerprint.Spelled (some print) := by
  obtain ⟨_, _, _, _, printed, _⟩ := made
  have prints := printed.prints
  rw [fingerprintOf_eq] at prints
  rw [Fingerprint.print_eq_hex prints]
  exact (Fingerprint.hexadecimal_hex _).spelled

section Basis
variable {tree treeTwo : FileTree} {entries entriesTwo : String → Option String}
  (basis : Basis graph setup cache round crate print tree entries)
include basis

theorem Basis.sound : (setup.actionOf graph crate tree entries).Sound := by
  refine Fingerprint.Action.sound_onFiles _ _ _ fun entry member => ?_
  obtain ⟨lower, direct, rfl⟩ := List.mem_map.mp member
  obtain ⟨print, entry, made⟩ := basis.dependencies lower direct
  rw [entry]
  exact made.spelled

/-- Two builds in which a crate has one fingerprint agree on the crate's sources, on the artifacts
and on the fingerprints of its direct dependencies. -/
theorem Basis.agree (basisTwo : Basis graph setup cacheTwo roundTwo crate print treeTwo entriesTwo)
    (free : Sha256.CollisionFree
      (round.digested graph cache ++ roundTwo.digested graph cacheTwo)) :
    (∀ path ∈ crate.sources ++ setup.bundle.artifacts,
        round.tree.read path = roundTwo.tree.read path) ∧
      ∀ lower ∈ graph.dependencies crate, ∃ print,
        round.Made graph cache lower print ∧ roundTwo.Made graph cacheTwo lower print := by
  have bytes := free _ (List.mem_append_left _ basis.action) _
    (List.mem_append_right _ basisTwo.action)
    (Sha256.hex_injective (basis.print_eq.symm.trans basisTwo.print_eq))
  -- Both actions declare the same, so equal bytes leave no room for another split into pieces.
  have declared : (setup.actionOf graph crate tree entries).SameDeclared
      (setup.actionOf graph crate treeTwo entriesTwo) :=
    ⟨rfl, by simp [Setup.actionOf, Fingerprint.Action.onFiles, Fingerprint.inputAt]⟩
  have same := Fingerprint.Action.eq_of_declared basis.sound basisTwo.sound declared bytes
  obtain ⟨_, inputs, recorded⟩ := (Fingerprint.Action.mk.injEq ..).mp same
  refine ⟨fun path input => ?_, fun lower direct => ?_⟩
  · have known : path ∈ setup.inputsOf graph crate := List.mem_append_left _ input
    rw [← basis.reads path input, ← basisTwo.reads path input]
    refine Fingerprint.read_eq_of_inputAt_eq (basis.readable path known)
      (basisTwo.readable path known) (List.map_inj_left.mp inputs path known) ?_
    intro one two found foundTwo
    exact free one (List.mem_append_left _ (basis.contents path known one found)) two
      (List.mem_append_right _ (basisTwo.contents path known two foundTwo))
  · obtain ⟨print, entry, made⟩ := basis.dependencies lower direct
    obtain ⟨printTwo, entryTwo, madeTwo⟩ := basisTwo.dependencies lower direct
    have prints := List.map_inj_left.mp recorded lower direct
    rw [entry, entryTwo] at prints
    cases prints
    exact ⟨print, made, madeTwo⟩

end Basis

section Regular
variable {directory : Path} (regular : graph.Regular directory)
  (lawful : round.Lawful graph directory setup)
include lawful

theorem Lawful.invocation_eq {state : State} {prepared : Prepared}
    (printed : Printed round.context graph crate state prepared print) :
    prepared.invocation = setup.invocationOf graph crate := by
  obtain ⟨synthesized, invocation⟩ := of_prepare_eq_ok printed.prepares
  rw [lawful.bundle] at synthesized
  rw [invocation, lawful.bundle, lawful.edition, lawful.environment _ _ synthesized,
    Setup.invocationOf]

include regular

theorem Lawful.closed : round.selected.Sublist graph.crates ∧
    ∀ crate ∈ round.selected, ∀ lower, graph.Below crate lower → lower ∈ round.selected := by
  obtain ⟨_, chosen⟩ := lawful.chosen
  exact Graph.closed_of_closure regular.settled chosen

/-- What is reported of a crate is what its turn was. -/
theorem Lawful.turn (selected : crate ∈ round.selected) {fate : Fate}
    (reported : (round.result graph cache).2.fate? crate.name = some fate) :
    ∃ before after, round.selected = before ++ crate :: after ∧
      Turn round.context graph crate (round.context.buildAll graph before (round.start cache)).1
        (round.context.buildCrate graph crate
          (round.context.buildAll graph before (round.start cache)).1).1 fate := by
  obtain ⟨before, after, place⟩ := List.append_of_mem selected
  rw [result, fate?_build regular (lawful.closed regular).1 place] at reported
  refine ⟨before, after, place, ?_⟩
  rw [← Option.some.inj reported]
  exact turn_buildCrate ..

/-- What a crate depends on was made in the same build, with the fingerprint that is recorded for
it in the crate's turn. -/
theorem dependency_of_printed {before after : List Crate} {prepared : Prepared} {lower : Crate}
    (place : round.selected = before ++ crate :: after)
    (printed : Printed round.context graph crate
      (round.context.buildAll graph before (round.start cache)).1 prepared print)
    (direct : lower ∈ graph.dependencies crate) :
    ∃ print, (round.context.buildAll graph before (round.start cache)).1.cache.entry? lower.name =
      some print ∧ round.Made graph cache lower print := by
  obtain ⟨part, closed⟩ := lawful.closed regular
  obtain ⟨first, last, split, success⟩ :=
    succeeds_of_dependency regular part closed place printed direct
  have earlier : before.Sublist graph.crates :=
    (List.sublist_append_left before (crate :: after)).trans (place ▸ part)
  obtain ⟨prepared, print, printed, entry, _⟩ := of_success_build regular earlier split success
  have own := entry
  rw [entry?_build regular earlier split] at own
  exact ⟨print, entry, first, last ++ crate :: after, prepared, by simp [place, split], printed, own⟩

theorem Made.basis (made : round.Made graph cache crate print) :
    ∃ tree entries, Basis graph setup cache round crate print tree entries := by
  obtain ⟨before, after, prepared, place, printed, _⟩ := made
  have prints := printed.prints
  rw [fingerprintOf_eq] at prints
  obtain ⟨action, contents⟩ := Fingerprint.digested_of_ok prints
  have readable := (fingerprint_eq_ok_iff.mp prints).1
  have same := Fingerprint.print_eq_hex prints
  have inputs : round.context.inputsOf graph crate = setup.inputsOf graph crate := by
    rw [Context.inputsOf, lawful.bundle, Setup.inputsOf]
  rw [← printed.digested_eq] at action contents
  rw [lawful.invocation_eq printed, inputs] at same action
  rw [inputs] at readable contents
  have inside : round.context.digested graph crate
      (round.context.buildAll graph before (round.start cache)).1 ⊆ round.digested graph cache := by
    intro bytes member
    rw [digested, place]
    exact mem_digestedAll member
  refine ⟨(round.context.buildAll graph before (round.start cache)).1.world.tree,
    (round.context.buildAll graph before (round.start cache)).1.cache.entry?, same, inside action,
    fun path input content read => inside (contents path input content read), readable, ?_, ?_⟩
  · intro path input
    rw [← lawful.bundle] at input
    have apart : round.context.Apart directory round.selected (round.start cache).world.tree :=
      lawful.apart
    exact read_of_printed regular (lawful.closed regular).1 place apart printed input
  · exact fun lower direct => dependency_of_printed regular lawful place printed direct

/-- An entry that a build leaves was there before, or the build verified its crate. -/
theorem entry?_result (known : crate ∈ graph.crates)
    (left : (round.result graph cache).1.cache.entry? crate.name = some print) :
    cache.entry? crate.name = some print ∨
      crate ∈ round.selected ∧ round.Made graph cache crate print ∧
        (round.result graph cache).2.fate? crate.name = some .verified := by
  obtain ⟨part, _⟩ := lawful.closed regular
  rw [result, build_fst] at left
  by_cases selected : crate ∈ round.selected
  · obtain ⟨before, after, place⟩ := List.append_of_mem selected
    rw [entry?_build regular part place] at left
    have turn := turn_buildCrate round.context graph crate
      (round.context.buildAll graph before (round.start cache)).1
    rcases turn.entry?_cases left with earlier | verified
    · rw [entry?_buildAll (names_apart regular part place).1] at earlier
      exact .inl earlier
    · have reported : (round.result graph cache).2.fate? crate.name = some .verified := by
        rw [result, fate?_build regular part place, verified]
      rw [verified] at turn
      obtain ⟨prepared, own, printed, entry, _⟩ := turn.of_verified
      rw [left] at entry
      cases entry
      exact .inr ⟨selected, ⟨before, after, prepared, place, printed, left⟩, reported⟩
  · -- No selected crate has the name, since no other crate of the graph has it.
    rw [entry?_buildAll fun other member same => selected ?_] at left
    · exact .inl left
    · rw [regular.settled.eq_of_name_eq known (part.subset member) same]
      exact member

/-- A crate that is current has the entry that the build found. -/
theorem made_of_cached (selected : crate ∈ round.selected)
    (cached : (round.result graph cache).2.fate? crate.name = some .cached) :
    ∃ print, cache.entry? crate.name = some print ∧ round.Made graph cache crate print := by
  obtain ⟨before, after, place, turn⟩ := lawful.turn regular selected cached
  obtain ⟨prepared, print, printed, earlier, entry⟩ := turn.of_cached
  rw [entry?_buildAll (names_apart regular (lawful.closed regular).1 place).1] at earlier
  exact ⟨print, earlier, before, after, prepared, place, printed, entry⟩

/-- A crate that is reported as verified was invoked, and its verifier passed. -/
theorem passed_of_verified (selected : crate ∈ round.selected)
    (verified : (round.result graph cache).2.fate? crate.name = some .verified) :
    setup.invocationOf graph crate ∈ (round.result graph cache).1.world.calls ∧
      ∃ world verdict, round.context.verify world (setup.invocationOf graph crate) = .ok verdict ∧
        verdict.Passed := by
  obtain ⟨before, after, place, turn⟩ := lawful.turn regular selected verified
  obtain ⟨prepared, print, printed, _, called, verdict, answer, passed⟩ := turn.of_verified
  rw [lawful.invocation_eq printed] at called answer
  refine ⟨?_, _, verdict, answer, passed⟩
  -- The turns after this one only add to the invocations.
  rw [result, build_fst, place, buildAll_append, buildAll_cons, calls_buildAll, called]
  exact List.mem_append_left _ (List.mem_append_right _ (List.mem_singleton.mpr rfl))

variable (lawfulTwo : roundTwo.Lawful graph directory setup)
  (made : round.Made graph cache crate print) (madeTwo : roundTwo.Made graph cacheTwo crate print)
  (free : Sha256.CollisionFree (round.digested graph cache ++ roundTwo.digested graph cacheTwo))
  {lower : Crate}
include lawfulTwo made madeTwo free

/-- Two builds in which a crate has one fingerprint give one fingerprint to everything below. -/
theorem made_below (below : graph.Below crate lower) :
    ∃ print, round.Made graph cache lower print ∧ roundTwo.Made graph cacheTwo lower print := by
  -- Down a chain of dependencies, each crate hands the agreement on to the next one.
  induction below with
  | single direct =>
      obtain ⟨_, _, basis⟩ := made.basis regular lawful
      obtain ⟨_, _, basisTwo⟩ := madeTwo.basis regular lawfulTwo
      exact (basis.agree basisTwo free).2 _ direct
  | tail _ direct ih =>
      obtain ⟨print, middle, middleTwo⟩ := ih
      obtain ⟨_, _, basis⟩ := middle.basis regular lawful
      obtain ⟨_, _, basisTwo⟩ := middleTwo.basis regular lawfulTwo
      exact (basis.agree basisTwo free).2 _ direct

/-- Two builds in which a crate has one fingerprint agree on all that the crate stands on. -/
theorem agree_below (reached : lower = crate ∨ graph.Below crate lower) :
    ∀ path ∈ lower.sources ++ setup.bundle.artifacts,
      round.tree.read path = roundTwo.tree.read path := by
  have both : ∃ print, round.Made graph cache lower print ∧
      roundTwo.Made graph cacheTwo lower print := by
    rcases reached with rfl | below
    · exact ⟨print, made, madeTwo⟩
    · exact made_below regular lawful lawfulTwo made madeTwo free below
  obtain ⟨_, lowerMade, lowerMadeTwo⟩ := both
  obtain ⟨_, _, basis⟩ := lowerMade.basis regular lawful
  obtain ⟨_, _, basisTwo⟩ := lowerMadeTwo.basis regular lawfulTwo
  exact (basis.agree basisTwo free).1

end Regular

end Round

namespace Graph
variable {graph : Graph} {rounds : List Round}

/-- Whether every entry was made by a build of the history that verified its crate. -/
def Backed (graph : Graph) (rounds : List Round) (cache : Cache) : Prop :=
  ∀ crate ∈ graph.crates, ∀ print, cache.entry? crate.name = some print →
    ∃ earlier round later, rounds = earlier ++ round :: later ∧ crate ∈ round.selected ∧
      round.Made graph (graph.saved earlier) crate print ∧
      (round.result graph (graph.saved earlier)).2.fate? crate.name = some .verified

theorem Backed.append_singleton {cache : Cache} (backed : graph.Backed rounds cache)
    (round : Round) : graph.Backed (rounds ++ [round]) cache := by
  intro crate known print entry
  obtain ⟨earlier, past, later, rfl, rest⟩ := backed crate known print entry
  exact ⟨earlier, past, later ++ [round], by simp, rest⟩

/-- What is saved after a history is backed by it, build after build. -/
theorem backed_saved {directory : Path} (regular : graph.Regular directory) {setup : Setup}
    (lawful : ∀ round ∈ rounds, round.Lawful graph directory setup) :
    graph.Backed rounds (graph.saved rounds) := by
  induction rounds using List.reverseRecOn with
  | nil => intro crate known print entry; cases entry
  | append_singleton rounds round ih =>
      have last : round ∈ rounds ++ [round] := by simp
      have backed := (ih fun past member =>
        lawful past (List.mem_append_left _ member)).append_singleton round
      rw [saved_append_singleton, Round.leaves]
      split
      · intro crate known print entry
        rcases Round.entry?_result regular (lawful round last) known entry with old | verified
        · exact backed crate known print old
        · exact ⟨rounds, round, [], rfl, verified⟩
      · -- A build that was not saved leaves what was backed before it.
        exact backed

/-- A crate is reported as current only when an earlier build of the history verified it, and the
sources of the crate and of everything below it and the artifacts read then as they read now. -/
theorem verified_before_cached {specs : List Spec} {directory : Path} {graph : Graph}
    (accepted : Graph.ofSpecs specs directory = .ok graph)
    (plain : ∀ spec ∈ specs, '/' ∉ spec.name.toList) (inward : directory.Inward)
    {setup : Setup} {rounds : List Round}
    (lawful : ∀ round ∈ rounds, round.Lawful graph directory setup)
    (free : Sha256.CollisionFree (graph.digestedFrom .empty rounds))
    {earlier later : List Round} {round : Round} (place : rounds = earlier ++ round :: later)
    {crate : Crate} (selected : crate ∈ round.selected)
    (cached : (round.result graph (graph.saved earlier)).2.fate? crate.name = some .cached) :
    ∃ before past after, earlier = before ++ past :: after ∧ crate ∈ past.selected ∧
      (past.result graph (graph.saved before)).2.fate? crate.name = some .verified ∧
      setup.invocationOf graph crate ∈ (past.result graph (graph.saved before)).1.world.calls ∧
      (∃ world verdict, past.context.verify world (setup.invocationOf graph crate) =
        .ok verdict ∧ verdict.Passed) ∧
      ∀ lower, lower = crate ∨ graph.Below crate lower →
        ∀ path ∈ lower.sources ++ setup.bundle.artifacts,
          past.tree.read path = round.tree.read path := by
  have regular := Graph.regular_of_ofSpecs accepted plain inward
  have lawfulNow := lawful round (by simp [place])
  obtain ⟨print, entry, madeNow⟩ := Round.made_of_cached regular lawfulNow selected cached
  have backed : graph.Backed earlier (graph.saved earlier) :=
    backed_saved regular fun past member => lawful past (by simp [place, member])
  have known : crate ∈ graph.crates := (lawfulNow.closed regular).1.subset selected
  obtain ⟨before, past, after, rfl, member, madeThen, verified⟩ := backed crate known print entry
  have lawfulThen := lawful past (by simp [place])
  obtain ⟨called, passed⟩ := Round.passed_of_verified regular lawfulThen member verified
  have both : Sha256.CollisionFree (past.digested graph (graph.saved before) ++
      round.digested graph (graph.saved (before ++ past :: after))) := by
    refine free.subset (List.append_subset.mpr ⟨?_, ?_⟩)
    · rw [place, List.append_assoc]
      exact digested_subset
    · rw [place]
      exact digested_subset
  exact ⟨before, past, after, rfl, member, verified, called, passed, fun lower reached =>
    Round.agree_below regular lawfulThen lawfulNow madeThen madeNow both reached⟩

/-- The source of the lower crate of a tandem. -/
def coreFiles (content : Bytes) : FileTree := (FileTree.bare []).setFile "core.rs" [] content false

/-- A marker that no build has made. -/
def forged (tree : FileTree) : FileTree :=
  (tree.addDirectory "out" []).setFile "core.success" ["out"] [] false

/-- A build, another one over a changed source whose entry is lost, and a third one over the first
source with a forged marker. -/
def coreRounds : List Round := [
  ⟨Context.accepting, coreFiles [1], tandem.crates.take 1, true⟩,
  ⟨Context.accepting, coreFiles [2], tandem.crates.take 1, false⟩,
  ⟨Context.accepting, forged (coreFiles [1]), tandem.crates.take 1, true⟩]

theorem collisionFree_coreRounds :
    Sha256.CollisionFree (tandem.digestedFrom .empty coreRounds) := by decide +kernel

theorem cached_coreRounds : ∀ crate ∈ tandem.crates.take 1,
    (coreRounds[2].result tandem (tandem.saved (coreRounds.take 2))).2.fate? crate.name =
      some .cached := by decide +kernel

def coreSetup : Setup where
  bundle := Context.accepting.bundle
  environment := Environment.fixed ⟨"/sysroot"⟩ none Context.accepting.bundle
  edition := "2021"

theorem lawful_coreRounds : ∀ round ∈ coreRounds, round.Lawful tandem ⟨"out"⟩ coreSetup := by
  have chosen : tandem.closure ["core"] = .ok (tandem.crates.take 1) := by decide
  have apart : ∀ round ∈ coreRounds, round.context.Apart ⟨"out"⟩ round.selected round.tree := by
    decide +kernel
  intro round member
  have common : round.context = Context.accepting ∧ round.selected = tandem.crates.take 1 := by
    simp only [coreRounds, List.mem_cons, List.not_mem_nil, or_false] at member
    rcases member with rfl | rfl | rfl <;> exact ⟨rfl, rfl⟩
  obtain ⟨context, selected⟩ := common
  refine ⟨by rw [context]; rfl, ?_, by rw [context]; rfl, ⟨_, selected ▸ chosen⟩, apart round member⟩
  rw [context]
  intro _ made synthesized
  cases synthesized
  rfl

/-- The last build relies on the first one. -/
theorem verified_before_cached_core :
    Graph.ofSpecs tandemSpecs ⟨"out"⟩ = .ok tandem ∧
      (∀ spec ∈ tandemSpecs, '/' ∉ spec.name.toList) ∧ (⟨"out"⟩ : Path).Inward ∧
      (∀ round ∈ coreRounds, round.Lawful tandem ⟨"out"⟩ coreSetup) ∧
      Sha256.CollisionFree (tandem.digestedFrom .empty coreRounds) ∧
      ∀ crate ∈ tandem.crates.take 1,
        (coreRounds[2].result tandem (tandem.saved (coreRounds.take 2))).2.fate? crate.name =
          some .cached ∧
        ∃ before past after, coreRounds.take 2 = before ++ past :: after ∧
          (past.result tandem (tandem.saved before)).2.fate? crate.name = some .verified ∧
          ∀ path ∈ crate.sources, past.tree.read path = coreRounds[2].tree.read path := by
  have accepted := ofSpecs_tandemSpecs
  have plain : ∀ spec ∈ tandemSpecs, '/' ∉ spec.name.toList := by decide
  have inward : (⟨"out"⟩ : Path).Inward := by decide
  refine ⟨accepted, plain, inward, lawful_coreRounds, collisionFree_coreRounds, fun crate member => ?_⟩
  have cached := cached_coreRounds crate member
  refine ⟨cached, ?_⟩
  have place : coreRounds = coreRounds.take 2 ++ coreRounds[2] :: [] := rfl
  obtain ⟨before, past, after, split, _, verified, _, _, reads⟩ :=
    verified_before_cached accepted plain inward lawful_coreRounds collisionFree_coreRounds place
      member cached
  exact ⟨before, past, after, split, verified,
    fun path source => reads crate (.inl rfl) path (List.mem_append_left _ source)⟩

end Graph

end ProofBuild
