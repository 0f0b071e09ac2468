import ProofBuild.Proofs.Closures
import ProofBuild.Proofs.Untouched

/-!
Trials of single crates. A trial builds what lies below its crate and then runs the verifier for the
crate itself, beside the build. The build never gets to the crate, so the crate's marker and its entry
in the file stay, and the verifier runs for the crate in the trial only (`Machine.trial_contained`).
-/

namespace ProofBuild

/-- Whether an invocation is for this crate, by the arguments that it ends with. -/
def Invocation.For (invocation : Invocation) (crate : Crate) : Prop :=
  ["--crate-name", crate.identity, crate.entry.text] <:+ invocation.arguments

instance (invocation : Invocation) (crate : Crate) : Decidable (invocation.For crate) :=
  inferInstanceAs (Decidable (_ <:+ _))

theorem Invocation.for_ofCrate (crate : Crate) (bundle : Bundle) (linkage : Linkage)
    (environment : Environment) (edition : String) :
    (ofCrate crate bundle linkage environment edition).For crate :=
  List.suffix_append ..

theorem Invocation.identity_eq_of_for {one two : Crate} {bundle : Bundle} {linkage : Linkage}
    {environment : Environment} {edition : String}
    (meant : (ofCrate one bundle linkage environment edition).For two) :
    one.identity = two.identity := by
  rcases meant with ⟨front, same⟩
  have ends := (List.append_inj' same rfl).2
  simp only [List.cons.injEq] at ends
  exact ends.2.1.symm

/-- Whether a text ends with a line. -/
def EndsWith (text line : String) : Prop := line.toList <:+ text.toList

theorem EndsWith.second {text line : String} (ends : EndsWith text line) {c : Char}
    (second : line.toList.reverse[1]? = some c) : text.toList.reverse[1]? = some c := by
  rcases ends with ⟨front, same⟩
  rw [← same, List.reverse_append, List.getElem?_append_left]
  · exact second
  · exact (List.getElem?_eq_some_iff.mp second).1

namespace Trial

/-- The line of a trial that passed. -/
def passLine (crate : Crate) : String := s!"PASS: crate '{crate.identity}' verified\n"

/-- Why a trial did not pass. -/
def reason : Option Int → String
  | some code => s!"verifier exit code {code}"
  | none => "verifier terminated by signal"

/-- The line of a trial that did not pass. -/
def failLine (crate : Crate) (code : Option Int) : String :=
  s!"FAIL: crate '{crate.identity}' ({reason code})\n"

theorem second_passLine (crate : Crate) : (passLine crate).toList.reverse[1]? = some 'd' := by
  have spelled : passLine crate = "PASS: crate '" ++ crate.identity ++ "' verified\n" := rfl
  simp only [spelled, String.toList_append, List.reverse_append]
  rfl

theorem second_failLine (crate : Crate) (code : Option Int) :
    (failLine crate code).toList.reverse[1]? = some ')' := by
  have spelled : failLine crate code =
    "FAIL: crate '" ++ crate.identity ++ "' (" ++ reason code ++ ")\n" := rfl
  simp only [spelled, String.toList_append, List.reverse_append]
  rfl

theorem footer_eq (crate : Crate) (code : Option Int) :
    footer crate ⟨code⟩ = if code = some 0 then passLine crate else failLine crate code := by
  cases code <;> rfl

theorem endsWith_footer (front : String) (crate : Crate) (code : Option Int) :
    EndsWith (front ++ footer crate ⟨code⟩) (footer crate ⟨code⟩) := by
  rw [EndsWith, String.toList_append]
  exact List.suffix_append ..

/-- The last line says whether the trial passed. -/
theorem endsWith_passLine_iff (front : String) (crate : Crate) (code : Option Int) :
    EndsWith (front ++ footer crate ⟨code⟩) (passLine crate) ↔ code = some 0 := by
  have ends := endsWith_footer front crate code
  by_cases passed : code = some 0
  · simpa [passed, footer_eq] using ends
  · simp only [passed, iff_false]
    intro passes
    have fails : EndsWith (front ++ footer crate ⟨code⟩) (failLine crate code) := by
      simpa [passed, footer_eq] using ends
    have same := (passes.second (second_passLine crate)).symm.trans
      (fails.second (second_failLine crate code))
    cases same

theorem endsWith_failLine_iff (front : String) (crate : Crate) (code : Option Int) :
    EndsWith (front ++ footer crate ⟨code⟩) (failLine crate code) ↔ code ≠ some 0 := by
  have ends := endsWith_footer front crate code
  constructor
  · intro fails passed
    have passes := (endsWith_passLine_iff front crate code).mpr passed
    have same := (passes.second (second_passLine crate)).symm.trans
      (fails.second (second_failLine crate code))
    cases same
  · intro failed
    simpa [failed, footer_eq] using ends

end Trial

section Entries
variable {tree before after : FileTree} {directory : Path}

/-- The entry of a unit in the file of a directory; none when there is no such file, or it cannot be
understood. -/
def Cache.recorded? (tree : FileTree) (directory : Path) (unit : String) : Option String :=
  match load tree directory with
  | .ok cache => cache.entry? unit
  | .error _ => none

theorem Cache.recorded?_of_load {cache : Cache} (loaded : load tree directory = .ok cache)
    (unit : String) : recorded? tree directory unit = cache.entry? unit := by
  unfold recorded?
  simp only [loaded]

theorem FileTree.readText_eq_ok_iff {path : Path} {text : String} :
    tree.readText path = .ok text ↔ ∃ content executable,
      tree.status path = .ok (.file content executable) ∧ Utf8.decode? content = some text := by
  unfold readText
  cases found : tree.read path with
  | error error =>
      have unread : ∀ content executable, tree.status path ≠ .ok (.file content executable) := by
        intro content executable lies
        rw [(read_eq_ok_iff tree path content).mpr ⟨executable, lies⟩] at found
        cases found
      simp [bind, Except.bind, unread]
  | ok content =>
      rcases (read_eq_ok_iff tree path content).mp found with ⟨executable, lies⟩
      cases decoded : Utf8.decode? content with
      | none => simp [bind, Except.bind, lies, decoded]
      | some other => simp [bind, Except.bind, lies, decoded]

theorem Cache.recorded?_eq_some_iff {unit print : String} :
    recorded? tree directory unit = some print ↔
      ∃ text cache, tree.readText (pathIn directory) = .ok text ∧ decode? text = some cache ∧
        cache.entry? unit = some print := by
  unfold recorded? load
  dsimp only
  cases contents : tree.readText (pathIn directory) with
  | error error => cases error <;> simp [Cache.entry?, Cache.empty]
  | ok text => cases decoded : decode? text <;> simp [decoded]

/-- Entries are those of the file that is found. -/
theorem Cache.recorded?_eq_of_status
    (same : ∀ node, after.status (pathIn directory) = .ok node ↔
      before.status (pathIn directory) = .ok node) (unit : String) :
    recorded? after directory unit = recorded? before directory unit := by
  apply Option.ext
  intro print
  simp only [recorded?_eq_some_iff, FileTree.readText_eq_ok_iff, same]

theorem Crate.file_not_mem_markerFiles (crate : Crate) (process : Nat) :
    "action-cache.json" ∉ crate.markerFiles process := by
  have last : "action-cache.json".toList.getLast? = some 'n' := by decide
  rintro (marker | temporary)
  · have ends : (markerName crate.name).toList.getLast? = some 's' := by simp [markerName]
    rw [← marker, last] at ends
    cases ends
  · rcases Marker.isDigit_getLast?_temporaryName (markerName crate.name) process with
      ⟨digit, ends, isDigit⟩
    rw [← Set.mem_singleton_iff.mp temporary, last] at ends
    cases ends
    cases isDigit

section Save
variable (inward : directory.Inward) {cache : Cache}
include inward

theorem Cache.changedIn_of_save (saved : cache.save tree directory = (after, .ok ())) :
    FileTree.ChangedIn (directory.place tree.workingDirectory) {"action-cache.json"} tree after := by
  have room : FileTree.ChangedIn (directory.place tree.workingDirectory) ∅ tree
      (tree.makeDirectories directory).1 :=
    FileTree.changedIn_makeDirectories ⟨inward, List.suffix_rfl⟩
  rcases save_cases saved with ⟨_, failed, _⟩ | ⟨_, put⟩
  · cases failed
  · have change := (FileTree.of_write_child inward ordinaryName_file put).1
    exact (room.mono (Set.empty_subset _)).trans (room.working ▸ change)

/-- A failure to save leaves the file as it was. -/
theorem Cache.changedIn_of_unsaved {error : Error}
    (unsaved : cache.save tree directory = (after, .error error)) :
    FileTree.ChangedIn (directory.place tree.workingDirectory) ∅ tree after := by
  rcases save_cases unsaved with ⟨_, _, rfl⟩ | ⟨done, _⟩
  · exact FileTree.changedIn_makeDirectories ⟨inward, List.suffix_rfl⟩
  · cases done

end Save

/-- What lies at a crate's marker and the crate's entry in the file are as they were. -/
structure Crate.Undisturbed (crate : Crate) (directory : Path) (before after : FileTree) : Prop where
  marker : ∀ node, after.status crate.marker = .ok node ↔ before.status crate.marker = .ok node
  entry : Cache.recorded? after directory crate.name = Cache.recorded? before directory crate.name

theorem Crate.Undisturbed.refl (crate : Crate) (directory : Path) (tree : FileTree) :
    crate.Undisturbed directory tree tree :=
  ⟨fun _ => Iff.rfl, rfl⟩

theorem Crate.Undisturbed.trans {crate : Crate} {last : FileTree}
    (one : crate.Undisturbed directory before after) (two : crate.Undisturbed directory after last) :
    crate.Undisturbed directory before last :=
  ⟨fun node => (two.marker node).trans (one.marker node), two.entry.trans one.entry⟩

end Entries

namespace Graph

/-- Whether these are all crates below a crate, in the graph's order. -/
def AllBelow (graph : Graph) (crate : Crate) (below : List Crate) : Prop :=
  ∃ wanted : Crate → Bool, below = graph.crates.filter wanted ∧
    ∀ lower ∈ graph.crates, wanted lower = true ↔ graph.Below crate lower

variable {graph : Graph} {crate : Crate} {below : List Crate}

theorem AllBelow.unique {others : List Crate} (one : graph.AllBelow crate below)
    (two : graph.AllBelow crate others) : below = others := by
  rcases one with ⟨wanted, rfl, first⟩
  rcases two with ⟨asked, rfl, second⟩
  apply List.filter_congr
  intro lower inside
  exact Bool.eq_iff_iff.mpr ((first lower inside).trans (second lower inside).symm)

section Accepted
variable {specs : List Spec} {directory : Path} (accepted : ofSpecs specs directory = .ok graph)
include accepted

theorem AllBelow.mem_iff (all : graph.AllBelow crate below) {lower : Crate} :
    lower ∈ below ↔ graph.Below crate lower := by
  rcases all with ⟨wanted, rfl, decides⟩
  rw [List.mem_filter]
  constructor
  · exact fun ⟨inside, chosen⟩ => (decides lower inside).mp chosen
  · intro under
    have inside := mem_crates_of_below (settled_of_ofSpecs accepted).1 under
    exact ⟨inside, (decides lower inside).mpr under⟩

variable (member : crate ∈ graph.crates)
include member

/-- No crate lies below a crate of its own name. -/
theorem name_ne_of_below {lower : Crate} (under : graph.Below crate lower) :
    crate.name ≠ lower.name := by
  intro same
  have needed := ((below_iff accepted member).mp under).2
  rw [← same] at needed
  exact (wellFormed_of_ofSpecs accepted).acyclic crate.name needed

/-- The closure of a crate is the crate with all that lies below it. -/
theorem allBelow_of_closure {closure : List Crate}
    (chosen : graph.closure [crate.name] = .ok closure) :
    graph.AllBelow crate (closure.filter fun other => other.name ≠ crate.name) := by
  rcases eq_filter_of_closure chosen with ⟨test, rfl⟩
  refine ⟨fun other => test other && decide (other.name ≠ crate.name), ?_, ?_⟩
  · rw [List.filter_filter]
    apply List.filter_congr
    intro other _
    exact Bool.and_comm ..
  · intro lower inside
    have reached : lower ∈ graph.crates.filter test ↔ _ := mem_closure_iff accepted (by simp) chosen
    simp only [List.mem_filter, inside, true_and, List.mem_singleton, exists_eq_left] at reached
    rw [Bool.and_eq_true, reached, decide_eq_true_iff, below_iff accepted member]
    constructor
    · rintro ⟨onward, apart⟩
      rcases Relation.reflTransGen_iff_eq_or_transGen.mp onward with same | further
      · exact absurd same apart
      · exact ⟨inside, further⟩
    · intro under
      have apart := name_ne_of_below accepted member ((below_iff accepted member).mpr under)
      exact ⟨under.2.to_reflTransGen, apart.symm⟩

end Accepted

end Graph

namespace Context
variable {context : Context} {graph : Graph}

/-- A build adds invocations for the crates that it is given. -/
theorem of_mem_calls_buildAll {crates : List Crate} {state : State} {invocation : Invocation}
    (called : invocation ∈ (context.buildAll graph crates state).1.world.calls) :
    invocation ∈ state.world.calls ∨ ∃ crate ∈ crates, ∃ environment,
      invocation = Invocation.ofCrate crate context.bundle
        (Linkage.ofCrates (graph.dependencies crate)) environment context.edition := by
  induction crates generalizing state with
  | nil => exact .inl called
  | cons crate rest ih =>
      rw [buildAll_cons_fst] at called
      rcases ih called with earlier | ⟨other, member, meant⟩
      · rcases (turn_buildCrate context graph crate state).calls_cases with
          same | ⟨prepared, print, printed, added⟩
        · exact .inl (same ▸ earlier)
        · rw [added] at earlier
          rcases List.mem_append.mp earlier with old | new
          · exact .inl old
          · rw [List.mem_singleton.mp new]
            exact .inr ⟨crate, List.mem_cons_self, _, printed.invocation_eq⟩
      · exact .inr ⟨other, List.mem_cons_of_mem crate member, meant⟩

section Others
variable {directory : Path} (regular : graph.Regular directory) {crates : List Crate}
  (inside : ∀ lower ∈ crates, lower ∈ graph.crates) {crate : Crate} (member : crate ∈ graph.crates)
  (others : ∀ lower ∈ crates, crate.name ≠ lower.name)
include regular inside member others

/-- A build of other crates leaves a crate alone; the file is not even touched. -/
theorem undisturbed_buildAll (context : Context) (state : State) :
    crate.Undisturbed directory state.world.tree
      (context.buildAll graph crates state).1.world.tree := by
  constructor
  · exact status_marker_buildAll regular inside member others state
  · apply Cache.recorded?_eq_of_status
    intro node
    refine (changedIn_buildAll regular inside state).status_child_eq_ok_iff Cache.ordinaryName_file
      regular.inward ?_ node
    rintro ⟨lower, _, owns⟩
    exact lower.file_not_mem_markerFiles context.process owns

theorem not_for_of_buildAll {state : State} (none : ∀ invocation ∈ state.world.calls, ¬ invocation.For crate) :
    ∀ invocation ∈ (context.buildAll graph crates state).1.world.calls, ¬ invocation.For crate := by
  intro invocation called meant
  rcases of_mem_calls_buildAll called with old | ⟨lower, built, environment, rfl⟩
  · exact none invocation old meant
  · have same := Invocation.identity_eq_of_for meant
    have itself : lower = crate := List.inj_on_of_nodup_map regular.settled.nodup_identities
      (inside lower built) member same
    exact others lower built (by rw [itself])

end Others

end Context

namespace Workspace
variable {workspace : Workspace} {machine : Machine} {world after : World} {bundle : Bundle}
  {selected : List Crate}

section Update
variable (regular : workspace.graph.Regular workspace.out)
  (inside : ∀ lower ∈ selected, lower ∈ workspace.graph.crates) {crate : Crate}
  (member : crate ∈ workspace.graph.crates) (others : ∀ lower ∈ selected, crate.name ≠ lower.name)
include regular inside member others

/-- A build of other crates, with the file saved or not, leaves a crate alone. -/
theorem Updated.undisturbed {outcome : Outcome Report}
    (updated : Updated workspace machine bundle selected world after outcome) :
    crate.Undisturbed workspace.out world.tree after.tree := by
  have marker := Context.ordinaryName_marker regular member
  have apart : Crate.markerName crate.name ∉ ({"action-cache.json"} : Set String) := by
    intro same
    exact crate.file_not_mem_markerFiles 0 (.inl (Set.mem_singleton_iff.mp same).symm)
  cases updated with
  | unread => exact .refl ..
  | @unsaved recorded state report tree error loaded built unsaved =>
      have stateIs : ((workspace.context machine bundle).buildAll workspace.graph selected
          ⟨world, recorded⟩).1 = state := congrArg Prod.fst built
      subst stateIs
      have change := Cache.changedIn_of_unsaved regular.inward unsaved
      have still := Context.undisturbed_buildAll regular inside member others
        (workspace.context machine bundle) ⟨world, recorded⟩
      refine still.trans ⟨fun node => ?_, ?_⟩
      · rw [Context.marker_eq_child regular member]
        exact change.status_child_eq_ok_iff marker regular.inward (Set.notMem_empty _) node
      · exact Cache.recorded?_eq_of_status (fun node => change.status_child_eq_ok_iff
          Cache.ordinaryName_file regular.inward (Set.notMem_empty _) node) crate.name
  | @saved recorded state report tree loaded built saved =>
      have stateIs : ((workspace.context machine bundle).buildAll workspace.graph selected
          ⟨world, recorded⟩).1 = state := congrArg Prod.fst built
      subst stateIs
      have change := Cache.changedIn_of_save regular.inward saved
      constructor
      · intro node
        rw [← Context.status_marker_buildAll regular inside member others ⟨world, recorded⟩ node,
          Context.marker_eq_child regular member]
        exact change.status_child_eq_ok_iff marker regular.inward apart node
      · rw [Cache.recorded?_of_load loaded, Cache.recorded?_of_load (Cache.of_save saved).2]
        exact Context.entry?_buildAll others ⟨world, recorded⟩

end Update

/-- How the trial of a crate can end. -/
inductive TriedOut (workspace : Workspace) (machine : Machine) (bundle : Bundle) (crate : Crate)
    (world : World) : Effect Int → Prop where
  | unprepared {error : Error} :
      TriedOut workspace machine bundle crate world ⟨world, "", .error error⟩
  | unanswered {invocation : Invocation} {report : String} {error : Error}
      (meant : invocation.For crate) (unanswered : machine.verify world invocation = .error error) :
      TriedOut workspace machine bundle crate world
        ⟨world.called invocation, report, .error error⟩
  | answered {invocation : Invocation} {report : String} {verdict : Verdict}
      (meant : invocation.For crate) (answered : machine.verify world invocation = .ok verdict) :
      TriedOut workspace machine bundle crate world
        ⟨world.called invocation, report ++ Trial.footer crate ⟨verdict.code⟩,
          .ok (verdict.code.getD 1)⟩

theorem triedOut_tryOut (workspace : Workspace) (machine : Machine) (bundle : Bundle)
    (crate : Crate) (world : World) : TriedOut workspace machine bundle crate world
      (workspace.tryOut machine bundle crate world) := by
  unfold tryOut Context.trial
  cases prepares : (workspace.context machine bundle).prepare workspace.graph world.tree crate with
  | error error => exact .unprepared
  | ok prepared =>
      have meant : prepared.invocation.For crate := by
        rw [(Context.of_prepare_eq_ok prepares).2]
        exact Invocation.for_ofCrate ..
      cases answers : machine.verify world prepared.invocation with
      | error error =>
          have failed : (workspace.context machine bundle).verify world prepared.invocation =
            .error error := answers
          simp only [failed]
          exact .unanswered meant answers
      | ok verdict =>
          have ended : (workspace.context machine bundle).verify world prepared.invocation =
            .ok verdict := answers
          simp only [ended]
          exact .answered meant answers

/-- How the test of a crate goes once the toolchain is there. Below it are these crates. -/
inductive TestedCrate (workspace : Workspace) (machine : Machine) (bundle : Bundle) (below : List Crate)
    (crate : Crate) (world : World) : Effect Int → Prop where
  | alone {effect : Effect Int} (none : below = [])
      (tried : TriedOut workspace machine bundle crate world effect) :
      TestedCrate workspace machine bundle below crate world effect
  | stopped {after : World} {error : Error}
      (updated : Updated workspace machine bundle below world after (.error error)) :
      TestedCrate workspace machine bundle below crate world ⟨after, "", .error error⟩
  | refused {after : World} {report : Report}
      (updated : Updated workspace machine bundle below world after (.ok report))
      (unsuccessful : ¬ report.Success) :
      TestedCrate workspace machine bundle below crate world ⟨after, summary report, .ok 1⟩
  | reached {after : World} {report : Report} {effect : Effect Int}
      (updated : Updated workspace machine bundle below world after (.ok report))
      (success : report.Success) (tried : TriedOut workspace machine bundle crate after effect) :
      TestedCrate workspace machine bundle below crate world effect

theorem testedCrate_test {specs : List Spec} {crate : Crate}
    (accepted : Graph.ofSpecs specs workspace.out = .ok workspace.graph)
    (member : crate ∈ workspace.graph.crates) (machine : Machine) (world : World) :
    (∃ error, workspace.bundle machine world.tree = .error error ∧
      workspace.test machine crate.name world = ⟨world, "", .error error⟩) ∨
    ∃ bundle below, workspace.bundle machine world.tree = .ok bundle ∧
      workspace.graph.AllBelow crate below ∧
      TestedCrate workspace machine bundle below crate world
        (workspace.test machine crate.name world) := by
  have settled := (Graph.settled_of_ofSpecs accepted).1
  have found : workspace.graph.require crate.name = .ok crate := by
    rw [Graph.require, Graph.find?, settled.find?_eq_some_iff.mpr ⟨member, rfl⟩]
  rcases Graph.exists_closure_eq_ok member with ⟨closure, chosen⟩
  have all := Graph.allBelow_of_closure accepted member chosen
  unfold test
  rw [found, chosen]
  dsimp only
  cases equipped : workspace.bundle machine world.tree with
  | error error => exact .inl ⟨error, rfl, rfl⟩
  | ok bundle =>
      refine .inr ⟨bundle, _, rfl, all, ?_⟩
      generalize (closure.filter fun other => other.name ≠ crate.name) = below
      dsimp only
      split
      · rename_i none
        exact .alone none (triedOut_tryOut ..)
      · have updated := updated_update workspace machine bundle below world
        rcases updating : workspace.update machine bundle below world with ⟨after, outcome⟩
        rw [updating] at updated
        cases outcome with
        | error error => exact .stopped updated
        | ok report =>
            dsimp only
            split
            · rename_i success
              exact .reached updated success (triedOut_tryOut ..)
            · rename_i unsuccessful
              exact .refused updated unsuccessful

theorem TriedOut.tree_eq {crate : Crate} {effect : Effect Int}
    (tried : TriedOut workspace machine bundle crate world effect) :
    effect.world.tree = world.tree := by
  cases tried <;> rfl

/-- What a trial that invoked the verifier for its crate tells. -/
structure Told (machine : Machine) (crate : Crate) (before : World) (effect : Effect Int)
    (invocation : Invocation) : Prop where
  meant : invocation.For crate
  world : effect.world = before.called invocation
  status : ∀ verdict, machine.verify before invocation = .ok verdict →
    effect.outcome = .ok (verdict.code.getD 1)
  output : ∀ verdict, machine.verify before invocation = .ok verdict →
    ∃ front, effect.output = front ++ Trial.footer crate ⟨verdict.code⟩

theorem TriedOut.told {crate : Crate} {effect : Effect Int}
    (tried : TriedOut workspace machine bundle crate world effect) :
    effect.world = world ∨ ∃ invocation, Told machine crate world effect invocation := by
  cases tried with
  | unprepared => exact .inl rfl
  | @unanswered invocation report error meant unanswered =>
      refine .inr ⟨invocation, meant, rfl, ?_, ?_⟩
      · intro verdict answered
        cases unanswered.symm.trans answered
      · intro verdict answered
        cases unanswered.symm.trans answered
  | @answered invocation report verdict meant answered =>
      refine .inr ⟨invocation, meant, rfl, ?_, ?_⟩
      · intro other same
        cases answered.symm.trans same
        rfl
      · intro other same
        cases answered.symm.trans same
        exact ⟨report, rfl⟩

/-- The crates of a build that succeeds all succeed. -/
theorem success_of_buildOver {recorded : Cache} {state : State} {report : Report}
    (built : workspace.buildOver machine bundle selected world recorded = (state, report))
    (success : report.Success) {lower : Crate} (member : lower ∈ selected) :
    ∃ fate, (lower.name, fate) ∈ report.fates ∧ fate.Success := by
  have fates : ((workspace.context machine bundle).buildAll workspace.graph selected
      ⟨world, recorded⟩).2 = report.fates := congrArg (fun pair => pair.2.fates) built
  have names := Context.map_fst_buildAll (workspace.context machine bundle) workspace.graph selected
    ⟨world, recorded⟩
  rw [fates] at names
  have listed : lower.name ∈ report.fates.map (·.1) := names ▸ List.mem_map_of_mem member
  rcases List.mem_map.mp listed with ⟨⟨name, fate⟩, reported, rfl⟩
  exact ⟨fate, reported, success _ reported⟩

section Below
variable {below : List Crate} {crate : Crate} {effect : Effect Int}
  (tested : TestedCrate workspace machine bundle below crate world effect)
  (regular : workspace.graph.Regular workspace.out)
  (inside : ∀ lower ∈ below, lower ∈ workspace.graph.crates)
  (member : crate ∈ workspace.graph.crates) (others : ∀ lower ∈ below, crate.name ≠ lower.name)
include tested regular inside member others

theorem TestedCrate.undisturbed : crate.Undisturbed workspace.out world.tree effect.world.tree := by
  cases tested with
  | alone none tried =>
      rw [tried.tree_eq]
      exact .refl ..
  | stopped updated | refused updated => exact updated.undisturbed regular inside member others
  | reached updated success tried =>
      rw [tried.tree_eq]
      exact updated.undisturbed regular inside member others

omit tested in
theorem Updated.not_for {after : World} {outcome : Outcome Report}
    (updated : Updated workspace machine bundle below world after outcome)
    (new : ∀ invocation ∈ world.calls, ¬ invocation.For crate) :
    ∀ invocation ∈ after.calls, ¬ invocation.For crate := by
  have none {recorded : Cache} {state : State} {report : Report}
      (built : workspace.buildOver machine bundle below world recorded = (state, report)) :
      ∀ invocation ∈ state.world.calls, ¬ invocation.For crate := by
    have stateIs : ((workspace.context machine bundle).buildAll workspace.graph below
        ⟨world, recorded⟩).1 = state := congrArg Prod.fst built
    subst stateIs
    exact Context.not_for_of_buildAll regular inside member others new
  cases updated with
  | unread => exact new
  | unsaved loaded built | saved loaded built => exact none built

/-- A trial invokes the verifier for its crate only when all below has been built with success. -/
theorem TestedCrate.told (new : ∀ invocation ∈ world.calls, ¬ invocation.For crate) :
    (∀ invocation ∈ effect.world.calls, ¬ invocation.For crate) ∨
      ∃ before invocation, Told machine crate before effect invocation ∧
        (∀ earlier ∈ before.calls, ¬ earlier.For crate) ∧
        (below = [] ∨ ∃ recorded state report,
          Cache.load world.tree workspace.out = .ok recorded ∧
          workspace.buildOver machine bundle below world recorded = (state, report) ∧
          report.Success ∧ before.calls = state.world.calls) := by
  cases tested with
  | alone none tried =>
      rcases tried.told with same | ⟨invocation, told⟩
      · exact .inl (same ▸ new)
      · exact .inr ⟨world, invocation, told, new, .inl none⟩
  | stopped updated | refused updated =>
      exact .inl (updated.not_for regular inside member others new)
  | @reached after report _ updated success tried =>
      have none := updated.not_for regular inside member others new
      rcases tried.told with same | ⟨invocation, told⟩
      · exact .inl (same ▸ none)
      · cases updated with
        | saved loaded built =>
            exact .inr ⟨_, invocation, told, none, .inr ⟨_, _, _, loaded, built, success, rfl⟩⟩

/-- After a build below it that did not succeed, a crate is not tried out. -/
theorem TestedCrate.not_told {recorded : Cache} {state : State} {report : Report} (some : below ≠ [])
    (loaded : Cache.load world.tree workspace.out = .ok recorded)
    (built : workspace.buildOver machine bundle below world recorded = (state, report))
    (unsuccessful : ¬ report.Success)
    (new : ∀ invocation ∈ world.calls, ¬ invocation.For crate) :
    (∀ invocation ∈ effect.world.calls, ¬ invocation.For crate) ∧
      (effect.outcome = .ok 1 ∨ ∃ error, effect.outcome = .error error ∧ error.exitCode = 1) := by
  cases tested with
  | alone none => exact absurd none some
  | stopped updated =>
      refine ⟨updated.not_for regular inside member others new, .inr ⟨_, rfl, ?_⟩⟩
      rcases updated.error_cases with ⟨activity, cause, rfl⟩ | ⟨path, rfl⟩ <;> rfl
  | refused updated => exact ⟨updated.not_for regular inside member others new, .inl rfl⟩
  | reached updated success =>
      cases updated with
      | saved loadedToo builtToo =>
          cases loaded.symm.trans loadedToo
          cases built.symm.trans builtToo
          exact absurd success unsuccessful

end Below

/-- The build of all that lies below a crate, before anything else is done. -/
def BuiltBelow (workspace : Workspace) (machine : Machine) (tree : FileTree) (crate : Crate)
    (state : State) (report : Report) : Prop :=
  ∃ below bundle recorded, workspace.graph.AllBelow crate below ∧ below ≠ [] ∧
    workspace.bundle machine tree = .ok bundle ∧ Cache.load tree workspace.out = .ok recorded ∧
    workspace.buildOver machine bundle below (.start tree) recorded = (state, report)

end Workspace

theorem Machine.output_execute {machine : Machine} {arguments : List String} {tree : FileTree}
    {request : Request} (parsed : CommandLine.parse arguments = .ok request) :
    (machine.execute arguments tree).output = (request.run machine tree).output := by
  rw [execute_eq parsed, Finish.ofEffect]
  cases (request.run machine tree).outcome <;> rfl

section Execute
variable {machine : Machine} {arguments : List String} {request : Request} {tree : FileTree}
  (parsed : CommandLine.parse arguments = .ok request)
include parsed

theorem Machine.status_execute_of_stuck
    (stuck : (request.run machine tree).outcome = .ok 1 ∨
      ∃ error, (request.run machine tree).outcome = .error error ∧ error.exitCode = 1) :
    (machine.execute arguments tree).status = 1 := by
  rcases stuck with ended | ⟨error, failed, one⟩
  · exact (status_execute_of_ok parsed ended).1
  · rw [status_execute_of_error parsed failed, one]

/-- A test of a crate leaves the crate's marker and its entry in the file as they are, whatever the
verifier answers. It invokes the verifier for the crate at most once, last of all, and only when the build of
all crates below has ended with success. When that build has not, the status is one. When the verifier is
invoked for the crate and answers, the status is its status, or one if it was killed, and the last
line says whether the status is zero. -/
theorem Machine.trial_contained (machine : Machine) (tree : FileTree) {unit : String}
    {workspace : Workspace} {crate : Crate} (wanted : request.command = .test unit)
    (loaded : Workspace.load tree request.manifest request.out = .ok workspace)
    (plain : ∀ spec ∈ workspace.manifest.units, '/' ∉ spec.name.toList)
    (inward : workspace.out.Inward) (member : crate ∈ workspace.graph.crates)
    (named : crate.name = unit) :
    crate.Undisturbed workspace.out tree (machine.execute arguments tree).tree ∧
    ((request.run machine tree).world.calls.filter (·.For crate)).length ≤ 1 ∧
    (∀ invocation ∈ (request.run machine tree).world.calls, invocation.For crate →
      ∀ lower, workspace.graph.Below crate lower → ∃ state report fate,
        workspace.BuiltBelow machine tree crate state report ∧
        (request.run machine tree).world.calls = state.world.calls ++ [invocation] ∧
        (lower.name, fate) ∈ report.fates ∧ fate.Success) ∧
    (∀ state report, workspace.BuiltBelow machine tree crate state report → ¬ report.Success →
      (machine.execute arguments tree).status = 1 ∧
        ∀ invocation ∈ (request.run machine tree).world.calls, ¬ invocation.For crate) ∧
    (∀ invocation ∈ (request.run machine tree).world.calls, invocation.For crate →
      ∀ verdict, machine.verify (request.run machine tree).world invocation = .ok verdict →
        (machine.execute arguments tree).status = verdict.code.getD 1 ∧
        (EndsWith (machine.execute arguments tree).output (Trial.passLine crate) ↔
          verdict.code = some 0) ∧
        (EndsWith (machine.execute arguments tree).output (Trial.failLine crate verdict.code) ↔
          verdict.code ≠ some 0)) := by
  subst named
  have accepted := Workspace.accepted_of_load loaded
  have regular := Graph.regular_of_ofSpecs accepted plain inward
  have run : request.run machine tree = workspace.test machine crate.name (.start tree) := by
    rw [Request.run_of_load loaded, wanted, Workspace.perform]
  have new : ∀ invocation ∈ (World.start tree).calls, ¬ invocation.For crate := by
    intro invocation called
    cases called
  rcases Workspace.testedCrate_test accepted member machine (.start tree) with
    ⟨error, unequipped, failed⟩ | ⟨bundle, below, equipped, all, tested⟩
  · -- Without a toolchain nothing has been done.
    rw [← run] at failed
    have calls : (request.run machine tree).world.calls = [] := by rw [failed]; rfl
    have files : (request.run machine tree).world.tree = tree := by rw [failed]; rfl
    rw [tree_execute parsed, files, calls]
    refine ⟨.refl .., by simp, by simp, ?_, by simp⟩
    rintro state report ⟨_, bundle, _, _, _, equipped, _⟩
    cases unequipped.symm.trans equipped
  · rw [← run] at tested
    have inside : ∀ lower ∈ below, lower ∈ workspace.graph.crates := fun lower chosen =>
      Graph.mem_crates_of_below regular.settled ((all.mem_iff accepted).mp chosen)
    have others : ∀ lower ∈ below, crate.name ≠ lower.name := fun lower chosen =>
      Graph.name_ne_of_below accepted member ((all.mem_iff accepted).mp chosen)
    have undisturbed := tested.undisturbed regular inside member others
    have notTold : ∀ state report, workspace.BuiltBelow machine tree crate state report →
        ¬ report.Success → (machine.execute arguments tree).status = 1 ∧
          ∀ invocation ∈ (request.run machine tree).world.calls, ¬ invocation.For crate := by
      rintro state report ⟨chosen, other, recorded, allToo, some, equippedToo, read, built⟩ failed
      cases equipped.symm.trans equippedToo
      cases all.unique allToo
      have stuck := tested.not_told regular inside member others some read built failed new
      exact ⟨status_execute_of_stuck parsed stuck.2, stuck.1⟩
    rw [tree_execute parsed]
    rcases tested.told regular inside member others new with
      none | ⟨before, called, told, earlier, source⟩
    · have none? : (request.run machine tree).world.calls.filter (·.For crate) = [] := by
        simpa [List.filter_eq_nil_iff] using none
      refine ⟨undisturbed, by simp [none?], ?_, notTold, ?_⟩
      · exact fun invocation made meant => absurd meant (none invocation made)
      · exact fun invocation made meant => absurd meant (none invocation made)
    · have calls : (request.run machine tree).world.calls = before.calls ++ [called] := by
        rw [told.world, World.called]
      have only : ∀ invocation ∈ (request.run machine tree).world.calls, invocation.For crate →
          invocation = called := by
        intro invocation made meant
        rw [calls, List.mem_append, List.mem_singleton] at made
        exact made.resolve_left fun early => earlier invocation early meant
      refine ⟨undisturbed, ?_, ?_, notTold, ?_⟩
      · have none? : before.calls.filter (·.For crate) = [] := by
          simpa [List.filter_eq_nil_iff] using earlier
        rw [calls, List.filter_append, none?, List.nil_append]
        exact List.length_filter_le ..
      · intro invocation made meant lower under
        cases only invocation made meant
        have chosen := (all.mem_iff accepted).mpr under
        rcases source with rfl | ⟨recorded, state, report, read, built, success, same⟩
        · cases chosen
        · rcases Workspace.success_of_buildOver built success chosen with ⟨fate, reported, good⟩
          have builtBelow : workspace.BuiltBelow machine tree crate state report :=
            ⟨below, bundle, recorded, all, List.ne_nil_of_mem chosen, equipped, read, built⟩
          exact ⟨state, report, fate, builtBelow, same ▸ calls, reported, good⟩
      · intro invocation made meant verdict answered
        cases only invocation made meant
        rw [told.world] at answered
        rcases told.output verdict answered with ⟨front, output⟩
        rw [output_execute parsed, output]
        exact ⟨(status_execute_of_ok parsed (told.status verdict answered)).1,
          Trial.endsWith_passLine_iff .., Trial.endsWith_failLine_iff ..⟩

end Execute

/-- A request to try the upper crate out. -/
def Request.trial : Request := ⟨⟨"verdag.toml"⟩, some ⟨"out"⟩, 0, .test "app"⟩

theorem Workspace.test_furnished :
    (tandem.test Machine.agreeable "app" (.start FileTree.furnished)).world.calls =
        [Prepared.furnished.invocation, Invocation.tandemApp] ∧
      Machine.agreeable.verify
        (tandem.test Machine.agreeable "app" (.start FileTree.furnished)).world
        Invocation.tandemApp = .ok ⟨some 0, "/sysroot", ""⟩ := by
  decide +kernel

/-- The upper crate of a tandem is tried out in a fresh directory: the lower one is built first. -/
theorem Machine.trial_contained_tandem :
    CommandLine.parse ["--out", "out", "test", "app"] = .ok Request.trial ∧
      Graph.tandemApp ∈ Workspace.tandem.graph.crates ∧
      (Request.trial.run agreeable FileTree.furnished).world.calls =
        [Prepared.furnished.invocation, Invocation.tandemApp] ∧
      (∃ state report fate,
        Workspace.tandem.BuiltBelow agreeable FileTree.furnished Graph.tandemApp state report ∧
        state.world.calls = [Prepared.furnished.invocation] ∧ ("core", fate) ∈ report.fates ∧
        fate.Success) ∧
      (agreeable.execute ["--out", "out", "test", "app"] FileTree.furnished).status = 0 ∧
      EndsWith (agreeable.execute ["--out", "out", "test", "app"] FileTree.furnished).output
        "PASS: crate 'app' verified\n" ∧
      Graph.tandemApp.Undisturbed ⟨"out"⟩ FileTree.furnished
        (agreeable.execute ["--out", "out", "test", "app"] FileTree.furnished).tree := by
  have parsed : CommandLine.parse ["--out", "out", "test", "app"] = .ok Request.trial := by
    decide +kernel
  have wanted : Request.trial.command = .test "app" := rfl
  have loaded : Workspace.load FileTree.furnished Request.trial.manifest Request.trial.out =
      .ok Workspace.tandem := Workspace.load_furnished
  have member : Graph.tandemApp ∈ Workspace.tandem.graph.crates := by decide
  have under : Workspace.tandem.graph.Below Graph.tandemApp Graph.tandemCore :=
    .single (by decide)
  have run : Request.trial.run agreeable FileTree.furnished =
      Workspace.tandem.test agreeable "app" (.start FileTree.furnished) := by
    rw [Request.run_of_load loaded, wanted, Workspace.perform]
  obtain ⟨calls, answered⟩ := Workspace.test_furnished
  rw [← run] at calls answered
  have meant : Invocation.tandemApp.For Graph.tandemApp := Invocation.for_ofCrate ..
  have made : Invocation.tandemApp ∈ (Request.trial.run agreeable FileTree.furnished).world.calls := by
    rw [calls]
    exact List.mem_cons_of_mem _ List.mem_cons_self
  obtain ⟨undisturbed, _, above, _, told⟩ := trial_contained parsed agreeable FileTree.furnished wanted
    loaded (by decide) (by decide) member rfl
  obtain ⟨state, report, fate, built, split, listed, success⟩ := above _ made meant _ under
  obtain ⟨status, passes, _⟩ := told _ made meant _ answered
  have earlier : state.world.calls = [Prepared.furnished.invocation] :=
    (List.append_inj_left' (calls.symm.trans split) rfl).symm
  exact ⟨parsed, member, calls, ⟨state, report, fate, built, earlier, listed, success⟩, status,
    passes.mpr rfl, undisturbed⟩

end ProofBuild
