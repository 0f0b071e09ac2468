import ProofBuild.Proofs.Due
import ProofBuild.Proofs.Statuses
import ProofBuild.Proofs.Synthesis

/-!
Dry runs. A dry run shows a task without running it: what is written can be read back
(`Json.read?_pretty_line`), and the task is the one that a trial and a build start the verifier with,
when the environment is made from the same answers of the machine. What it declares to read is
what goes into the crate's fingerprint, in that order. Main statement:
`Workspace.shows_what_runs`.
-/

namespace ProofBuild

namespace Json

mutual

/-- A value as it is read. -/
def literal : Json String → Json Literal
  | .null => .null
  | .bool value => .bool value
  | .number spelling => .number spelling
  | .string text => .string (some text)
  | .array items => .array (literalItems items)
  | .object fields => .object (literalFields fields)

def literalItems : List (Json String) → List (Json Literal)
  | [] => []
  | item :: items => literal item :: literalItems items

def literalFields : List (String × Json String) → List (Literal × Json Literal)
  | [] => []
  | (key, value) :: fields => (some key, literal value) :: literalFields fields

end

theorem literalItems_eq_map (items : List (Json String)) :
    literalItems items = items.map literal := by
  induction items with
  | nil => rfl
  | cons item items ih => rw [literalItems, ih, List.map_cons]

theorem literalFields_eq_map (fields : List (String × Json String)) :
    literalFields fields = fields.map fun field => (some field.1, literal field.2) := by
  induction fields with
  | nil => rfl
  | cons field fields ih => rw [literalFields, ih, List.map_cons]

/-- There is no number in a value. Where a number ends is told by what stands behind it. -/
inductive Numberless : Json String → Prop where
  | null : Numberless .null
  | bool (value : Bool) : Numberless (.bool value)
  | string (text : String) : Numberless (.string text)
  | array {items : List (Json String)} (inside : ∀ item ∈ items, Numberless item) :
      Numberless (.array items)
  | object {fields : List (String × Json String)} (inside : ∀ field ∈ fields, Numberless field.2) :
      Numberless (.object fields)

@[simp] theorem numberless_bool (value : Bool) : (Json.bool value).Numberless := .bool value

@[simp] theorem numberless_string (text : String) : (Json.string text).Numberless := .string text

@[simp] theorem numberless_array_iff {items : List (Json String)} :
    (Json.array items).Numberless ↔ ∀ item ∈ items, item.Numberless :=
  ⟨fun | .array inside => inside, .array⟩

@[simp] theorem numberless_object_iff {fields : List (String × Json String)} :
    (Json.object fields).Numberless ↔ ∀ field ∈ fields, field.2.Numberless :=
  ⟨fun | .object inside => inside, .object⟩

/-- A value does not start like the end of an array. -/
theorem render_eq_cons {value : Json String} (numberless : value.Numberless) (depth : Nat) :
    ∃ c rest, render depth value = c :: rest ∧ isSpace c = false ∧ c ≠ ']' := by
  cases numberless with
  | null => exact ⟨'n', _, rfl, rfl, by decide⟩
  | bool value =>
      cases value with
      | true => exact ⟨'t', _, rfl, rfl, by decide⟩
      | false => exact ⟨'f', _, rfl, rfl, by decide⟩
  | string text => exact ⟨'"', _, rfl, rfl, by decide⟩
  | @array items _ =>
      cases items with
      | nil => exact ⟨'[', _, rfl, rfl, by decide⟩
      | cons item items => exact ⟨'[', _, rfl, rfl, by decide⟩
  | @object fields _ =>
      cases fields with
      | nil => exact ⟨'{', _, rfl, rfl, by decide⟩
      | cons field fields => exact ⟨'{', _, rfl, rfl, by decide⟩

section Arrays
variable {stack : List Open} {depth : Nat} {items : List (Json String)}
  (readable : ∀ item ∈ items, Reads (render depth item) item.literal)
include readable

theorem run_items {outer : Nat} {done : List (Json Literal)} {found : Json Literal}
    (rest : List Char) :
    run ⟨.array done :: stack, .after found⟩
        (renderItems depth items ++ (newline outer ++ ']' :: rest)) =
      run ⟨stack, .after (.array (done.reverse ++ found :: items.map literal))⟩ rest := by
  induction items generalizing done found with
  | nil =>
      rw [renderItems, List.nil_append,
        run_newline (by intro c space; simp [step, continueAfter, space])]
      simp [run_cons, step, continueAfter, isSpace]
  | cons item items ih =>
      rcases List.forall_mem_cons.mp readable with ⟨reads, others⟩
      rw [renderItems]
      simp only [List.cons_append, List.append_assoc]
      rw [run_cons]
      show run ⟨.array (found :: done) :: stack, .value⟩ _ = _
      rw [run_newline (by intro c space; simp [step, space]), reads, ih others]
      simp

end Arrays

/-- An array of readable values is readable. -/
theorem reads_array {depth : Nat} {items : List (Json String)}
    (numberless : ∀ item ∈ items, item.Numberless)
    (readable : ∀ item ∈ items, Reads (render (depth + 1) item) item.literal) :
    Reads (render depth (.array items)) (.array (items.map literal)) := by
  intro stack rest
  cases items with
  | nil =>
      rw [render]
      rfl
  | cons item items =>
      rcases List.forall_mem_cons.mp readable with ⟨reads, others⟩
      have begins (more : List Char) :
          run ⟨.array [] :: stack, .firstItem⟩ (render (depth + 1) item ++ more) =
            run ⟨.array [] :: stack, .value⟩ (render (depth + 1) item ++ more) := by
        rcases render_eq_cons (numberless item List.mem_cons_self) (depth + 1) with
          ⟨c, tail, starts, solid, going⟩
        rw [starts, List.cons_append, run_cons, run_cons]
        simp [step, solid, going]
      rw [render]
      simp only [List.cons_append, List.append_assoc, List.nil_append]
      rw [run_cons]
      show run ⟨.array [] :: stack, .firstItem⟩ _ = _
      rw [run_newline (by intro c space; simp [step, space]), begins, reads, run_items others]
      rfl

/-- What is written reads as what was written. -/
theorem reads_render {value : Json String} (numberless : value.Numberless) (depth : Nat) :
    Reads (render depth value) value.literal := by
  induction numberless generalizing depth with
  | null => exact fun stack rest => rfl
  | bool value => cases value <;> exact fun stack rest => rfl
  | string text =>
      rw [render]
      exact reads_quote text
  | @array items inside ih =>
      rw [literal, literalItems_eq_map]
      exact reads_array inside fun item member => ih item member (depth + 1)
  | @object fields _ ih =>
      have reads : Reads (render depth (.object (fields.map fun field => (field.1, field.2))))
          (.object (fields.map fun field => (some field.1, field.2.literal))) :=
        reads_object Prod.fst fun field member => ih field member (depth + 1)
      rw [literal, literalFields_eq_map]
      simpa using reads

/-- A document and a line end behind it read as the document. -/
theorem read?_pretty_line {document : Json String} (numberless : document.Numberless) :
    read? (document.pretty ++ "\n") = some document.literal := by
  have ends := reads_render numberless 0 [] ['\n']
  simp [read?, pretty, start, ends, run, step, continueAfter, isSpace, finish]

/-- The part of a document under these keys, the outermost first. -/
def under? : List String → Json Literal → Option (Json Literal)
  | [], value => some value
  | key :: keys, .object fields =>
      (fields.find? fun field => field.1 = some key).bind fun field => under? keys field.2
  | _ :: _, _ => none

@[simp] theorem numberless_ofTexts (texts : List String) : (ofTexts texts).Numberless := by
  simp [ofTexts]

@[simp] theorem numberless_ofTable (pairs : List (String × String)) :
    (ofTable pairs).Numberless := by
  rw [ofTable, numberless_object_iff]
  intro field member
  rcases List.mem_map.mp member with ⟨pair, _, rfl⟩
  exact .string pair.2

theorem literal_ofTexts (texts : List String) :
    (ofTexts texts).literal = .array (texts.map fun text => .string (some text)) := by
  rw [ofTexts, literal, literalItems_eq_map, List.map_map]
  rfl

theorem literal_ofTable (table : Table) : (ofTable table.entries).literal = Cache.tableRead table := by
  rw [ofTable, literal, literalFields_eq_map, List.map_map]
  rfl

end Json

/-- What a document says of a task: the program, its arguments and variables, and what is read. -/
structure DryRun.Tells (document : Json Json.Literal) (invocation : Invocation)
    (inputs : List Path) : Prop where
  program : document.under? ["invocation", "program"] =
    some (.string (some invocation.program.text))
  arguments : document.under? ["invocation", "args"] =
    some (.array (invocation.arguments.map fun text => .string (some text)))
  settings : document.under? ["invocation", "env"] = some (Cache.tableRead invocation.settings)
  inputs : document.under? ["declaration", "inputs"] =
    some (.array (inputs.map fun path => .string (some path.text)))

/-- What an output shows of a task. -/
inductive DryRun.Shows (invocation : Invocation) (inputs : List Path) : Bool → String → Prop where
  | document {output : String} {document : Json Json.Literal}
      (read : Json.read? output = some document) (tells : Tells document invocation inputs) :
      Shows invocation inputs true output
  | lines : Shows invocation inputs false
      (String.join ((invocation.program.text :: invocation.arguments).map (· ++ "\n")))

namespace DryRun

theorem numberless_toJson (dryRun : DryRun) : dryRun.toJson.Numberless := by
  simp [toJson, Invocation.toJson, Declaration.toJson, Requirements.toJson, Bundle.toJson,
    Library.toJson, Path.listJson]

theorem tells_toJson (dryRun : DryRun) :
    Tells dryRun.toJson.literal dryRun.invocation dryRun.declaration.inputs := by
  have paths : (Path.listJson dryRun.declaration.inputs).literal =
      .array (dryRun.declaration.inputs.map fun path => .string (some path.text)) := by
    rw [Path.listJson, Json.literal_ofTexts, List.map_map]
    rfl
  constructor
  · rfl
  · exact congrArg some (Json.literal_ofTexts _)
  · exact congrArg some (Json.literal_ofTable _)
  · exact congrArg some paths

/-- A dry run shows its invocation and its inputs in either form. -/
theorem shows (dryRun : DryRun) (asJson : Bool) :
    Shows dryRun.invocation dryRun.declaration.inputs asJson
      (if asJson then dryRun.toJson.pretty ++ "\n" else dryRun.commandLines) := by
  cases asJson with
  | false => exact .lines
  | true => exact .document (Json.read?_pretty_line dryRun.numberless_toJson) dryRun.tells_toJson

end DryRun

namespace Context
open DryRun

variable {context : Context} {graph : Graph} {crate : Crate}

/-- The context makes the environment from what the probe answers. -/
def Sees (context : Context) (probe : Probe) (tree : FileTree) : Prop :=
  context.synthesize tree context.bundle = (probe.synthesize context.bundle).2

/-- What a task that was shown says of trials and builds of its crate. -/
structure Foretold (context : Context) (graph : Graph) (crate : Crate) (probe : Probe)
    (invocation : Invocation) (inputs : List Path) : Prop where
  /-- a trial starts the verifier with the invocation, unless a direct dependency has no marker -/
  trial : ∀ before : World, context.Sees probe before.tree →
    (graph.missing before.tree crate = [] →
      (context.trial graph crate before).1.calls = before.calls ++ [invocation] ∧
      (context.trial graph crate before).2.2 =
        (context.verify before invocation).map fun verdict => ⟨verdict.code⟩) ∧
    (graph.missing before.tree crate ≠ [] →
      (context.trial graph crate before).1.calls = before.calls)
  calls : ∀ selected state, (context.build graph selected state).1.world.calls =
    state.world.calls ++ (context.journal graph selected state).flatMap (·.2)
  /-- a build in which the crate is due starts the verifier with the invocation -/
  build : ∀ selected state before invocations after,
    context.journal graph selected state = before ++ (crate, invocations) :: after →
    context.Sees probe (context.buildAll graph (before.map (·.1)) state).1.world.tree →
      (Due context graph crate (context.buildAll graph (before.map (·.1)) state).1 invocation →
        invocations = [invocation]) ∧
      (¬ Due context graph crate (context.buildAll graph (before.map (·.1)) state).1 invocation →
        invocations = []) ∧
      ((context.build graph selected state).2.fates[before.length]? =
        some (crate.name, .verified) → invocations = [invocation])
  /-- what goes into the crate's fingerprint is the invocation and the content of the inputs -/
  print : ∀ state prepared print, context.Sees probe state.world.tree →
    Printed context graph crate state prepared print →
      prepared.invocation = invocation ∧ ∃ read,
        inputs.mapM (Fingerprint.readInput state.world.tree) = .ok read ∧
        print = Sha256.hex (Sha256.digest
          (Fingerprint.encode invocation read (recordedOf graph crate state.cache)))

theorem fates_at {before after : List (Crate × List Invocation)} {selected : List Crate}
    {state : State} {invocations : List Invocation}
    (place : context.journal graph selected state = before ++ (crate, invocations) :: after) :
    (context.build graph selected state).2.fates[before.length]? =
      some (crate.name, (context.buildCrate graph crate
        (context.buildAll graph (before.map (·.1)) state).1).2) := by
  have length := length_fates context graph (before.map (·.1)) state
  rw [List.length_map] at length
  rw [fates_build, (journal_at place).1, buildAll_append, buildAll_cons, ← length,
    List.getElem?_append_right (Nat.le_refl _), Nat.sub_self, List.getElem?_cons_zero]

section Environment
variable {environment : Environment}

theorem task_eq {tree : FileTree} {prepared : Prepared}
    (synthesized : context.synthesize tree context.bundle = .ok environment)
    (prepares : context.prepare graph tree crate = .ok prepared) :
    prepared = context.taskOf graph crate environment := by
  obtain ⟨_, other, made, rfl⟩ := prepare_eq_ok_iff.mp prepares
  rw [synthesized] at made
  cases made
  rfl

theorem Due.invocation_eq {state : State} {invocation : Invocation}
    (synthesized : context.synthesize state.world.tree context.bundle = .ok environment)
    (due : Due context graph crate state invocation) :
    invocation = (context.taskOf graph crate environment).invocation := by
  obtain ⟨prepared, print, printed, rfl, _⟩ := due.stale
  rw [task_eq synthesized printed.prepares]

/-- A trial above markers runs the task that its environment makes. -/
theorem trial_of_ready {before : World}
    (synthesized : context.synthesize before.tree context.bundle = .ok environment)
    (ready : graph.missing before.tree crate = []) :
    (context.trial graph crate before).1.calls =
        before.calls ++ [(context.taskOf graph crate environment).invocation] ∧
      (context.trial graph crate before).2.2 =
        (context.verify before (context.taskOf graph crate environment).invocation).map
          fun verdict => ⟨verdict.code⟩ := by
  have prepares : context.prepare graph before.tree crate =
      .ok (context.taskOf graph crate environment) :=
    prepare_eq_ok_iff.mpr ⟨ready, environment, synthesized, rfl⟩
  unfold trial
  simp only [prepares]
  cases context.verify before (context.taskOf graph crate environment).invocation with
  | error error => exact ⟨rfl, rfl⟩
  | ok verdict => exact ⟨rfl, rfl⟩

theorem trial_of_missing {before : World} (lacking : graph.missing before.tree crate ≠ []) :
    (context.trial graph crate before).1.calls = before.calls := by
  unfold trial
  split
  · rfl
  · rename_i prepared prepares
    exact absurd (prepare_eq_ok_iff.mp prepares).1 lacking

theorem foretold {probe : Probe} (synthesized : (probe.synthesize context.bundle).2 = .ok environment) :
    Foretold context graph crate probe (context.taskOf graph crate environment).invocation
      (context.inputsOf graph crate) := by
  have made {tree : FileTree} (sees : context.Sees probe tree) :
      context.synthesize tree context.bundle = .ok environment := sees.trans synthesized
  constructor
  case trial =>
    exact fun before sees => ⟨trial_of_ready (made sees), trial_of_missing⟩
  case calls => exact fun selected state => calls_buildAll selected state
  case build =>
    intro selected state before invocations after place sees
    obtain ⟨started, silent⟩ := journal_due place
    refine ⟨started _, ?_, ?_⟩
    · intro idle
      refine silent fun other due => idle ?_
      rw [← due.invocation_eq (made sees)]
      exact due
    · intro verified
      rw [fates_at place, Option.some.injEq, Prod.mk.injEq] at verified
      have turn := turn_buildCrate context graph crate
        (context.buildAll graph (before.map (·.1)) state).1
      rw [verified.2] at turn
      obtain ⟨other, due⟩ := turn.due_of_verified
      rw [started other due, due.invocation_eq (made sees)]
  case print =>
    intro state prepared print sees printed
    have task := task_eq (made sees) printed.prepares
    obtain ⟨readable, prints⟩ := fingerprint_eq_ok_iff.mp (printed_iff.mp printed).2.2
    rw [task] at prints
    exact ⟨congrArg Prepared.invocation task, _,
      Fingerprint.mapM_readInput_eq_ok_iff.mpr ⟨readable, rfl⟩, prints⟩

end Environment

end Context

namespace Workspace
open Context

variable {workspace : Workspace} {machine : Machine} {unit : String}

theorem of_dryRun_eq_ok {tree : FileTree} {dryRun : DryRun}
    (ran : workspace.dryRun machine unit tree = .ok dryRun) :
    workspace.graph.require unit = .ok dryRun.crate ∧
      workspace.bundle machine tree = .ok dryRun.bundle ∧
      ∃ environment, ((machine.probe tree).synthesize dryRun.bundle).2 = .ok environment ∧
        dryRun.invocation = Invocation.ofCrate dryRun.crate dryRun.bundle
          (Linkage.ofCrates (workspace.graph.dependencies dryRun.crate)) environment
          workspace.manifest.toolchain.edition ∧
        dryRun.declaration = Declaration.ofCrate dryRun.crate dryRun.bundle
          (Linkage.ofCrates (workspace.graph.dependencies dryRun.crate)) := by
  unfold Workspace.dryRun at ran
  rcases bind_eq_ok ran with ⟨crate, required, rest⟩
  rcases bind_eq_ok rest with ⟨bundle, equipped, rest⟩
  rcases bind_eq_ok rest with ⟨environment, synthesized, last⟩
  cases last
  exact ⟨required, equipped, environment, synthesized, rfl, rfl⟩

/-- What a dry run shows of a unit is the task that trials and builds run, as long as the machine
answers as it did, and the files it declares to read are those whose content goes into the unit's
fingerprint, in the same order. -/
theorem shows_what_runs {asJson : Bool} {world : World} {status : Int}
    (shown : (workspace.showArguments machine unit asJson world).outcome = .ok status) :
    status = 0 ∧ (workspace.showArguments machine unit asJson world).world = world ∧
      ∃ crate bundle invocation inputs,
        workspace.graph.require unit = .ok crate ∧
        workspace.bundle machine world.tree = .ok bundle ∧
        DryRun.Shows invocation inputs asJson
          (workspace.showArguments machine unit asJson world).output ∧
        ∀ context : Context, context.bundle = bundle →
          context.edition = workspace.manifest.toolchain.edition →
            Foretold context workspace.graph crate (machine.probe world.tree) invocation inputs := by
  unfold showArguments at shown ⊢
  cases ran : workspace.dryRun machine unit world.tree with
  | error error =>
      rw [ran] at shown
      cases shown
  | ok dryRun =>
      rw [ran] at shown
      cases shown
      obtain ⟨required, equipped, environment, synthesized, invocation, declaration⟩ :=
        of_dryRun_eq_ok ran
      refine ⟨rfl, rfl, dryRun.crate, dryRun.bundle, dryRun.invocation,
        dryRun.declaration.inputs, required, equipped, dryRun.shows asJson, ?_⟩
      intro context sameBundle sameEdition
      rw [← sameBundle] at synthesized invocation declaration
      rw [← sameEdition] at invocation
      rw [invocation, declaration]
      exact foretold synthesized

theorem require_tandem : tandem.graph.require "app" = .ok Graph.tandemApp := by
  decide

/-- What is shown of the upper crate of a tandem, where nothing is built yet, is what a build of both
crates runs, and what a trial runs once the lower crate has its marker. -/
theorem shows_what_runs_tandem :
    (tandem.showArguments Machine.agreeable "app" true (.start FileTree.furnished)).outcome =
        .ok 0 ∧
      ∃ invocation inputs,
        DryRun.Shows invocation inputs true
          (tandem.showArguments Machine.agreeable "app" true (.start FileTree.furnished)).output ∧
        (tandemContext.trial tandem.graph Graph.tandemApp (.start FileTree.furnished)).1.calls = [] ∧
        (tandemContext.trial tandem.graph Graph.tandemApp (.start FileTree.verified)).1.calls =
          [invocation] ∧
        ∃ earlier, tandemContext.journal tandem.graph [Graph.tandemCore, Graph.tandemApp]
          State.furnished = [(Graph.tandemCore, earlier), (Graph.tandemApp, [invocation])] := by
  have shown : (tandem.showArguments Machine.agreeable "app" true
      (.start FileTree.furnished)).outcome = .ok 0 := by decide +kernel
  obtain ⟨_, _, crate, bundle, invocation, inputs, required, equipped, shows, foretold⟩ :=
    shows_what_runs shown
  cases require_tandem.symm.trans required
  cases bundle_furnished.symm.trans equipped
  have told := foretold tandemContext rfl rfl
  have sees : tandemContext.synthesize FileTree.verified Bundle.tandem =
      ((Machine.agreeable.probe FileTree.furnished).synthesize Bundle.tandem).2 := by decide +kernel
  have seesHalfway : tandemContext.synthesize
      (tandemContext.buildAll tandem.graph [Graph.tandemCore] State.furnished).1.world.tree
      Bundle.tandem = ((Machine.agreeable.probe FileTree.furnished).synthesize Bundle.tandem).2 := by
    decide +kernel
  have lacking : tandem.graph.missing FileTree.furnished Graph.tandemApp ≠ [] := by decide +kernel
  have ready : tandem.graph.missing FileTree.verified Graph.tandemApp = [] := by decide +kernel
  have verified : (tandemContext.build tandem.graph [Graph.tandemCore, Graph.tandemApp]
      State.furnished).2.fates[1]? = some ("app", .verified) := by decide +kernel
  have built := (told.build [Graph.tandemCore, Graph.tandemApp] State.furnished
    [(Graph.tandemCore, _)] _ [] rfl seesHalfway).2.2 verified
  refine ⟨shown, invocation, inputs, shows, ?_, ?_, ?_⟩
  · exact (told.trial (.start FileTree.furnished) rfl).2 lacking
  · exact ((told.trial (.start FileTree.verified) sees).1 ready).1
  · exact ⟨_, congrArg (fun calls => [(Graph.tandemCore, _), (Graph.tandemApp, calls)]) built⟩

end Workspace

end ProofBuild
