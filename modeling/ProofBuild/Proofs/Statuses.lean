import ProofBuild.Execution
import ProofBuild.Proofs.Agreement
import ProofBuild.Proofs.Attempts
import ProofBuild.Proofs.ReadBack
import ProofBuild.Proofs.Reordering

/-!
How a build ends. `updated_update` and `built_build` list all ways, with what each leaves. Statuses
are read off them: an error of a build is never the verifier's own, since those stay with their crates, so
it makes the status two or one. Main statement: what a build that ends with status zero can be trusted
for (`Machine.status_build`). It holds on every machine. The programs of a machine answer by their
arguments, and different crates are verified with different arguments (`identity_eq_of_arguments`),
each at most once in a build, so a machine may give each crate of a build any verdict.
-/

namespace ProofBuild

namespace Error

/-- A verifier that refused a crate. -/
def OfVerifier : Error → Prop
  | .verification .. => True
  | _ => False

theorem exitCode_eq {error : Error} (own : ¬ error.OfVerifier) :
    error.exitCode = if error.isFatal then 2 else 1 := by
  cases error with
  | verification => exact absurd trivial own
  | config | manifest | graph | toolchain | io | corruptCache => rfl

theorem OfUnits.isFatal {error : Error} (ofUnits : error.OfUnits) : error.isFatal = true := by
  cases error with
  | config | graph => rfl
  | manifest | toolchain | verification | io | corruptCache => exact absurd ofUnits id

theorem not_ofVerifier_of_isFatal {error : Error} (fatal : error.isFatal = true) :
    ¬ error.OfVerifier := by
  cases error with
  | verification => cases fatal
  | config | manifest | graph | toolchain | io | corruptCache => exact id

end Error

theorem Manifest.isFatal_of_parse {source : String} {error : Error}
    (failed : Manifest.parse source = .error error) : error.isFatal = true := by
  unfold Manifest.parse at failed
  split at failed
  · cases failed
    rfl
  · rename_i document _
    cases read : Manifest.ofDocument document with
    | ok manifest => simp [read, Except.mapError] at failed
    | error misfit =>
        rw [read] at failed
        cases failed
        split <;> rfl

theorem Manifest.error_of_load {tree : FileTree} {path : Path} {error : Error}
    (failed : Manifest.load tree path = .error error) :
    error.isFatal = true ∨ ∃ cause, error = .io (.readingManifest path) cause := by
  unfold Manifest.load at failed
  split at failed
  · cases failed
    exact .inr ⟨_, rfl⟩
  · rcases bind_eq_error failed with unparsed | ⟨manifest, _, last⟩
    · exact .inl (isFatal_of_parse unparsed)
    · cases last

theorem Manifest.config_of_platform {manifest : Manifest} {host : Platform} {error : Error}
    (failed : manifest.platform host = .error error) : ∃ problem, error = .config problem := by
  unfold Manifest.platform at failed
  split at failed
  · unfold Platform.ofName at failed
    dsimp only at failed
    split at failed
    · cases failed
    · cases failed
      exact ⟨_, rfl⟩
  · cases failed

namespace Workspace

variable {workspace : Workspace} {machine : Machine}

section Load
variable {tree : FileTree} {manifest : Path} {out : Option Path}

/-- The graph of a workspace is that of its manifest's units. -/
theorem accepted_of_load (loaded : load tree manifest out = .ok workspace) :
    Graph.ofSpecs workspace.manifest.units workspace.out = .ok workspace.graph := by
  unfold load at loaded
  rcases bind_eq_ok loaded with ⟨⟨read, source⟩, _, settled⟩
  rcases bind_eq_ok settled with ⟨graph, accepted, last⟩
  cases last
  exact accepted

theorem load_eq_ok {source : String} {read : Manifest} {graph : Graph} {directory : Path}
    (text : tree.readText manifest = .ok source) (parsed : Manifest.parse source = .ok read)
    (accepted : Graph.ofSpecs (read.resolvePaths manifest.directory).units directory = .ok graph) :
    load tree manifest (some directory) =
      .ok ⟨read.resolvePaths manifest.directory, graph, directory⟩ := by
  simp [load, Manifest.load, text, parsed, accepted, bind, Except.bind, pure, Except.pure]

/-- A workspace that cannot be loaded lacks its manifest file or is wrong. -/
theorem error_of_load {error : Error} (failed : load tree manifest out = .error error) :
    error.isFatal = true ∨ ∃ cause, error = .io (.readingManifest manifest) cause := by
  unfold load at failed
  rcases bind_eq_error failed with unread | ⟨⟨read, source⟩, _, unsettled⟩
  · exact Manifest.error_of_load unread
  · rcases bind_eq_error unsettled with rejected | ⟨graph, _, last⟩
    · exact .inl (Graph.ofUnits_ofSpecs rejected).isFatal
    · cases last

end Load

theorem config_of_closure {graph : Graph} {names : List String} {error : Error}
    (failed : graph.closure names = .error error) : ∃ problem, error = .config problem := by
  unfold Graph.closure at failed
  split at failed
  · cases failed
  · split at failed
    · cases failed
      exact ⟨_, rfl⟩
    · cases failed

/-- A bundle that cannot be had is named wrongly or lacks a component. -/
theorem error_of_bundle {tree : FileTree} {error : Error}
    (failed : workspace.bundle machine tree = .error error) :
    (∃ problem, error = .config problem) ∨
      ∃ component problem pinned, error = .toolchain component problem pinned := by
  unfold bundle at failed
  rcases bind_eq_error failed with unnamed | ⟨platform, _, missing⟩
  · exact .inl (Manifest.config_of_platform unnamed)
  · unfold Bundle.acquire at missing
    dsimp only at missing
    split at missing
    · cases missing
    · cases missing
      exact .inr ⟨_, _, _, rfl⟩

/-- Nothing is left to do for these crates: each met a fate that is a success, has its marker, and has
an entry in the file. -/
structure Complete (workspace : Workspace) (selected : List Crate) (report : Report)
    (tree : FileTree) : Prop where
  fates : report.fates.map (·.1) = selected.map (·.name)
  success : report.Success
  markers : ∀ crate ∈ selected, tree.present crate.marker = true
  entries : ∃ recorded, Cache.load tree workspace.out = .ok recorded ∧
    ∀ crate ∈ selected, (recorded.entry? crate.name).isSome

section Update
variable {bundle : Bundle}

/-- A build over recorded fingerprints. -/
def buildOver (workspace : Workspace) (machine : Machine) (bundle : Bundle) (selected : List Crate)
    (world : World) (recorded : Cache) : State × Report :=
  (workspace.context machine bundle).build workspace.graph selected ⟨world, recorded⟩

/-- What updating the recorded fingerprints can be. -/
inductive Updated (workspace : Workspace) (machine : Machine) (bundle : Bundle)
    (selected : List Crate) (world : World) : World → Outcome Report → Prop where
  | unread {error : Error} (unloaded : Cache.load world.tree workspace.out = .error error) :
      Updated workspace machine bundle selected world world (.error error)
  | unsaved {recorded : Cache} {state : State} {report : Report} {tree : FileTree} {error : Error}
      (loaded : Cache.load world.tree workspace.out = .ok recorded)
      (built : workspace.buildOver machine bundle selected world recorded = (state, report))
      (unsaved : state.cache.save state.world.tree workspace.out = (tree, .error error)) :
      Updated workspace machine bundle selected world { state.world with tree } (.error error)
  | saved {recorded : Cache} {state : State} {report : Report} {tree : FileTree}
      (loaded : Cache.load world.tree workspace.out = .ok recorded)
      (built : workspace.buildOver machine bundle selected world recorded = (state, report))
      (saved : state.cache.save state.world.tree workspace.out = (tree, .ok ())) :
      Updated workspace machine bundle selected world { state.world with tree } (.ok report)

theorem updated_update (workspace : Workspace) (machine : Machine) (bundle : Bundle)
    (selected : List Crate) (world : World) :
    Updated workspace machine bundle selected world
      (workspace.update machine bundle selected world).1
      (workspace.update machine bundle selected world).2 := by
  unfold update
  cases loading : Cache.load world.tree workspace.out with
  | error error => exact .unread loading
  | ok recorded =>
      rcases building : workspace.buildOver machine bundle selected world recorded with
        ⟨state, report⟩
      have built := building
      unfold buildOver at building
      rcases saving : state.cache.save state.world.tree workspace.out with ⟨tree, outcome⟩
      simp only [building, saving]
      cases outcome with
      | error error => exact .unsaved loading built saving
      | ok done => exact .saved loading built saving

theorem Updated.error_cases {selected : List Crate} {world after : World} {error : Error}
    (updated : Updated workspace machine bundle selected world after (.error error)) :
    (∃ activity cause, error = .io activity cause) ∨ ∃ path, error = .corruptCache path := by
  cases updated with
  | unread unloaded =>
      unfold Cache.load at unloaded
      dsimp only at unloaded
      split at unloaded
      · cases unloaded
      · cases unloaded
        exact .inl ⟨_, _, rfl⟩
      · split at unloaded
        · cases unloaded
        · cases unloaded
          exact .inr ⟨_, rfl⟩
  | unsaved loaded built unsaved =>
      rcases Cache.save_cases unsaved with ⟨_, failed, _⟩ | ⟨done, _⟩
      · cases failed
        exact .inl ⟨_, _, rfl⟩
      · cases done

theorem Updated.complete {specs : List Spec} {selected : List Crate} {world after : World}
    {report : Report} (accepted : Graph.ofSpecs specs workspace.out = .ok workspace.graph)
    (chosen : ∀ crate ∈ selected, crate ∈ workspace.graph.crates)
    (updated : Updated workspace machine bundle selected world after (.ok report))
    (success : report.Success) : workspace.Complete selected report after.tree := by
  cases updated with
  | @saved recorded state _ tree loaded built saved =>
      have settled := (Graph.settled_of_ofSpecs accepted).1
      have placed : ∀ crate ∈ selected,
          crate.marker = Crate.markerIn workspace.out crate.name :=
        fun crate member => settled.marker_eq crate (chosen crate member)
      have stateIs : (workspace.buildOver machine bundle selected world recorded).1 = state := by
        rw [built]
      have reportIs : (workspace.buildOver machine bundle selected world recorded).2 = report := by
        rw [built]
      subst stateIs reportIs
      have standing := (Context.standing_buildAll placed ⟨world, recorded⟩ success).2
      rcases Cache.of_save saved with ⟨kept, loads⟩
      have retains := kept.mono (Set.empty_subset (Marker.temporaries machine.process))
      constructor
      · exact Context.map_fst_buildAll ..
      · exact success
      · exact fun crate member =>
          Crate.present_of_retains (placed crate member) retains (standing crate member).marker
      · exact ⟨_, loads, fun crate member => (standing crate member).recorded⟩

/-- What a build can be. -/
inductive Built (workspace : Workspace) (machine : Machine) (units : List String) (world : World) :
    Effect Int → Prop where
  | unknown {error : Error} (unchosen : workspace.graph.closure units = .error error) :
      Built workspace machine units world ⟨world, "", .error error⟩
  | unequipped {selected : List Crate} {error : Error}
      (chosen : workspace.graph.closure units = .ok selected)
      (unequipped : workspace.bundle machine world.tree = .error error) :
      Built workspace machine units world ⟨world, "", .error error⟩
  | stopped {selected : List Crate} {bundle : Bundle} {after : World} {error : Error}
      (chosen : workspace.graph.closure units = .ok selected)
      (equipped : workspace.bundle machine world.tree = .ok bundle)
      (updated : Updated workspace machine bundle selected world after (.error error)) :
      Built workspace machine units world ⟨after, "", .error error⟩
  | reported {selected : List Crate} {bundle : Bundle} {after : World} {report : Report}
      (chosen : workspace.graph.closure units = .ok selected)
      (equipped : workspace.bundle machine world.tree = .ok bundle)
      (updated : Updated workspace machine bundle selected world after (.ok report)) :
      Built workspace machine units world
        ⟨after, summary report, .ok (if report.Success then 0 else 1)⟩

theorem built_build (workspace : Workspace) (machine : Machine) (units : List String)
    (world : World) : Built workspace machine units world (workspace.build machine units world) := by
  unfold build
  cases chosen : workspace.graph.closure units with
  | error error => exact .unknown chosen
  | ok selected =>
      cases equipped : workspace.bundle machine world.tree with
      | error error => exact .unequipped chosen equipped
      | ok bundle =>
          have updated := updated_update workspace machine bundle selected world
          dsimp only
          rcases updating : workspace.update machine bundle selected world with ⟨after, outcome⟩
          rw [updating] at updated
          cases outcome with
          | error error => exact .stopped chosen equipped updated
          | ok report => exact .reported chosen equipped updated

end Update

end Workspace

theorem Invocation.identity_eq_of_arguments {one two : Crate} {bundle other : Bundle}
    {linkage otherLinkage : Linkage} {environment otherEnvironment : Environment}
    {edition otherEdition : String}
    (same : (ofCrate one bundle linkage environment edition).arguments =
      (ofCrate two other otherLinkage otherEnvironment otherEdition).arguments) :
    one.identity = two.identity := by
  have ends := (List.append_inj' same rfl).2
  simp only [List.cons.injEq] at ends
  exact ends.2.1

section Run
variable {machine : Machine} {tree : FileTree} {request : Request}

theorem Request.run_of_load {workspace : Workspace}
    (loaded : Workspace.load tree request.manifest request.out = .ok workspace) :
    request.run machine tree = workspace.perform machine (.start tree) request.command := by
  unfold Request.run
  rw [loaded]

theorem Request.run_of_unloaded {error : Error}
    (unloaded : Workspace.load tree request.manifest request.out = .error error) :
    request.run machine tree = ⟨.start tree, "", .error error⟩ := by
  unfold Request.run
  rw [unloaded]

/-- A build that ends with an error has not got it from the verifier. -/
theorem Request.not_ofVerifier_of_build {units : List String} (wanted : request.command = .build units)
    {error : Error} (failed : (request.run machine tree).outcome = .error error) :
    ¬ error.OfVerifier := by
  cases loaded : Workspace.load tree request.manifest request.out with
  | error problem =>
      rw [run_of_unloaded loaded] at failed
      cases failed
      rcases Workspace.error_of_load loaded with fatal | ⟨cause, rfl⟩
      · exact Error.not_ofVerifier_of_isFatal fatal
      · exact id
  | ok workspace =>
      have built := Workspace.built_build workspace machine units (.start tree)
      rw [run_of_load loaded, wanted, Workspace.perform] at failed
      generalize workspace.build machine units (.start tree) = effect at built failed
      cases built with
      | unknown unchosen =>
          cases failed
          rcases Workspace.config_of_closure unchosen with ⟨problem, rfl⟩
          exact id
      | unequipped chosen unequipped =>
          cases failed
          rcases Workspace.error_of_bundle unequipped with ⟨problem, rfl⟩ | ⟨_, _, _, rfl⟩
          · exact id
          · exact id
      | stopped chosen equipped updated =>
          cases failed
          rcases updated.error_cases with ⟨activity, cause, rfl⟩ | ⟨path, rfl⟩
          · exact id
          · exact id
      | reported => cases failed

/-- A build that ends without an error has reported on the closure. -/
theorem Request.of_build_eq_ok {units : List String} (wanted : request.command = .build units)
    {status : Int} (ended : (request.run machine tree).outcome = .ok status) :
    ∃ workspace selected bundle recorded report,
      Workspace.load tree request.manifest request.out = .ok workspace ∧
      workspace.graph.closure units = .ok selected ∧ workspace.bundle machine tree = .ok bundle ∧
      Cache.load tree workspace.out = .ok recorded ∧
      (workspace.buildOver machine bundle selected (.start tree) recorded).2 = report ∧
      status = (if report.Success then 0 else 1) ∧
      (report.Success → workspace.Complete selected report (request.run machine tree).world.tree) := by
  cases loaded : Workspace.load tree request.manifest request.out with
  | error problem =>
      rw [run_of_unloaded loaded] at ended
      cases ended
  | ok workspace =>
      have accepted := Workspace.accepted_of_load loaded
      have built := Workspace.built_build workspace machine units (.start tree)
      rw [run_of_load loaded, wanted, Workspace.perform] at ended ⊢
      generalize workspace.build machine units (.start tree) = effect at built ended ⊢
      cases built with
      | unknown | unequipped | stopped => cases ended
      | @reported selected bundle after report chosen equipped updated =>
          cases ended
          have settled := (Graph.settled_of_ofSpecs accepted).1
          have inside := (Graph.closed_of_closure settled chosen).1.subset
          have complete := updated.complete accepted (fun crate member => inside member)
          cases updated with
          | saved loadedCache reported saved =>
              exact ⟨_, _, _, _, _, rfl, chosen, equipped, loadedCache, by rw [reported], rfl, complete⟩

end Run

section Execute
variable {machine : Machine} {arguments : List String} {tree : FileTree} {request : Request}
  (parsed : CommandLine.parse arguments = .ok request)
include parsed

theorem Machine.execute_eq :
    machine.execute arguments tree = Finish.ofEffect request.manifest (request.run machine tree) := by
  simp only [execute, parsed]

theorem Machine.tree_execute :
    (machine.execute arguments tree).tree = (request.run machine tree).world.tree := by
  rw [execute_eq parsed, Finish.ofEffect]
  cases (request.run machine tree).outcome <;> rfl

theorem Machine.error_execute {error : Error} :
    (machine.execute arguments tree).error = some error ↔
      (request.run machine tree).outcome = .error error := by
  rw [execute_eq parsed, Finish.ofEffect]
  cases (request.run machine tree).outcome <;> simp

theorem Machine.status_execute_of_error {error : Error}
    (failed : (request.run machine tree).outcome = .error error) :
    (machine.execute arguments tree).status = error.exitCode := by
  rw [execute_eq parsed, Finish.ofEffect]
  simp only [failed]

theorem Machine.status_execute_of_ok {status : Int}
    (ended : (request.run machine tree).outcome = .ok status) :
    (machine.execute arguments tree).status = status ∧ (machine.execute arguments tree).error = none := by
  rw [execute_eq parsed, Finish.ofEffect]
  simp only [ended, and_self]

/-- A build that ends with status zero has done all it was asked for: every crate of the closure met
a success, its marker is there, and the file has an entry for it. Otherwise the status is two when
the configuration, the manifest or the graph is at fault, and one in all other cases. -/
theorem Machine.status_build (machine : Machine) (tree : FileTree) {units : List String}
    (wanted : request.command = .build units) :
    ((machine.execute arguments tree).status = 0 → ∃ workspace selected bundle recorded report,
      Workspace.load tree request.manifest request.out = .ok workspace ∧
      workspace.graph.closure units = .ok selected ∧ workspace.bundle machine tree = .ok bundle ∧
      Cache.load tree workspace.out = .ok recorded ∧
      (workspace.buildOver machine bundle selected (.start tree) recorded).2 = report ∧
      workspace.Complete selected report (machine.execute arguments tree).tree) ∧
    ((machine.execute arguments tree).status = 2 ↔
      ∃ error, (machine.execute arguments tree).error = some error ∧ error.isFatal = true) ∧
    ((machine.execute arguments tree).status = 0 ∨ (machine.execute arguments tree).status = 1 ∨
      (machine.execute arguments tree).status = 2) := by
  rw [tree_execute parsed]
  cases ended : (request.run machine tree).outcome with
  | error error =>
      have status := status_execute_of_error parsed ended
      have shown := (error_execute parsed).mpr ended
      rw [Error.exitCode_eq (Request.not_ofVerifier_of_build wanted ended)] at status
      rw [status, shown]
      by_cases fatal : error.isFatal = true
      · simp [fatal]
      · simp [fatal]
  | ok status =>
      rcases Request.of_build_eq_ok wanted ended with ⟨workspace, selected, bundle, recorded, report,
        loaded, chosen, equipped, loadedCache, reported, decides, complete⟩
      rcases status_execute_of_ok parsed ended with ⟨same, unfailed⟩
      rw [same, unfailed, decides]
      by_cases success : report.Success
      · simp only [success, ↓reduceIte, forall_const]
        refine ⟨⟨workspace, selected, bundle, recorded, report, loaded, chosen, equipped, loadedCache,
          reported, complete success⟩, by simp, by simp⟩
      · simp [success]

end Execute

theorem Context.Turn.tree_of_verified {context : Context} {graph : Graph} {crate : Crate}
    {before after : State} (turn : Turn context graph crate before after .verified) :
    after.world.tree =
      (Marker.write (Marker.remove before.world.tree crate.marker).1 crate.marker
        context.process).1 := by
  cases turn with
  | verified printed stale executed =>
      cases executed with
      | run removed started =>
          cases started with
          | done => rfl

section Tandem

/-- The manifest of a crate on top of another one. -/
def Manifest.tandemText : String :=
  "[toolchain]\npath = \"/verus\"\nversion = \"1\"\n" ++
    "[[unit]]\nname = \"app\"\nsrcs = [\"app.rs\"]\ndeps = [\"core\"]\n" ++
    "[[unit]]\nname = \"core\"\nsrcs = [\"core.rs\"]\n"

def Manifest.tandem : Manifest := ⟨⟨⟨"/verus"⟩, "1", none, "2021"⟩, Graph.tandemSpecs⟩

def Workspace.tandem : Workspace := ⟨Manifest.tandem, Graph.tandem, ⟨"out"⟩⟩

def Bundle.tandem : Bundle := ⟨⟨"/verus/rust_verify"⟩, ⟨"/verus/z3"⟩, [], "1", .linuxX86⟩

/-- A manifest, a release and a compiler. -/
def FileTree.furnished : FileTree :=
  let manifest := (bare []).setFile "verdag.toml" [] (Utf8.encode Manifest.tandemText) false
  let compiler := (manifest.addDirectory "bin" []).setFile "rustc" ["bin"] [] true
  ((compiler.addDirectory "verus" []).setFile "rust_verify" ["verus"] [] true).setFile "z3" ["verus"]
    [] true

/-- A machine on which every program succeeds. -/
def Machine.agreeable : Machine where
  inherited := Table.empty.insert "PATH" "/bin"
  home := none
  platform := .linuxX86
  process := 1
  programs _ _ := some ⟨some 0, Utf8.encode "/sysroot", []⟩

def Workspace.tandemContext : Context := Workspace.tandem.context Machine.agreeable Bundle.tandem

/-- Nothing is recorded yet. -/
def State.furnished : State := ⟨.start FileTree.furnished, .empty⟩

theorem Manifest.parse_tandemText : parse tandemText = .ok tandem := by
  decide +kernel

/-- Where the manifest lies, the workspace is loaded, whatever else lies there. -/
theorem Workspace.load_tandem {tree : FileTree}
    (found : tree.read ⟨"verdag.toml"⟩ = .ok (Utf8.encode Manifest.tandemText)) :
    load tree ⟨"verdag.toml"⟩ (some ⟨"out"⟩) = .ok tandem := by
  have text : tree.readText ⟨"verdag.toml"⟩ = .ok Manifest.tandemText := by
    simp [FileTree.readText, found, bind, Except.bind, Utf8.decode?_encode]
  have placed : Manifest.tandem.resolvePaths (Path.directory ⟨"verdag.toml"⟩) = Manifest.tandem := by
    decide +kernel
  have loaded := load_eq_ok text Manifest.parse_tandemText
    (placed.symm ▸ Graph.ofSpecs_tandemSpecs : Graph.ofSpecs _ ⟨"out"⟩ = .ok Graph.tandem)
  rw [placed] at loaded
  exact loaded

theorem Workspace.load_furnished :
    load FileTree.furnished ⟨"verdag.toml"⟩ (some ⟨"out"⟩) = .ok tandem :=
  load_tandem rfl

theorem Workspace.bundle_furnished :
    tandem.bundle Machine.agreeable FileTree.furnished = .ok Bundle.tandem := by
  decide +kernel

theorem Workspace.closure_tandem :
    tandem.graph.closure ["core"] = .ok (Graph.tandem.crates.take 1) := by
  decide

theorem Workspace.cache_furnished : Cache.load FileTree.furnished ⟨"out"⟩ = .ok .empty := by
  have absent : FileTree.furnished.readText (Cache.pathIn ⟨"out"⟩) = .error .notFound := by rfl
  unfold Cache.load
  simp only [absent]

/-- The lower crate as it would be run. -/
def Graph.tandemCore : Crate :=
  ⟨"core", "core", ⟨"core.rs"⟩, [⟨"core.rs"⟩], [], [], ⟨"out/core.success"⟩, [⟨"out/core.success"⟩]⟩

/-- The upper crate. -/
def Graph.tandemApp : Crate :=
  ⟨"app", "app", ⟨"app.rs"⟩, [⟨"app.rs"⟩], [], ["core"], ⟨"out/app.success"⟩,
    [⟨"out/app.success"⟩, ⟨"out/core.success"⟩]⟩

/-- The environment that the machine gives. -/
def Environment.furnished : Environment :=
  complete Bundle.tandem .empty ⟨"/sysroot"⟩ none (some "/bin")

/-- The task of the lower crate. -/
def Prepared.furnished : Prepared where
  invocation := Invocation.ofCrate Graph.tandemCore Bundle.tandem (Linkage.ofCrates [])
    Environment.furnished "2021"
  environment := Environment.furnished

/-- The invocation for the upper crate. -/
def Invocation.tandemApp : Invocation :=
  ofCrate Graph.tandemApp Bundle.tandem (Linkage.ofCrates [Graph.tandemCore]) Environment.furnished
    "2021"

theorem Context.printed_furnished : ∃ print,
    Printed Workspace.tandemContext Graph.tandem Graph.tandemCore State.furnished
      Prepared.furnished print := by
  have synthesized : ((Machine.agreeable.probe FileTree.furnished).synthesize Bundle.tandem).2 =
      .ok Environment.furnished := by decide +kernel
  have prepares : Workspace.tandemContext.prepare Graph.tandem FileTree.furnished Graph.tandemCore =
      .ok Prepared.furnished :=
    prepare_eq_ok (by intro lower member; cases member) synthesized
  have inputs : ∀ path ∈ Workspace.tandemContext.inputsOf Graph.tandem Graph.tandemCore,
      FileTree.furnished.read path = .error .notFound ∨ FileTree.furnished.read path = .ok [] := by
    decide +kernel
  exact printed_of_readable rfl prepares fun path input =>
    (inputs path input).imp id fun content => ⟨_, content⟩

theorem Context.able_furnished :
    Able Workspace.tandemContext ⟨"out"⟩ Graph.tandemCore State.furnished.world
      Prepared.furnished.invocation := by
  have written : (Marker.write FileTree.furnished ⟨"out/core.success"⟩ 1).2 = .ok () := by
    decide +kernel
  have answers : Machine.agreeable.verify (State.furnished.world.removeMarker ⟨"out/core.success"⟩).1
      Prepared.furnished.invocation = .ok ⟨some 0, "/sysroot", ""⟩ := by decide +kernel
  have ordinary : Path.OrdinaryName (Crate.markerName "core") := Crate.ordinaryName_markerName (by decide)
  have extended := Marker.ordinaryName_temporaryName 1 ordinary.plain
  exact ⟨(Marker.write_eq_ok_iff ordinary (by decide) extended).mp written, _, answers, rfl⟩

theorem Context.verified_furnished :
    (Workspace.tandemContext.buildCrate Graph.tandem Graph.tandemCore State.furnished).2 =
      .verified := by
  have regular : Graph.tandem.Regular ⟨"out"⟩ :=
    Graph.regular_of_ofSpecs Graph.ofSpecs_tandemSpecs (by decide) (by decide)
  rcases printed_furnished with ⟨print, printed⟩
  have turn := turn_buildCrate Workspace.tandemContext Graph.tandem Graph.tandemCore State.furnished
  refine (turn.verified_iff regular (by decide)).mpr ⟨_, print, printed, ?_, able_furnished⟩
  rintro ⟨_, known⟩
  cases known

/-- The files as they are when the lower crate is verified. -/
def FileTree.verified : FileTree :=
  (Marker.write (Marker.remove State.furnished.world.tree Graph.tandemCore.marker).1
    Graph.tandemCore.marker Workspace.tandemContext.process).1

theorem Workspace.buildOver_furnished :
    tandem.buildOver Machine.agreeable Bundle.tandem [Graph.tandemCore] (.start FileTree.furnished)
      .empty = tandemContext.build Graph.tandem [Graph.tandemCore] State.furnished := by
  have graph : tandem.graph = Graph.tandem := rfl
  rw [buildOver, tandemContext, State.furnished, graph]

theorem Workspace.build_furnished :
    (tandemContext.build Graph.tandem [Graph.tandemCore] State.furnished).1.world.tree =
      FileTree.verified ∧
    (tandemContext.build Graph.tandem [Graph.tandemCore] State.furnished).2.Success := by
  have turn := Context.turn_buildCrate tandemContext Graph.tandem Graph.tandemCore State.furnished
  have verified := Context.verified_furnished
  rw [verified] at turn
  constructor
  · rw [Context.build_fst, Context.buildAll_singleton_fst, turn.tree_of_verified, FileTree.verified]
  · intro entry member
    rw [Context.fates_build, Context.buildAll_singleton_snd, verified] at member
    cases List.mem_singleton.mp member
    trivial

/-- What is recorded has a digest in it, but whether it can be written depends on the files only. -/
theorem Cache.save_verified (cache : Cache) : ∃ after,
    cache.save FileTree.verified ⟨"out"⟩ = (after, .ok ()) := by
  have made : FileTree.verified.makeDirectories ⟨"out"⟩ =
      ((FileTree.verified.makeDirectories ⟨"out"⟩).1, .ok ()) :=
    Prod.ext rfl (by decide +kernel)
  apply (exists_save_eq_ok_iff (by decide) made cache).mpr
  decide +kernel

theorem Workspace.updated_furnished {world : World} {outcome : Outcome Report}
    (updated : Updated tandem Machine.agreeable Bundle.tandem [Graph.tandemCore]
      (.start FileTree.furnished) world outcome) : ∃ report, outcome = .ok report ∧ report.Success := by
  rcases build_furnished with ⟨files, success⟩
  rw [← buildOver_furnished] at files success
  have empty : ∀ {recorded}, Cache.load FileTree.furnished tandem.out = .ok recorded →
      recorded = .empty := by
    intro recorded loaded
    exact (Except.ok.inj (cache_furnished.symm.trans loaded)).symm
  cases updated with
  | unread unloaded =>
      have loaded := cache_furnished.symm.trans unloaded
      cases loaded
  | @unsaved recorded state report tree error loaded built unsaved =>
      cases empty loaded
      rw [built] at files
      rcases Cache.save_verified state.cache with ⟨after, saved⟩
      rw [← files] at saved
      have same := saved.symm.trans unsaved
      cases same
  | saved loaded built saved =>
      cases empty loaded
      rw [built] at success
      exact ⟨_, rfl, success⟩

/-- What is asked of the program. -/
def Request.tandem : Request := ⟨⟨"verdag.toml"⟩, some ⟨"out"⟩, 0, .build ["core"]⟩

theorem Request.run_tandem :
    (tandem.run Machine.agreeable FileTree.furnished).outcome = .ok 0 := by
  have built := Workspace.built_build Workspace.tandem Machine.agreeable ["core"]
    (.start FileTree.furnished)
  have loaded : Workspace.load FileTree.furnished tandem.manifest tandem.out =
      .ok Workspace.tandem := Workspace.load_furnished
  have wanted : tandem.command = .build ["core"] := rfl
  rw [run_of_load loaded, wanted, Workspace.perform]
  generalize Workspace.tandem.build Machine.agreeable ["core"] (.start FileTree.furnished) = effect
    at built ⊢
  cases built with
  | unknown unchosen => cases Workspace.closure_tandem.symm.trans unchosen
  | unequipped chosen unequipped => cases Workspace.bundle_furnished.symm.trans unequipped
  | stopped chosen equipped updated =>
      cases Workspace.closure_tandem.symm.trans chosen
      cases Workspace.bundle_furnished.symm.trans equipped
      rcases Workspace.updated_furnished updated with ⟨report, failed, success⟩
      cases failed
  | reported chosen equipped updated =>
      cases Workspace.closure_tandem.symm.trans chosen
      cases Workspace.bundle_furnished.symm.trans equipped
      rcases Workspace.updated_furnished updated with ⟨report, same, success⟩
      cases same
      exact congrArg Except.ok (if_pos success)

theorem Machine.status_build_tandem :
    CommandLine.parse ["--out", "out", "build", "core"] = .ok Request.tandem ∧
      Request.tandem.command = .build ["core"] ∧
      (agreeable.execute ["--out", "out", "build", "core"] FileTree.furnished).status = 0 ∧
      ∃ workspace selected report,
        Workspace.load FileTree.furnished ⟨"verdag.toml"⟩ (some ⟨"out"⟩) = .ok workspace ∧
        workspace.graph.closure ["core"] = .ok selected ∧
        workspace.Complete selected report
          (agreeable.execute ["--out", "out", "build", "core"] FileTree.furnished).tree := by
  have parsed : CommandLine.parse ["--out", "out", "build", "core"] = .ok Request.tandem := by
    decide +kernel
  have wanted : Request.tandem.command = .build ["core"] := rfl
  have zero := (status_execute_of_ok parsed Request.run_tandem).1
  rcases (status_build parsed agreeable FileTree.furnished wanted).1 zero with
    ⟨workspace, selected, bundle, recorded, report, loaded, chosen, _, _, _, complete⟩
  exact ⟨parsed, wanted, zero, workspace, selected, report, loaded, chosen, complete⟩

end Tandem

end ProofBuild
