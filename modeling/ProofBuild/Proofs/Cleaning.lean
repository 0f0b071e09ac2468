import ProofBuild.Proofs.Due
import ProofBuild.Proofs.Statuses

/-!
Cleaning. What is removed is removed for good, since removing other files brings nothing back
(`FileTree.Pruned`), so a cleaning that ends has removed every marker and the recorded
fingerprints, and nothing else. A build from there on finds no crate current, and it verifies every
crate whose direct dependencies it has verified: their markers stay until that crate's turn, because
no other turn loses them (`Turn.retains`). Main statement: `Workspace.builds_anew_after_clean`.
-/

namespace ProofBuild

namespace FileTree

section Named
variable {path : Path} (ordinary : Path.OrdinaryName path.lastPiece)
include ordinary

/-- A file that cannot be removed because it is not found is not there. -/
theorem status_of_removeFile_eq_notFound {tree : FileTree}
    (absent : tree.removeFile path = .error .notFound) : tree.status path = .error .notFound := by
  rw [status_eq_of_lastPiece ordinary]
  unfold removeFile at absent
  cases reached : tree.target path with
  | error error =>
      rw [reached] at absent
      cases absent
      rfl
  | ok target =>
      rcases of_target_eq_ok ordinary tree reached with ⟨around, rfl, _⟩
      rw [reached] at absent
      simp only [bind, Except.bind, Bool.false_eq_true, ↓reduceIte] at absent ⊢
      cases lies : tree.node? (path.lastPiece :: around) with
      | none => rfl
      | some node =>
          rw [lies] at absent
          cases node <;> cases absent

end Named

/-- Where the files of these paths lie. -/
def placesOf (tree : FileTree) (paths : List Path) : Set Location :=
  {place | ∃ path ∈ paths, ∃ around,
    tree.target path = .ok (.named around path.lastPiece false) ∧ place = path.lastPiece :: around}

theorem placesOf_subset {tree : FileTree} {few many : List Path} (included : few ⊆ many) :
    tree.placesOf few ⊆ tree.placesOf many := by
  rintro place ⟨path, member, leads⟩
  exact ⟨path, included member, leads⟩

/-- From `before` to `after` nothing has changed but that files are gone from these places. -/
structure Pruned (gone : Set Location) (before after : FileTree) : Prop where
  working : after.workingDirectory = before.workingDirectory
  nodes : ∀ place, after.node? place = before.node? place ∨
    place ∈ gone ∧ ¬ before.Directory place ∧ after.node? place = none

namespace Pruned
variable {gone more : Set Location} {first second third before after : FileTree}

theorem refl (gone : Set Location) (tree : FileTree) : Pruned gone tree tree :=
  ⟨rfl, fun _ => .inl rfl⟩

theorem mono (pruned : Pruned gone before after) (included : gone ⊆ more) :
    Pruned more before after :=
  ⟨pruned.working, fun place => (pruned.nodes place).imp id fun lost => ⟨included lost.1, lost.2⟩⟩

theorem directory_iff (pruned : Pruned gone before after) (place : Location) :
    after.Directory place ↔ before.Directory place := by
  rcases pruned.nodes place with same | ⟨_, file, none⟩
  · rw [Directory, Directory, same]
  · constructor
    · intro holds
      rw [Directory, none] at holds
      cases holds
    · exact fun holds => absurd holds file

theorem trans (one : Pruned gone first second) (two : Pruned gone second third) :
    Pruned gone first third := by
  refine ⟨two.working.trans one.working, fun place => ?_⟩
  rcases two.nodes place with same | ⟨member, file, none⟩
  · rw [same]
    exact one.nodes place
  · exact .inr ⟨member, fun holds => file ((one.directory_iff place).mpr holds), none⟩

variable (pruned : Pruned gone before after)
include pruned

/-- Walks go as they went. -/
theorem target_iff {path : Path} (ordinary : Path.OrdinaryName path.lastPiece) {target : Target} :
    after.target path = .ok target ↔ before.target path = .ok target := by
  have forth : Retains Set.univ before after :=
    ⟨pruned.working, fun place => (pruned.directory_iff place).mpr, fun _ out => absurd trivial out⟩
  have back : Retains Set.univ after before :=
    ⟨pruned.working.symm, fun place => (pruned.directory_iff place).mp,
      fun _ out => absurd trivial out⟩
  exact ⟨back.target ordinary, forth.target ordinary⟩

theorem placesOf_eq {paths : List Path}
    (ordinary : ∀ path ∈ paths, Path.OrdinaryName path.lastPiece) :
    after.placesOf paths = before.placesOf paths := by
  ext place
  constructor
  · rintro ⟨path, member, around, reached, same⟩
    exact ⟨path, member, around, (pruned.target_iff (ordinary path member)).mp reached, same⟩
  · rintro ⟨path, member, around, reached, same⟩
    exact ⟨path, member, around, (pruned.target_iff (ordinary path member)).mpr reached, same⟩

/-- Nothing comes back. -/
theorem present_of_present {path : Path} (ordinary : Path.OrdinaryName path.lastPiece)
    (there : after.present path = true) : before.present path = true := by
  rw [present_eq_true_iff] at there ⊢
  rcases there with ⟨node, found⟩
  rcases (status_eq_ok_iff_target ordinary after node).mp found with ⟨around, reached, lies⟩
  refine ⟨node, (status_eq_ok_iff_target ordinary before node).mpr
    ⟨around, (pruned.target_iff ordinary).mp reached, ?_⟩⟩
  rcases pruned.nodes (path.lastPiece :: around) with same | ⟨_, _, none⟩
  · exact same.symm.trans lies
  · rw [none] at lies
    cases lies

end Pruned

/-- A file that was removed is gone, and nothing else is. -/
theorem pruned_of_removeFile {tree after : FileTree} {path : Path}
    (ordinary : Path.OrdinaryName path.lastPiece) (removed : tree.removeFile path = .ok after) :
    Pruned (tree.placesOf [path]) tree after ∧ after.status path = .error .notFound := by
  rcases of_removeFile ordinary removed with ⟨around, reached, rfl⟩
  have file : ¬ tree.Directory (path.lastPiece :: around) := by
    intro holds
    unfold removeFile at removed
    rw [reached] at removed
    simp only [bind, Except.bind, show tree.node? _ = _ from holds] at removed
    cases removed
  have pruned : Pruned (tree.placesOf [path]) tree
      (tree.eraseFile (path.lastPiece :: around)) := by
    refine ⟨workingDirectory_eraseFile .., fun place => ?_⟩
    rw [node?_eraseFile file]
    by_cases same : place = path.lastPiece :: around
    · rw [if_pos same]
      exact .inr ⟨⟨path, List.mem_cons_self, around, reached, same⟩, same ▸ file, rfl⟩
    · rw [if_neg same]
      exact .inl rfl
  refine ⟨pruned, ?_⟩
  have still := (pruned.target_iff ordinary).mpr reached
  rw [status_eq_of_lastPiece ordinary, still]
  simp only [bind, Except.bind, node?_eraseFile file, ↓reduceIte]

end FileTree

namespace Marker
open FileTree

/-- A marker that was removed is gone, or it was not there. -/
theorem pruned_of_remove {tree after : FileTree} {marker : Path}
    (ordinary : Path.OrdinaryName marker.lastPiece)
    (removed : remove tree marker = (after, .ok ())) :
    Pruned (tree.placesOf [marker]) tree after ∧ after.status marker = .error .notFound := by
  unfold remove at removed
  split at removed
  · rename_i smaller gone
    cases removed
    exact pruned_of_removeFile ordinary gone
  · rename_i absent
    cases removed
    exact ⟨.refl .., status_of_removeFile_eq_notFound ordinary absent⟩
  · cases removed

/-- Removing a marker loses no file of another name. -/
theorem retains_remove {marker : Path} (ordinary : Path.OrdinaryName marker.lastPiece)
    (tree : FileTree) :
    Retains {place | ∃ around, place = marker.lastPiece :: around} tree (remove tree marker).1 := by
  rcases removal : remove tree marker with ⟨after, outcome⟩
  cases outcome with
  | ok =>
      rcases of_remove ordinary removal with rfl | ⟨around, _, rfl⟩
      · exact .refl ..
      · refine (retains_eraseFile tree (marker.lastPiece :: around)).mono ?_
        rintro place rfl
        exact ⟨around, rfl⟩
  | error error =>
      unfold remove at removal
      split at removal <;> cases removal
      exact .refl ..

/-- Writing a marker loses temporary files only, also when it fails. -/
theorem retains_write (marker : Path) (process : Nat) (tree : FileTree)
    (ordinary : Path.OrdinaryName marker.lastPiece) :
    Retains (temporaries process) tree (write tree marker process).1 := by
  have beside := lastPiece_temporary marker process
  have extended : Path.OrdinaryName (temporary marker process).lastPiece :=
    beside ▸ ordinaryName_temporaryName process ordinary.plain
  have room := (retains_makeRoom tree marker).mono (Set.empty_subset (temporaries process))
  have names : {place | ∃ around, place = (temporary marker process).lastPiece :: around} ⊆
      temporaries process := by
    rintro place ⟨around, rfl⟩
    exact ⟨marker.lastPiece, around, by rw [beside]⟩
  unfold write
  rcases made : makeRoom tree marker with ⟨grown, outcome⟩
  rw [made] at room
  cases outcome with
  | error error => exact room
  | ok =>
      dsimp only at room ⊢
      split
      · exact room
      · rename_i written put
        have filled := room.trans
          ((FileTree.of_write extended put).1.mono (Set.empty_subset (temporaries process)))
        split
        · exact filled
        · rename_i renamed gave
          exact filled.trans ((of_renameFile extended ordinary gave).1.mono names)

end Marker

namespace Context
open FileTree

variable {context : Context} {graph : Graph}

section Placed
variable {directory : Path} {crates : List Crate} {lower : Crate}
  (placed : ∀ crate ∈ lower :: crates, crate.marker = Crate.markerIn directory crate.name)
  (plain : ∀ crate ∈ lower :: crates, '/' ∉ crate.name.toList)
  (others : ∀ crate ∈ crates, lower.name ≠ crate.name)
include placed plain others

/-- No turn of another crate takes a marker away. -/
theorem present_marker_buildAll {state : State}
    (there : state.world.tree.present lower.marker = true) :
    (context.buildAll graph crates state).1.world.tree.present lower.marker = true := by
  rcases List.forall_mem_cons.mp placed with ⟨own, othersPlaced⟩
  have named : ∀ crate ∈ lower :: crates, crate.marker.lastPiece = Crate.markerName crate.name := by
    intro crate member
    rw [Crate.lastPiece_marker (placed crate member), Path.lastPiece_child (plain crate member)]
  have ordinary := Crate.ordinaryName_lastPiece_marker own
  apply buildAll_keeps (motive := fun tree => tree.present lower.marker = true)
  · intro crate member tree still
    have retains := Marker.retains_remove
      (Crate.ordinaryName_lastPiece_marker (othersPlaced crate member)) tree
    refine retains.present ordinary ?_ still
    rintro around ⟨place, same⟩
    have names := (List.cons.inj same).1
    rw [named lower List.mem_cons_self, named crate (List.mem_cons_of_mem lower member)] at names
    exact others crate member (Crate.markerName_inj.mp names)
  · intro crate member tree still
    exact Crate.present_of_retains own (Marker.retains_write crate.marker context.process tree
      (Crate.ordinaryName_lastPiece_marker (othersPlaced crate member))) still
  · exact there

end Placed

/-- The report says of a crate what its turn says. -/
theorem fate_eq_of_mem_fates {first last : List Crate} {lower : Crate} {state : State} {fate : Fate}
    (distinct : ((first ++ lower :: last).map (·.name)).Nodup)
    (listed : (lower.name, fate) ∈ (context.buildAll graph (first ++ lower :: last) state).2) :
    fate = (context.buildCrate graph lower (context.buildAll graph first state).1).2 := by
  rw [← map_fst_buildAll context graph _ state] at distinct
  have own : (lower.name, (context.buildCrate graph lower
      (context.buildAll graph first state).1).2) ∈
        (context.buildAll graph (first ++ lower :: last) state).2 := by
    rw [buildAll_append, buildAll_cons]
    exact List.mem_append_right _ List.mem_cons_self
  exact (Prod.ext_iff.mp (List.inj_on_of_nodup_map distinct listed own rfl)).2

end Context

namespace Workspace
open FileTree

section Clean
variable {workspace : Workspace} {directory : Path} {crates : List Crate}
  (placed : ∀ crate ∈ crates, crate.marker = Crate.markerIn directory crate.name)
include placed

/-- When all these markers are removed, all are gone, and nothing else is. -/
theorem pruned_of_removeMarkers {world after : World}
    (removed : removeMarkers crates world = (after, .ok ())) :
    Pruned (world.tree.placesOf (crates.map (·.marker))) world.tree after.tree ∧
      (∀ crate ∈ crates, after.tree.present crate.marker = false) ∧
      after.calls = world.calls ∧ after.shown = world.shown := by
  induction crates generalizing world with
  | nil =>
      cases removed
      exact ⟨.refl .., by simp, rfl, rfl⟩
  | cons crate rest ih =>
      have ordinary : ∀ path ∈ (crate :: rest).map (·.marker),
          Path.OrdinaryName path.lastPiece := by
        intro path member
        rcases List.mem_map.mp member with ⟨other, listed, rfl⟩
        exact Crate.ordinaryName_lastPiece_marker (placed other listed)
      rcases List.forall_mem_cons.mp placed with ⟨own, others⟩
      rcases List.forall_mem_cons.mp ordinary with ⟨named, othersNamed⟩
      rw [removeMarkers] at removed
      rcases removal : Marker.remove world.tree crate.marker with ⟨tree, outcome⟩
      simp only [World.removeMarker, removal] at removed
      cases outcome with
      | error error => cases removed
      | ok =>
          rcases Marker.pruned_of_remove named removal with ⟨first, gone⟩
          rcases ih others removed with ⟨second, absent, calls, shown⟩
          rw [first.placesOf_eq othersNamed] at second
          have head : world.tree.placesOf [crate.marker] ⊆
              world.tree.placesOf ((crate :: rest).map (·.marker)) :=
            placesOf_subset (by simp)
          have tail : world.tree.placesOf (rest.map (·.marker)) ⊆
              world.tree.placesOf ((crate :: rest).map (·.marker)) :=
            placesOf_subset (by simp)
          refine ⟨(first.mono head).trans (second.mono tail), ?_, calls, shown⟩
          refine List.forall_mem_cons.mpr ⟨?_, absent⟩
          -- The first marker stays away while the others are removed.
          by_contra there
          have back := second.present_of_present named (Bool.eq_true_of_not_eq_false there)
          simp [present, gone] at back

end Clean

/-- The files that a workspace keeps of its builds. -/
def keptFiles (workspace : Workspace) : List Path :=
  Cache.pathIn workspace.out :: workspace.graph.crates.map (·.marker)

/-- From `before` to `after` all that was kept of builds is removed, and nothing else is changed. -/
structure Cleaned (workspace : Workspace) (before after : World) : Prop where
  markers : ∀ crate ∈ workspace.graph.crates, after.tree.present crate.marker = false
  recorded : after.tree.present (Cache.pathIn workspace.out) = false
  loads : Cache.load after.tree workspace.out = .ok .empty
  others : Pruned (before.tree.placesOf workspace.keptFiles) before.tree after.tree
  calls : after.calls = before.calls
  shown : after.shown = before.shown

/-- What was kept is gone once the markers and the recorded fingerprints are removed. -/
theorem Cleaned.of_absent {workspace : Workspace} {before middle : World} {tree : FileTree}
    (ordinary : ∀ path ∈ workspace.keptFiles, Path.OrdinaryName path.lastPiece)
    (first : Pruned (before.tree.placesOf (workspace.graph.crates.map (·.marker))) before.tree
      middle.tree)
    (absent : ∀ crate ∈ workspace.graph.crates, middle.tree.present crate.marker = false)
    (calls : middle.calls = before.calls) (shown : middle.shown = before.shown)
    (second : Pruned (middle.tree.placesOf [Cache.pathIn workspace.out]) middle.tree tree)
    (gone : tree.status (Cache.pathIn workspace.out) = .error .notFound) :
    workspace.Cleaned before { middle with tree } := by
  rcases List.forall_mem_cons.mp ordinary with ⟨named, markersNamed⟩
  rw [first.placesOf_eq (by simpa using named)] at second
  constructor
  case markers =>
    intro crate member
    by_contra there
    have back := second.present_of_present (markersNamed _ (List.mem_map_of_mem member))
      (Bool.eq_true_of_not_eq_false there)
    rw [absent crate member] at back
    cases back
  case recorded => simp [present, gone]
  case loads =>
    unfold Cache.load
    simp [readText, FileTree.read, gone, bind, Except.bind]
  case others =>
    exact (first.mono (placesOf_subset (List.subset_cons_self _ _))).trans
      (second.mono (placesOf_subset (by simp)))
  case calls => exact calls
  case shown => exact shown

theorem cleaned_clean {workspace : Workspace} {specs : List Spec} {world : World} {status : Int}
    (accepted : Graph.ofSpecs specs workspace.out = .ok workspace.graph)
    (ended : (workspace.clean world).outcome = .ok status) :
    status = 0 ∧ workspace.Cleaned world (workspace.clean world).world := by
  have placed := (Graph.settled_of_ofSpecs accepted).1.marker_eq
  unfold clean at ended ⊢
  rcases removal : removeMarkers workspace.graph.crates world with ⟨after, outcome⟩
  rw [removal] at ended
  cases outcome with
  | error error => cases ended
  | ok =>
      rcases pruned_of_removeMarkers placed removal with ⟨first, absent, calls, shown⟩
      have recorded := Cache.ordinaryName_lastPiece_pathIn workspace.out
      have ordinary : ∀ path ∈ workspace.keptFiles, Path.OrdinaryName path.lastPiece := by
        refine List.forall_mem_cons.mpr ⟨recorded, fun path member => ?_⟩
        rcases List.mem_map.mp member with ⟨crate, listed, rfl⟩
        exact Crate.ordinaryName_lastPiece_marker (placed crate listed)
      dsimp only at ended ⊢
      split at ended
      · rename_i tree removed
        rcases pruned_of_removeFile recorded removed with ⟨second, gone⟩
        cases ended
        exact ⟨rfl, .of_absent ordinary first absent calls shown second gone⟩
      · rename_i missing
        cases ended
        exact ⟨rfl, .of_absent ordinary first absent calls shown (.refl ..)
          (status_of_removeFile_eq_notFound recorded missing)⟩
      · cases ended

end Workspace

namespace Context

section Build
variable {context : Context} {graph : Graph} {directory : Path} {selected : List Crate}
  {world : World} (settled : Graph.Settled directory graph.crates)
  (part : selected.Sublist graph.crates)
include settled part

/-- Nothing is recorded for a crate before its turn when nothing was recorded at first. -/
theorem entry?_before_turn {before after : List Crate} {crate : Crate}
    (place : selected = before ++ crate :: after) :
    (context.buildAll graph before ⟨world, .empty⟩).1.cache.entry? crate.name = none := by
  have order := settled.pairwise.sublist part
  rw [place] at order
  have others : ∀ other ∈ before, crate.name ≠ other.name := fun other member =>
    ((List.pairwise_append.mp order).2.2 other member crate List.mem_cons_self).1.symm
  rw [entry?_buildAll others]
  exact Table.get?_empty crate.name

/-- No crate is current when nothing was recorded. -/
theorem not_cached_of_empty :
    ∀ entry ∈ (context.build graph selected ⟨world, .empty⟩).2.fates, entry.2 ≠ .cached := by
  rintro ⟨name, fate⟩ listed cached
  rw [fates_build] at listed
  have named : name ∈ selected.map (·.name) := by
    rw [← map_fst_buildAll context graph selected ⟨world, .empty⟩]
    exact List.mem_map_of_mem listed
  obtain ⟨crate, chosen, rfl⟩ := List.mem_map.mp named
  obtain ⟨before, after, place⟩ := List.append_of_mem chosen
  have distinct : (selected.map (·.name)).Nodup := settled.nodup_names.sublist (part.map _)
  rw [place] at distinct listed
  have turn := turn_buildCrate context graph crate (context.buildAll graph before ⟨world, .empty⟩).1
  obtain rfl : fate = .cached := cached
  rw [← fate_eq_of_mem_fates distinct listed] at turn
  obtain ⟨_, _, _, known, _⟩ := turn.of_cached
  rw [entry?_before_turn settled part place] at known
  cases known

/-- A crate is ready when its direct dependencies have all been verified. -/
theorem missing_eq_nil_of_verified
    (plain : ∀ crate ∈ graph.crates, '/' ∉ crate.name.toList)
    (closed : ∀ crate ∈ selected, ∀ lower, graph.Below crate lower → lower ∈ selected)
    {before after : List Crate} {crate : Crate} {state : State}
    (place : selected = before ++ crate :: after)
    (verified : ∀ lower ∈ graph.dependencies crate,
      (lower.name, .verified) ∈ (context.build graph selected state).2.fates) :
    graph.missing (context.buildAll graph before state).1.world.tree crate = [] := by
  apply Graph.missing_eq_nil_iff.mpr
  intro lower direct
  have known := (Graph.mem_dependencies_iff settled).mp direct
  have chosen : lower ∈ selected := closed crate (by simp [place]) lower (.single direct)
  obtain ⟨first, last, split⟩ :=
    List.append_of_mem (settled.mem_before part place chosen known.2)
  have inside : ∀ other ∈ lower :: last, other ∈ graph.crates := by
    intro other member
    apply part.subset
    rw [place, split, List.append_assoc]
    exact List.mem_append_right _ (List.mem_append_left _ member)
  have distinct : (selected.map (·.name)).Nodup := settled.nodup_names.sublist (part.map _)
  have listed := verified lower direct
  have placed : selected = first ++ lower :: (last ++ crate :: after) := by simp [place, split]
  rw [placed, fates_build] at listed
  rw [placed] at distinct
  have fate := fate_eq_of_mem_fates distinct listed
  have turn := turn_buildCrate context graph lower (context.buildAll graph first state).1
  rw [← fate] at turn
  have stands := (turn.grows (settled.marker_eq lower known.1) trivial).2.marker
  have order := settled.pairwise.sublist part
  rw [placed] at order
  have others : ∀ other ∈ last, lower.name ≠ other.name := fun other member =>
    ((List.pairwise_cons.mp (List.pairwise_append.mp order).2.1).1 other
      (List.mem_append_left _ member)).1
  rw [split, buildAll_append_fst, buildAll_cons_fst]
  exact present_marker_buildAll (fun other member => settled.marker_eq other (inside other member))
    (fun other member => plain other (inside other member)) others stands

end Build

/-- A build that verifies each crate whose direct dependencies it has verified, if the environment of
the crate's turn is made, its inputs are readable or absent, and its marker can be removed. -/
structure VerifiesAnew (context : Context) (graph : Graph) (selected : List Crate) (state : State) :
    Prop where
  calls : (context.build graph selected state).1.world.calls =
    state.world.calls ++ (context.journal graph selected state).flatMap (·.2)
  turns : (context.journal graph selected state).map (·.1) = selected
  distinct : selected.Nodup
  once : ∀ before crate invocations after environment,
    context.journal graph selected state = before ++ (crate, invocations) :: after →
    (∀ lower ∈ graph.dependencies crate,
      (lower.name, .verified) ∈ (context.build graph selected state).2.fates) →
    context.synthesize (context.buildAll graph (before.map (·.1)) state).1.world.tree
      context.bundle = .ok environment →
    (∀ path ∈ context.inputsOf graph crate, Fingerprint.Readable
      (context.buildAll graph (before.map (·.1)) state).1.world.tree path) →
    ((context.buildAll graph (before.map (·.1)) state).1.world.removeMarker crate.marker).2 =
      .ok () →
    invocations = [Invocation.ofCrate crate context.bundle
      (Linkage.ofCrates (graph.dependencies crate)) environment context.edition]

theorem verifiesAnew_of_empty {specs : List Spec} {directory : Path} {graph : Graph}
    {names : List String} {selected : List Crate}
    (accepted : Graph.ofSpecs specs directory = .ok graph)
    (plain : ∀ spec ∈ specs, '/' ∉ spec.name.toList)
    (chosen : graph.closure names = .ok selected) (context : Context) (world : World) :
    context.VerifiesAnew graph selected ⟨world, .empty⟩ := by
  have settled := (Graph.settled_of_ofSpecs accepted).1
  obtain ⟨part, closed⟩ := Graph.closed_of_closure settled chosen
  constructor
  case calls => exact calls_buildAll selected _
  case turns => exact map_fst_journal context graph selected _
  case distinct => exact (settled.nodup_names.of_map _).sublist part
  case once =>
    intro before crate invocations after environment place verified synthesized readable removed
    have split := (journal_at place).1
    have ready := missing_eq_nil_of_verified settled part
      (Graph.plain_of_ofSpecs accepted plain) closed split verified
    have prepares := prepare_eq_ok_iff.mpr ⟨ready, environment, synthesized, rfl⟩
    obtain ⟨print, printed⟩ := printed_of_readable ready prepares readable
    refine (journal_due place).1 _ ⟨⟨_, print, printed, rfl, ?_⟩, removed⟩
    rintro ⟨_, known⟩
    rw [entry?_before_turn settled part split] at known
    cases known

end Context

namespace Workspace

/-- A cleaning that ends with status zero resets the workspace: no marker and no recorded
fingerprints are left and everything else is as it was. The next build finds no crate current and
verifies each crate above crates that it has verified. -/
theorem builds_anew_after_clean {tree : FileTree} {manifest : Path} {out : Option Path}
    {workspace : Workspace} {machine : Machine} {world : World}
    (loaded : load tree manifest out = .ok workspace)
    (cleaned : (workspace.perform machine world .clean).outcome = .ok 0) :
    workspace.Cleaned world (workspace.perform machine world .clean).world ∧
      ∀ (context : Context) (next : World) recorded names selected,
        next.tree = (workspace.perform machine world .clean).world.tree →
        Cache.load next.tree workspace.out = .ok recorded →
        workspace.graph.closure names = .ok selected →
          (∀ entry ∈ (context.build workspace.graph selected ⟨next, recorded⟩).2.fates,
            entry.2 ≠ .cached) ∧
          ((∀ spec ∈ workspace.manifest.units, '/' ∉ spec.name.toList) →
            context.VerifiesAnew workspace.graph selected ⟨next, recorded⟩) := by
  have accepted := accepted_of_load loaded
  have settled := (Graph.settled_of_ofSpecs accepted).1
  have reset := (cleaned_clean accepted cleaned).2
  refine ⟨reset, ?_⟩
  intro context next recorded names selected same found chosen
  obtain rfl : recorded = .empty := by
    rw [same] at found
    exact Except.ok.inj (found.symm.trans reset.loads)
  have part := (Graph.closed_of_closure settled chosen).1
  exact ⟨Context.not_cached_of_empty settled part,
    fun plain => Context.verifiesAnew_of_empty accepted plain chosen context next⟩

/-- The files of a tandem with both markers, and with recorded fingerprints that cannot be read. -/
def soiledTandem : FileTree :=
  let room := FileTree.furnished.addDirectory "out" []
  let marked := (room.setFile "core.success" ["out"] [] false).setFile "app.success" ["out"] [] false
  marked.setFile "action-cache.json" ["out"] [0xFF] false

def cleanedTandem : World :=
  (tandem.perform Machine.agreeable (.start soiledTandem) .clean).world

/-- The state before the upper crate's turn in the next build. -/
def halfwayTandem : State :=
  (tandemContext.buildAll Graph.tandem [Graph.tandemCore] ⟨cleanedTandem, .empty⟩).1

theorem closure_app : tandem.graph.closure ["app"] = .ok [Graph.tandemCore, Graph.tandemApp] := by
  decide

/-- Both crates of a tandem are verified once more after a cleaning, first the lower one. -/
theorem builds_anew_after_clean_tandem :
    load FileTree.furnished ⟨"verdag.toml"⟩ (some ⟨"out"⟩) = .ok tandem ∧
      soiledTandem.present Graph.tandemCore.marker = true ∧
      soiledTandem.present Graph.tandemApp.marker = true ∧
      (Cache.load soiledTandem ⟨"out"⟩).isOk = false ∧
      (tandem.perform Machine.agreeable (.start soiledTandem) .clean).outcome = .ok 0 ∧
      tandem.Cleaned (.start soiledTandem) cleanedTandem ∧
      tandemContext.journal Graph.tandem [Graph.tandemCore, Graph.tandemApp] ⟨cleanedTandem, .empty⟩ =
        [(Graph.tandemCore, [Prepared.furnished.invocation]),
          (Graph.tandemApp, [Invocation.tandemApp])] := by
  have stood : soiledTandem.present Graph.tandemCore.marker = true ∧
      soiledTandem.present Graph.tandemApp.marker = true := by decide +kernel
  have unread : (Cache.load soiledTandem ⟨"out"⟩).isOk = false := by decide +kernel
  have cleaned : (tandem.perform Machine.agreeable (.start soiledTandem) .clean).outcome = .ok 0 := by
    decide +kernel
  have plain : ∀ spec ∈ tandem.manifest.units, '/' ∉ spec.name.toList := by decide
  obtain ⟨reset, next⟩ := builds_anew_after_clean load_furnished cleaned
  have anew := (next tandemContext cleanedTandem .empty ["app"] _ rfl reset.loads closure_app).2 plain
  -- What each turn needs: an environment, inputs to read, and a marker that can be removed.
  have core : tandemContext.synthesize cleanedTandem.tree Bundle.tandem = .ok Environment.furnished ∧
      (∀ path ∈ tandemContext.inputsOf Graph.tandem Graph.tandemCore,
        cleanedTandem.tree.read path = .error .notFound ∨ cleanedTandem.tree.read path = .ok []) ∧
      (cleanedTandem.removeMarker Graph.tandemCore.marker).2 = .ok () := by decide +kernel
  have app : tandemContext.synthesize halfwayTandem.world.tree Bundle.tandem =
        .ok Environment.furnished ∧
      (∀ path ∈ tandemContext.inputsOf Graph.tandem Graph.tandemApp,
        halfwayTandem.world.tree.read path = .error .notFound ∨
          halfwayTandem.world.tree.read path = .ok []) ∧
      (halfwayTandem.world.removeMarker Graph.tandemApp.marker).2 = .ok () := by decide +kernel
  have verified : ∀ lower ∈ tandem.graph.dependencies Graph.tandemApp, (lower.name, .verified) ∈
      (tandemContext.build tandem.graph [Graph.tandemCore, Graph.tandemApp]
        ⟨cleanedTandem, .empty⟩).2.fates := by decide +kernel
  have first := anew.once [] Graph.tandemCore _ _ Environment.furnished rfl
    (by intro lower member; cases member) core.1
    (fun path input => (core.2.1 path input).imp id fun content => ⟨_, content⟩) core.2.2
  have second := anew.once [(Graph.tandemCore, _)] Graph.tandemApp _ [] Environment.furnished rfl
    verified app.1 (fun path input => (app.2.1 path input).imp id fun content => ⟨_, content⟩) app.2.2
  refine ⟨load_furnished, stood.1, stood.2, unread, cleaned, reset, ?_⟩
  exact congrArg₂ (fun one two => [(Graph.tandemCore, one), (Graph.tandemApp, two)]) first second

end Workspace

end ProofBuild
