import ProofBuild.Proofs.Spelling

/-!
What operations on files leave in place. A directory stays a directory, so a walk that arrives goes on
to arrive at the same place, and what is found at a path goes on to be found unless its own name is
taken away. Nothing is asked of paths here but that they end in a name: they may step outward, and units may
have slashes in their names. A run that succeeds takes the crate's marker away and puts it back. Main
statement: when all crates of a build succeed, all have their markers and entries in the end
(`standing_buildAll`).
-/

namespace ProofBuild

namespace Path

section LastPiece
variable {path : Path} (ordinary : OrdinaryName path.lastPiece)

theorem lastPiece_extendedBy {suffix : String} (plain : '/' ∉ suffix.toList) (path : Path) :
    (path.extendedBy suffix).lastPiece = path.lastPiece ++ suffix := by
  rw [lastPiece, pieces_extendedBy plain, List.getLast?_concat]
  rfl

theorem lastPiece_child {name : String} (plain : '/' ∉ name.toList) (base : Path) :
    (base.child name).lastPiece = name := by
  have whole : Text.cut '/' name.toList = [name.toList] := Text.cut_of_not_mem plain
  have relative := isAbsolute_of_plain plain
  unfold lastPiece pieces Text.pieces child join
  rw [relative]
  cases ends : base.text.toList.getLast? with
  | none =>
      have blank : base.text.toList = [] := List.getLast?_eq_none_iff.mp ends
      simp [blank, whole]
  | some last =>
      rcases List.getLast?_eq_some_iff.mp ends with ⟨front, characters⟩
      by_cases slash : last = '/'
      · simp [slash, characters, Text.cut_append_separator, whole]
      · simp [Text.cut_append_separator, whole]

include ordinary

theorem pieces_eq_of_lastPiece : ∃ front, path.pieces = front ++ [path.lastPiece] := by
  cases last : path.pieces.getLast? with
  | none =>
      have blank : path.lastPiece = "" := by simp [lastPiece, last]
      exact absurd blank ordinary.named
  | some piece =>
      rcases List.getLast?_eq_some_iff.mp last with ⟨front, pieces⟩
      have same : path.lastPiece = piece := by simp [lastPiece, last]
      exact ⟨front, same ▸ pieces⟩

theorem steps_eq_of_lastPiece : ∃ front, path.steps = front ++ [path.lastPiece] := by
  rcases pieces_eq_of_lastPiece ordinary with ⟨front, pieces⟩
  refine ⟨front.filter (· ≠ ""), ?_⟩
  rw [steps, pieces, List.filter_append]
  simp [ordinary.named]

/-- A path that ends in a name has no slash behind it. -/
theorem unslashed : path.text.toList.getLast? ≠ some '/' := by
  intro slash
  rcases List.getLast?_eq_some_iff.mp slash with ⟨front, characters⟩
  have blank : path.lastPiece = "" := by
    unfold lastPiece pieces Text.pieces
    rw [characters, Text.cut_append_separator]
    simp [Text.cut]
  exact ordinary.named blank

end LastPiece

end Path

namespace Crate

/-- A marker is a name of its own, whatever the unit is called. -/
theorem lastPiece_markerIn (directory : Path) (name : String) :
    (markerIn directory name).lastPiece = markerName (directory.child name).lastPiece := by
  rw [markerIn_eq, Path.lastPiece_extendedBy (by decide)]
  rfl

end Crate

namespace FileTree

theorem descend_append (tree : FileTree) (here : Location) (front rest : List String) :
    tree.descend here (front ++ rest) = (do
      let place ← tree.descend here front
      tree.descend place rest) := by
  induction front generalizing here with
  | nil => rfl
  | cons step front ih =>
      rw [List.cons_append, descend, descend]
      cases tree.node? here with
      | none => rfl
      | some node =>
          cases node with
          | file content executable => rfl
          | directory =>
              dsimp only
              split
              · exact ih here
              · split
                · exact ih here.tail
                · split
                  · rfl
                  · exact ih (step :: here)

section Named
variable {path : Path} (ordinary : Path.OrdinaryName path.lastPiece) (tree : FileTree)
include ordinary

/-- A path that ends in a name is walked to the directory around the name. -/
theorem target_eq_of_lastPiece : tree.target path = (do
    let address ← path.address
    let around ← tree.descend (tree.startOf address) path.steps.dropLast
    match tree.node? around with
    | none => .error .notFound
    | some (.file ..) => .error .notDirectory
    | some .directory =>
        if nameLimit < path.lastPiece.utf8ByteSize then .error .nameTooLong
        else .ok (.named around path.lastPiece false)) := by
  rcases Path.steps_eq_of_lastPiece ordinary with ⟨front, steps⟩
  have dots : ¬ (path.lastPiece = "." ∨ path.lastPiece = "..") := by
    simp [ordinary.notHere, ordinary.notUp]
  unfold target
  cases addressed : path.address with
  | error error => rfl
  | ok address =>
      rcases Path.of_address_eq_ok addressed with ⟨_, _, _, rfl⟩
      simp only [bind, Except.bind, steps, List.getLast?_concat, List.dropLast_concat]
      cases tree.descend (tree.startOf _) front with
      | error error => rfl
      | ok around =>
          dsimp only
          cases tree.node? around with
          | none => rfl
          | some node =>
              cases node with
              | file content executable => rfl
              | directory =>
                  dsimp only
                  rw [if_neg dots, decide_eq_false (Path.unslashed ordinary)]

theorem of_target_eq_ok {target : Target} (reached : tree.target path = .ok target) :
    ∃ around, target = .named around path.lastPiece false ∧ tree.Directory around := by
  rw [target_eq_of_lastPiece ordinary] at reached
  rcases bind_eq_ok reached with ⟨address, _, walk⟩
  rcases bind_eq_ok walk with ⟨around, _, last⟩
  split at last
  · cases last
  · cases last
  · rename_i holds
    split at last
    · cases last
    · cases last
      exact ⟨around, rfl, holds⟩

/-- What is found at a path that ends in a name, or why nothing is found there, is told by the walk to
the directory around it. -/
theorem status_eq_of_lastPiece : tree.status path = (do
    match ← tree.target path with
    | .fixed => .error .isDirectory
    | .named around name _ =>
        match tree.node? (name :: around) with
        | none => .error .notFound
        | some node => .ok node) := by
  rcases Path.steps_eq_of_lastPiece ordinary with ⟨front, steps⟩
  rw [target_eq_of_lastPiece ordinary, status, locate]
  cases addressed : path.address with
  | error error => rfl
  | ok address =>
      rcases Path.of_address_eq_ok addressed with ⟨_, _, _, rfl⟩
      simp only [bind, Except.bind, decide_eq_false (Path.unslashed ordinary), Bool.false_eq_true,
        ↓reduceIte, List.append_nil, steps, List.dropLast_concat, descend_append]
      cases tree.descend (tree.startOf _) front with
      | error error => rfl
      | ok around =>
          simp only [descend, ordinary.notHere, ordinary.notUp, ↓reduceIte]
          cases tree.node? around with
          | none => rfl
          | some node =>
              cases node with
              | file content executable => rfl
              | directory =>
                  by_cases long : nameLimit < path.lastPiece.utf8ByteSize
                  · simp [long]
                  · cases lies : tree.node? (path.lastPiece :: around) <;> simp [long, lies]

/-- What is found at a path that ends in a name is what lies under the name in the directory around
it. -/
theorem status_eq_ok_iff_target (node : Node) :
    tree.status path = .ok node ↔
      ∃ around, tree.target path = .ok (.named around path.lastPiece false) ∧
        tree.node? (path.lastPiece :: around) = some node := by
  rw [status_eq_of_lastPiece ordinary]
  cases reached : tree.target path with
  | error error => simp [bind, Except.bind]
  | ok target =>
      rcases of_target_eq_ok ordinary tree reached with ⟨around, rfl, _⟩
      simp only [bind, Except.bind, Except.ok.injEq, Target.named.injEq, and_true, exists_eq_left']
      cases tree.node? (path.lastPiece :: around) <;> simp

end Named

/-- From `before` to `after` directories stay, and whatever lies at a place stays something, unless
the place is lost. -/
structure Retains (lost : Set Location) (before after : FileTree) : Prop where
  working : after.workingDirectory = before.workingDirectory
  directories : ∀ place, before.Directory place → after.Directory place
  nodes : ∀ place, place ∉ lost → (before.node? place).isSome → (after.node? place).isSome

namespace Retains
variable {lost more : Set Location} {first second third before after : FileTree}

theorem refl (lost : Set Location) (tree : FileTree) : Retains lost tree tree :=
  ⟨rfl, fun _ holds => holds, fun _ _ there => there⟩

theorem trans (one : Retains lost first second) (two : Retains lost second third) :
    Retains lost first third := by
  constructor
  · exact two.working.trans one.working
  · exact fun place holds => two.directories place (one.directories place holds)
  · exact fun place kept there => two.nodes place kept (one.nodes place kept there)

theorem mono (retains : Retains lost before after) (included : lost ⊆ more) :
    Retains more before after := by
  constructor
  · exact retains.working
  · exact retains.directories
  · exact fun place kept => retains.nodes place fun member => kept (included member)

variable (retains : Retains lost before after)
include retains

theorem descend {here place : Location} {steps : List String}
    (arrives : before.descend here steps = .ok place) : after.descend here steps = .ok place := by
  induction steps generalizing here with
  | nil => exact arrives
  | cons step rest ih =>
      rw [FileTree.descend] at arrives ⊢
      cases found : before.node? here with
      | none => simp [found] at arrives
      | some node =>
          cases node with
          | file content executable => simp [found] at arrives
          | directory =>
              have still : after.node? here = some .directory := retains.directories here found
              simp only [found] at arrives
              simp only [still]
              by_cases dot : step = "."
              · rw [if_pos dot] at arrives ⊢
                exact ih arrives
              by_cases up : step = ".."
              · rw [if_neg dot, if_pos up] at arrives ⊢
                exact ih arrives
              by_cases long : nameLimit < step.utf8ByteSize
              · rw [if_neg dot, if_neg up, if_pos long] at arrives
                cases arrives
              · rw [if_neg dot, if_neg up, if_neg long] at arrives ⊢
                exact ih arrives

theorem target {path : Path} (ordinary : Path.OrdinaryName path.lastPiece) {target : Target}
    (reached : before.target path = .ok target) : after.target path = .ok target := by
  rw [target_eq_of_lastPiece ordinary] at reached ⊢
  cases addressed : path.address with
  | error error => simp [addressed, bind, Except.bind] at reached
  | ok address =>
      have start : after.startOf address = before.startOf address := by
        simp [startOf, retains.working]
      simp only [addressed, bind, Except.bind] at reached ⊢
      rw [start]
      split at reached
      · cases reached
      · rename_i around arrives
        rw [retains.descend arrives]
        split at reached
        · cases reached
        · cases reached
        · rename_i holds
          have still : after.node? around = some .directory := retains.directories around holds
          simp only [still]
          exact reached

/-- What is present stays present, unless its own name is lost. -/
theorem present {path : Path} (ordinary : Path.OrdinaryName path.lastPiece)
    (kept : ∀ around, path.lastPiece :: around ∉ lost) (there : before.present path = true) :
    after.present path = true := by
  rw [present_eq_true_iff] at there ⊢
  rcases there with ⟨node, found⟩
  rcases (status_eq_ok_iff_target ordinary before node).mp found with ⟨around, reached, lies⟩
  have still := retains.nodes _ (kept around) (by simp [lies])
  rcases Option.isSome_iff_exists.mp still with ⟨other, liesStill⟩
  exact ⟨other, (status_eq_ok_iff_target ordinary after other).mpr
    ⟨around, retains.target ordinary reached, liesStill⟩⟩

end Retains

section Operations

theorem retains_setFile (tree : FileTree) (name : String) (parent : Location) (content : Bytes)
    (executable : Bool) : Retains ∅ tree (tree.setFile name parent content executable) := by
  by_cases allowed : tree.Directory parent ∧ ¬ tree.Directory (name :: parent)
  · have nodes := node?_setFile content executable allowed.1 allowed.2
    constructor
    · exact workingDirectory_setFile ..
    · intro place holds
      have other : place ≠ name :: parent := fun same => allowed.2 (same ▸ holds)
      rw [Directory, nodes, if_neg other]
      exact holds
    · intro place _ there
      rw [nodes]
      split
      · rfl
      · exact there
  · rw [setFile, dif_neg allowed]
    exact .refl ..

theorem retains_addDirectory (tree : FileTree) (name : String) (parent : Location) :
    Retains ∅ tree (tree.addDirectory name parent) := by
  by_cases allowed : tree.Directory parent ∧ tree.node? (name :: parent) = none
  · have nodes := node?_addDirectory allowed.1 allowed.2
    constructor
    · exact workingDirectory_addDirectory ..
    · intro place holds
      rw [Directory, nodes]
      split
      · rfl
      · exact holds
    · intro place _ there
      rw [nodes]
      split
      · rfl
      · exact there
  · rw [addDirectory, dif_neg allowed]
    exact .refl ..

theorem retains_eraseFile (tree : FileTree) (location : Location) :
    Retains {location} tree (tree.eraseFile location) := by
  by_cases holds : tree.Directory location
  · rw [eraseFile, dif_pos holds]
    exact .refl ..
  · have nodes := node?_eraseFile holds
    constructor
    · exact workingDirectory_eraseFile ..
    · intro place directory
      have other : place ≠ location := fun same => holds (same ▸ directory)
      rw [Directory, nodes, if_neg other]
      exact directory
    · intro place kept there
      have other : place ≠ location := kept
      rw [nodes, if_neg other]
      exact there

theorem retains_makeDirectory {tree grown : FileTree} {path : Path}
    (made : tree.makeDirectory path = .ok grown) : Retains ∅ tree grown := by
  unfold makeDirectory at made
  rcases bind_eq_ok made with ⟨target, reached, last⟩
  cases target with
  | fixed => cases last
  | named parent name slashed =>
      dsimp only at last
      split at last
      · cases last
      · cases last
        exact retains_addDirectory ..

theorem retains_makeDirectories (tree : FileTree) (path : Path) :
    Retains ∅ tree (tree.makeDirectories path).1 := by
  apply makeDirectories_keeps (fun _ => True) (motive := Retains ∅ tree)
  · intro before after _ _ retains made
    exact retains.trans (retains_makeDirectory made)
  · exact .refl ..
  · exact fun _ _ => trivial

/-- A file that was written reads as it was written, and all that was there before is there. -/
theorem of_write {tree after : FileTree} {path : Path} {content : Bytes}
    (ordinary : Path.OrdinaryName path.lastPiece) (written : tree.write path content = .ok after) :
    Retains ∅ tree after ∧ after.read path = .ok content := by
  unfold write at written
  rcases bind_eq_ok written with ⟨target, reached, last⟩
  rcases of_target_eq_ok ordinary tree reached with ⟨around, rfl, inside⟩
  have set : ∀ executable, ¬ tree.Directory (path.lastPiece :: around) →
      tree.setFile path.lastPiece around content executable = after →
      Retains ∅ tree after ∧ after.read path = .ok content := by
    rintro executable free rfl
    have retains := retains_setFile tree path.lastPiece around content executable
    refine ⟨retains, (read_eq_ok_iff ..).mpr ⟨executable, ?_⟩⟩
    apply (status_eq_ok_iff_target ordinary ..).mpr
    refine ⟨around, retains.target ordinary reached, ?_⟩
    rw [node?_setFile content executable inside free, if_pos rfl]
  simp only [Bool.false_eq_true, ↓reduceIte] at last
  split at last
  · cases last
  · rename_i old executable lies
    cases last
    exact set executable (by simp [Directory, lies]) rfl
  · rename_i absent
    cases last
    exact set false (by simp [Directory, absent]) rfl

theorem of_removeFile {tree after : FileTree} {path : Path}
    (ordinary : Path.OrdinaryName path.lastPiece) (removed : tree.removeFile path = .ok after) :
    ∃ around, tree.target path = .ok (.named around path.lastPiece false) ∧
      after = tree.eraseFile (path.lastPiece :: around) := by
  unfold removeFile at removed
  rcases bind_eq_ok removed with ⟨target, reached, last⟩
  rcases of_target_eq_ok ordinary tree reached with ⟨around, rfl, _⟩
  simp only [Bool.false_eq_true, ↓reduceIte] at last
  split at last
  · cases last
  · cases last
  · cases last
    exact ⟨around, reached, rfl⟩

/-- A file that gets another name is found by it, and only the name it had is lost. -/
theorem of_renameFile {tree after : FileTree} {source destination : Path}
    (named : Path.OrdinaryName source.lastPiece) (renamed : Path.OrdinaryName destination.lastPiece)
    (gave : tree.renameFile source destination = .ok after) :
    Retains {place | ∃ around, place = source.lastPiece :: around} tree after ∧
      after.present destination = true := by
  unfold renameFile at gave
  rcases bind_eq_ok gave with ⟨old, leaves, rest⟩
  rcases bind_eq_ok rest with ⟨new, reached, last⟩
  rcases of_target_eq_ok named tree leaves with ⟨sourceAround, rfl, _⟩
  rcases of_target_eq_ok renamed tree reached with ⟨around, rfl, inside⟩
  simp only [Bool.false_eq_true, ↓reduceIte] at last
  split at last
  · cases last
  · cases last
  · cases last
  · rename_i content executable lies free
    split at last
    · rename_i same
      cases last
      have found := (status_eq_ok_iff_target renamed ..).mpr ⟨around, reached, same ▸ lies⟩
      exact ⟨.refl .., (present_eq_true_iff ..).mpr ⟨_, found⟩⟩
    · rename_i different
      cases last
      have file : ¬ tree.Directory (source.lastPiece :: sourceAround) := by simp [Directory, lies]
      have erased := retains_eraseFile tree (source.lastPiece :: sourceAround)
      have stillInside := erased.directories around inside
      have stillFree : ¬ (tree.eraseFile (source.lastPiece :: sourceAround)).Directory
          (destination.lastPiece :: around) := by
        simpa [Directory, node?_eraseFile file, Ne.symm different] using free
      have own : {source.lastPiece :: sourceAround} ⊆
          {place | ∃ around, place = source.lastPiece :: around} := by
        rintro place rfl
        exact ⟨sourceAround, rfl⟩
      have set := retains_setFile (tree.eraseFile (source.lastPiece :: sourceAround))
        destination.lastPiece around content executable
      have both := (erased.mono own).trans (set.mono (Set.empty_subset _))
      refine ⟨both, (present_eq_true_iff ..).mpr ⟨.file content executable, ?_⟩⟩
      apply (status_eq_ok_iff_target renamed ..).mpr
      refine ⟨around, both.target renamed reached, ?_⟩
      rw [node?_setFile content executable stillInside stillFree, if_pos rfl]

end Operations

end FileTree

namespace Marker
open FileTree

/-- The places of temporary files. -/
def temporaries (process : Nat) : Set Location :=
  {place | ∃ name around, place = temporaryName name process :: around}

variable {tree after : FileTree} {marker : Path} (ordinary : Path.OrdinaryName marker.lastPiece)
include ordinary

theorem of_remove (removed : remove tree marker = (after, .ok ())) :
    after = tree ∨ ∃ around, tree.target marker = .ok (.named around marker.lastPiece false) ∧
      after = tree.eraseFile (marker.lastPiece :: around) := by
  unfold remove at removed
  split at removed
  · rename_i smaller gone
    cases removed
    exact .inr (of_removeFile ordinary gone)
  · cases removed
    exact .inl rfl
  · cases removed

omit ordinary in
theorem retains_makeRoom (tree : FileTree) (marker : Path) :
    Retains ∅ tree (makeRoom tree marker).1 := by
  unfold makeRoom
  split
  · exact .refl ..
  · split
    · exact .refl ..
    · exact retains_makeDirectories ..

omit ordinary in
theorem lastPiece_temporary (marker : Path) (process : Nat) :
    (temporary marker process).lastPiece = temporaryName marker.lastPiece process := by
  have blank : '/' ∉ "".toList := by decide
  have suffix : '/' ∉ s!".tmp{process}".toList := by
    simpa [temporaryName] using (ordinaryName_temporaryName process blank).plain
  exact Path.lastPiece_extendedBy suffix marker

/-- A marker that was written is there, and only a temporary file is gone. -/
theorem of_write {process : Nat} (wrote : write tree marker process = (after, .ok ())) :
    Retains (temporaries process) tree after ∧ after.present marker = true := by
  have beside := lastPiece_temporary marker process
  have extended : Path.OrdinaryName (temporary marker process).lastPiece :=
    beside ▸ ordinaryName_temporaryName process ordinary.plain
  have room := retains_makeRoom tree marker
  unfold write at wrote
  rcases made : makeRoom tree marker with ⟨grown, outcome⟩
  rw [made] at room wrote
  cases outcome with
  | error error => cases wrote
  | ok done =>
      dsimp only at wrote
      split at wrote
      · cases wrote
      · rename_i written put
        split at wrote
        · cases wrote
        · rename_i renamed gave
          cases wrote
          have filled := room.trans (FileTree.of_write extended put).1
          rcases of_renameFile extended ordinary gave with ⟨moved, there⟩
          have names : {place | ∃ around, place = (temporary marker process).lastPiece :: around} ⊆
              temporaries process := by
            rintro place ⟨around, rfl⟩
            exact ⟨marker.lastPiece, around, by rw [beside]⟩
          exact ⟨(filled.mono (Set.empty_subset _)).trans (moved.mono names), there⟩

/-- Taking a marker away and putting it back leaves everything but temporary files. -/
theorem retains_of_replaced {process : Nat} {cleared : FileTree}
    (removed : remove tree marker = (cleared, .ok ()))
    (wrote : write cleared marker process = (after, .ok ())) :
    Retains (temporaries process) tree after ∧ after.present marker = true := by
  rcases of_write ordinary wrote with ⟨put, there⟩
  refine ⟨?_, there⟩
  rcases of_remove ordinary removed with rfl | ⟨around, reached, rfl⟩
  · exact put
  · have away := retains_eraseFile tree (marker.lastPiece :: around)
    -- The walk to the marker ends where it ended before, so that place is taken again.
    have arrives := put.target ordinary (away.target ordinary reached)
    rcases (present_eq_true_iff ..).mp there with ⟨node, found⟩
    rcases (status_eq_ok_iff_target ordinary ..).mp found with ⟨place, same, lies⟩
    rw [arrives] at same
    cases same
    constructor
    · exact put.working.trans away.working
    · exact fun place holds => put.directories place (away.directories place holds)
    · intro place kept held
      by_cases own : place = marker.lastPiece :: around
      · rw [own, lies]
        rfl
      · exact put.nodes place kept (away.nodes place own held)

end Marker

/-- From `before` to `after` nothing is lost but temporary files. -/
structure State.Grows (process : Nat) (before after : State) : Prop where
  tree : FileTree.Retains (Marker.temporaries process) before.world.tree after.world.tree
  recorded : ∀ name, (before.cache.entry? name).isSome → (after.cache.entry? name).isSome

theorem State.Grows.refl (process : Nat) (state : State) : Grows process state state :=
  ⟨.refl .., fun _ known => known⟩

theorem State.Grows.trans {process : Nat} {first second third : State}
    (one : Grows process first second) (two : Grows process second third) :
    Grows process first third :=
  ⟨one.tree.trans two.tree, fun name known => two.recorded name (one.recorded name known)⟩

namespace Crate

/-- A crate's marker is there and its fingerprint is recorded. -/
structure Standing (crate : Crate) (state : State) : Prop where
  marker : state.world.tree.present crate.marker = true
  recorded : (state.cache.entry? crate.name).isSome

variable {directory : Path} {crate : Crate} (placed : crate.marker = markerIn directory crate.name)
include placed

theorem lastPiece_marker :
    crate.marker.lastPiece = markerName (directory.child crate.name).lastPiece :=
  placed ▸ lastPiece_markerIn directory crate.name

theorem ordinaryName_lastPiece_marker : Path.OrdinaryName crate.marker.lastPiece :=
  lastPiece_marker placed ▸ ordinaryName_markerName (Path.slash_not_mem_lastPiece _)

theorem present_of_retains {process : Nat} {before after : FileTree}
    (retains : FileTree.Retains (Marker.temporaries process) before after)
    (there : before.present crate.marker = true) : after.present crate.marker = true := by
  apply retains.present (ordinaryName_lastPiece_marker placed) ?_ there
  rintro around ⟨name, _, same⟩
  rw [lastPiece_marker placed] at same
  exact temporaryName_ne_markerName name _ process (List.cons.inj same).1.symm

theorem Standing.grown {process : Nat} {before after : State} (standing : crate.Standing before)
    (grows : State.Grows process before after) : crate.Standing after :=
  ⟨present_of_retains placed grows.tree standing.marker, grows.recorded _ standing.recorded⟩

end Crate

namespace Context
open FileTree

variable {context : Context} {graph : Graph} {directory : Path}

section Turn
variable {crate : Crate} (placed : crate.marker = Crate.markerIn directory crate.name)
include placed

theorem Executed.retains {invocation : Invocation} {before after : World} {marker : Path}
    (executed : Executed context crate invocation before after (.ok marker)) :
    Retains (Marker.temporaries context.process) before.tree after.tree ∧
      after.tree.present crate.marker = true := by
  have ordinary := Crate.ordinaryName_lastPiece_marker placed
  cases executed with
  | run removed started =>
      cases started with
      | done answer passed written =>
          exact Marker.retains_of_replaced ordinary (Prod.ext rfl removed) (Prod.ext rfl written)

/-- A crate that succeeds stands, and what was there before stays. -/
theorem Turn.grows {before after : State} {fate : Fate}
    (turn : Turn context graph crate before after fate) (success : fate.Success) :
    State.Grows context.process before after ∧ crate.Standing after := by
  cases turn with
  | blocked | refused | failed => exact absurd success id
  | current printed fresh => exact ⟨⟨.refl .., fun _ known => known⟩, fresh.1, by simp [fresh.2]⟩
  | verified printed stale executed =>
      rcases executed.retains placed with ⟨kept, there⟩
      refine ⟨⟨kept, ?_⟩, there, by simp⟩
      intro name known
      by_cases own : name = crate.name
      · simp [own]
      · simpa [own] using known

end Turn

theorem map_fst_buildAll (context : Context) (graph : Graph) (crates : List Crate) (state : State) :
    (context.buildAll graph crates state).2.map (·.1) = crates.map (·.name) := by
  induction crates generalizing state with
  | nil => rfl
  | cons crate rest ih => rw [buildAll_cons, List.map_cons, List.map_cons, ih]

/-- When all crates succeed, all of them stand in the end: none takes away what another left. -/
theorem standing_buildAll {crates : List Crate}
    (placed : ∀ crate ∈ crates, crate.marker = Crate.markerIn directory crate.name) (state : State)
    (success : ∀ entry ∈ (context.buildAll graph crates state).2, entry.2.Success) :
    State.Grows context.process state (context.buildAll graph crates state).1 ∧
      ∀ crate ∈ crates, crate.Standing (context.buildAll graph crates state).1 := by
  induction crates generalizing state with
  | nil => exact ⟨.refl .., by simp⟩
  | cons crate rest ih =>
      rw [buildAll_cons] at success ⊢
      have own := placed crate List.mem_cons_self
      rcases (turn_buildCrate context graph crate state).grows own
        (success _ List.mem_cons_self) with ⟨first, stands⟩
      rcases ih (fun other member => placed other (List.mem_cons_of_mem crate member)) _
        (fun entry member => success entry (List.mem_cons_of_mem _ member)) with ⟨second, others⟩
      refine ⟨first.trans second, ?_⟩
      intro other member
      rcases List.mem_cons.mp member with rfl | later
      · exact stands.grown own second
      · exact others other later

end Context

end ProofBuild
