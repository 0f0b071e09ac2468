import Mathlib.Data.Set.Insert
import ProofBuild.Proofs.Lookup
import ProofBuild.Proofs.Parents

/-!
Changes that stay in one directory. Keeping markers changes files of one directory and, at most,
opens that directory and those around it. Main statements: each operation on a name in the
directory is such a change, and reading an inward path that lies clear of the directory gives the
same answer after it (`ChangedIn.read`). One answer can differ: a missing file whose name is too
long is refused, once a directory above it exists.
-/

namespace ProofBuild

namespace FileTree

/-- From `before` to `after` only the given names in `room` have changed, and directories may have
appeared at `room` and around it. -/
structure ChangedIn (room : Location) (names : Set String) (before after : FileTree) : Prop where
  working : after.workingDirectory = before.workingDirectory
  elsewhere : ∀ place, (∀ name ∈ names, place ≠ name :: room) →
    after.node? place = before.node? place ∨
      Within place room ∧ before.node? place = none ∧ after.node? place = some .directory

namespace ChangedIn

variable {room : Location} {names more : Set String} {first second third : FileTree}

theorem refl (room : Location) (names : Set String) (tree : FileTree) :
    ChangedIn room names tree tree :=
  ⟨rfl, fun _ _ => .inl rfl⟩

theorem trans (one : ChangedIn room names first second) (two : ChangedIn room names second third) :
    ChangedIn room names first third := by
  refine ⟨two.working.trans one.working, fun place other => ?_⟩
  rcases one.elsewhere place other with same | ⟨around, absent, opened⟩
  · rw [← same]
    exact two.elsewhere place other
  · rcases two.elsewhere place other with same | ⟨_, gone, _⟩
    · exact .inr ⟨around, absent, same.trans opened⟩
    · rw [opened] at gone
      cases gone

theorem mono (change : ChangedIn room names first second) (included : names ⊆ more) :
    ChangedIn room more first second :=
  ⟨change.working, fun place other =>
    change.elsewhere place fun name member => other name (included member)⟩

/-- A name in the room that is not among the changed ones keeps its node. -/
theorem node?_name (change : ChangedIn room names first second) {name : String}
    (other : name ∉ names) : second.node? (name :: room) = first.node? (name :: room) := by
  rcases change.elsewhere (name :: room) (by
      intro changed member same
      exact other ((List.cons.inj same).1 ▸ member)) with same | ⟨around, _, _⟩
  · exact same
  · have lengths := around.length_le
    simp only [List.length_cons] at lengths
    omega

end ChangedIn

section Operations
variable {room : Location}

@[simp] theorem workingDirectory_setFile (tree : FileTree) (name : String) (parent : Location)
    (content : Bytes) (executable : Bool) :
    (tree.setFile name parent content executable).workingDirectory = tree.workingDirectory := by
  unfold setFile
  split <;> rfl

@[simp] theorem workingDirectory_addDirectory (tree : FileTree) (name : String)
    (parent : Location) : (tree.addDirectory name parent).workingDirectory = tree.workingDirectory := by
  unfold addDirectory
  split <;> rfl

@[simp] theorem workingDirectory_eraseFile (tree : FileTree) (location : Location) :
    (tree.eraseFile location).workingDirectory = tree.workingDirectory := by
  unfold eraseFile
  split <;> rfl

theorem changedIn_setFile (room : Location) (tree : FileTree) (name : String) (content : Bytes)
    (executable : Bool) : ChangedIn room {name} tree (tree.setFile name room content executable) := by
  refine ⟨workingDirectory_setFile .., fun place other => .inl ?_⟩
  by_cases allowed : tree.Directory room ∧ ¬ tree.Directory (name :: room)
  · rw [node?_setFile content executable allowed.1 allowed.2, if_neg (other name rfl)]
  · rw [setFile, dif_neg allowed]

theorem changedIn_eraseFile (room : Location) (tree : FileTree) (name : String) :
    ChangedIn room {name} tree (tree.eraseFile (name :: room)) := by
  refine ⟨workingDirectory_eraseFile .., fun place other => .inl ?_⟩
  by_cases holds : tree.Directory (name :: room)
  · rw [eraseFile, dif_pos holds]
  · rw [node?_eraseFile holds, if_neg (other name rfl)]

theorem changedIn_addDirectory {tree : FileTree} {name : String} {parent : Location}
    (around : Within (name :: parent) room) : ChangedIn room ∅ tree (tree.addDirectory name parent) := by
  refine ⟨workingDirectory_addDirectory .., fun place _ => ?_⟩
  by_cases allowed : tree.Directory parent ∧ tree.node? (name :: parent) = none
  · rw [node?_addDirectory allowed.1 allowed.2]
    by_cases same : place = name :: parent
    · subst same
      exact .inr ⟨around, allowed.2, if_pos rfl⟩
    · exact .inl (if_neg same)
  · rw [addDirectory, dif_neg allowed]
    exact .inl rfl

/-- Whether a directory may be made at the path on the way to the room. -/
def Around (room : Location) (here : Location) (path : Path) : Prop :=
  path.Inward ∧ Within (path.place here) room

theorem changedIn_makeDirectory {tree grown : FileTree} {path : Path}
    (around : Around room tree.workingDirectory path) (made : tree.makeDirectory path = .ok grown) :
    ChangedIn room ∅ tree grown := by
  unfold makeDirectory at made
  cases reached : tree.target path with
  | error error => simp [reached, bind, Except.bind] at made
  | ok target =>
      cases target with
      | fixed => simp [reached, bind, Except.bind] at made
      | named parent name slashed =>
          simp only [reached, bind, Except.bind] at made
          split at made
          · cases made
          · cases made
            obtain ⟨place, _, _⟩ := of_target_eq_named around.1 reached
            exact changedIn_addDirectory (place ▸ around.2)

section Keeps
variable {motive : FileTree → Prop} (among : Path → Prop)
  (step : ∀ {before after : FileTree} {path : Path}, among path → motive before →
    before.makeDirectory path = .ok after → motive after)
include step

theorem firstDirectory_keeps {tree grown : FileTree} {missing more paths : List Path}
    (kept : motive tree) (missingAmong : ∀ path ∈ missing, among path)
    (pathsAmong : ∀ path ∈ paths, among path)
    (made : tree.firstDirectory missing paths = .ok (grown, more)) :
    motive grown ∧ ∀ path ∈ more, among path := by
  induction paths generalizing missing with
  | nil =>
      cases made
      exact ⟨kept, missingAmong⟩
  | cons path above ih =>
      unfold firstDirectory at made
      split at made
      · rename_i opened
        cases made
        exact ⟨step (pathsAmong path List.mem_cons_self) kept opened, missingAmong⟩
      · refine ih ?_ (fun other member => pathsAmong other (List.mem_cons_of_mem path member)) made
        intro other member
        rcases List.mem_cons.mp member with same | waiting
        · exact same ▸ pathsAmong path List.mem_cons_self
        · exact missingAmong other waiting
      · split at made
        · cases made
          exact ⟨kept, missingAmong⟩
        · cases made
      · cases made

theorem fillDirectories_keeps {tree : FileTree} {paths : List Path} (kept : motive tree)
    (pathsAmong : ∀ path ∈ paths, among path) : motive (tree.fillDirectories paths).1 := by
  induction paths generalizing tree with
  | nil => exact kept
  | cons path rest ih =>
      have restAmong : ∀ other ∈ rest, among other :=
        fun other member => pathsAmong other (List.mem_cons_of_mem path member)
      unfold fillDirectories
      split
      · rename_i grown opened
        exact ih (step (pathsAmong path List.mem_cons_self) kept opened) restAmong
      · split
        · exact ih kept restAmong
        · exact kept
      · exact kept

/-- What making one directory keeps, making a chain of directories keeps. -/
theorem makeDirectories_keeps {tree : FileTree} {path : Path} (kept : motive tree)
    (above : ∀ ancestor ∈ path.ancestors, among ancestor) :
    motive (tree.makeDirectories path).1 := by
  unfold makeDirectories
  split
  · exact kept
  · rename_i grown missing first
    obtain ⟨grownKept, missingAmong⟩ := firstDirectory_keeps among step kept (by simp) above first
    exact fillDirectories_keeps among step grownKept missingAmong

end Keeps

/-- Making the directories of an inward path opens directories around its place only. -/
theorem changedIn_makeDirectories {tree : FileTree} {path : Path}
    (around : Around room tree.workingDirectory path) :
    ChangedIn room ∅ tree (tree.makeDirectories path).1 := by
  apply makeDirectories_keeps (Around room tree.workingDirectory) (motive := ChangedIn room ∅ tree)
  · intro before after ancestor around change made
    exact change.trans (changedIn_makeDirectory (change.working ▸ around) made)
  · exact .refl ..
  · intro ancestor member
    obtain ⟨opens, rooted⟩ := Path.steps_prefix_of_mem_ancestors member
    have outside := Path.within_of_steps_prefix opens rooted tree.workingDirectory
    exact ⟨Path.inward_of_steps_prefix opens around.1, outside.trans around.2⟩

end Operations

/-- The same answer, or a refusal of a name that is too long where nothing was found before. -/
def Upheld {Answer : Type} (was now : Except FileError Answer) : Prop :=
  now = was ∨ was = .error .notFound ∧ now = .error .nameTooLong

namespace ChangedIn

variable {room : Location} {names : Set String} {before after : FileTree}

/-- On the way to a place that is not in the room, only directories can appear. -/
theorem on_way (change : ChangedIn room names before after) {here place : Location}
    (below : Within here place) (apart : ¬ Within room place) :
    after.node? here = before.node? here ∨
      Within here room ∧ before.node? here = none ∧ after.node? here = some .directory := by
  refine change.elsewhere here fun name _ same => apart ?_
  exact (List.suffix_cons name room).trans (same ▸ below)

/-- A walk through a place where nothing was finds nothing, or stops at a name too long. -/
theorem reach_beyond (change : ChangedIn room names before after) {here : Location}
    {steps : List String} (inward : ".." ∉ steps)
    (outside : ¬ Within (Path.follow here steps) room)
    (apart : ¬ Within room (Path.follow here steps)) (absent : before.node? here = none) :
    after.reach here steps = .error .notFound ∨ after.reach here steps = .error .nameTooLong := by
  induction steps generalizing here with
  | nil =>
      rcases change.on_way (Path.within_follow here []) apart with same | ⟨around, _, _⟩
      · left
        simp [reach_nil, same, absent]
      · exact absurd around outside
  | cons step rest ih =>
      have restInward : ".." ∉ rest := fun member => inward (List.mem_cons_of_mem step member)
      have stepInward : step ≠ ".." := fun same => inward (by simp [same])
      rw [reach_cons after here step rest stepInward]
      rcases change.on_way (Path.within_follow here (step :: rest)) apart with same | ⟨_, _, opened⟩
      · left
        simp [same, absent]
      · rw [opened]
        by_cases dot : step = "."
        · subst dot
          simpa using ih restInward outside apart absent
        · by_cases long : nameLimit < step.utf8ByteSize
          · right
            simp [dot, long]
          · -- Nothing was at this place, so nothing was below it either.
            simp only [dot, long, ↓reduceIte]
            simp only [Path.follow, dot, ↓reduceIte] at outside apart
            refine ih restInward outside apart ?_
            by_contra found
            obtain ⟨node, lies⟩ := Option.ne_none_iff_exists'.mp found
            have above : before.node? here = some .directory := directory_of_node? lies
            rw [absent] at above
            cases above

/-- A walk to a place that lies clear of the room. -/
theorem reach (change : ChangedIn room names before after) {here : Location}
    {steps : List String} (inward : ".." ∉ steps)
    (outside : ¬ Within (Path.follow here steps) room)
    (apart : ¬ Within room (Path.follow here steps)) :
    Upheld (before.reach here steps) (after.reach here steps) := by
  induction steps generalizing here with
  | nil =>
      rcases change.on_way (Path.within_follow here []) apart with same | ⟨around, _, _⟩
      · exact .inl (by simp [reach_nil, same])
      · exact absurd around outside
  | cons step rest ih =>
      have restInward : ".." ∉ rest := fun member => inward (List.mem_cons_of_mem step member)
      have stepInward : step ≠ ".." := fun same => inward (by simp [same])
      rcases change.on_way (Path.within_follow here (step :: rest)) apart with same | ⟨_, absent, _⟩
      · rw [reach_cons before here step rest stepInward, reach_cons after here step rest stepInward,
          same]
        cases before.node? here with
        | none => exact .inl rfl
        | some node =>
            cases node with
            | file content executable => exact .inl rfl
            | directory =>
                by_cases dot : step = "."
                · subst dot
                  simpa using ih restInward outside apart
                · by_cases long : nameLimit < step.utf8ByteSize
                  · exact .inl (by simp [dot, long])
                  · simp only [Path.follow, dot, ↓reduceIte] at outside apart
                    simpa [dot, long] using ih restInward outside apart
      · -- A directory has appeared here, and the walk before the change ended at once.
        have missing : before.reach here (step :: rest) = .error .notFound := by
          rw [reach_cons before here step rest stepInward]
          simp [absent]
        rcases change.reach_beyond inward outside apart absent with gone | refused
        · exact .inl (gone.trans missing.symm)
        · exact .inr ⟨missing, refused⟩

end ChangedIn

end FileTree

namespace Path

/-- Whether the path lies neither around the room nor in it. The empty path names nothing. -/
def ClearOf (here room : Location) (path : Path) : Prop :=
  path.text = "" ∨
    ¬ FileTree.Within (path.place here) room ∧ ¬ FileTree.Within room (path.place here)

instance (here room : Location) (path : Path) : Decidable (path.ClearOf here room) :=
  inferInstanceAs (Decidable (_ ∨ _ ∧ _))

end Path

namespace FileTree.ChangedIn

variable {room : Location} {names : Set String} {before after : FileTree}

theorem status (change : ChangedIn room names before after) {path : Path} (inward : path.Inward)
    (clear : path.ClearOf before.workingDirectory room) :
    Upheld (before.status path) (after.status path) := by
  rw [status_eq, status_eq]
  cases reached : path.address with
  | error error => exact .inl rfl
  | ok address =>
      obtain ⟨_, solid, _, rfl⟩ := Path.of_address_eq_ok reached
      have stepsInward := (Path.inward_iff path).mp inward
      obtain ⟨outside, apart⟩ := clear.resolve_left solid
      unfold Path.place at outside apart
      simp only [bind, Except.bind, startOf, change.working]
      by_cases slashed : path.text.toList.getLast? = some '/'
      · simp only [slashed, decide_true, ↓reduceIte]
        apply change.reach (by simpa using stepsInward)
        · simpa [Path.follow_append, Path.follow] using outside
        · simpa [Path.follow_append, Path.follow] using apart
      · simpa [slashed] using change.reach stepsInward outside apart

/-- Reading an inward path that lies clear of the room. -/
theorem read (change : ChangedIn room names before after) {path : Path} (inward : path.Inward)
    (clear : path.ClearOf before.workingDirectory room) :
    Upheld (before.read path) (after.read path) := by
  rw [read_eq, read_eq]
  rcases change.status inward clear with same | ⟨missing, refused⟩
  · exact .inl (by rw [same])
  · exact .inr ⟨by rw [missing], by rw [refused]⟩

section Child
variable {base : Path} {name : String} (ordinary : Path.OrdinaryName name)
  (inward : base.Inward) (change : ChangedIn (base.place before.workingDirectory) names before after)
  (other : name ∉ names)
include ordinary inward change other

/-- A name in the room that is not among the changed ones is found as before. -/
theorem status_child_eq_ok_iff (node : Node) :
    after.status (base.child name) = .ok node ↔ before.status (base.child name) = .ok node := by
  have childInward := Path.inward_child ordinary inward
  rw [status_eq_ok_iff after childInward, status_eq_ok_iff before childInward, change.working,
    Path.place_child ordinary, change.node?_name other]

end Child

end FileTree.ChangedIn

end ProofBuild
