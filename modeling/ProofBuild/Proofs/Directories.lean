import ProofBuild.Proofs.Changes

/-!
Making a directory with all directories around it. It ends in one of three ways: the directory is
there, or something stands in its way for good, or the walk had no directory to start from and
nothing was made (`makeDirectories_cases`). Whatever way it was, making it again after changes in
one room opens nothing (`makeDirectories_again`), and whether it can be made at all is decided by
the path and by the files on the way (`makeDirectories_eq_ok_iff`).
-/

namespace ProofBuild

namespace Path

/-- Where a walk along the path begins. -/
def origin (here : Location) (path : Path) : Location := if path.isAbsolute then [] else here

theorem ite_eq_origin (here : Location) (path : Path) :
    (if path.isAbsolute then [] else here) = path.origin here := rfl

theorem Above.origin_eq {upper path : Path} (above : Above upper path) (here : Location) :
    path.origin here = upper.origin here := by
  rw [origin, origin, above.absolute]

theorem place_eq (here : Location) (path : Path) :
    path.place here = follow (path.origin here) path.steps := rfl

theorem steps_of_blank {path : Path} (blank : path.text = "") : path.steps = [] := by
  rw [show path = ⟨""⟩ from congrArg Path.mk blank]
  decide

end Path

namespace FileTree

section Walks
variable (tree : FileTree)

/-- A walk of two legs. A file ends it, unless nothing follows. -/
theorem reach_append (here : Location) (one two : List String) (inward : ".." ∉ one ++ two) :
    tree.reach here (one ++ two) = match tree.reach here one with
      | .error error => .error error
      | .ok (.file content executable) =>
          if two = [] then .ok (.file content executable) else .error .notDirectory
      | .ok .directory => tree.reach (Path.follow here one) two := by
  induction one generalizing here with
  | nil =>
      -- Both walks begin in one place, so what lies there answers for both.
      rw [List.nil_append, reach_nil, Path.follow_nil]
      cases two with
      | nil =>
          rw [reach_nil]
          cases tree.node? here with
          | none => rfl
          | some node => cases node <;> rfl
      | cons step rest =>
          have stepInward : step ≠ ".." := fun same => inward (by simp [same])
          rw [reach_cons _ _ _ _ stepInward]
          cases tree.node? here with
          | none => rfl
          | some node => cases node <;> rfl
  | cons step rest ih =>
      have stepInward : step ≠ ".." := fun same => inward (by simp [same])
      have restInward : ".." ∉ rest ++ two := fun member =>
        inward (by rw [List.cons_append]; exact List.mem_cons_of_mem step member)
      rw [List.cons_append, reach_cons _ _ _ _ stepInward, reach_cons _ _ _ _ stepInward]
      cases tree.node? here with
      | none => rfl
      | some node =>
          cases node with
          | file content executable => rfl
          | directory =>
              by_cases dot : step = "."
              · simpa [dot, Path.follow] using ih here restInward
              · by_cases long : nameLimit < step.utf8ByteSize
                · simp [dot, long]
                · simpa [dot, long, Path.follow] using ih (step :: here) restInward

theorem reach_concat (here : Location) (front : List String) (last : String)
    (inward : ".." ∉ front ++ [last]) :
    tree.reach here (front ++ [last]) = match tree.reach here front with
      | .error error => .error error
      | .ok (.file ..) => .error .notDirectory
      | .ok .directory =>
          if last = "." then .ok .directory
          else if nameLimit < last.utf8ByteSize then .error .nameTooLong
          else match tree.node? (last :: Path.follow here front) with
            | none => .error .notFound
            | some node => .ok node := by
  have frontInward : ".." ∉ front := fun member => inward (by simp [member])
  have lastInward : last ≠ ".." := fun same => inward (by simp [same])
  rw [reach_append tree here front [last] inward]
  cases walked : tree.reach here front with
  | error error => rfl
  | ok node =>
      cases node with
      | file content executable => simp
      | directory =>
          have there := ((reach_eq_ok_iff tree here front _ frontInward).mp walked).2.1
          have onward := reach_cons tree (Path.follow here front) last [] lastInward
          rw [reach_nil, reach_nil, there] at onward
          exact onward

theorem reach_dots {here : Location} {dots : List String} (there : tree.Directory here)
    (still : ∀ dot ∈ dots, dot = ".") : tree.reach here dots = .ok .directory := by
  have lies : tree.node? here = some .directory := there
  induction dots with
  | nil => rw [reach_nil, lies]
  | cons dot rest ih =>
      obtain ⟨rfl, later⟩ := List.forall_mem_cons.mp still
      rw [reach_cons _ _ _ _ (by decide), lies]
      exact ih later

/-- What a walk along all steps of a path finds. -/
def found (path : Path) : Except FileError Node :=
  tree.reach (path.origin tree.workingDirectory) path.steps

theorem found_eq_ok_iff {path : Path} (inward : path.Inward) (node : Node) :
    tree.found path = .ok node ↔ (∀ step ∈ path.steps, step.utf8ByteSize ≤ nameLimit) ∧
      tree.node? (path.place tree.workingDirectory) = some node ∧
      (path.steps.getLast? = some "." → node = .directory) :=
  reach_eq_ok_iff _ _ _ _ ((Path.inward_iff path).mp inward)

/-- Something stops the walk: a file, or a refusal for another reason than absence. Nothing inside the
path can be made then. -/
def Stopped (path : Path) : Prop :=
  (∃ error, tree.found path = .error error ∧ error ≠ .notFound) ∨
    ∃ content executable, tree.found path = .ok (.file content executable)

variable {tree} in
theorem Stopped.found_ne {path : Path} (stopped : tree.Stopped path) :
    tree.found path ≠ .ok .directory ∧ tree.found path ≠ .error .notFound := by
  rcases stopped with ⟨error, refused, there⟩ | ⟨content, executable, lies⟩
  · rw [refused]
    constructor
    · simp
    · simpa using there
  · rw [lies]
    simp

end Walks

section Target
variable {tree : FileTree} {path : Path} (inward : path.Inward)
  {address : Address} (addressed : path.address = .ok address)
include inward addressed

/-- What can be made or unmade at a path, by what a walk along all its steps but the last finds. -/
theorem target_eq {front : List String} {last : String} (steps : path.steps = front ++ [last]) :
    tree.target path = match tree.reach (path.origin tree.workingDirectory) front with
      | .error error => .error error
      | .ok (.file ..) => .error .notDirectory
      | .ok .directory =>
          if last = "." then .ok .fixed
          else if nameLimit < last.utf8ByteSize then .error .nameTooLong
          else .ok (.named (Path.follow (path.origin tree.workingDirectory) front) last
            (path.text.toList.getLast? = some '/')) := by
  obtain ⟨_, _, _, rfl⟩ := Path.of_address_eq_ok addressed
  have stepsInward := (Path.inward_iff path).mp inward
  have frontInward : ".." ∉ front := fun member => stepsInward (by simp [steps, member])
  have lastInward : last ≠ ".." := fun same => stepsInward (by simp [steps, same])
  unfold target reach
  simp only [addressed, bind, Except.bind, steps, List.getLast?_concat, List.dropLast_concat,
    startOf, Path.ite_eq_origin]
  cases arrives : tree.descend (path.origin tree.workingDirectory) front with
  | error error => rfl
  | ok place =>
      obtain ⟨rfl, _⟩ := of_descend_eq_ok frontInward arrives
      dsimp only
      cases tree.node? (Path.follow (path.origin tree.workingDirectory) front) with
      | none => rfl
      | some node => cases node <;> simp [lastInward]

omit inward in
theorem target_eq_fixed (still : path.steps = []) : tree.target path = .ok .fixed := by
  obtain ⟨_, _, _, rfl⟩ := Path.of_address_eq_ok addressed
  unfold target
  simp [addressed, bind, Except.bind, still]

theorem isDirectory_iff_found : tree.isDirectory path = true ↔ tree.found path = .ok .directory := by
  obtain ⟨zero, blank, short, _⟩ := Path.of_address_eq_ok addressed
  rw [isDirectory_iff, status_eq_ok_iff tree inward, found_eq_ok_iff tree inward]
  simp [Path.Usable, zero, blank, short]

end Target

section Make
variable (tree : FileTree) {grown : FileTree} {path : Path} (inward : path.Inward)
include inward

variable {tree} in
theorem isDirectory_of_makeDirectory (made : tree.makeDirectory path = .ok grown) :
    grown.isDirectory path = true := by
  unfold makeDirectory at made
  cases reached : tree.target path with
  | error error => simp [reached, bind, Except.bind] at made
  | ok target =>
      cases target with
      | fixed => simp [reached, bind, Except.bind] at made
      | named parent name slashed =>
          simp only [reached, bind, Except.bind] at made
          split at made
          · cases made
          · rename_i free
            cases made
            obtain ⟨place, around, usable⟩ := of_target_eq_named inward reached
            rw [isDirectory_iff, status_eq_ok_iff _ inward, workingDirectory_addDirectory, place,
              node?_addDirectory around free]
            exact ⟨usable, if_pos rfl, fun _ => rfl⟩

variable {address : Address} (addressed : path.address = .ok address)
include addressed

theorem makeDirectory_eq {front : List String} {last : String} (steps : path.steps = front ++ [last]) :
    tree.makeDirectory path = match tree.reach (path.origin tree.workingDirectory) front with
      | .error error => .error error
      | .ok (.file ..) => .error .notDirectory
      | .ok .directory =>
          if last = "." then .error .alreadyExists
          else if nameLimit < last.utf8ByteSize then .error .nameTooLong
          else match tree.node? (last :: Path.follow (path.origin tree.workingDirectory) front) with
            | none => .ok (tree.addDirectory last (Path.follow (path.origin tree.workingDirectory) front))
            | some _ => .error .alreadyExists := by
  rw [makeDirectory, target_eq inward addressed steps]
  cases tree.reach (path.origin tree.workingDirectory) front with
  | error error => rfl
  | ok node =>
      cases node with
      | file content executable => rfl
      | directory =>
          by_cases dot : last = "."
          · simp [dot, bind, Except.bind]
          · by_cases long : nameLimit < last.utf8ByteSize
            · simp [dot, long, bind, Except.bind]
            · simp only [dot, long, ↓reduceIte, bind, Except.bind]
              cases tree.node? (last :: Path.follow (path.origin tree.workingDirectory) front) <;> rfl

/-- The walk decides what becomes of a directory that is to be made: it is there already, or the walk
is refused, or nothing is found. In the last case it is made if the place around it is reached. -/
theorem makeDirectory_cases :
    (∃ node, tree.found path = .ok node ∧ tree.makeDirectory path = .error .alreadyExists) ∨
      (∃ error, error ≠ .notFound ∧ tree.found path = .error error ∧
        tree.makeDirectory path = .error error) ∨
      tree.found path = .error .notFound ∧
        ((∃ grown, tree.makeDirectory path = .ok grown) ∨
          tree.makeDirectory path = .error .notFound ∧ ∀ front last, path.steps = front ++ [last] →
            tree.reach (path.origin tree.workingDirectory) front ≠ .ok .directory) := by
  rw [found]
  rcases List.eq_nil_or_concat path.steps with still | ⟨front, last, steps⟩
  · -- A path with text and without steps is the root.
    left
    have root := Path.isAbsolute_of_steps_eq_nil still (Path.of_address_eq_ok addressed).2.1
    refine ⟨.directory, ?_, ?_⟩
    · simp [still, reach_nil, Path.origin, root]
    · rw [makeDirectory, target_eq_fixed addressed still]
      rfl
  · rw [List.concat_eq_append] at steps
    have stepsInward := (Path.inward_iff path).mp inward
    rw [makeDirectory_eq tree inward addressed steps]
    rw [steps] at stepsInward ⊢
    rw [reach_concat tree _ _ _ stepsInward]
    -- From here on the walk and the making ask the same questions in the same order.
    cases walked : tree.reach (path.origin tree.workingDirectory) front with
    | error error =>
        right
        by_cases absent : error = .notFound
        · right
          refine ⟨by rw [absent], .inr ⟨by rw [absent], ?_⟩⟩
          intro other final same
          obtain ⟨rfl, _⟩ := List.append_inj' same rfl
          rw [walked]
          simp
        · exact .inl ⟨error, absent, rfl, rfl⟩
    | ok node =>
        cases node with
        | file content executable => exact .inr (.inl ⟨.notDirectory, by simp, rfl, rfl⟩)
        | directory =>
            by_cases dot : last = "."
            · exact .inl ⟨.directory, by simp [dot], by simp [dot]⟩
            · by_cases long : nameLimit < last.utf8ByteSize
              · exact .inr (.inl ⟨.nameTooLong, by simp, by simp [dot, long], by simp [dot, long]⟩)
              · simp only [dot, long, ↓reduceIte]
                cases tree.node? (last :: Path.follow (path.origin tree.workingDirectory) front) with
                | some node => exact .inl ⟨node, rfl, rfl⟩
                | none => exact .inr (.inr ⟨rfl, .inl ⟨_, rfl⟩⟩)

end Make

end FileTree

namespace Path

/-- A path that a chain of directories can be made for, as far as the path itself goes. -/
structure Fit (path : Path) : Prop where
  inward : path.Inward
  trim : path.Trim
  addressed : ∃ address, path.address = .ok address

theorem Fit.solid {path : Path} (fit : path.Fit) : path.text ≠ "" := by
  obtain ⟨address, addressed⟩ := fit.addressed
  exact (of_address_eq_ok addressed).2.1

theorem fit_above {path upper : Path} (fit : path.Fit) (above : path.parent? = some upper)
    (solid : upper.text ≠ "") : upper.Fit := by
  have higher := above_of_parent? above
  obtain ⟨address, addressed⟩ := fit.addressed
  obtain ⟨zero, _, short, _⟩ := of_address_eq_ok addressed
  constructor
  · exact inward_of_steps_prefix (steps_prefix_parent above).1 fit.inward
  · exact higher.trim
  · obtain ⟨rest, text⟩ := higher.text
    have whole : path.text = upper.text ++ String.ofList rest := by
      rw [← String.toList_inj, String.toList_append, String.toList_ofList, text]
    have fewer : upper.text.utf8ByteSize ≤ path.text.utf8ByteSize := by
      rw [whole, String.utf8ByteSize_append]
      omega
    refine ⟨_, address_eq_ok (fun inside => zero ?_) solid (fewer.trans short)⟩
    exact text ▸ List.mem_append_left rest inside

end Path

namespace FileTree

section Above
variable {tree : FileTree} {path upper : Path} (fit : path.Fit) (above : path.parent? = some upper)
include fit above

/-- What stops the walk to a directory stops every walk beyond it. -/
theorem Stopped.inside (stopped : tree.Stopped upper) : tree.Stopped path := by
  have higher := Path.above_of_parent? above
  obtain ⟨dots, last, more, steps, still, none⟩ := higher.steps
  have inward := (Path.inward_iff path).mp fit.inward
  rw [none fit.trim, List.append_assoc] at steps
  rw [steps] at inward
  left
  -- The walk along the path is the walk along its parent, and at least one more step.
  rw [found, higher.origin_eq, steps, reach_append tree _ _ _ inward]
  rcases stopped with ⟨error, refused, there⟩ | ⟨content, executable, lies⟩
  · rw [found] at refused
    exact ⟨error, by rw [refused], there⟩
  · rw [found] at lies
    refine ⟨.notDirectory, ?_, by simp⟩
    rw [lies]
    simp

theorem reach_around (there : tree.found upper = .ok .directory) :
    ∃ front last, path.steps = front ++ [last] ∧
      tree.reach (path.origin tree.workingDirectory) front = .ok .directory := by
  have higher := Path.above_of_parent? above
  obtain ⟨dots, last, more, steps, still, none⟩ := higher.steps
  have inward := (Path.inward_iff path).mp fit.inward
  rw [none fit.trim] at steps still
  rw [List.append_nil] at still
  rw [steps] at inward
  have frontInward : ".." ∉ upper.steps ++ dots := fun member => inward (List.mem_append_left _ member)
  have upperInward : ".." ∉ upper.steps := fun member => frontInward (List.mem_append_left _ member)
  refine ⟨upper.steps ++ dots, last, steps, ?_⟩
  rw [found] at there
  rw [higher.origin_eq, reach_append tree _ _ _ frontInward, there]
  exact reach_dots tree ((reach_eq_ok_iff _ _ _ _ upperInward).mp there).2.1 still

end Above

/-- The paths inside the upper one, each the parent of the next, down to the goal. -/
inductive Leads (goal : Path) : Path → List Path → Prop where
  | here : Leads goal goal []
  | inside {upper next : Path} {rest : List Path} (above : next.parent? = some upper)
      (fit : next.Fit) (further : Leads goal next rest) : Leads goal upper (next :: rest)

/-- How making a chain of directories ends: the goal is there, or the walk to it is stopped. -/
def Ends (goal : Path) (result : FileTree × Except FileError Unit) : Prop :=
  result.2 = .ok () ∧ result.1.found goal = .ok .directory ∨
    (∃ error, result.2 = .error error) ∧ result.1.Stopped goal

theorem makeDirectory_of_fit (tree : FileTree) {path : Path} (fit : path.Fit) :
    (tree.makeDirectory path = .error .alreadyExists ∧ tree.isDirectory path = true ∧
        tree.found path = .ok .directory) ∨
      (∃ error, tree.makeDirectory path = .error error ∧ error ≠ .notFound ∧
        tree.isDirectory path = false ∧ tree.Stopped path) ∨
      tree.found path = .error .notFound ∧
        ((∃ grown, tree.makeDirectory path = .ok grown ∧ grown.found path = .ok .directory) ∨
          tree.makeDirectory path = .error .notFound ∧ ∀ front last, path.steps = front ++ [last] →
            tree.reach (path.origin tree.workingDirectory) front ≠ .ok .directory) := by
  obtain ⟨inward, _, address, addressed⟩ := fit
  have elsewhere {answer} (found : tree.found path = answer) (other : answer ≠ .ok .directory) :
      tree.isDirectory path = false := by
    apply Bool.eq_false_iff.mpr
    rw [ne_eq, isDirectory_iff_found inward addressed, found]
    exact other
  rcases makeDirectory_cases tree inward addressed with
    ⟨node, found, made⟩ | ⟨error, there, found, made⟩ | ⟨absent, ⟨grown, made⟩ | unmade⟩
  · cases node with
    | directory => exact .inl ⟨made, (isDirectory_iff_found inward addressed).mpr found, found⟩
    | file content executable =>
        refine .inr (.inl ⟨_, made, by simp, elsewhere found (by simp), ?_⟩)
        exact .inr ⟨content, executable, found⟩
  · refine .inr (.inl ⟨error, made, there, elsewhere found (by simp), ?_⟩)
    exact .inl ⟨error, found, there⟩
  · refine .inr (.inr ⟨absent, .inl ⟨grown, made, ?_⟩⟩)
    exact (isDirectory_iff_found inward addressed).mp (isDirectory_of_makeDirectory inward made)
  · exact .inr (.inr ⟨absent, .inr unmade⟩)

section Chain
variable {goal upper : Path} {missing : List Path} (leads : Leads goal upper missing)
include leads

theorem Stopped.onward {tree : FileTree} (stopped : tree.Stopped upper) : tree.Stopped goal := by
  induction leads with
  | here => exact stopped
  | inside above fit further ih => exact ih (stopped.inside fit above)

/-- Inside a directory each one is there already, or can be made, or stops the walk. -/
theorem ends_fillDirectories {tree : FileTree} (there : tree.found upper = .ok .directory) :
    Ends goal (tree.fillDirectories missing) := by
  induction leads generalizing tree with
  | here => exact .inl ⟨rfl, there⟩
  | @inside upper next rest above fit further ih =>
      rw [fillDirectories]
      rcases makeDirectory_of_fit tree fit with
        ⟨made, lies, found⟩ | ⟨error, made, present, lies, stopped⟩ | ⟨_, ⟨grown, made, found⟩ | ⟨_, nowhere⟩⟩
      · simp only [made, lies, ↓reduceIte]
        exact ih found
      · have halted : tree.fillDirectories (next :: rest) = (tree, .error error) := by
          rw [fillDirectories, made]
          cases error <;> simp [lies]
        rw [fillDirectories] at halted
        rw [halted]
        exact .inr ⟨⟨error, rfl⟩, stopped.onward further⟩
      · rw [made]
        exact ih found
      · -- The place around is a directory, so a directory can be made there.
        obtain ⟨front, last, steps, around⟩ := reach_around fit above there
        exact absurd around (nowhere front last steps)

end Chain

theorem climb_succ {path : Path} (solid : path.text ≠ "") (count : Nat) :
    Path.ancestors.climb (count + 1) path = path :: match path.parent? with
      | none => []
      | some above => Path.ancestors.climb count above := by
  rw [Path.ancestors.climb, if_neg solid]
  cases path.parent? <;> rfl

theorem climb_of_blank {path : Path} (blank : path.text = "") (count : Nat) :
    Path.ancestors.climb count path = [] := by
  cases count with
  | zero => rfl
  | succ count => rw [Path.ancestors.climb, if_pos blank]

section First
variable {tree : FileTree} {path : Path} (missing above : List Path)

theorem firstDirectory_of_present (made : tree.makeDirectory path = .error .alreadyExists)
    (lies : tree.isDirectory path = true) :
    tree.firstDirectory missing (path :: above) = .ok (tree, missing) := by
  simp only [firstDirectory, made, lies, ↓reduceIte]

theorem firstDirectory_of_error {error : FileError} (made : tree.makeDirectory path = .error error)
    (present : error ≠ .notFound) (lies : tree.isDirectory path = false) :
    tree.firstDirectory missing (path :: above) = .error error := by
  rw [firstDirectory, made]
  cases error <;> simp_all

end First

/-- A climb to the first directory that can be made or is there, and the way back down. -/
def climbAndFill (tree : FileTree) (missing : List Path) (paths : List Path) :
    FileTree × Except FileError Unit :=
  match tree.firstDirectory missing paths with
  | .error error => (tree, .error error)
  | .ok (grown, more) => grown.fillDirectories more

theorem makeDirectories_eq (tree : FileTree) (path : Path) :
    tree.makeDirectories path = tree.climbAndFill [] path.ancestors := rfl

/-- At the top of a relative path the place around is where the walk begins. -/
theorem not_directory_of_top {tree : FileTree} {path above : Path} (fit : path.Fit)
    (parent : path.parent? = some above) (top : above.text = "")
    (nowhere : ∀ front last, path.steps = front ++ [last] →
      tree.reach (path.origin tree.workingDirectory) front ≠ .ok .directory) :
    ¬ tree.Directory (path.origin tree.workingDirectory) := by
  intro there
  have lies : tree.node? (path.origin tree.workingDirectory) = some .directory := there
  have start : tree.found above = .ok .directory := by
    rw [found, Path.steps_of_blank top, ← (Path.above_of_parent? parent).origin_eq, reach_nil, lies]
  obtain ⟨front, last, steps, around⟩ := reach_around fit parent start
  exact nowhere front last steps around

/-- Only where a walk has no directory to start from is nothing made and nothing in its way. -/
theorem ends_climb {tree : FileTree} {goal upper : Path} {missing : List Path}
    (leads : Leads goal upper missing) (fit : upper.Fit) {count : Nat}
    (enough : upper.components.length < count) :
    Ends goal (tree.climbAndFill missing (Path.ancestors.climb count upper)) ∨
      ¬ tree.Directory (upper.origin tree.workingDirectory) ∧
        ∃ error, tree.climbAndFill missing (Path.ancestors.climb count upper) =
          (tree, .error error) := by
  induction count generalizing upper missing with
  | zero => exact absurd enough (Nat.not_lt_zero _)
  | succ count ih =>
      rw [climb_succ fit.solid, climbAndFill]
      rcases makeDirectory_of_fit tree fit with
        ⟨made, lies, found⟩ | ⟨error, made, present, lies, stopped⟩ | ⟨_, ⟨grown, made, found⟩ | ⟨made, nowhere⟩⟩
      · rw [firstDirectory_of_present _ _ made lies]
        exact .inl (ends_fillDirectories leads found)
      · rw [firstDirectory_of_error _ _ made present lies]
        exact .inl (.inr ⟨⟨error, rfl⟩, stopped.onward leads⟩)
      · rw [firstDirectory, made]
        exact .inl (ends_fillDirectories leads found)
      · -- Nothing is around the path, so the climb goes on with its parent.
        rw [firstDirectory, made]
        cases parent : upper.parent? with
        | none =>
            obtain ⟨address, addressed⟩ := fit.addressed
            have still := Path.steps_eq_nil_of_parent? fit.trim parent
            rw [makeDirectory, target_eq_fixed addressed still] at made
            cases made
        | some above =>
            by_cases top : above.text = ""
            · right
              refine ⟨not_directory_of_top fit parent top nowhere, .notFound, ?_⟩
              simp only [climb_of_blank top, firstDirectory, fillDirectories, made]
            · have higher := Path.above_of_parent? parent
              have fewer := higher.fewer
              rw [higher.origin_eq]
              apply ih (.inside parent fit leads) (Path.fit_above fit parent top)
              omega

/-- Making a directory with all directories around it ends with the directory there or the walk to
it stopped, unless the walk has nowhere to start. -/
theorem makeDirectories_cases (tree : FileTree) {path : Path} (fit : path.Fit) :
    Ends path (tree.makeDirectories path) ∨
      ¬ tree.Directory (path.origin tree.workingDirectory) ∧
        ∃ error, tree.makeDirectories path = (tree, .error error) := by
  rw [makeDirectories_eq]
  exact ends_climb .here fit (Nat.lt_succ_self _)

theorem directory_of_makeDirectory {tree grown : FileTree} {path : Path} (inward : path.Inward)
    (made : tree.makeDirectory path = .ok grown) :
    tree.Directory (path.origin tree.workingDirectory) := by
  obtain ⟨address, addressed⟩ : ∃ address, path.address = .ok address := by
    cases addressed : path.address with
    | ok address => exact ⟨address, rfl⟩
    | error error => simp [makeDirectory, target, addressed, bind, Except.bind] at made
  rcases List.eq_nil_or_concat path.steps with still | ⟨front, last, steps⟩
  · rw [makeDirectory, target_eq_fixed addressed still] at made
    cases made
  · rw [List.concat_eq_append] at steps
    have stepsInward := (Path.inward_iff path).mp inward
    have frontInward : ".." ∉ front := fun member => stepsInward (by simp [steps, member])
    rw [makeDirectory_eq tree inward addressed steps] at made
    split at made
    · cases made
    · cases made
    · rename_i walked
      have around := ((reach_eq_ok_iff _ _ _ _ frontInward).mp walked).2.1
      have within := Path.within_follow (path.origin tree.workingDirectory) front
      by_cases same : path.origin tree.workingDirectory =
          Path.follow (path.origin tree.workingDirectory) front
      · rw [← same] at around
        exact around
      · exact directory_of_within around within same

theorem makeDirectories_eq_or (tree : FileTree) {path : Path} (inward : path.Inward) :
    (tree.makeDirectories path).1 = tree ∨ tree.Directory (path.origin tree.workingDirectory) := by
  apply makeDirectories_keeps (fun ancestor => ancestor.Inward ∧ ancestor.isAbsolute = path.isAbsolute)
    (motive := fun grown => grown = tree ∨ tree.Directory (path.origin tree.workingDirectory))
  · rintro before after ancestor ⟨ancestorInward, absolute⟩ (same | there) made
    · right
      have start := directory_of_makeDirectory ancestorInward made
      rw [Path.origin, absolute, same] at start
      exact start
    · exact .inr there
  · exact .inl rfl
  · intro ancestor member
    obtain ⟨opens, absolute⟩ := Path.steps_prefix_of_mem_ancestors member
    exact ⟨Path.inward_of_steps_prefix opens inward, absolute⟩

section Again
variable {tree : FileTree} {path : Path}

theorem ancestors_eq_cons (solid : path.text ≠ "") : ∃ above, path.ancestors = path :: above :=
  ⟨_, climb_succ solid _⟩

theorem makeDirectories_of_error {error : FileError} (solid : path.text ≠ "")
    (refused : path.address = .error error) : tree.makeDirectories path = (tree, .error error) := by
  obtain ⟨above, ancestors⟩ := ancestors_eq_cons solid
  have unmade : tree.makeDirectory path = .error error := by
    simp [makeDirectory, target, refused, bind, Except.bind]
  have present : error ≠ .notFound := by
    unfold Path.address at refused
    dsimp only at refused
    split at refused
    · cases refused
      simp
    · split at refused
      · rename_i blank
        exact absurd (by simpa using blank) solid
      · split at refused
        · cases refused
          simp
        · cases refused
  have nowhere : tree.isDirectory path = false := by
    simp [isDirectory, status_eq, refused, bind, Except.bind]
  rw [makeDirectories, ancestors, firstDirectory_of_error _ _ unmade present nowhere]

variable (fit : path.Fit)
include fit

theorem makeDirectories_of_found (there : tree.found path = .ok .directory) :
    tree.makeDirectories path = (tree, .ok ()) := by
  obtain ⟨above, ancestors⟩ := ancestors_eq_cons fit.solid
  rcases makeDirectory_of_fit tree fit with
    ⟨made, lies, _⟩ | ⟨error, made, present, lies, stopped⟩ | ⟨absent, _⟩
  · rw [makeDirectories, ancestors, firstDirectory_of_present _ _ made lies]
    rfl
  · exact absurd there stopped.found_ne.1
  · rw [there] at absent
    cases absent

theorem makeDirectories_of_stopped (stopped : tree.Stopped path) :
    ∃ error, tree.makeDirectories path = (tree, .error error) := by
  obtain ⟨above, ancestors⟩ := ancestors_eq_cons fit.solid
  rcases makeDirectory_of_fit tree fit with
    ⟨_, _, found⟩ | ⟨error, made, present, lies, _⟩ | ⟨absent, _⟩
  · exact absurd found stopped.found_ne.1
  · refine ⟨error, ?_⟩
    rw [makeDirectories, ancestors, firstDirectory_of_error _ _ made present lies]
  · exact absurd absent stopped.found_ne.2

end Again

section Change
variable {room : Location} {names : Set String} {before after : FileTree}
  (change : ChangedIn room names before after)
include change

theorem ChangedIn.around {place : Location} (around : Within place room) :
    after.node? place = before.node? place ∨
      before.node? place = none ∧ after.node? place = some .directory := by
  have other : ∀ name ∈ names, place ≠ name :: room := by
    rintro name _ rfl
    have lengths := around.length_le
    simp only [List.length_cons] at lengths
    omega
  exact (change.elsewhere place other).imp_right fun opened => opened.2

/-- A walk around the room finds what it found, unless it found nothing. -/
theorem ChangedIn.reach_around {here : Location} {steps : List String} (inward : ".." ∉ steps)
    (around : Within (Path.follow here steps) room) :
    before.reach here steps = .error .notFound ∨ after.reach here steps = before.reach here steps := by
  induction steps generalizing here with
  | nil =>
      rw [Path.follow_nil] at around
      rw [reach_nil, reach_nil]
      rcases change.around around with same | ⟨absent, _⟩
      · rw [same]
        exact .inr rfl
      · rw [absent]
        exact .inl rfl
  | cons step rest ih =>
      have stepInward : step ≠ ".." := fun same => inward (by simp [same])
      have restInward : ".." ∉ rest := fun member => inward (List.mem_cons_of_mem step member)
      have opening := (Path.within_follow here (step :: rest)).trans around
      rw [reach_cons _ _ _ _ stepInward, reach_cons _ _ _ _ stepInward]
      rcases change.around opening with same | ⟨absent, _⟩
      · -- The step is taken in the same directory, or refused by the same file, in both trees.
        rw [same]
        cases before.node? here with
        | none => exact .inl rfl
        | some node =>
            cases node with
            | file content executable => exact .inr rfl
            | directory =>
                by_cases dot : step = "."
                · simpa [dot] using ih restInward (by simpa [Path.follow, dot] using around)
                · by_cases long : nameLimit < step.utf8ByteSize
                  · simp [dot, long]
                  · simpa [dot, long] using ih restInward (by simpa [Path.follow, dot] using around)
      · rw [absent]
        exact .inl rfl

theorem ChangedIn.found_around {path : Path} (inward : path.Inward)
    (around : Within (path.place before.workingDirectory) room) :
    before.found path = .error .notFound ∨ after.found path = before.found path := by
  rw [found, found, change.working]
  exact change.reach_around ((Path.inward_iff path).mp inward) around

theorem ChangedIn.stopped {path : Path} (inward : path.Inward)
    (around : Within (path.place before.workingDirectory) room) (stopped : before.Stopped path) :
    after.Stopped path := by
  have same := (change.found_around inward around).resolve_left stopped.found_ne.2
  rwa [Stopped, same]

end Change

/-- Making the same directories once more opens nothing, even after other changes in the room. -/
theorem makeDirectories_again {room : Location} {names : Set String} {tree later : FileTree}
    {path : Path} (inward : path.Inward) (trim : path.Trim) (solid : path.text ≠ "")
    (around : Within (path.place tree.workingDirectory) room)
    (change : ChangedIn room names (tree.makeDirectories path).1 later)
    (start : later.Directory (path.origin tree.workingDirectory) →
      tree.Directory (path.origin tree.workingDirectory)) :
    (later.makeDirectories path).1 = later := by
  have opened := changedIn_makeDirectories ⟨inward, around⟩
  have working := opened.working
  cases addressed : path.address with
  | error error => rw [makeDirectories_of_error solid addressed]
  | ok address =>
      have fit : path.Fit := ⟨inward, trim, address, addressed⟩
      have still : Within (path.place (tree.makeDirectories path).1.workingDirectory) room :=
        working ▸ around
      rcases makeDirectories_cases tree fit with ends | ⟨nowhere, _⟩
      · -- Neither a directory that is there nor what stops the walk goes away.
        rcases ends with ⟨_, there⟩ | ⟨_, stopped⟩
        · have same := (change.found_around inward still).resolve_left (by rw [there]; simp)
          rw [makeDirectories_of_found fit (same.trans there)]
        · obtain ⟨error, same⟩ := makeDirectories_of_stopped fit (change.stopped inward still stopped)
          rw [same]
      · -- There is still nowhere to start from.
        apply (makeDirectories_eq_or later inward).resolve_right
        intro there
        rw [change.working, working] at there
        exact nowhere (start there)

/-- Whether the directories of a place can be made, as far as the tree goes: there is one to start
from, and no file is on the way. -/
def Passable (tree : FileTree) (start room : Location) : Prop :=
  tree.Directory start ∧ ∀ place, Within place room →
    ∀ content executable, tree.node? place ≠ some (.file content executable)

/-- Changes in the room neither put files on the way nor take them away. -/
theorem ChangedIn.passable_iff {room start : Location} {names : Set String} {before after : FileTree}
    (change : ChangedIn room names before after)
    (same : after.Directory start ↔ before.Directory start) :
    after.Passable start room ↔ before.Passable start room := by
  rw [Passable, Passable, same]
  apply and_congr_right
  intro _
  apply forall₂_congr
  intro place within
  rcases change.around within with kept | ⟨absent, opened⟩
  · rw [kept]
  · rw [absent, opened]
    simp

theorem passable_of_directory {tree : FileTree} {start room : Location} (below : Within start room)
    (there : tree.Directory room) : tree.Passable start room := by
  have all : ∀ place, Within place room → tree.Directory place := by
    intro place within
    by_cases same : place = room
    · rw [same]
      exact there
    · exact directory_of_within there within same
  refine ⟨all start below, ?_⟩
  intro place within content executable lies
  have directory : tree.node? place = some .directory := all place within
  rw [directory] at lies
  cases lies

theorem ChangedIn.directory_name {room : Location} {names : Set String} {before after : FileTree}
    (change : ChangedIn room names before after) {name : String} (other : name ∉ names) :
    after.Directory (name :: room) ↔ before.Directory (name :: room) := by
  rw [Directory, Directory, change.node?_name other]

theorem ChangedIn.directory_around {room place : Location} {names : Set String}
    {before after : FileTree} (change : ChangedIn room names before after)
    (around : Within place room) (there : before.Directory place) : after.Directory place := by
  have lies : before.node? place = some .directory := there
  rcases change.around around with same | ⟨absent, _⟩
  · exact same.trans lies
  · rw [absent] at lies
    cases lies

/-- Where no name is too long and no file is on the way, a walk is refused for absence only. -/
theorem reach_eq_error {tree : FileTree} {here : Location} {steps : List String} {error : FileError}
    (inward : ".." ∉ steps) (short : ∀ step ∈ steps, step.utf8ByteSize ≤ nameLimit)
    (clear : ∀ place, Within place (Path.follow here steps) →
      ∀ content executable, tree.node? place ≠ some (.file content executable))
    (refused : tree.reach here steps = .error error) : error = .notFound := by
  induction steps generalizing here with
  | nil =>
      rw [reach_nil] at refused
      split at refused
      · cases refused
        rfl
      · cases refused
  | cons step rest ih =>
      have stepInward : step ≠ ".." := fun same => inward (by simp [same])
      have restInward : ".." ∉ rest := fun member => inward (List.mem_cons_of_mem step member)
      obtain ⟨first, others⟩ := List.forall_mem_cons.mp short
      rw [reach_cons _ _ _ _ stepInward] at refused
      split at refused
      · cases refused
        rfl
      · rename_i content executable lies
        exact absurd lies (clear here (Path.within_follow here (step :: rest)) content executable)
      · by_cases dot : step = "."
        · simp only [dot, ↓reduceIte] at refused
          simp only [Path.follow, dot, ↓reduceIte] at clear
          exact ih restInward others clear refused
        · simp only [dot, Nat.not_lt.mpr first, ↓reduceIte] at refused
          simp only [Path.follow, dot, ↓reduceIte] at clear
          exact ih restInward others clear refused

theorem changedIn_own_place (tree : FileTree) {path : Path} (inward : path.Inward) :
    ChangedIn (path.place tree.workingDirectory) ∅ tree (tree.makeDirectories path).1 :=
  changedIn_makeDirectories ⟨inward, List.suffix_refl _⟩

theorem directory_origin_makeDirectories (tree : FileTree) {path : Path} (inward : path.Inward) :
    (tree.makeDirectories path).1.Directory (path.origin tree.workingDirectory) ↔
      tree.Directory (path.origin tree.workingDirectory) := by
  constructor
  · intro there
    rcases makeDirectories_eq_or tree inward with same | start
    · rwa [same] at there
    · exact start
  · intro there
    exact (changedIn_own_place tree inward).directory_around (Path.within_follow _ _) there

theorem directory_of_makeDirectories (tree : FileTree) {path : Path} (fit : path.Fit)
    (made : (tree.makeDirectories path).2 = .ok ()) :
    (tree.makeDirectories path).1.Directory (path.place tree.workingDirectory) := by
  have opened := changedIn_own_place tree fit.inward
  rcases makeDirectories_cases tree fit with (⟨_, there⟩ | ⟨⟨error, failed⟩, _⟩) | ⟨_, error, failed⟩
  · rw [← opened.working]
    exact ((found_eq_ok_iff _ fit.inward _).mp there).2.1
  · rw [made] at failed
    cases failed
  · rw [failed] at made
    cases made

/-- A directory with all directories around it can be made exactly when its names are short enough
and the tree lets it through. -/
theorem makeDirectories_eq_ok_iff (tree : FileTree) {path : Path} (fit : path.Fit) :
    (tree.makeDirectories path).2 = .ok () ↔ (∀ step ∈ path.steps, step.utf8ByteSize ≤ nameLimit) ∧
      tree.Passable (path.origin tree.workingDirectory) (path.place tree.workingDirectory) := by
  have stepsInward := (Path.inward_iff path).mp fit.inward
  have opened := changedIn_own_place tree fit.inward
  have same := opened.passable_iff (directory_origin_makeDirectories tree fit.inward)
  rcases makeDirectories_cases tree fit with (⟨made, there⟩ | ⟨⟨error, failed⟩, stopped⟩) | ⟨nowhere, error, failed⟩
  · obtain ⟨short, lies, _⟩ := (found_eq_ok_iff _ fit.inward _).mp there
    rw [opened.working] at lies
    rw [← same]
    simp only [made, true_iff]
    exact ⟨short, passable_of_directory (Path.within_follow _ _) lies⟩
  · rw [failed]
    simp only [reduceCtorEq, false_iff]
    rintro ⟨short, passable⟩
    have clear := (same.mpr passable).2
    -- What was made are directories, so no file stops the walk, and no name does.
    rcases stopped with ⟨refusal, refused, present⟩ | ⟨content, executable, lies⟩
    · rw [found, opened.working] at refused
      exact present (reach_eq_error stepsInward short clear refused)
    · obtain ⟨_, file, _⟩ := (found_eq_ok_iff _ fit.inward _).mp lies
      rw [opened.working] at file
      exact clear _ (List.suffix_refl _) content executable file
  · rw [failed]
    simp only [reduceCtorEq, false_iff]
    rintro ⟨_, passable⟩
    exact nowhere passable.1

end FileTree

end ProofBuild
