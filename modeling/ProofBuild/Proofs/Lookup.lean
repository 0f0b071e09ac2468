import ProofBuild.Proofs.Places

/-!
What is found at a path. The node at an inward path's place is found exactly when the path can be
used at all, and only a directory answers to a path that asks for one (`status_eq_ok_iff`). What
can be made or unmade there is the name at that place, and it takes a directory around it
(`of_target_eq_named`, `target_child`).
-/

namespace ProofBuild

namespace FileTree

/-- What lies where a walk arrives. -/
def reach (tree : FileTree) (here : Location) (steps : List String) : Except FileError Node := do
  let place ← tree.descend here steps
  match tree.node? place with
  | none => .error .notFound
  | some node => .ok node

theorem reach_nil (tree : FileTree) (here : Location) :
    tree.reach here [] = match tree.node? here with
      | none => .error .notFound
      | some node => .ok node := rfl

theorem reach_cons (tree : FileTree) (here : Location) (step : String) (rest : List String)
    (inward : step ≠ "..") :
    tree.reach here (step :: rest) = match tree.node? here with
      | none => .error .notFound
      | some (.file ..) => .error .notDirectory
      | some .directory =>
          if step = "." then tree.reach here rest
          else if nameLimit < step.utf8ByteSize then .error .nameTooLong
          else tree.reach (step :: here) rest := by
  unfold reach
  simp only [descend, inward, ↓reduceIte]
  cases tree.node? here with
  | none => rfl
  | some node =>
      cases node with
      | file content executable => rfl
      | directory =>
          by_cases dot : step = "."
          · simp [dot]
          · by_cases long : nameLimit < step.utf8ByteSize
            · simp [dot, long, bind, Except.bind]
            · simp [dot, long]

/-- Whatever is found lies in directories all the way up. -/
theorem directory_of_within {tree : FileTree} {here place : Location} {node : Node}
    (found : tree.node? place = some node) (below : Within here place) (different : here ≠ place) :
    tree.Directory here := by
  obtain ⟨inner, rfl⟩ := below
  induction inner generalizing node with
  | nil => exact absurd rfl different
  | cons name outer ih =>
      have above : tree.Directory (outer ++ here) := directory_of_node? found
      by_cases same : here = outer ++ here
      · rwa [← same] at above
      · exact ih above same

/-- A walk finds exactly the node at its place, if no name is too long. A last `.` asks for a
directory there. -/
theorem reach_eq_ok_iff (tree : FileTree) (here : Location) (steps : List String) (node : Node)
    (inward : ".." ∉ steps) :
    tree.reach here steps = .ok node ↔
      (∀ step ∈ steps, step.utf8ByteSize ≤ nameLimit) ∧
        tree.node? (Path.follow here steps) = some node ∧
        (steps.getLast? = some "." → node = .directory) := by
  induction steps generalizing here with
  | nil =>
      rw [reach_nil]
      cases found : tree.node? here <;> simp [found]
  | cons step rest ih =>
      have restInward : ".." ∉ rest := fun member => inward (List.mem_cons_of_mem step member)
      have stepInward : step ≠ ".." := fun same => inward (by simp [same])
      rw [reach_cons tree here step rest stepInward]
      by_cases inside : tree.node? here = some .directory
      · rw [inside]
        by_cases dot : step = "."
        · -- A dot stays where the walk is, and as the last step it asks for a directory.
          subst dot
          have short : ".".utf8ByteSize ≤ nameLimit := by decide
          cases rest with
          | nil => simp [reach_nil, inside, short, Path.follow, eq_comm]
          | cons second others =>
              simpa [short, Path.follow, List.getLast?_cons_cons] using ih here restInward
        · have lasts : (step :: rest).getLast? = some "." ↔ rest.getLast? = some "." := by
            cases rest with
            | nil => simp [dot]
            | cons second others => rw [List.getLast?_cons_cons]
          by_cases long : nameLimit < step.utf8ByteSize
          · simp [dot, long, Nat.not_le.mpr long]
          · have short := Nat.le_of_not_lt long
            simpa [dot, long, short, Path.follow, lasts] using ih (step :: here) restInward
      · -- Nothing can be found below a place that is no directory.
        have nowhere : ¬ (tree.node? (Path.follow here (step :: rest)) = some node ∧
            ((step :: rest).getLast? = some "." → node = .directory)) := by
          rintro ⟨found, last⟩
          apply inside
          by_cases stays : here = Path.follow here (step :: rest)
          · have dots := Path.dots_of_follow_eq stays.symm
            have final := List.getLast?_eq_some_getLast (List.cons_ne_nil step rest)
            rw [dots _ (List.getLast_mem (List.cons_ne_nil step rest))] at final
            rw [stays, found, last final]
          · exact directory_of_within found (Path.within_follow here _) stays
        cases lying : tree.node? here with
        | none => simp_all
        | some other =>
            cases other with
            | file content executable => simp_all
            | directory => exact absurd lying inside

theorem status_eq (tree : FileTree) (path : Path) :
    tree.status path = (do
      let address ← path.address
      tree.reach (tree.startOf address)
        (address.steps ++ if address.slashed then ["."] else [])) := by
  unfold status locate reach
  cases path.address <;> rfl

/-- A path without a slash at its end is walked as its steps say. -/
theorem status_eq_reach (tree : FileTree) {path : Path} (zero : '\x00' ∉ path.text.toList)
    (blank : path.text ≠ "") (short : path.text.utf8ByteSize ≤ pathLimit)
    (slashed : path.text.toList.getLast? ≠ some '/') :
    tree.status path =
      tree.reach (if path.isAbsolute then [] else tree.workingDirectory) path.steps := by
  rw [status_eq, Path.address_eq_ok zero blank short]
  simp [bind, Except.bind, startOf, slashed]

/-- At an inward path, exactly the node at its place is found, if the path can be used at all. -/
theorem status_eq_ok_iff (tree : FileTree) {path : Path} (inward : path.Inward) (node : Node) :
    tree.status path = .ok node ↔
      path.Usable ∧ tree.node? (path.place tree.workingDirectory) = some node ∧
        (path.ForDirectory → node = .directory) := by
  rw [status_eq]
  cases reached : path.address with
  | error error =>
      simp only [bind, Except.bind, reduceCtorEq, false_iff, not_and]
      intro usable
      have answers := Path.address_eq_ok usable.1 usable.2.1 usable.2.2.1
      rw [reached] at answers
      cases answers
  | ok address =>
      obtain ⟨zero, blank, short, rfl⟩ := Path.of_address_eq_ok reached
      have stepsInward := (Path.inward_iff path).mp inward
      have start : tree.startOf ⟨path.isAbsolute, path.steps,
          path.text.toList.getLast? = some '/'⟩ =
            if path.isAbsolute then [] else tree.workingDirectory := rfl
      simp only [bind, Except.bind, start, Path.Usable, zero, blank, short, ne_eq,
        not_false_eq_true, true_and, Path.ForDirectory, Path.place]
      generalize (if path.isAbsolute then [] else tree.workingDirectory) = here
      -- A slash at the end is walked as a last dot.
      by_cases slashed : path.text.toList.getLast? = some '/'
      · have dot : ".".utf8ByteSize ≤ nameLimit := by decide
        simp only [slashed, decide_true, ↓reduceIte]
        rw [reach_eq_ok_iff _ _ _ _ (by simpa using stepsInward)]
        simp [Path.follow_append, Path.follow, dot, or_imp, forall_and]
      · simp only [slashed, decide_false, Bool.false_eq_true, ↓reduceIte, List.append_nil]
        rw [reach_eq_ok_iff _ _ _ _ stepsInward]
        simp

theorem descend_cons (tree : FileTree) (here : Location) (step : String) (rest : List String)
    (inward : step ≠ "..") (inside : tree.Directory here) :
    tree.descend here (step :: rest) =
      if step = "." then tree.descend here rest
      else if nameLimit < step.utf8ByteSize then .error .nameTooLong
      else tree.descend (step :: here) rest := by
  simp [descend, inward, show tree.node? here = some .directory from inside]

/-- An inward walk that succeeds arrives where its steps say, and no name on it is too long. -/
theorem of_descend_eq_ok {tree : FileTree} {here place : Location} {steps : List String}
    (inward : ".." ∉ steps) (arrives : tree.descend here steps = .ok place) :
    place = Path.follow here steps ∧ ∀ step ∈ steps, step.utf8ByteSize ≤ nameLimit := by
  induction steps generalizing here with
  | nil =>
      cases arrives
      exact ⟨rfl, by simp⟩
  | cons step rest ih =>
      have restInward : ".." ∉ rest := fun member => inward (List.mem_cons_of_mem step member)
      have stepInward : step ≠ ".." := fun same => inward (by simp [same])
      by_cases inside : tree.Directory here
      · rw [descend_cons tree here step rest stepInward inside] at arrives
        by_cases dot : step = "."
        · have short : ".".utf8ByteSize ≤ nameLimit := by decide
          rw [if_pos dot] at arrives
          simpa [Path.follow, dot, short] using ih restInward arrives
        · rw [if_neg dot] at arrives
          split at arrives
          · cases arrives
          · rename_i long
            simpa [Path.follow, dot, Nat.le_of_not_lt long] using ih restInward arrives
      · unfold descend at arrives
        split at arrives
        · cases arrives
        · cases arrives
        · exact absurd ‹_› inside

/-- An inward walk to a directory succeeds. -/
theorem descend_eq_ok {tree : FileTree} {here : Location} {steps : List String}
    (inward : ".." ∉ steps) (short : ∀ step ∈ steps, step.utf8ByteSize ≤ nameLimit)
    (inside : tree.Directory (Path.follow here steps)) :
    tree.descend here steps = .ok (Path.follow here steps) := by
  have found := (reach_eq_ok_iff tree here steps .directory inward).mpr
    ⟨short, inside, fun _ => rfl⟩
  unfold reach at found
  cases arrives : tree.descend here steps with
  | error error => simp [arrives, bind, Except.bind] at found
  | ok place => rw [(of_descend_eq_ok inward arrives).1]

/-- What can be made or unmade at an inward path is the name at its place, in a directory. -/
theorem of_target_eq_named {tree : FileTree} {path : Path} {around : Location} {name : String}
    {slashed : Bool} (inward : path.Inward)
    (reached : tree.target path = .ok (.named around name slashed)) :
    path.place tree.workingDirectory = name :: around ∧ tree.Directory around ∧ path.Usable := by
  unfold target at reached
  cases addressed : path.address with
  | error error => simp [addressed, bind, Except.bind] at reached
  | ok address =>
      obtain ⟨zero, blank, short, rfl⟩ := Path.of_address_eq_ok addressed
      have stepsInward := (Path.inward_iff path).mp inward
      simp only [addressed, bind, Except.bind, startOf] at reached
      -- Every refusal on the way is another answer, so all of them are ruled out in turn.
      split at reached
      · cases reached
      · rename_i last ends
        obtain ⟨front, steps⟩ := List.getLast?_eq_some_iff.mp ends
        rw [steps, List.dropLast_concat] at reached
        split at reached
        · cases reached
        · rename_i spot arrives
          have frontInward : ".." ∉ front := fun member => stepsInward (by simp [steps, member])
          obtain ⟨rfl, names⟩ := of_descend_eq_ok frontInward arrives
          split at reached
          · cases reached
          · cases reached
          · rename_i inside
            split at reached
            · cases reached
            · rename_i proper
              split at reached
              · cases reached
              · rename_i long
                cases reached
                have dot : name ≠ "." := fun same => proper (.inl same)
                refine ⟨?_, inside, zero, blank, short, ?_⟩
                · simp [Path.place, steps, Path.follow_append, Path.follow, dot]
                · simpa [steps, or_imp, forall_and] using ⟨names, Nat.le_of_not_lt long⟩

section Child
variable {base : Path} {name : String} (ordinary : Path.OrdinaryName name) (inward : base.Inward)
include ordinary

theorem target_child_ne_fixed (tree : FileTree) : tree.target (base.child name) ≠ .ok .fixed := by
  intro reached
  unfold target at reached
  cases addressed : (base.child name).address with
  | error error => simp [addressed, bind, Except.bind] at reached
  | ok address =>
      obtain ⟨_, _, _, rfl⟩ := Path.of_address_eq_ok addressed
      simp only [addressed, bind, Except.bind, Path.steps_child ordinary,
        List.getLast?_concat] at reached
      split at reached
      · cases reached
      · split at reached
        · cases reached
        · cases reached
        · simp only [ordinary.notHere, ordinary.notUp, or_self, ↓reduceIte] at reached
          split at reached <;> cases reached

include inward

/-- A name inside a directory is a target exactly when the directory is there and the path can be
used. -/
theorem target_child (tree : FileTree) :
    tree.target (base.child name) =
        .ok (.named (base.place tree.workingDirectory) name false) ∧
        (base.child name).Usable ∧ tree.Directory (base.place tree.workingDirectory) ∨
      (∃ error, tree.target (base.child name) = .error error) ∧
        ¬ ((base.child name).Usable ∧ tree.Directory (base.place tree.workingDirectory)) := by
  have childInward := Path.inward_child ordinary inward
  have steps := Path.steps_child ordinary base
  by_cases fits : (base.child name).Usable ∧ tree.Directory (base.place tree.workingDirectory)
  · left
    refine ⟨?_, fits⟩
    obtain ⟨⟨zero, blank, short, names⟩, inside⟩ := fits
    have slashed : (base.child name).text.toList.getLast? ≠ some '/' := fun ends =>
      Path.not_forDirectory_child ordinary base (.inl ends)
    have walk : tree.descend (if base.isAbsolute then [] else tree.workingDirectory) base.steps =
        .ok (base.place tree.workingDirectory) :=
      descend_eq_ok ((Path.inward_iff base).mp inward)
        (fun step member => names step (by simp [steps, member])) inside
    have there : tree.node? (base.place tree.workingDirectory) = some .directory := inside
    have long : ¬ nameLimit < name.utf8ByteSize := Nat.not_lt.mpr (names name (by simp [steps]))
    unfold target
    simp only [Path.address_eq_ok zero blank short, bind, Except.bind, steps, startOf,
      Path.isAbsolute_child ordinary, List.getLast?_concat, List.dropLast_concat, walk, slashed,
      decide_false]
    unfold Path.place at there
    simp [there, ordinary.notHere, ordinary.notUp, long, Path.place]
  · right
    refine ⟨?_, fits⟩
    cases reached : tree.target (base.child name) with
    | error error => exact ⟨error, rfl⟩
    | ok target =>
        exfalso
        cases target with
        | fixed => exact target_child_ne_fixed ordinary tree reached
        | named around inner slashed =>
            obtain ⟨place, inside, usable⟩ := of_target_eq_named childInward reached
            rw [Path.place_child ordinary base] at place
            cases place
            exact fits ⟨usable, inside⟩

end Child

theorem present_eq_true_iff (tree : FileTree) (path : Path) :
    tree.present path = true ↔ ∃ node, tree.status path = .ok node := by
  unfold present
  cases tree.status path <;> simp

theorem isDirectory_iff (tree : FileTree) (path : Path) :
    tree.isDirectory path = true ↔ tree.status path = .ok .directory := by
  unfold isDirectory
  split <;> simp_all

theorem read_eq (tree : FileTree) (path : Path) :
    tree.read path = match tree.status path with
      | .error error => .error error
      | .ok .directory => .error .isDirectory
      | .ok (.file content _) => .ok content := by
  unfold read
  cases tree.status path with
  | error error => rfl
  | ok node => cases node <;> rfl

theorem read_eq_ok_iff (tree : FileTree) (path : Path) (content : Bytes) :
    tree.read path = .ok content ↔
      ∃ executable, tree.status path = .ok (.file content executable) := by
  rw [read_eq]
  cases tree.status path with
  | error error => simp
  | ok node => cases node <;> simp

end FileTree

end ProofBuild
