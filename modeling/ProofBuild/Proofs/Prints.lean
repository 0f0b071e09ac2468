import ProofBuild.Fingerprint

/-!
When a fingerprint is made. A path that is there but cannot be read stops the whole: a fingerprint
is made exactly when each input is a readable file or absent, and it is then the digest of what was
read (`fingerprint_eq_ok_iff`).
-/

namespace ProofBuild

namespace Fingerprint

/-- A path with the digest of its file's content, none when there is no such file. -/
def inputAt (tree : FileTree) (path : Path) : Input :=
  (path, (tree.read path).toOption.map Sha256.digest)

/-- Whether a path can be an input: a file that can be read, or nothing. -/
def Readable (tree : FileTree) (path : Path) : Prop :=
  tree.read path = .error .notFound ∨ ∃ content, tree.read path = .ok content

/-- What cannot be read for another reason than its absence is no input. -/
theorem not_readable {tree : FileTree} {path : Path} {error : FileError}
    (refused : tree.read path = .error error) (there : error ≠ .notFound) :
    ¬ Readable tree path := by
  rintro (absent | ⟨content, found⟩)
  · rw [refused] at absent
    cases absent
    exact there rfl
  · rw [refused] at found
    cases found

theorem readInput_eq_ok_iff {tree : FileTree} {path : Path} {input : Input} :
    readInput tree path = .ok input ↔ Readable tree path ∧ input = inputAt tree path := by
  unfold readInput Readable inputAt
  cases tree.read path with
  | ok content => simp [Except.toOption, eq_comm]
  | error error => cases error <;> simp [Except.toOption, eq_comm]

theorem mapM_readInput_eq_ok_iff {tree : FileTree} {paths : List Path} {inputs : List Input} :
    paths.mapM (readInput tree) = .ok inputs ↔
      (∀ path ∈ paths, Readable tree path) ∧ inputs = paths.map (inputAt tree) := by
  induction paths generalizing inputs with
  | nil => simp [pure, Except.pure, eq_comm]
  | cons path rest ih =>
      rw [List.mapM_cons, List.forall_mem_cons, List.map_cons]
      cases first : readInput tree path with
      | error error =>
          -- The first input that cannot be read stops the others.
          have unreadable : ¬ Readable tree path := by
            intro readable
            rw [readInput_eq_ok_iff.mpr ⟨readable, rfl⟩] at first
            cases first
          simp [bind, Except.bind, unreadable]
      | ok input =>
          obtain ⟨readable, rfl⟩ := readInput_eq_ok_iff.mp first
          cases others : rest.mapM (readInput tree) with
          | error error =>
              have unreadable : ¬ ∀ other ∈ rest, Readable tree other := by
                intro all
                rw [ih.mpr ⟨all, rfl⟩] at others
                cases others
              simp [bind, Except.bind, unreadable]
          | ok read =>
              obtain ⟨all, rfl⟩ := ih.mp others
              simp only [bind, Except.bind, pure, Except.pure, Except.ok.injEq, readable, true_and]
              exact ⟨fun same => ⟨all, same.symm⟩, fun both => both.2.symm⟩

end Fingerprint

/-- A fingerprint is made exactly when every input is a readable file or absent. -/
theorem fingerprint_eq_ok_iff {tree : FileTree} {invocation : Invocation} {paths : List Path}
    {recorded : List (Option String)} {print : String} :
    fingerprint tree invocation paths recorded = .ok print ↔
      (∀ path ∈ paths, Fingerprint.Readable tree path) ∧
        print = Sha256.hex (Sha256.digest
          (Fingerprint.encode invocation (paths.map (Fingerprint.inputAt tree)) recorded)) := by
  unfold fingerprint
  cases read : paths.mapM (Fingerprint.readInput tree) with
  | error error =>
      have unreadable : ¬ ∀ path ∈ paths, Fingerprint.Readable tree path := by
        intro all
        rw [Fingerprint.mapM_readInput_eq_ok_iff.mpr ⟨all, rfl⟩] at read
        cases read
      simp [bind, Except.bind, unreadable]
  | ok inputs =>
      obtain ⟨all, rfl⟩ := Fingerprint.mapM_readInput_eq_ok_iff.mp read
      simp only [bind, Except.bind, pure, Except.pure, Except.ok.injEq]
      exact ⟨fun same => ⟨all, same.symm⟩, fun both => both.2.symm⟩

end ProofBuild
