import ProofBuild.Proofs.Synthesis

/-!
Search paths taken apart again. A search path is its directories with a separator between them and
nothing that marks a separator inside a directory, so what comes back is the pieces of every
directory; a directory comes back whole exactly when it does not hold the separator. Main statement:
when the search paths of a synthesized environment come back as the directories that were meant
(`search_paths_decode_iff`).
-/

namespace ProofBuild

namespace SearchPath
variable {separator : Char}

theorem split_ne_nil (separator : Char) (text : String) : split separator text ≠ [] := by
  simp [split, Text.pieces, Text.cut_ne_nil]

theorem split_of_not_mem {text : String} (whole : separator ∉ text.toList) :
    split separator text = [text] := by
  simp [split, Text.pieces, Text.cut_of_not_mem whole]

theorem not_mem_of_mem_split {text piece : String} (member : piece ∈ split separator text) :
    separator ∉ piece.toList := by
  obtain ⟨characters, cut, rfl⟩ := List.mem_map.mp member
  rw [String.toList_ofList]
  exact Text.not_mem_of_mem_cut cut

/-- Joined texts come apart into the pieces of each. -/
theorem split_intercalate (separator : Char) {texts : List String} (some : texts ≠ []) :
    split separator ((String.singleton separator).intercalate texts) =
      texts.flatMap (split separator) := by
  induction texts with
  | nil => exact absurd rfl some
  | cons text rest ih =>
      by_cases last : rest = []
      · simp [last]
      · rw [List.flatMap_cons, ← ih last, String.intercalate_cons_of_ne_nil last]
        simp [split, Text.pieces, Text.cut_append_separator]

/-- Texts are their own pieces exactly when none holds the separator. -/
theorem flatMap_split_eq_iff {texts : List String} :
    texts.flatMap (split separator) = texts ↔ ∀ text ∈ texts, separator ∉ text.toList := by
  induction texts with
  | nil => simp
  | cons text rest ih =>
      rw [List.flatMap_cons, List.forall_mem_cons]
      constructor
      · intro same
        cases pieces : split separator text with
        | nil => exact absurd pieces (split_ne_nil separator text)
        | cons piece others =>
            -- The first piece is the text, and no piece holds the separator.
            rw [pieces, List.cons_append] at same
            obtain ⟨rfl, later⟩ := List.cons.inj same
            have whole : separator ∉ piece.toList :=
              not_mem_of_mem_split (pieces ▸ List.mem_cons_self)
            rw [split_of_not_mem whole] at pieces
            obtain ⟨_, rfl⟩ := List.cons.inj pieces
            exact ⟨whole, ih.mp later⟩
      · rintro ⟨whole, later⟩
        rw [split_of_not_mem whole, ih.mpr later]
        rfl

/-- The entries of an inherited search path; an empty one has none. -/
def entries (separator : Char) (inherited : Option String) : List String :=
  match inherited with
  | none => []
  | some text => if text = "" then [] else split separator text

/-- What a joined search path comes apart into. -/
theorem split_join {front : List Path} (some : front ≠ []) (inherited : Option String)
    (separator : Char) :
    split separator (join front inherited separator) =
      (front.map (·.text)).flatMap (split separator) ++ entries separator inherited := by
  unfold join
  rw [split_intercalate separator (by simp [some]), List.flatMap_append]
  congr 1
  cases inherited with
  | none => rfl
  | some text =>
      by_cases blank : text = ""
      · simp [entries, blank]
      · simp [entries, blank]

theorem join_ne_empty {first : Path} (solid : first.text ≠ "") (rest : List Path)
    (inherited : Option String) (separator : Char) :
    join (first :: rest) inherited separator ≠ "" := by
  unfold join
  dsimp only
  rw [List.map_cons, List.cons_append]
  generalize rest.map (·.text) ++ _ = others
  by_cases last : others = []
  · simpa [last] using solid
  · rw [String.intercalate_cons_of_ne_nil last]
    simp

/-- Whether a search path comes apart into these directories and the entries of an inherited one. -/
def Decodes (separator : Char) (searchPath : Option String) (front : List Path)
    (inherited : Option String) : Prop :=
  ∃ text, searchPath = some text ∧
    split separator text = front.map (·.text) ++ entries separator inherited

/-- No directory holds the separator. -/
def Whole (separator : Char) (front : List Path) : Prop :=
  ∀ directory ∈ front, separator ∉ directory.text.toList

/-- Directories in front of a search path that itself comes apart into the pieces of more directories
and what is inherited. -/
theorem decodes_join_iff {front more : List Path} {searchPath inherited : Option String}
    (some : front ≠ [])
    (onward : entries separator searchPath =
      (more.map (·.text)).flatMap (split separator) ++ entries separator inherited) :
    Decodes separator (join front searchPath separator) (front ++ more) inherited ↔
      Whole separator (front ++ more) := by
  simp only [Decodes, Option.some.injEq, exists_eq_left', split_join some, onward,
    ← List.append_assoc, ← List.flatMap_append, ← List.map_append, List.append_cancel_right_eq,
    flatMap_split_eq_iff, Whole, List.forall_mem_map]

end SearchPath

theorem Path.text_child_ne_empty (base : Path) {name : String} (solid : name ≠ "") :
    (base.child name).text ≠ "" := by
  unfold child join
  split
  · exact solid
  · split <;> simp [solid]

namespace Probe
open SearchPath

theorem managerDirectories_text_ne {probe : Probe} {directory : Path}
    (member : directory ∈ probe.managerDirectories) : directory.text ≠ "" := by
  unfold managerDirectories at member
  cases found : probe.managerHome? with
  | none => simp [found] at member
  | some home =>
      simp only [found, Environment.managerPrograms, List.map_cons, List.map_nil, List.mem_filter,
        List.mem_singleton] at member
      rw [member.1]
      exact Path.text_child_ne_empty home (by decide)

/-- What the solver's directory is put in front of: the manager's directories, and what is inherited
after them. -/
theorem entries_searchPath (probe : Probe) (bundle : Bundle) :
    entries bundle.platform.separator
        (((probe.told bundle).get? "PATH").or (probe.inherited "PATH")) =
      (probe.managerDirectories.map (·.text)).flatMap (split bundle.platform.separator) ++
        entries bundle.platform.separator (probe.inherited "PATH") := by
  rw [told, get?_querySettings, if_pos rfl, managerSearchPath?]
  cases directories : probe.managerDirectories with
  | nil => rfl
  | cons first rest =>
      have solid : first.text ≠ "" :=
        managerDirectories_text_ne (directories ▸ List.mem_cons_self)
      rw [Option.some_or, entries, if_neg (join_ne_empty solid _ _ _), split_join (by simp)]

end Probe

namespace Environment
open SearchPath

/-- The search paths of an environment come apart into what was put in front of the inherited ones
exactly when no directory in front holds the separator. -/
structure DecodesExactly (separator : Char) (library : String) (environment : Environment)
    (programs libraries : List Path) (searchPath inherited : Option String) : Prop where
  programs : Decodes separator (environment.settings.get? "PATH") programs searchPath ↔
    Whole separator programs
  libraries : Decodes separator (environment.settings.get? library) libraries inherited ↔
    Whole separator libraries

section Directories
variable {bundle : Bundle} {solver verifier : Path}
  (solverParent : bundle.solverDirectory? = some solver)
  (verifierParent : bundle.verifierDirectory? = some verifier)
include solverParent verifierParent

theorem decodesExactly_complete (settings : Table) (sysroot : Path) {managers : List Path}
    {searchPath inherited libraries : Option String}
    (onward : entries bundle.platform.separator searchPath =
      (managers.map (·.text)).flatMap (split bundle.platform.separator) ++
        entries bundle.platform.separator inherited) :
    DecodesExactly bundle.platform.separator bundle.platform.libraryVariable
      (complete bundle settings sysroot libraries searchPath) (solver :: managers)
      [sysroot.child "lib", verifier] inherited libraries := by
  constructor
  · rw [get?_complete_path, solverParent]
    exact decodes_join_iff (List.cons_ne_nil solver []) onward
  · rw [get?_complete_libraries, libraryDirectories, verifierParent]
    have nothingMore : entries bundle.platform.separator libraries =
        (([] : List Path).map (·.text)).flatMap (split bundle.platform.separator) ++
          entries bundle.platform.separator libraries := rfl
    exact decodes_join_iff (List.cons_ne_nil (sysroot.child "lib") [verifier]) nothingMore

/-- Let the solver and the verifier lie in directories. Whenever an environment is made, be it on a
machine or over a fixed root, its search path comes apart into the solver's directory, the manager's
directories of programs that are there, and the entries of the inherited search path, exactly when
none of these directories holds the separator; and its library variable comes apart into the
libraries of the root, the verifier's directory, and the entries of the inherited variable, exactly
when neither of these two does. -/
theorem search_paths_decode_iff :
    (∀ (probe : Probe) (environment : Environment),
      (probe.synthesize bundle).2 = .ok environment →
        DecodesExactly bundle.platform.separator bundle.platform.libraryVariable environment
          (solver :: probe.managerDirectories) [environment.sysroot.child "lib", verifier]
          (probe.inherited "PATH") (probe.inherited bundle.platform.libraryVariable)) ∧
    ∀ (sysroot : Path) (searchPath : Option String),
      DecodesExactly bundle.platform.separator bundle.platform.libraryVariable
        (fixed sysroot searchPath bundle) [solver] [sysroot.child "lib", verifier] searchPath
        none := by
  constructor
  · intro probe environment made
    obtain ⟨sysroot, _, _, rfl⟩ := Probe.synthesize_eq_ok_iff.mp made
    exact decodesExactly_complete solverParent verifierParent _ sysroot
      (probe.entries_searchPath bundle)
  · intro sysroot searchPath
    exact decodesExactly_complete solverParent verifierParent _ sysroot rfl

end Directories

/-- A release whose directory is named with a colon. -/
def dated : Bundle :=
  ⟨⟨"/opt/verus:1.93/rust_verify"⟩, ⟨"/opt/verus:1.93/z3"⟩, [], "1.93.0", .linuxX86⟩

theorem search_paths_decode_iff_dated :
    dated.solverDirectory? = some ⟨"/opt/verus:1.93"⟩ ∧
      dated.verifierDirectory? = some ⟨"/opt/verus:1.93"⟩ ∧
      (fixed ⟨"/sysroot"⟩ (some "/usr/bin") dated).settings.get? "PATH" =
        some "/opt/verus:1.93:/usr/bin" ∧
      ¬ Decodes ':' ((fixed ⟨"/sysroot"⟩ (some "/usr/bin") dated).settings.get? "PATH")
        [⟨"/opt/verus:1.93"⟩] (some "/usr/bin") := by
  have solver : dated.solverDirectory? = some ⟨"/opt/verus:1.93"⟩ := by decide
  have verifier : dated.verifierDirectory? = some ⟨"/opt/verus:1.93"⟩ := by decide
  refine ⟨solver, verifier, by decide, ?_⟩
  intro decodes
  have exactly := (search_paths_decode_iff solver verifier).2 ⟨"/sysroot"⟩ (some "/usr/bin")
  have whole : ':' ∉ "/opt/verus:1.93".toList :=
    exactly.programs.mp decodes ⟨"/opt/verus:1.93"⟩ List.mem_cons_self
  exact whole (by decide)

end Environment

end ProofBuild
