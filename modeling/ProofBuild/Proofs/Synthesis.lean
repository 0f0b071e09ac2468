import Mathlib.Data.List.Basic
import ProofBuild.Task

/-!
What a synthesis asks of the machine, and what comes of the answers. The compiler is told of a
toolchain manager under the real home and of nothing else; the default compiler is asked only where
the pinned version gives no root; and the solver is looked at only once there is one. Main
statements: all this of every machine (`synthesizes_exactly`), and a fixed environment stands in for
a machine without a manager (`fixed_stands_in`).
-/

namespace ProofBuild

namespace Environment

theorem libraryVariable_ne_path (platform : Platform) : platform.libraryVariable ≠ "PATH" := by
  cases platform <;> decide

theorem libraryVariable_ne_home (platform : Platform) : platform.libraryVariable ≠ "HOME" := by
  cases platform <;> decide

section Complete
variable (bundle : Bundle) (settings : Table) (sysroot : Path) (libraries searchPath : Option String)

theorem get?_complete_path :
    (complete bundle settings sysroot libraries searchPath).settings.get? "PATH" =
      some (SearchPath.join bundle.solverDirectory?.toList searchPath bundle.platform.separator) := by
  simp [complete]

theorem get?_complete_libraries :
    (complete bundle settings sysroot libraries searchPath).settings.get?
        bundle.platform.libraryVariable =
      some (SearchPath.join (libraryDirectories bundle sysroot) libraries
        bundle.platform.separator) := by
  simp [complete, libraryVariable_ne_path]

theorem get?_complete_other {key : String} (path : key ≠ "PATH")
    (library : key ≠ bundle.platform.libraryVariable) :
    (complete bundle settings sysroot libraries searchPath).settings.get? key =
      settings.get? key := by
  simp [complete, path, library]

end Complete

end Environment

namespace Probe
open Environment

section Manager
variable (probe : Probe)

/-- A toolchain manager keeps its state under this home directory, which the user database gives. -/
def Managed (home : Path) : Prop :=
  probe.home = some home ∧ probe.isDirectory (home.child managerState) = true

/-- Some directory of a manager's programs is there. -/
def Equipped (home : Path) : Prop :=
  ∃ name ∈ managerPrograms, probe.isDirectory (home.child name) = true

variable {probe}

theorem managerHome?_eq_some_iff {home : Path} :
    probe.managerHome? = some home ↔ probe.Managed home := by
  rw [managerHome?, Option.filter_eq_some_iff]
  rfl

theorem managerHome?_eq_none (unmanaged : ∀ home, ¬ probe.Managed home) :
    probe.managerHome? = none :=
  Option.eq_none_iff_forall_ne_some.mpr fun home found =>
    unmanaged home (managerHome?_eq_some_iff.mp found)

theorem managerDirectories_ne_nil_iff :
    probe.managerDirectories ≠ [] ↔ ∃ home, probe.Managed home ∧ probe.Equipped home := by
  unfold managerDirectories
  cases found : probe.managerHome? with
  | none =>
      have unmanaged : ∀ home, ¬ probe.Managed home := fun home managed => by
        rw [managerHome?_eq_some_iff.mpr managed] at found
        cases found
      simp [unmanaged]
  | some home =>
      have only : ∀ other, probe.Managed other ↔ other = home := fun other => by
        rw [← managerHome?_eq_some_iff, found, Option.some.injEq, eq_comm]
      simp [only, Equipped]

theorem managerSearchPath?_isSome_iff (separator : Char) :
    (probe.managerSearchPath? separator).isSome ↔ probe.managerDirectories ≠ [] := by
  unfold managerSearchPath?
  cases probe.managerDirectories <;> simp

variable (probe) in
theorem get?_querySettings (separator : Char) (key : String) :
    (probe.querySettings separator).get? key =
      if key = "PATH" then probe.managerSearchPath? separator
      else if key = "HOME" then probe.managerHome?.map (·.text) else none := by
  unfold querySettings
  by_cases path : key = "PATH"
  · subst path
    cases probe.managerHome? <;> cases probe.managerSearchPath? separator <;> simp
  · cases probe.managerHome? <;> cases probe.managerSearchPath? separator <;> simp [path]

/-- Without a manager the compiler is told nothing. -/
theorem querySettings_eq_empty (unmanaged : ∀ home, ¬ probe.Managed home) (separator : Char) :
    probe.querySettings separator = .empty := by
  have nowhere := managerHome?_eq_none unmanaged
  simp [querySettings, managerSearchPath?, managerDirectories, nowhere]

end Manager

/-- Whether these variables tell the compiler of the machine's toolchain manager and of nothing
else: the real home, when a manager keeps its state there, and a search path, when it also has
programs there. -/
structure Tells (probe : Probe) (settings : Table) : Prop where
  home : ∀ value, settings.get? "HOME" = some value ↔
    ∃ home, probe.Managed home ∧ home.text = value
  searchPath : (∃ value, settings.get? "PATH" = some value) ↔
    ∃ home, probe.Managed home ∧ probe.Equipped home
  other : ∀ key, key ≠ "HOME" → key ≠ "PATH" → settings.get? key = none

theorem tells_querySettings (probe : Probe) (separator : Char) :
    probe.Tells (probe.querySettings separator) := by
  constructor
  · intro value
    simp [get?_querySettings, managerHome?_eq_some_iff]
  · rw [← managerDirectories_ne_nil_iff, ← managerSearchPath?_isSome_iff separator,
      get?_querySettings, if_pos rfl, Option.isSome_iff_exists]
  · intro key home path
    rw [get?_querySettings, if_neg path, if_neg home]

/-- The questions in their order: the default compiler is asked when the pinned version gives
nothing. -/
def questions (probe : Probe) (pinned : String) (settings : Table) : List Query :=
  if probe.sysroot ⟨some pinned, settings⟩ = none then [⟨some pinned, settings⟩, ⟨none, settings⟩]
  else [⟨some pinned, settings⟩]

theorem findSysroot_eq (probe : Probe) (pinned : String) (settings : Table) :
    probe.findSysroot pinned settings = (probe.questions pinned settings,
      (probe.questions pinned settings).findSome? probe.sysroot) := by
  unfold findSysroot questions
  cases first : probe.sysroot ⟨some pinned, settings⟩ with
  | none => cases second : probe.sysroot ⟨none, settings⟩ <;> simp [first, second]
  | some sysroot => simp [first]

section Synthesis
variable (probe : Probe) (bundle : Bundle)

/-- The variables that the compiler is asked with. -/
abbrev told : Table := probe.querySettings bundle.platform.separator

/-- The first root that an answer gives, among the answers to what is asked. -/
def firstAnswer? : Option Path := (probe.synthesize bundle).1.findSome? probe.sysroot

theorem synthesize_eq :
    probe.synthesize bundle = (probe.questions bundle.version (probe.told bundle),
      match (probe.questions bundle.version (probe.told bundle)).findSome? probe.sysroot with
      | none => .error (noCompiler bundle.version)
      | some sysroot =>
          if probe.isFile bundle.solver then
            .ok (complete bundle (probe.told bundle) sysroot
              (probe.inherited bundle.platform.libraryVariable)
              (((probe.told bundle).get? "PATH").or (probe.inherited "PATH")))
          else .error (.toolchain "solver" s!"{bundle.solver.text} not found" bundle.version)) := by
  unfold synthesize
  dsimp only
  rw [findSysroot_eq]
  cases (probe.questions bundle.version (probe.told bundle)).findSome? probe.sysroot with
  | none => rfl
  | some sysroot =>
      dsimp only
      split <;> rfl

variable {probe bundle}

theorem synthesize_of_unanswered (unanswered : probe.firstAnswer? bundle = none) :
    (probe.synthesize bundle).2 = .error (noCompiler bundle.version) := by
  rw [firstAnswer?, synthesize_eq] at unanswered
  rw [synthesize_eq, unanswered]

theorem synthesize_of_answered {sysroot : Path} (answered : probe.firstAnswer? bundle = some sysroot) :
    (probe.synthesize bundle).2 =
      if probe.isFile bundle.solver then
        .ok (complete bundle (probe.told bundle) sysroot
          (probe.inherited bundle.platform.libraryVariable)
          (((probe.told bundle).get? "PATH").or (probe.inherited "PATH")))
      else .error (.toolchain "solver" s!"{bundle.solver.text} not found" bundle.version) := by
  rw [firstAnswer?, synthesize_eq] at answered
  rw [synthesize_eq, answered]

/-- What a synthesis that succeeds has found and made. -/
theorem synthesize_eq_ok_iff {environment : Environment} :
    (probe.synthesize bundle).2 = .ok environment ↔
      ∃ sysroot, probe.firstAnswer? bundle = some sysroot ∧ probe.isFile bundle.solver = true ∧
        environment = complete bundle (probe.told bundle) sysroot
          (probe.inherited bundle.platform.libraryVariable)
          (((probe.told bundle).get? "PATH").or (probe.inherited "PATH")) := by
  cases answer : probe.firstAnswer? bundle with
  | none => simp [synthesize_of_unanswered answer]
  | some sysroot =>
      rw [synthesize_of_answered answer]
      by_cases solver : probe.isFile bundle.solver = true
      · simp [solver, eq_comm]
      · simp [solver]

theorem questions_congr {sysroot : Query → Option Path} {pinned : String} {settings : Table}
    (agree : ∀ query ∈ probe.questions pinned settings, sysroot query = probe.sysroot query) :
    { probe with sysroot }.questions pinned settings = probe.questions pinned settings := by
  have first : sysroot ⟨some pinned, settings⟩ = probe.sysroot ⟨some pinned, settings⟩ := by
    apply agree
    unfold questions
    split <;> simp
  simp only [questions, first]

/-- Only the answers to what is asked matter. -/
theorem synthesize_congr {sysroot : Query → Option Path}
    (agree : ∀ query ∈ (probe.synthesize bundle).1, sysroot query = probe.sysroot query) :
    { probe with sysroot }.synthesize bundle = probe.synthesize bundle := by
  rw [synthesize_eq] at agree
  have told : { probe with sysroot }.told bundle = probe.told bundle := rfl
  have answers : (probe.questions bundle.version (probe.told bundle)).findSome? sysroot =
      (probe.questions bundle.version (probe.told bundle)).findSome? probe.sysroot := by
    rw [← List.head?_filterMap, ← List.head?_filterMap, List.filterMap_congr agree]
  simp only [synthesize_eq, told, questions_congr agree, answers]

end Synthesis

/-- An error about a component that the pinned version needs. Its text ends in the version. -/
def Misses (component : String) (bundle : Bundle) (error : Error) : Prop :=
  (∃ problem, error = .toolchain component problem bundle.version) ∧
    ∃ before, error.message = before ++ (" (pinned toolchain " ++ (bundle.version ++ ")"))

theorem misses_toolchain (component problem : String) (bundle : Bundle) :
    Misses component bundle (.toolchain component problem bundle.version) := by
  refine ⟨⟨problem, rfl⟩, "Toolchain error: " ++ component ++ ": " ++ problem, ?_⟩
  have text : Error.message (.toolchain component problem bundle.version) =
      "Toolchain error: " ++ component ++ ": " ++ problem ++ " (pinned toolchain " ++
        bundle.version ++ ")" := rfl
  simp only [text, String.append_assoc]

/-- How a synthesis goes over the variables that the compiler is asked with. -/
structure Synthesizes (probe : Probe) (bundle : Bundle) (settings : Table) : Prop where
  tells : probe.Tells settings
  /-- The pinned version is asked first, and the default compiler exactly when that fails. -/
  asked : ∃ later, (probe.synthesize bundle).1 = ⟨some bundle.version, settings⟩ :: later ∧
    (probe.sysroot ⟨some bundle.version, settings⟩ = none → later = [⟨none, settings⟩]) ∧
    (probe.sysroot ⟨some bundle.version, settings⟩ ≠ none → later = [])
  /-- Nothing else is asked: no other answer of the compiler matters. -/
  only : ∀ sysroot,
    (∀ query ∈ (probe.synthesize bundle).1, sysroot query = probe.sysroot query) →
      { probe with sysroot }.synthesize bundle = probe.synthesize bundle
  succeeds : (∃ environment, (probe.synthesize bundle).2 = .ok environment) ↔
    (∃ query ∈ (probe.synthesize bundle).1, probe.sysroot query ≠ none) ∧
      probe.isFile bundle.solver = true
  sysroot : ∀ environment, (probe.synthesize bundle).2 = .ok environment →
    probe.firstAnswer? bundle = some environment.sysroot
  /-- Whether there is a solver does not matter without a root. -/
  unanswered : (∀ query ∈ (probe.synthesize bundle).1, probe.sysroot query = none) →
    ∃ error, (probe.synthesize bundle).2 = .error error ∧ Misses "compiler sysroot" bundle error
  unsolved : (∃ query ∈ (probe.synthesize bundle).1, probe.sysroot query ≠ none) →
    probe.isFile bundle.solver = false →
      ∃ error, (probe.synthesize bundle).2 = .error error ∧ Misses "solver" bundle error
  keys : ∀ environment, (probe.synthesize bundle).2 = .ok environment → ∀ key,
    (∃ value, environment.settings.get? key = some value) ↔
      key = "PATH" ∨ key = bundle.platform.libraryVariable ∨
        key = "HOME" ∧ ∃ home, probe.Managed home
  home : ∀ environment, (probe.synthesize bundle).2 = .ok environment →
    ∀ value, environment.settings.get? "HOME" = some value ↔
      ∃ home, probe.Managed home ∧ home.text = value

section Outcomes
variable {probe : Probe} {bundle : Bundle}

theorem firstAnswer?_eq_none_iff :
    probe.firstAnswer? bundle = none ↔
      ∀ query ∈ (probe.synthesize bundle).1, probe.sysroot query = none :=
  List.findSome?_eq_none_iff

theorem exists_firstAnswer?_iff :
    (∃ sysroot, probe.firstAnswer? bundle = some sysroot) ↔
      ∃ query ∈ (probe.synthesize bundle).1, probe.sysroot query ≠ none := by
  rw [← Option.ne_none_iff_exists', Ne, firstAnswer?_eq_none_iff]
  simp only [not_forall, exists_prop, ne_eq]

/-- Of the variables for the verifier, only the search path and the library variable were not there
for the compiler. -/
theorem get?_of_synthesize {environment : Environment}
    (made : (probe.synthesize bundle).2 = .ok environment) {key : String} (path : key ≠ "PATH")
    (library : key ≠ bundle.platform.libraryVariable) :
    environment.settings.get? key = (probe.told bundle).get? key := by
  obtain ⟨sysroot, _, _, rfl⟩ := synthesize_eq_ok_iff.mp made
  exact get?_complete_other bundle _ sysroot _ _ path library

theorem home_of_synthesize {environment : Environment}
    (made : (probe.synthesize bundle).2 = .ok environment) (value : String) :
    environment.settings.get? "HOME" = some value ↔
      ∃ home, probe.Managed home ∧ home.text = value := by
  rw [get?_of_synthesize made (by decide) (libraryVariable_ne_home _).symm]
  exact (probe.tells_querySettings _).home value

theorem keys_of_synthesize {environment : Environment}
    (made : (probe.synthesize bundle).2 = .ok environment) (key : String) :
    (∃ value, environment.settings.get? key = some value) ↔
      key = "PATH" ∨ key = bundle.platform.libraryVariable ∨
        key = "HOME" ∧ ∃ home, probe.Managed home := by
  obtain ⟨sysroot, _, _, same⟩ := synthesize_eq_ok_iff.mp made
  by_cases path : key = "PATH"
  · simp [path, same, get?_complete_path]
  by_cases library : key = bundle.platform.libraryVariable
  · simp [library, same, get?_complete_libraries]
  by_cases home : key = "HOME"
  · subst home
    simp only [home_of_synthesize made, path, library, false_or, true_and]
    constructor
    · rintro ⟨_, home, managed, _⟩
      exact ⟨home, managed⟩
    · rintro ⟨home, managed⟩
      exact ⟨_, home, managed, rfl⟩
  · rw [get?_of_synthesize made path library, (probe.tells_querySettings _).other key home path]
    simp [path, library, home]

end Outcomes

/-- A synthesis tells the compiler of a toolchain manager under the real home, asks for the pinned
version and then, if need be, for the default one, and nothing more. It succeeds exactly when one of
them answers and the solver is there, and else it names what is missing and the pinned version. -/
theorem synthesizes_exactly (probe : Probe) (bundle : Bundle) :
    ∃ settings, probe.Synthesizes bundle settings := by
  refine ⟨probe.told bundle, ?_⟩
  constructor
  case tells => exact probe.tells_querySettings _
  case asked =>
    rw [synthesize_eq, questions]
    split
    · exact ⟨_, rfl, fun _ => rfl, fun answered => absurd ‹_› answered⟩
    · exact ⟨_, rfl, fun silent => absurd silent ‹_›, fun _ => rfl⟩
  case only => exact fun sysroot => synthesize_congr
  case succeeds =>
    simp only [← exists_firstAnswer?_iff, synthesize_eq_ok_iff]
    constructor
    · rintro ⟨_, sysroot, answered, solver, _⟩
      exact ⟨⟨sysroot, answered⟩, solver⟩
    · rintro ⟨⟨sysroot, answered⟩, solver⟩
      exact ⟨_, sysroot, answered, solver, rfl⟩
  case sysroot =>
    intro environment made
    obtain ⟨sysroot, answered, _, rfl⟩ := synthesize_eq_ok_iff.mp made
    exact answered
  case unanswered =>
    intro silent
    exact ⟨_, synthesize_of_unanswered (firstAnswer?_eq_none_iff.mpr silent),
      misses_toolchain _ _ bundle⟩
  case unsolved =>
    intro heard absent
    obtain ⟨sysroot, answered⟩ := exists_firstAnswer?_iff.mpr heard
    refine ⟨_, ?_, misses_toolchain _ s!"{bundle.solver.text} not found" bundle⟩
    rw [synthesize_of_answered answered, absent]
    rfl
  case keys => exact fun environment => keys_of_synthesize
  case home => exact fun environment => home_of_synthesize

/-- Where no manager is and the library variable is empty, what is made is the fixed environment. -/
theorem complete_eq_fixed {probe : Probe} {bundle : Bundle}
    (unmanaged : ∀ home, ¬ probe.Managed home)
    (bare : ∀ value, probe.inherited bundle.platform.libraryVariable = some value → value = "")
    (sysroot : Path) :
    complete bundle (probe.told bundle) sysroot (probe.inherited bundle.platform.libraryVariable)
        (((probe.told bundle).get? "PATH").or (probe.inherited "PATH")) =
      fixed sysroot (probe.inherited "PATH") bundle := by
  rw [told, querySettings_eq_empty unmanaged, Table.get?_empty, Option.none_or]
  cases inherited : probe.inherited bundle.platform.libraryVariable with
  | none => rfl
  | some value =>
      -- An empty inherited value is left out, as if the variable were not set.
      obtain rfl := bare value inherited
      rfl

end Probe

namespace Environment

/-- A fixed environment stands in for a machine where no toolchain manager is under the real home,
where the library variable is not set or empty, and where the solver is there: with the root that
the compiler gives first and with the machine's search path it is the environment that is made
there. So every crate has the same invocation with either, and every task is prepared alike. -/
theorem fixed_stands_in {probe : Probe} {bundle : Bundle} {sysroot : Path}
    {searchPath : Option String} (unmanaged : ∀ home, ¬ probe.Managed home)
    (answered : probe.firstAnswer? bundle = some sysroot)
    (inherited : probe.inherited "PATH" = searchPath)
    (bare : ∀ value, probe.inherited bundle.platform.libraryVariable = some value → value = "")
    (solver : probe.isFile bundle.solver = true) :
    (probe.synthesize bundle).2 = .ok (fixed sysroot searchPath bundle) ∧
      (∀ environment, (probe.synthesize bundle).2 = .ok environment →
        ∀ crate linkage edition,
          Invocation.ofCrate crate bundle linkage environment edition =
            Invocation.ofCrate crate bundle linkage (fixed sysroot searchPath bundle) edition) ∧
      ∀ context : Context, context.bundle = bundle → ∀ graph tree crate,
        { context with synthesize := fun _ bundle => (probe.synthesize bundle).2 }.prepare
            graph tree crate =
          { context with synthesize := fun _ bundle => .ok (fixed sysroot searchPath bundle) }.prepare
            graph tree crate := by
  have made : (probe.synthesize bundle).2 = .ok (fixed sysroot searchPath bundle) := by
    refine Probe.synthesize_eq_ok_iff.mpr ⟨sysroot, answered, solver, ?_⟩
    rw [Probe.complete_eq_fixed unmanaged bare, inherited]
  refine ⟨made, ?_, ?_⟩
  · intro environment found crate linkage edition
    rw [made] at found
    cases found
    rfl
  · rintro context rfl graph tree crate
    simp only [Context.prepare, made]

/-- A machine with a home directory and no toolchain manager, where only the default compiler is. -/
def managerless : Probe where
  home := some ⟨"/home/alice"⟩
  inherited name :=
    if name = "PATH" then some "/usr/bin:/bin" else if name = "LD_LIBRARY_PATH" then some "" else none
  isDirectory _ := false
  isFile path := path = ⟨"/verus/z3"⟩
  sysroot query := if query.version = none then some ⟨"/rust/stable"⟩ else none

/-- A release that lies in one directory. -/
def flatRelease : Bundle := ⟨⟨"/verus/rust_verify"⟩, ⟨"/verus/z3"⟩, [], "1.93.0", .linuxX86⟩

theorem fixed_stands_in_managerless :
    (∀ home, ¬ managerless.Managed home) ∧
      managerless.firstAnswer? flatRelease = some ⟨"/rust/stable"⟩ ∧
      managerless.inherited "PATH" = some "/usr/bin:/bin" ∧
      (∀ value, managerless.inherited flatRelease.platform.libraryVariable = some value →
        value = "") ∧
      managerless.isFile flatRelease.solver = true ∧
      (managerless.synthesize flatRelease).2 =
        .ok (fixed ⟨"/rust/stable"⟩ (some "/usr/bin:/bin") flatRelease) := by
  have unmanaged : ∀ home, ¬ managerless.Managed home := by
    rintro home ⟨_, there⟩
    cases there
  have answered : managerless.firstAnswer? flatRelease = some ⟨"/rust/stable"⟩ := by decide
  have searchPath : managerless.inherited "PATH" = some "/usr/bin:/bin" := rfl
  have bare : ∀ value, managerless.inherited flatRelease.platform.libraryVariable = some value →
      value = "" := by
    intro value found
    exact (Option.some.inj found).symm
  have solver : managerless.isFile flatRelease.solver = true := by decide
  exact ⟨unmanaged, answered, searchPath, bare, solver,
    (fixed_stands_in unmanaged answered searchPath bare solver).1⟩

end Environment

end ProofBuild
