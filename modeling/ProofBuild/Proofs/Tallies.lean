import ProofBuild.Build

/-!
What a report counts. Every turn gives its crate one fate, and the fate says how the look-ups were
counted: a current crate is a hit, a verified one is a miss, a blocked one was not looked up, and a
failed one may have failed before its look-up or after it (`Accounted`). Nothing else counts
look-ups, so this holds however tasks are prepared and run, also when that changes files. Main
statement: `Report.adds_up`.
-/

namespace ProofBuild

namespace Fate

def isFailure : Fate → Bool
  | .failed _ => true
  | .verified | .cached | .blocked _ => false

def isBlocked : Fate → Bool
  | .blocked _ => true
  | .verified | .cached | .failed _ => false

theorem success_iff (fate : Fate) :
    fate.Success ↔ fate.isFailure = false ∧ fate.isBlocked = false := by
  cases fate <;> simp [Success, isFailure, isBlocked]

end Fate

/-- How tasks are prepared and run. Either may change files. -/
structure Conduct where
  prepare : Graph → Crate → World → World × Outcome Prepared
  execute : Crate → Invocation → World → World × Outcome Path

/-- Tasks as a context prepares and runs them. -/
def Context.conduct (context : Context) : Conduct where
  prepare graph crate world := (world, context.prepare graph world.tree crate)
  execute := context.execute

namespace Conduct

/-- Verify a crate unless its marker stands for the present inputs. -/
def verifyCrate (conduct : Conduct) (context : Context) (graph : Graph) (crate : Crate)
    (state : State) : State × Outcome Fate :=
  match conduct.prepare graph crate state.world with
  | (world, .error error) => (⟨world, state.cache⟩, .error error)
  | (world, .ok prepared) =>
      match context.fingerprintOf graph crate prepared ⟨world, state.cache⟩ with
      | .error error => (⟨world, state.cache⟩, .error error)
      | .ok fingerprint =>
          if state.cache.Fresh world.tree crate.name crate.marker fingerprint then
            (⟨world, state.cache.counted true⟩, .ok .cached)
          else
            let cache := (state.cache.counted false).invalidate crate.name
            match conduct.execute crate prepared.invocation world with
            | (world, .error error) => (⟨world, cache⟩, .error error)
            | (world, .ok _) => (⟨world, cache.record crate.name fingerprint⟩, .ok .verified)

/-- Bring one crate up to date. -/
def buildCrate (conduct : Conduct) (context : Context) (graph : Graph) (crate : Crate)
    (state : State) : State × Fate :=
  match graph.missing state.world.tree crate with
  | [] =>
      match conduct.verifyCrate context graph crate state with
      | (state, .ok fate) => (state, fate)
      | (state, .error error) => (state.discard crate, .failed error.message)
  | names => (state.discard crate, .blocked names)

/-- Bring crates up to date, first to last. -/
def buildAll (conduct : Conduct) (context : Context) (graph : Graph) :
    List Crate → State → State × List (String × Fate)
  | [], state => (state, [])
  | crate :: rest, state =>
      let (state, fate) := conduct.buildCrate context graph crate state
      let (state, fates) := buildAll conduct context graph rest state
      (state, (crate.name, fate) :: fates)

/-- Build a selection of crates and report on it. -/
def build (conduct : Conduct) (context : Context) (graph : Graph) (selected : List Crate)
    (state : State) : State × Report :=
  let (after, fates) := conduct.buildAll context graph selected state
  (after, ⟨fates, after.cache.lookups.since state.cache.lookups⟩)

section Own
variable (context : Context) (graph : Graph)

theorem buildCrate_conduct (crate : Crate) (state : State) :
    context.conduct.buildCrate context graph crate state = context.buildCrate graph crate state := by
  unfold buildCrate Context.buildCrate verifyCrate Context.verifyCrate Context.conduct
  dsimp only
  cases context.prepare graph state.world.tree crate <;> rfl

theorem buildAll_conduct (crates : List Crate) (state : State) :
    context.conduct.buildAll context graph crates state = context.buildAll graph crates state := by
  induction crates generalizing state with
  | nil => rfl
  | cons crate rest ih =>
      rw [buildAll, Context.buildAll, buildCrate_conduct]
      dsimp only
      rw [ih]

/-- With the tasks of a context this is the build of the context. -/
theorem build_conduct (selected : List Crate) (state : State) :
    context.conduct.build context graph selected state = context.build graph selected state := by
  rw [build, Context.build, buildAll_conduct]

end Own

/-- What a crate's fate says about the look-ups of its turn. -/
inductive Accounted : Fate → Lookups → Lookups → Prop where
  | blocked {names : List String} {lookups : Lookups} : Accounted (.blocked names) lookups lookups
  /-- before the look-up -/
  | refused {reason : String} {lookups : Lookups} : Accounted (.failed reason) lookups lookups
  | current {lookups : Lookups} : Accounted .cached lookups (lookups.count true)
  | failed {reason : String} {lookups : Lookups} :
      Accounted (.failed reason) lookups (lookups.count false)
  | verified {lookups : Lookups} : Accounted .verified lookups (lookups.count false)

variable (conduct : Conduct) (context : Context) (graph : Graph)

theorem accounted_buildCrate (crate : Crate) (state : State) :
    Accounted (conduct.buildCrate context graph crate state).2 state.cache.lookups
      (conduct.buildCrate context graph crate state).1.cache.lookups := by
  unfold buildCrate
  split
  · unfold verifyCrate
    rcases conduct.prepare graph crate state.world with ⟨world, error | prepared⟩
    · exact .refused
    dsimp only
    cases context.fingerprintOf graph crate prepared ⟨world, state.cache⟩ with
    | error error => exact .refused
    | ok fingerprint =>
        dsimp only
        by_cases fresh : state.cache.Fresh world.tree crate.name crate.marker fingerprint
        · rw [if_pos fresh]
          exact .current
        · rw [if_neg fresh]
          rcases conduct.execute crate prepared.invocation world with ⟨ran, error | marker⟩
          · exact .failed
          · exact .verified
  · exact .blocked

theorem map_fst_buildAll (crates : List Crate) (state : State) :
    (conduct.buildAll context graph crates state).2.map (·.1) = crates.map (·.name) := by
  induction crates generalizing state with
  | nil => rfl
  | cons crate rest ih => rw [buildAll, List.map_cons, List.map_cons, ih]

/-- The look-ups of a build against the fates in it. -/
structure Balanced (fates : List (String × Fate)) (before after : Lookups) : Prop where
  hits : after.hits = before.hits + fates.countP (·.2 = .cached)
  verified : before.misses + fates.countP (·.2 = .verified) ≤ after.misses
  failed : after.misses ≤
    before.misses + fates.countP (·.2 = .verified) + fates.countP (·.2.isFailure)

theorem Balanced.cons {fate : Fate} {fates : List (String × Fate)} {first second third : Lookups}
    (turn : Accounted fate first second) (rest : Balanced fates second third) (name : String) :
    Balanced ((name, fate) :: fates) first third := by
  obtain ⟨hits, verified, failed⟩ := rest
  cases turn with
  | blocked | refused | current | failed | verified =>
      constructor <;>
        simp only [List.countP_cons, Fate.isFailure, Lookups.count, reduceCtorEq, decide_true,
          decide_false, Bool.false_eq_true, ↓reduceIte] at * <;>
        omega

theorem balanced_buildAll (crates : List Crate) (state : State) :
    Balanced (conduct.buildAll context graph crates state).2 state.cache.lookups
      (conduct.buildAll context graph crates state).1.cache.lookups := by
  induction crates generalizing state with
  | nil => exact ⟨rfl, Nat.le_refl _, Nat.le_refl _⟩
  | cons crate rest ih =>
      exact .cons (conduct.accounted_buildCrate context graph crate state) (ih _) crate.name

end Conduct

namespace Report

theorem foldl_add (fates : List (String × Fate)) (tally : Tally) :
    fates.foldl (fun tally entry => tally.add entry.2) tally =
      ⟨tally.verified + fates.countP (·.2 = .verified), tally.cached + fates.countP (·.2 = .cached),
        tally.failed + fates.countP (·.2.isFailure), tally.blocked + fates.countP (·.2.isBlocked)⟩ := by
  induction fates generalizing tally with
  | nil => rfl
  | cons entry rest ih =>
      obtain ⟨name, fate⟩ := entry
      rw [List.foldl_cons, ih]
      cases fate <;> simp [Tally.add, Fate.isFailure, Fate.isBlocked] <;> omega

/-- A tally counts the fates, each under its own kind. -/
theorem tally_eq (report : Report) :
    report.tally =
      ⟨report.fates.countP (·.2 = .verified), report.fates.countP (·.2 = .cached),
        report.fates.countP (·.2.isFailure), report.fates.countP (·.2.isBlocked)⟩ := by
  rw [tally, foldl_add]
  simp

theorem total_tally (report : Report) :
    report.tally.verified + report.tally.cached + report.tally.failed + report.tally.blocked =
      report.fates.length := by
  rw [tally_eq]
  dsimp only
  induction report.fates with
  | nil => rfl
  | cons entry rest ih =>
      have one : (if decide (entry.2 = .verified) then 1 else 0) +
          (if decide (entry.2 = .cached) then 1 else 0) + (if entry.2.isFailure then 1 else 0) +
          (if entry.2.isBlocked then 1 else 0) = 1 := by
        cases entry.2 <;> rfl
      rw [List.length_cons, ← ih]
      simp only [List.countP_cons]
      omega

theorem success_iff_tally (report : Report) :
    report.Success ↔ report.tally.failed = 0 ∧ report.tally.blocked = 0 := by
  rw [tally_eq]
  simp only [Success, Fate.success_iff, List.countP_eq_zero, Bool.not_eq_true]
  exact ⟨fun all => ⟨fun entry member => (all entry member).1, fun entry member => (all entry member).2⟩,
    fun both entry member => ⟨both.1 entry member, both.2 entry member⟩⟩

/-- A report on these crates whose counts fit one another and the look-ups before and after it. -/
structure AddsUp (report : Report) (selected : List Crate) (before after : Lookups) : Prop where
  /-- one fate for each crate, in the order of the crates -/
  fates : report.fates.map (·.1) = selected.map (·.name)
  tally : report.tally =
    ⟨report.fates.countP (·.2 = .verified), report.fates.countP (·.2 = .cached),
      report.fates.countP (·.2.isFailure), report.fates.countP (·.2.isBlocked)⟩
  total : report.tally.verified + report.tally.cached + report.tally.failed + report.tally.blocked =
    selected.length
  success : report.Success ↔ report.tally.failed = 0 ∧ report.tally.blocked = 0
  hits : report.lookups.hits = report.tally.cached
  misses : report.tally.verified ≤ report.lookups.misses ∧
    report.lookups.misses ≤ report.tally.verified + report.tally.failed
  /-- The counts before are part of those after, so they can be taken off. -/
  since : after = ⟨before.hits + report.lookups.hits, before.misses + report.lookups.misses⟩

theorem addsUp_of_balanced {report : Report} {selected : List Crate} {before after : Lookups}
    (named : report.fates.map (·.1) = selected.map (·.name))
    (balanced : Conduct.Balanced report.fates before after)
    (counted : report.lookups = after.since before) : report.AddsUp selected before after := by
  obtain ⟨hits, verified, failed⟩ := balanced
  have length : report.fates.length = selected.length := by
    simpa using congrArg List.length named
  constructor
  case fates => exact named
  case tally => exact report.tally_eq
  case total => rw [total_tally, length]
  case success => exact report.success_iff_tally
  case hits =>
    rw [counted, tally_eq]
    simp only [Lookups.since]
    omega
  case misses =>
    rw [counted, tally_eq]
    simp only [Lookups.since]
    omega
  case since =>
    rw [counted]
    obtain ⟨laterHits, laterMisses⟩ := after
    simp only [Lookups.since, Lookups.mk.injEq] at *
    omega

/-- The report of a build adds up, over any crates, files and earlier counts. It does so, too,
however tasks are prepared and run, whatever that does to the files. -/
theorem adds_up (context : Context) (graph : Graph) (selected : List Crate) (state : State) :
    (context.build graph selected state).2.AddsUp selected state.cache.lookups
        (context.build graph selected state).1.cache.lookups ∧
      ∀ conduct : Conduct, (conduct.build context graph selected state).2.AddsUp selected
        state.cache.lookups (conduct.build context graph selected state).1.cache.lookups := by
  have every (conduct : Conduct) :
      (conduct.build context graph selected state).2.AddsUp selected state.cache.lookups
        (conduct.build context graph selected state).1.cache.lookups :=
    addsUp_of_balanced (conduct.map_fst_buildAll context graph selected state)
      (conduct.balanced_buildAll context graph selected state) rfl
  refine ⟨?_, every⟩
  have own := every context.conduct
  rwa [Conduct.build_conduct] at own

end Report

end ProofBuild
