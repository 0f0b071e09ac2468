import ProofBuild.Task

/-!
Test mode: the verifier is run for one crate and the result is reported, but no marker is
written or removed. What the verifier writes stands in the report between a header and a
closing line.
-/

namespace ProofBuild

/-- How the verifier of a trial ended. -/
structure Trial where
  /-- the exit status; none when it was killed -/
  code : Option Int
  deriving DecidableEq, Repr

namespace Trial

def Passed (trial : Trial) : Prop := trial.code = some 0

instance (trial : Trial) : Decidable trial.Passed :=
  inferInstanceAs (Decidable (trial.code = some 0))

def exitCode (trial : Trial) : Int := trial.code.getD 1

/-- What is reported before the verifier starts. -/
def header (crate : Crate) (bundle : Bundle) (environment : Environment) : String :=
  s!"==> verifying crate '{crate.identity}'\n"
    ++ s!"    entry:    {crate.entry.text}\n"
    ++ s!"    verifier: {bundle.verifier.text}\n"
    ++ s!"    sysroot:  {environment.sysroot.text}\n\n"

def footer (crate : Crate) (trial : Trial) : String :=
  if trial.Passed then s!"PASS: crate '{crate.identity}' verified\n"
  else
    let reason := match trial.code with
      | some code => s!"verifier exit code {code}"
      | none => "verifier terminated by signal"
    s!"FAIL: crate '{crate.identity}' ({reason})\n"

end Trial

/-- Run the verifier for a crate and report on it. Gives the report as far as it was written, also
before an error. -/
def Context.trial (context : Context) (graph : Graph) (crate : Crate) (world : World) :
    World × String × Outcome Trial :=
  match context.prepare graph world.tree crate with
  | .error error => (world, "", .error error)
  | .ok prepared =>
      let header := Trial.header crate context.bundle prepared.environment
      match context.verify world prepared.invocation with
      | .error error => (world.called prepared.invocation, header, .error error)
      | .ok verdict =>
          let trial : Trial := ⟨verdict.code⟩
          (world.called prepared.invocation,
            header ++ verdict.output ++ verdict.complaint ++ trial.footer crate, .ok trial)

end ProofBuild
