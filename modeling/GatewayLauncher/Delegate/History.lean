import GatewayLauncher.Delegate.Basic

namespace GatewayLauncher

/-- The launcher's own status: that of the child, and zero for one that a signal has ended. -/
def exitStatus : Option Int → Int
  | none => 0
  | some code => if code < 0 then 0 else code

namespace Delegate

/-- Starts the child, waits for it and leaves it. The child is left also when the wait fails; an
    error of leaving it comes before that of the wait. -/
def runToEnd (d : Delegate) (c : Course) : Delegate × Except DelegateError Int :=
  match d.enter c.attempt with
  | (d, .error e) => (d, .error e)
  | (d, .ok ()) =>
    let (d, waited) := d.wait c.duringWait
    let (d, left) := d.leave ⟨c.duringWait, c.duringWait⟩
    match left, waited with
    | .error e, _ => (d, .error e)
    | .ok _, .error e => (d, .error e)
    | .ok _, .ok code =>
      (d.note .debug s!"Delegate exited with return code {code}", .ok (exitStatus (some code)))

def run (path : Path) (args : List String) (c : Course) : Delegate × Except DelegateError Int :=
  runToEnd { path, args } c

end Delegate

inductive Step where
  | enter (a : SpawnAttempt)
  | wait (arriving : List Signal)
  | leave (arriving : Delegate.ShutdownArrivals)
  | receive (s : Signal)
  /-- A signal is passed on without having reached the launcher. -/
  | relay (s : Signal)
  | childEnds (code : Int)
  | childTurns (c : Child)
  deriving DecidableEq, Repr

inductive StepResult where
  | entered
  | ended (code : Int)
  | left
  | received (handled : Bool)
  | done
  | failed (e : DelegateError)
  deriving DecidableEq, Repr

namespace Delegate

def step (d : Delegate) : Step → Delegate × StepResult
  | .enter a =>
    match d.enter a with
    | (d, .ok ()) => (d, .entered)
    | (d, .error e) => (d, .failed e)
  | .wait arriving =>
    match d.wait arriving with
    | (d, .ok code) => (d, .ended code)
    | (d, .error e) => (d, .failed e)
  | .leave arriving =>
    match d.leave arriving with
    | (d, .ok _) => (d, .left)
    | (d, .error e) => (d, .failed e)
  | .receive s => (d.receive s, .received (decide (s ∈ d.handlers)))
  | .relay s => (d.relay s, .done)
  | .childEnds code => (d.endChild code, .done)
  | .childTurns c => (d.turnChild c, .done)

def after (d : Delegate) (steps : List Step) : Delegate := steps.foldl (fun d s => (d.step s).1) d

end Delegate

end GatewayLauncher
