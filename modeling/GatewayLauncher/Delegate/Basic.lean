import GatewayLauncher.Delegate.Child
import GatewayLauncher.Notice

namespace GatewayLauncher

inductive Call where
  | spawn (path : Path) (args : List String)
  | wait
  | signal (s : Signal)
  | terminate
  | kill
  | arrival (s : Signal) (handled : Bool)
  deriving DecidableEq, Repr

inductive DelegateError where
  | refused (path : Path) (reason : String)
  | broken (text : String)
  | uncatchable (s : Signal)
  | notStarted
  /-- The child has vanished before it could be killed. -/
  | gone
  /-- The child never ends, and so the wait for it does not either. -/
  | endless
  deriving DecidableEq, Repr

/-- The supervisor: its signals, the child of its last start, the relays that it has on record, the
    signals that wait for a child, the signals that have a handler, and what has been done so
    far. -/
structure Delegate where
  path : Path
  args : List String
  signals : List Signal := Signal.relayed
  process : Option ChildProcess := none
  installed : List Signal := []
  pending : List Signal := []
  handlers : List Signal := []
  calls : List Call := []
  notices : List Notice := []
  deriving DecidableEq, Repr

namespace Delegate

def call (d : Delegate) (c : Call) : Delegate := { d with calls := d.calls ++ [c] }

def note (d : Delegate) (severity : Severity) (text : String) : Delegate :=
  { d with notices := d.notices ++ [⟨.delegate, severity, .text text⟩] }

def pid (d : Delegate) : Option Int := d.process.map (·.pid)

def returnCode (d : Delegate) : Option Int := d.process.bind (·.returnCode)

def isRunning (d : Delegate) : Bool := d.process.any (·.isRunning)

/-- Passes a signal on to the child. Before the start the signal is kept, and after the end it is
    dropped. -/
def relay (d : Delegate) (s : Signal) : Delegate :=
  match d.process with
  | none => { d with pending := d.pending ++ [s] }
  | some p =>
    if p.isRunning then
      let d := (d.note .debug s!"Relaying {s.name} to pid {p.pid}").call (.signal s)
      let d := { d with process := some (p.hear s) }
      if p.child.reaction s = .gone then
        d.note .debug s!"Child already exited, {s.name} not relayed"
      else d
    else d

theorem relay_of_not_started {d : Delegate} (h : d.process = none) (s : Signal) :
    d.relay s = { d with pending := d.pending ++ [s] } := by
  simp [relay, h]

theorem relay_of_ended {d : Delegate} {p : ChildProcess} (h : d.process = some p)
    (hp : p.isRunning = false) (s : Signal) : d.relay s = d := by
  simp [relay, h, hp]

def receive (d : Delegate) (s : Signal) : Delegate := if s ∈ d.handlers then d.relay s else d

def arrive (d : Delegate) (s : Signal) : Delegate :=
  (d.receive s).call (.arrival s (decide (s ∈ d.handlers)))

def arriveAll (d : Delegate) (ss : List Signal) : Delegate := ss.foldl arrive d

def addHandler (handlers : List Signal) (s : Signal) : List Signal :=
  Signal.all.filter fun x => x = s ∨ x ∈ handlers

def installRelay (d : Delegate) (s : Signal) : Delegate :=
  { d with handlers := addHandler d.handlers s, installed := d.installed ++ [s] }

def installRelays (d : Delegate) : List Signal → Delegate × Except DelegateError Unit
  | [] => (d, .ok ())
  | s :: ss =>
    if s.isCatchable then (d.installRelay s).installRelays ss else (d, .error (.uncatchable s))

def removeRelays (d : Delegate) : Delegate :=
  { d with handlers := d.handlers.filter (fun s => s ∉ d.installed), installed := [] }

def flush (d : Delegate) : Delegate := { d.pending.foldl relay d with pending := [] }

theorem installed_removeRelays (d : Delegate) : d.removeRelays.installed = [] := rfl

theorem mem_handlers_removeRelays {d : Delegate} {s : Signal} :
    s ∈ d.removeRelays.handlers ↔ s ∈ d.handlers ∧ s ∉ d.installed := by
  simp [removeRelays]

theorem mem_addHandler {handlers : List Signal} {s t : Signal} :
    t ∈ addHandler handlers s ↔ t = s ∨ t ∈ handlers := by
  have ht : t ∈ Signal.all := by cases t <;> decide
  simp [addHandler, ht]

theorem pending_flush (d : Delegate) : d.flush.pending = [] := rfl

def spawned (d : Delegate) : SpawnResult → Delegate × Except DelegateError Unit
  | .refused reason => (d.removeRelays, .error (.refused d.path reason))
  | .broken text => (d, .error (.broken text))
  | .started p =>
    let d := { d with process := some p }
    let d := d.note .debug s!"Spawned {d.path.toString} (pid {p.pid}) with {d.args.length} args"
    (d.flush, .ok ())

def enter (d : Delegate) (a : SpawnAttempt) : Delegate × Except DelegateError Unit :=
  match d.installRelays d.signals with
  | (d, .error e) => (d, .error e)
  | (d, .ok ()) => ((d.call (.spawn d.path d.args)).arriveAll a.arriving).spawned a.result

def endChild (d : Delegate) (code : Int) : Delegate :=
  { d with process := d.process.map (·.ended code) }

def turnChild (d : Delegate) (c : Child) : Delegate :=
  { d with process := d.process.map fun p => { p with child := c } }

/-- Waits for a child that has been started, while signals reach the launcher. A child that ends by
    itself is not raced against a grace period: it ends within it. -/
def await (d : Delegate) (p : ChildProcess) (arriving : List Signal) :
    Delegate × Except DelegateError Int :=
  let d := (d.call .wait).arriveAll arriving
  match d.returnCode, p.child.exit with
  | some code, _ => (d, .ok code)
  | none, some code => (d.endChild code, .ok code)
  | none, none => (d, .error .endless)

def wait (d : Delegate) (arriving : List Signal) : Delegate × Except DelegateError Int :=
  match d.process with
  | none => (d, .error .notStarted)
  | some p => d.await p arriving

def strike (d : Delegate) (c : Call) (r : Reaction) : Delegate :=
  let d := d.call c
  { d with process := d.process.map (·.take r) }

/-- The signals that reach the launcher in the two waits of a shutdown: for a child that has been
    terminated, and for one that has been killed. -/
structure ShutdownArrivals where
  grace : List Signal := []
  afterKill : List Signal := []
  deriving DecidableEq, Repr

def killOff (d : Delegate) (p : ChildProcess) (arriving : List Signal) :
    Delegate × Except DelegateError Unit :=
  let d := d.note .warning s!"Delegate pid {p.pid} ignored SIGTERM, killing it"
  let d := d.strike .kill p.child.onKill
  if p.child.onKill = .gone then (d, .error .gone)
  else
    match d.await p arriving with
    | (d, .ok _) => (d, .ok ())
    | (d, .error e) => (d, .error e)

def shutdown (d : Delegate) (p : ChildProcess) (arriving : ShutdownArrivals) :
    Delegate × Except DelegateError Unit :=
  let d := d.note .debug s!"Terminating still-running delegate pid {p.pid}"
  let d := d.strike .terminate p.child.onTerminate
  if p.child.onTerminate = .gone then (d, .ok ())
  else
    match d.await p arriving.grace with
    | (d, .ok _) => (d, .ok ())
    | (d, .error _) => d.killOff p arriving.afterKill

/-- Takes the relays away, and ends a child that still runs. The answer says whether an error of the
    block that is left is to be swallowed. -/
def leave (d : Delegate) (arriving : ShutdownArrivals) : Delegate × Except DelegateError Bool :=
  let d := d.removeRelays
  match d.process with
  | none => (d, .ok false)
  | some p =>
    if p.isRunning then
      match d.shutdown p arriving with
      | (d, .ok ()) => (d, .ok false)
      | (d, .error e) => (d, .error e)
    else (d, .ok false)

def mayBlock (d : Delegate) : Bool := d.process.any fun p => p.isRunning && p.child.exit.isNone

end Delegate

end GatewayLauncher
