namespace GatewayLauncher

inductive Signal where
  | hangup
  | interrupt
  | quit
  | illegal
  | trap
  | abort
  | bus
  | arithmetic
  | kill
  | user1
  | segment
  | user2
  | pipe
  | alarm
  | terminate
  | stackFault
  | child
  | resume
  | stop
  | terminalStop
  | terminalInput
  | terminalOutput
  | urgent
  | timeLimit
  | fileLimit
  | virtualAlarm
  | profile
  | window
  | ready
  | power
  | system
  | realTimeMin
  | realTimeMax
  deriving DecidableEq, Repr

namespace Signal

def all : List Signal :=
  [hangup, interrupt, quit, illegal, trap, abort, bus, arithmetic, kill, user1, segment, user2,
   pipe, alarm, terminate, stackFault, child, resume, stop, terminalStop, terminalInput,
   terminalOutput, urgent, timeLimit, fileLimit, virtualAlarm, profile, window, ready, power,
   system, realTimeMin, realTimeMax]

def number : Signal → Nat
  | .hangup => 1
  | .interrupt => 2
  | .quit => 3
  | .illegal => 4
  | .trap => 5
  | .abort => 6
  | .bus => 7
  | .arithmetic => 8
  | .kill => 9
  | .user1 => 10
  | .segment => 11
  | .user2 => 12
  | .pipe => 13
  | .alarm => 14
  | .terminate => 15
  | .stackFault => 16
  | .child => 17
  | .resume => 18
  | .stop => 19
  | .terminalStop => 20
  | .terminalInput => 21
  | .terminalOutput => 22
  | .urgent => 23
  | .timeLimit => 24
  | .fileLimit => 25
  | .virtualAlarm => 26
  | .profile => 27
  | .window => 28
  | .ready => 29
  | .power => 30
  | .system => 31
  | .realTimeMin => 34
  | .realTimeMax => 64

def name : Signal → String
  | .hangup => "SIGHUP"
  | .interrupt => "SIGINT"
  | .quit => "SIGQUIT"
  | .illegal => "SIGILL"
  | .trap => "SIGTRAP"
  | .abort => "SIGABRT"
  | .bus => "SIGBUS"
  | .arithmetic => "SIGFPE"
  | .kill => "SIGKILL"
  | .user1 => "SIGUSR1"
  | .segment => "SIGSEGV"
  | .user2 => "SIGUSR2"
  | .pipe => "SIGPIPE"
  | .alarm => "SIGALRM"
  | .terminate => "SIGTERM"
  | .stackFault => "SIGSTKFLT"
  | .child => "SIGCHLD"
  | .resume => "SIGCONT"
  | .stop => "SIGSTOP"
  | .terminalStop => "SIGTSTP"
  | .terminalInput => "SIGTTIN"
  | .terminalOutput => "SIGTTOU"
  | .urgent => "SIGURG"
  | .timeLimit => "SIGXCPU"
  | .fileLimit => "SIGXFSZ"
  | .virtualAlarm => "SIGVTALRM"
  | .profile => "SIGPROF"
  | .window => "SIGWINCH"
  | .ready => "SIGIO"
  | .power => "SIGPWR"
  | .system => "SIGSYS"
  | .realTimeMin => "SIGRTMIN"
  | .realTimeMax => "SIGRTMAX"

def named? (s : String) : Option Signal := all.find? fun x => x.name = s

def isCatchable (s : Signal) : Bool := s != .kill && s != .stop

def relayed : List Signal := [interrupt, terminate]

end Signal

inductive Reaction where
  | ends (code : Int)
  /-- There is no such process any more, although nobody has seen it end. -/
  | gone
  | ignores
  deriving DecidableEq, Repr

structure Child where
  /-- The code with which it ends once it is waited for; without one it runs on. -/
  exit : Option Int := some 0
  /-- The reactions to signals. Each of them is shown once, but the last one to a signal stays. -/
  onSignal : List (Signal × Reaction) := []
  onTerminate : Reaction := .ends (-15)
  onKill : Reaction := .ends (-9)
  deriving DecidableEq, Repr

namespace Child

def reaction (c : Child) (s : Signal) : Reaction := (c.onSignal.lookup s).getD .ignores

def spend (s : Signal) : List (Signal × Reaction) → List (Signal × Reaction)
  | [] => []
  | (t, r) :: rest =>
    if t ≠ s then (t, r) :: spend s rest
    else if (rest.lookup s).isSome then rest
    else (t, r) :: rest

def after (c : Child) (s : Signal) : Child := { c with onSignal := spend s c.onSignal }

end Child

structure ChildProcess where
  pid : Int
  child : Child
  returnCode : Option Int := none
  deriving DecidableEq, Repr

namespace ChildProcess

def isRunning (p : ChildProcess) : Bool := p.returnCode.isNone

def ended (p : ChildProcess) (code : Int) : ChildProcess :=
  { p with returnCode := some (p.returnCode.getD code) }

def take (p : ChildProcess) : Reaction → ChildProcess
  | .ends code => p.ended code
  | .gone => p
  | .ignores => p

def hear (p : ChildProcess) (s : Signal) : ChildProcess :=
  { p.take (p.child.reaction s) with child := p.child.after s }

end ChildProcess

inductive SpawnResult where
  | started (p : ChildProcess)
  | refused (reason : String)
  /-- The attempt breaks down before the operating system is asked. -/
  | broken (text : String)
  deriving DecidableEq, Repr

/-- What the operating system says when it refuses: its words for the reason, if it has any, and
    the whole text. -/
structure Refusal where
  words : Option String := none
  text : String
  deriving DecidableEq, Repr

namespace Refusal

def numbered (number : Int) (words : String) : Refusal :=
  { words := some words, text := s!"[Errno {number}] {words}" }

/-- Words that are empty count as none, and the whole text then stands for the reason. -/
def reason (r : Refusal) : String :=
  match r.words with
  | some words => if words = "" then r.text else words
  | none => r.text

end Refusal

def SpawnResult.refusedBy (r : Refusal) : SpawnResult := .refused r.reason

structure SpawnAttempt where
  arriving : List Signal := []
  result : SpawnResult
  deriving DecidableEq, Repr

/-- A child's whole life: the attempt to start it, and the signals that reach the launcher at the
    start of a wait for it. -/
structure Course where
  attempt : SpawnAttempt
  duringWait : List Signal := []
  deriving DecidableEq, Repr

end GatewayLauncher
