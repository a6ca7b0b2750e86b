import GatewayLauncher.Delegate.History
import GatewayLauncher.Fault
import GatewayLauncher.Platform

namespace GatewayLauncher

structure Location where
  path : Path
  isThere : Bool
  executable : Bool
  deriving DecidableEq, Repr

namespace Location

def probe (t : FileTree) (path : Path) : Except OpenError Location := do
  t.askable path
  return { path, isThere := t.isFile path, executable := t.isExecutable path }

def state (l : Location) : String :=
  if l.isThere then (if l.executable then "executable" else "not executable") else "missing"

def shown (l : Location) : String := s!"<ExecutableLocation {l.path.toString} ({l.state})>"

def verify (l : Location) : Except Failure Unit :=
  if !l.isThere then .error (.binaryMissing l.path)
  else if !l.executable then .error (.binaryNotExecutable l.path)
  else .ok ()

end Location

/-- Probes the place of a gateway; only names from the table have one. -/
def locate (t : FileTree) (name : String) (base : Path) : Except Fault Location :=
  if Prebuilt.isKnown name then (Location.probe t (base.child name)).mapError .opening
  else .error (.unknownName (Prebuilt.unknownName "Refusing to launch unknown executable" name))

/-- What is written to the standard output before the gateway starts. An empty banner is none. -/
def bannerText : Option String → String
  | none => ""
  | some banner => if banner = "" then "" else printedStatus banner

structure LaunchReport where
  outcome : Outcome
  notices : List Notice := []
  deriving DecidableEq, Repr

def failed (stdout : String) (calls : List Call) (f : Failure) : Outcome :=
  { stdout, stderr := f.printed, calls, ending := .exit f.exitStatus }

def launchAt (path : Path) (args : List String) (banner : Option String) (c : Course) :
    LaunchReport :=
  let stdout := bannerText banner
  match Delegate.run path args c with
  | (d, .ok status) => ⟨{ stdout, calls := d.calls, ending := .exit status }, d.notices⟩
  | (d, .error (.refused path reason)) =>
    ⟨failed stdout d.calls (.spawnRefused path reason), d.notices⟩
  | (d, .error e) => ⟨{ stdout, calls := d.calls, ending := .fault (.delegate e) }, d.notices⟩

def launch (t : FileTree) (name : String) (args : List String) (base : Path)
    (banner : Option String) (c : Course) : LaunchReport :=
  match locate t name base with
  | .error f => ⟨{ ending := .fault f }, []⟩
  | .ok l =>
    match l.verify with
    | .error f => ⟨failed "" [] f, []⟩
    | .ok () => launchAt l.path args banner c

end GatewayLauncher
