import GatewayLauncher.Notice
import GatewayLauncher.Platform
import GatewayLauncher.Version

namespace GatewayLauncher

structure Host where
  major : Int
  minor : Int
  patch : Int
  platform : String
  machine : String
  deriving DecidableEq, Repr

structure Environment where
  runtime : Version
  system : OperatingSystem
  architecture : Architecture
  reportedSystem : String := ""
  reportedMachine : String := ""
  deriving DecidableEq, Repr

namespace Environment

def capture (h : Host) : Except VersionError Environment := do
  let runtime ← Version.ofInts h.major h.minor h.patch
  return {
    runtime
    system := .ofReported h.platform
    architecture := .ofReported h.machine
    reportedSystem := h.platform
    reportedMachine := h.machine }

def orElse (reported value : String) : String := if reported = "" then value else reported

def systemName (e : Environment) : String := orElse e.reportedSystem e.system.value

def machineName (e : Environment) : String := orElse e.reportedMachine e.architecture.value

def describe (e : Environment) : String := s!"{e.systemName}/{e.machineName}"

def shown (e : Environment) : Except VersionError String := do
  let runtime ← e.runtime.shown
  return "RuntimeEnvironment(runtime_version=" ++ runtime ++ ", os=" ++ e.system.shown ++
    ", arch=" ++ e.architecture.shown ++ ", raw_os=" ++ Text.quoted e.reportedSystem ++
    ", raw_arch=" ++ Text.quoted e.reportedMachine ++ ")"

end Environment

inductive Selection where
  | resolved (name : String)
  | unsupported (reason : String) (guidance : List String)
  | incompatible (current required : String)
  deriving DecidableEq, Repr

namespace Selection

def defaultMinimum : Version := { major := 3, minor := 10, patch := 0 }

def unsupportedSystem (e : Environment) : Selection :=
  .unsupported "platform not supported" ([
    s!"Unsupported platform: {e.systemName}",
    "Supported platforms: " ++ ", ".intercalate Prebuilt.platforms] ++ Prebuilt.guidance)

def unsupportedArchitecture (e : Environment) : Selection :=
  let system := e.system.displayName
  let supported := (Prebuilt.architectures e.system).map Architecture.value
  .unsupported s!"{system} architecture not prebuilt" ([
    s!"No prebuilt binary for {system} on {e.machineName}",
    s!"Supported {system} architectures: " ++ ", ".intercalate supported] ++ Prebuilt.guidance)

def ofPlatform (e : Environment) : Selection :=
  if e.system = .other then unsupportedSystem e
  else
    match Prebuilt.find? e.system e.architecture with
    | some b => .resolved b.name
    | none => unsupportedArchitecture e

/-- The runtime is looked at before the platform, and no file is looked at. -/
def select (minimum : Version) (e : Environment) : Except VersionError Selection := do
  if ← e.runtime.isBelow minimum then
    return .incompatible (← e.runtime.render) (← minimum.render)
  else
    return ofPlatform e

def selectFor (runtime : VersionSpec) (system : OperatingSystem) (architecture : Architecture)
    (minimum : Option VersionSpec) : Except VersionError Selection := do
  let runtime ← runtime.toVersion
  let minimum ← (minimum.getD (.exact defaultMinimum)).toVersion
  select minimum { runtime, system, architecture }

def quotedList (items : List String) : String :=
  "[" ++ ", ".intercalate (items.map Text.quoted) ++ "]"

def shown : Selection → String
  | .resolved name => s!"Resolved(executable_name={Text.quoted name})"
  | .unsupported reason guidance =>
    s!"Unsupported(reason={Text.quoted reason}, guidance={quotedList guidance})"
  | .incompatible current required =>
    s!"IncompatibleRuntime(current={Text.quoted current}, required={Text.quoted required})"

def notice (e : Environment) : Selection → Notice
  | .incompatible current required =>
    ⟨.selection, .debug, .text s!"Runtime {current} is older than required {required}"⟩
  | s => ⟨.selection, .debug, .text s!"Resolved {e.describe} to {s.shown}"⟩

end Selection

end GatewayLauncher
