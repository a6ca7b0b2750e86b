import GatewayLauncher.FileTree
import GatewayLauncher.Text.Lines
import GatewayLauncher.Text.Quoted

namespace GatewayLauncher

inductive Severity where
  | debug
  | info
  | warning
  | error
  | critical
  deriving DecidableEq, Repr

namespace Severity

def name : Severity → String
  | .debug => "DEBUG"
  | .info => "INFO"
  | .warning => "WARNING"
  | .error => "ERROR"
  | .critical => "CRITICAL"

def level : Severity → Nat
  | .debug => 10
  | .info => 20
  | .warning => 30
  | .error => 40
  | .critical => 50

def all : List Severity := [debug, info, warning, error, critical]

end Severity

inductive Source where
  | settings
  | selection
  | delegate
  | gateway
  deriving DecidableEq, Repr

def Source.channel : Source → String
  | .settings => "ai_gateway_launcher.config.parser"
  | .selection => "ai_gateway_launcher.runtime.resolver"
  | .delegate => "ai_gateway_launcher.launcher.process"
  | .gateway => "ai_gateway_launcher.cli"

/-- A notice has no text when a value in it cannot be written. -/
structure Notice where
  source : Source
  severity : Severity
  text : Text.Written
  deriving DecidableEq, Repr

def noticeLine (channel levelName text : String) : String := s!"[{channel}] {levelName}: {text}"

def Notice.line (n : Notice) : Except Text.Unwritable String :=
  n.text.toExcept.map (noticeLine n.source.channel n.severity.name)

/-- Noting something that is nested too deeply ends the program. -/
def Notice.isTooDeep (n : Notice) : Bool := n.text = .nothing .tooDeep

inductive Failure where
  | general (message : String) (hints : List String)
  | runtimeTooOld (current required : String)
  | binaryMissing (path : Path)
  | binaryNotExecutable (path : Path)
  | spawnRefused (path : Path) (reason : String)
  deriving DecidableEq, Repr

namespace Failure

def message : Failure → String
  | .general message _ => message
  | .runtimeTooOld _ required => s!"Python {required} or higher is required."
  | .binaryMissing path => s!"Binary not found at {path.toString}"
  | .binaryNotExecutable path => s!"Binary at {path.toString} is not executable."
  | .spawnRefused _ reason => s!"Error executing binary: {reason}"

def hints : Failure → List String
  | .general _ hints => hints
  | .runtimeTooOld current _ => [s!"Current version: {current}"]
  | .binaryMissing _ => [
    "The package appears to be incomplete. Reinstall it, or place " ++
      "the compiled gateway binary in the dist/ directory."]
  | .binaryNotExecutable path => [s!"Run: chmod +x {path.toString}"]
  | .spawnRefused _ _ => []

def text (f : Failure) : String := "\n".intercalate (f.message :: f.hints)

def exitStatus (_ : Failure) : Int := 1

def printed (f : Failure) : String := Text.lines (s!"❌ Error: {f.message}" :: f.hints)

end Failure

def printedGuidance (reason : String) (lines : List String) : String :=
  Text.lines (s!"⚠️  No prebuilt binary available: {reason}" :: lines)

def printedStatus (message : String) : String := Text.lines [message]

end GatewayLauncher
