import GatewayLauncher.Delegate.Basic
import GatewayLauncher.FileTree
import GatewayLauncher.Toml.Scalar
import GatewayLauncher.Version

namespace GatewayLauncher

inductive Fault where
  | settings (e : Toml.ReadError)
  | version (e : VersionError)
  | level (text : Option String)
  | delegate (e : DelegateError)
  | opening (e : OpenError)
  | unknownName (text : String)
  /-- A file that has to be text is not UTF-8. -/
  | notText
  | noVersion (text : String)
  | noDirectory
  /-- Something that is nested too deeply has to be noted. -/
  | tooDeepToNote
  deriving DecidableEq, Repr

def DelegateError.message? : DelegateError → Option String
  | .refused path reason => some (Failure.spawnRefused path reason).text
  | .broken text => some text
  | .uncatchable s => some s!"sig {s.number} cannot be caught"
  | .notStarted => some "Delegate process has not been started"
  | .gone => none
  | .endless => none

def OpenError.message? : OpenError → Option String
  | .nulInName => some "embedded null byte"
  | .absent => none
  | .notDirectory => none
  | .nameTooLong => none
  | .isDirectory => none

def Fault.message? : Fault → Option String
  | .settings _ => none
  | .version e => e.message?
  | .level text => text
  | .delegate e => e.message?
  | .opening e => e.message?
  | .unknownName text => some text
  | .notText => none
  | .noVersion text => some text
  | .noDirectory => none
  | .tooDeepToNote => none

inductive Ending where
  | exit (status : Int)
  | returned
  | fault (f : Fault)
  deriving DecidableEq, Repr

structure Outcome where
  stdout : String := ""
  stderr : String := ""
  calls : List Call := []
  ending : Ending
  deriving DecidableEq, Repr

end GatewayLauncher
