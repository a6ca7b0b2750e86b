import GatewayLauncher.Text.Character

namespace GatewayLauncher

inductive OperatingSystem where
  | macos
  | linux
  | other
  deriving DecidableEq, Repr

inductive Architecture where
  | arm64
  | x64
  | other
  deriving DecidableEq, Repr

/-- A reported name without surrounding white space and in small letters. -/
def plainName (raw : String) : List Char := Text.lower (Text.strip raw.toList)

namespace OperatingSystem

def value : OperatingSystem → String
  | .macos => "darwin"
  | .linux => "linux"
  | .other => "other"

def ofValue? (s : String) : Option OperatingSystem := [macos, linux, other].find? (·.value = s)

def displayName : OperatingSystem → String
  | .macos => "macOS"
  | .linux => "Linux"
  | .other => "Other"

/-- A Linux host may report a version behind the name. -/
def ofReported (raw : String) : OperatingSystem :=
  let name := plainName raw
  if name = "darwin".toList then .macos
  else if "linux".toList.isPrefixOf name then .linux
  else .other

def shown : OperatingSystem → String
  | .macos => "<OSIdentifier.MACOS: 'darwin'>"
  | .linux => "<OSIdentifier.LINUX: 'linux'>"
  | .other => "<OSIdentifier.OTHER: 'other'>"

end OperatingSystem

namespace Architecture

def value : Architecture → String
  | .arm64 => "arm64"
  | .x64 => "x64"
  | .other => "other"

def ofValue? (s : String) : Option Architecture := [arm64, x64, other].find? (·.value = s)

def reportedNames : List (List Char × Architecture) := [
  ("arm64".toList, .arm64), ("aarch64".toList, .arm64),
  ("x86_64".toList, .x64), ("amd64".toList, .x64), ("x64".toList, .x64)]

def ofReported (raw : String) : Architecture := (reportedNames.lookup (plainName raw)).getD .other

def shown : Architecture → String
  | .arm64 => "<Architecture.ARM64: 'arm64'>"
  | .x64 => "<Architecture.X64: 'x64'>"
  | .other => "<Architecture.OTHER: 'other'>"

end Architecture

inductive BinaryFormat where
  | elf
  | machO
  deriving DecidableEq, Repr

def BinaryFormat.name : BinaryFormat → String
  | .elf => "ELF"
  | .machO => "Mach-O"

structure Prebuilt where
  system : OperatingSystem
  architecture : Architecture
  name : String
  format : BinaryFormat
  deriving DecidableEq, Repr

namespace Prebuilt

/-- Only names from this table are ever launched. -/
def all : List Prebuilt := [
  ⟨.macos, .arm64, "ai-gateway-macos", .machO⟩,
  ⟨.linux, .x64, "ai-gateway-linux", .elf⟩]

def names : List String := all.map Prebuilt.name

def isKnown (name : String) : Bool := names.contains name

def find? (system : OperatingSystem) (architecture : Architecture) : Option Prebuilt :=
  all.find? fun b => b.system = system ∧ b.architecture = architecture

def named? (name : String) : Option Prebuilt := all.find? fun b => b.name = name

def architectures (system : OperatingSystem) : List Architecture :=
  (all.filter fun b => b.system = system).map Prebuilt.architecture

def platform (b : Prebuilt) : String := s!"{b.system.displayName} ({b.architecture.value})"

def platforms : List String := all.map platform

def sortedNames : List String := names.mergeSort fun s t => decide (s ≤ t)

def unknownName (complaint name : String) : String :=
  s!"{complaint} '{name}'. Known executables: " ++ ", ".intercalate sortedNames

def guidance : List String := [
  "Build the gateway from source instead:",
  "  cargo build --release --bin ai-gateway",
  "Then run target/release/ai-gateway directly."]

end Prebuilt

end GatewayLauncher
