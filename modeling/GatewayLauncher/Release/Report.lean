import GatewayLauncher.Decimal
import GatewayLauncher.Fault
import GatewayLauncher.FileTree
import GatewayLauncher.Platform
import GatewayLauncher.Selection
import GatewayLauncher.Text.Lines

namespace GatewayLauncher.Release

inductive Status where
  | ok
  | missing
  | notExecutable
  deriving DecidableEq, Repr

def Status.name : Status → String
  | .ok => "ok"
  | .missing => "missing"
  | .notExecutable => "not_executable"

structure BinaryCheck where
  name : String
  path : Path
  status : Status
  size : Nat := 0
  detected : Option BinaryFormat := none
  expected : Option String := none
  warnings : List String := []
  deriving DecidableEq, Repr

def binarySizeLimit : Nat := 50 * 1024 * 1024

def elfMagic : List UInt8 := [0x7f, 0x45, 0x4c, 0x46]

/-- For 64 and 32 bits, in both byte orders, and for several architectures at once. -/
def machOMagics : List (List UInt8) := [
  [0xcf, 0xfa, 0xed, 0xfe], [0xce, 0xfa, 0xed, 0xfe], [0xfe, 0xed, 0xfa, 0xcf],
  [0xfe, 0xed, 0xfa, 0xce], [0xca, 0xfe, 0xba, 0xbe]]

def formatOf (magic : List UInt8) : Option BinaryFormat :=
  if magic = elfMagic then some .elf
  else if magic ∈ machOMagics then some .machO
  else none

def detectFormat (t : FileTree) (p : Path) : Except OpenError (Option BinaryFormat) :=
  (t.openFile p).map fun content => formatOf (content.firstBytes 4)

def sizeWarnings (name : String) (size : Nat) : List String :=
  if binarySizeLimit < size then
    [s!"{name} is quite large ({Decimal.megabytes size}) - consider optimization"]
  else []

def formatWarnings (name : String) (expected : Option String) (detected : Option BinaryFormat) :
    List String :=
  match expected with
  | none => []
  | some format =>
    if format = "" ∨ detected.map BinaryFormat.name = some format then []
    else [s!"{name} doesn't appear to be a {format} binary"]

def checkFound (found : Except OpenError FileNode) (path : Path) (name : String)
    (expected : Option String) : BinaryCheck :=
  match found with
  | .ok (.file content executable) =>
    let detected := formatOf (content.firstBytes 4)
    { name, path, detected, expected
      status := if executable then .ok else .notExecutable
      size := content.size
      warnings := sizeWarnings name content.size ++ formatWarnings name expected detected }
  | _ => { name, path, status := .missing, expected }

def checkBinary (t : FileTree) (dir : Path) (name : String) (expected : Option String) :
    Except OpenError BinaryCheck := do
  let path := dir.child name
  t.askable path
  return checkFound (t.find path) path name expected

structure Report where
  dir : Path
  binaries : List BinaryCheck := []
  unexpected : List String := []
  current : Option String := none
  warnings : List String := []
  failures : List String := []
  deriving DecidableEq, Repr

def sizeOfAll (cs : List BinaryCheck) : Nat := cs.foldr (fun c n => c.size + n) 0

def totalSizeLimit : Nat := 100 * 1024 * 1024

namespace Report

def ok (r : Report) : Bool := r.failures.isEmpty

def totalSize (r : Report) : Nat := sizeOfAll r.binaries

end Report

/-- The names in a directory that do not belong there, in the order of their code points. Hidden
    names are passed over. -/
def unexpectedNames (names : List String) : List String :=
  (names.filter fun n => !Prebuilt.names.contains n && !".".toList.isPrefixOf n.toList).mergeSort
    fun s t => decide (s ≤ t)

def statusWarnings (c : BinaryCheck) : List String :=
  if c.status = .missing then [s!"{c.name} missing (package will not run on that platform)"] else []

def statusFailures (c : BinaryCheck) : List String :=
  if c.status = .notExecutable then
    [s!"{c.name} is not executable. Run: chmod +x {c.path.toString}"]
  else []

def checkAll (t : FileTree) (dir : Path) : Except OpenError (List BinaryCheck) :=
  Prebuilt.all.mapM fun b => checkBinary t dir b.name (some b.format.name)

def currentPlatform (t : FileTree) (dir : Path) (e : Environment) :
    Selection → Option String × List String × List String
  | .resolved name =>
    (some name, [],
      if t.isFile (dir.child name) then []
      else [s!"Detected binary {name} for {e.describe} not found in {dir.toString}"])
  | _ =>
    (none, [s!"Cannot verify the current platform ({e.describe}): no prebuilt binary"], [])

def totalWarnings (size : Nat) : List String :=
  if totalSizeLimit < size then
    [s!"Binaries total {Decimal.megabytes size} - " ++
      s!"PyPI rejects files over {Decimal.megabytes totalSizeLimit} by default"]
  else []

def reportOn (t : FileTree) (dir : Path) (binaries : List BinaryCheck) (e : Environment)
    (s : Selection) : Report :=
  let (current, warnings, failures) := currentPlatform t dir e s
  { dir, binaries, current
    unexpected := unexpectedNames (t.names dir)
    warnings := binaries.flatMap (fun c => c.warnings ++ statusWarnings c) ++ warnings ++
      totalWarnings (sizeOfAll binaries)
    failures := binaries.flatMap statusFailures ++ failures }

/-- The environment is asked for only if the directory is there, and behind its binaries. -/
def check (t : FileTree) (dir : Path) (environment : Except VersionError Environment)
    (minimum : Version) : Except Fault Report := do
  (t.askable dir).mapError .opening
  if t.isDirectory dir then
    let binaries ← (checkAll t dir).mapError .opening
    let e ← environment.mapError .version
    let s ← (Selection.select minimum e).mapError .version
    return reportOn t dir binaries e s
  else
    return { dir, failures := [s!"Delegate directory not found: {dir.toString}"] }

def binaryLine (c : BinaryCheck) : String :=
  let format := (c.detected.map BinaryFormat.name).getD "unknown format"
  let size := Decimal.megabytes c.size
  match c.status with
  | .missing => s!"   ⚠️  {c.name} missing"
  | .ok => s!"   ✅ {c.name} ({format}, {size})"
  | .notExecutable => s!"   ❌ {c.name} ({format}, {size})"

def Report.lines (r : Report) : List String :=
  [s!"✅ Checking {r.dir.toString}"] ++
    r.binaries.map binaryLine ++
    r.unexpected.map (fun name => s!"   - unexpected file: {name}") ++
    r.current.toList.map (fun name => s!"   - Detected binary for current platform: {name}") ++
    r.warnings.map (fun w => s!"⚠️  {w}") ++
    (if r.ok then ["", "🎉 Distribution check passed."] else [])

def Report.stdout (r : Report) : String := Text.lines r.lines

def Report.stderr (r : Report) : String := Text.lines (r.failures.map fun f => s!"❌ {f}")

end GatewayLauncher.Release
