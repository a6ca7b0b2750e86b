import GatewayLauncher.Fault
import GatewayLauncher.Manifest
import GatewayLauncher.Options
import GatewayLauncher.Text.Lines
import GatewayLauncher.Version

namespace GatewayLauncher.BumpVersion

def projectFile : Path := Path.ofString "pyproject.toml"

def packageFile : Path := Path.ofString "src/ai_gateway_launcher/__init__.py"

def records : List (Path × (List Char → Option Manifest.Cut)) := [
  (projectFile, Manifest.projectVersion?),
  (packageFile, Manifest.packageVersion?)]

def openFile (t : FileTree) (p : Path) : Except Fault Content := (t.openFile p).mapError .opening

/-- The text of a file, its line ends made alike. Zero bytes behind it are left out: they are UTF-8
    in themselves, and no version is written among them. -/
def textOf (c : Content) : Except Fault (List Char) :=
  match String.fromUTF8? c.bytes with
  | none => .error .notText
  | some s => .ok (Text.unifyLineEnds s.toList)

def currentVersion (t : FileTree) : Except Fault Version := do
  let text ← textOf (← openFile t projectFile)
  match Manifest.projectVersion? text with
  | none => throw (.noVersion s!"No [project] version in {projectFile.toString}")
  | some cut => (Version.parse .full (String.ofList cut.literal)).mapError .version

def withText (c : Content) (text : List Char) : Content :=
  { c with bytes := (String.ofList text).toUTF8 }

def updated (t : FileTree) (p : Path) (find : List Char → Option Manifest.Cut) (v : Version) :
    Except Fault Content := do
  let content ← openFile t p
  match find (← textOf content) with
  | none => throw (.noVersion s!"No version string found in {p.toString}")
  | some cut =>
    let written ← v.render.mapError .version
    return withText content (cut.replace written.toList).text

/-- Writes the version into file after file. At the first one that fails, the files before it have
    been written. -/
def writeAll (v : Version) :
    List (Path × (List Char → Option Manifest.Cut)) → FileTree → FileTree × Except Fault Unit
  | [], t => (t, .ok ())
  | (p, find) :: rest, t =>
    match updated t p find v with
    | .error f => (t, .error f)
    | .ok content => writeAll v rest (t.writeFile p content)

def plan (t : FileTree) (part : VersionPart) : Except Fault (Version × Version) := do
  let current ← currentVersion t
  let next ← (current.next part).mapError .version
  return (current, next)

def announcement (current next : Version) : Except Fault String := do
  let old ← current.render.mapError .version
  let new ← next.render.mapError .version
  return Text.lines [s!"{old} -> {new}"]

def bump (t : FileTree) (part : VersionPart) : FileTree × Except Fault String :=
  match plan t part with
  | .error f => (t, .error f)
  | .ok (current, next) =>
    match writeAll next records t with
    | (t, .error f) => (t, .error f)
    | (t, .ok ()) => (t, announcement current next)

def parts : List (String × VersionPart) :=
  [VersionPart.patch, .minor, .major, .prerelease].map fun p => (p.name, p)

def grammar : Options.Grammar := {
  program := "bump_version.py"
  usage := "bump_version.py [-h] \x7bpatch,minor,major,prerelease\x7d"
  description := [
    "",
    "Bump the launcher version",
    "",
    "positional arguments:",
    "  \x7bpatch,minor,major,prerelease\x7d",
    "",
    "options:",
    "  -h, --help            show this help message and exit"]
  switches := [⟨["-h", "--help"], .help⟩]
  operand := some ⟨"part", parts.map Prod.fst⟩ }

def missingFiles (t : FileTree) : List String :=
  ((records.map Prod.fst).filter fun p => !t.contains p).map Path.toString

def missingText (files : List String) : String :=
  Text.lines ["Error: " ++ ", ".intercalate files ++ " not found; run from the repository root"]

def runPart (t : FileTree) (part : VersionPart) : FileTree × Outcome :=
  if (missingFiles t).isEmpty then
    match bump t part with
    | (t, .error f) => (t, { ending := .fault f })
    | (t, .ok text) => (t, { stdout := text, ending := .returned })
  else (t, { stderr := missingText (missingFiles t), ending := .exit 1 })

def run (t : FileTree) (args : List String) : FileTree × Outcome :=
  match grammar.read args with
  | .error .help => (t, { stdout := grammar.helpText, ending := .exit 0 })
  | .error (.error e) => (t, { stderr := grammar.complaint e, ending := .exit 2 })
  | .ok taken =>
    match taken.operand.bind (parts.lookup ·) with
    | some part => runPart t part
    | none => (t, { stderr := grammar.complaint (.missingOperand "part"), ending := .exit 2 })

end GatewayLauncher.BumpVersion
