import GatewayLauncher.Fault
import GatewayLauncher.Selection
import GatewayLauncher.Text.Lines
import GatewayLauncher.Toml.Reader

namespace GatewayLauncher

structure Settings where
  minimum : Version := Selection.defaultMinimum
  showBanner : Bool := true
  banner : String := "🚀 Starting AI Gateway..."
  level : Severity := .warning
  installRoot : Path
  deriving DecidableEq, Repr

namespace Settings

def fileName : String := "launcher.toml"

def levelVariable : String := "AI_GATEWAY_LAUNCHER_LOG_LEVEL"

def delegateDir (s : Settings) : Path := s.installRoot.child "dist"

def bannerLine? (s : Settings) : Option String := if s.showBanner then some s.banner else none

def warning (text : Text.Written) : Notice := ⟨.settings, .warning, text⟩

def findFile (t : FileTree) (root : Path) : Except OpenError (Option Path) := do
  let p := root.child fileName
  t.askable p
  return if t.isFile p then some p else none

def severityNamed? (word : String) : Option Severity :=
  Severity.all.find? fun s => s.name.toList = Text.upper (Text.strip word.toList)

def applyLevel (word origin : String) (s : Settings) : Settings × List Notice :=
  match severityNamed? word with
  | some level => ({ s with level }, [])
  | none => (s, [warning (.text s!"Unknown log level {Text.quoted word} from {origin}")])

def ignoredMinimum (s : Settings) (v : Toml.Value) : Notice :=
  warning <| .ofExcept do
    let given ← v.write
    let used ← s.minimum.render.mapError fun _ => .overlong
    return s!"Invalid min_runtime_version {given}, using {used}"

/-- A minimum has to be a text: in a number the last zero of 3.10 would be lost. -/
def applyMinimum (es : Toml.Entries) (s : Settings) : Settings × List Notice :=
  match es.get? "min_runtime_version" with
  | none => (s, [])
  | some (.text given) =>
    match Version.parse .partialAllowed given with
    | .ok minimum => ({ s with minimum }, [])
    | .error _ => (s, [ignoredMinimum s (.text given)])
  | some v => (s, [ignoredMinimum s v])

def applyShowBanner (es : Toml.Entries) (s : Settings) : Settings :=
  match es.get? "show_banner" with
  | some (.boolean showBanner) => { s with showBanner }
  | _ => s

def applyBanner (es : Toml.Entries) (s : Settings) : Settings :=
  match es.get? "banner" with
  | some (.text banner) => { s with banner }
  | _ => s

def section? (name : String) (document : Toml.Entries) : Option Toml.Entries :=
  match document.get? name with
  | some (.table es) => some es
  | _ => none

def applyLauncher (document : Toml.Entries) (s : Settings) : Settings × List Notice :=
  match section? "launcher" document with
  | none => (s, [])
  | some es =>
    let (s, notices) := applyMinimum es s
    (applyBanner es (applyShowBanner es s), notices)

def applyLogging (document : Toml.Entries) (s : Settings) : Settings × List Notice :=
  match (section? "logging" document).bind (·.get? "level") with
  | some (.text word) => applyLevel word fileName s
  | _ => (s, [])

def applyDocument (document : Toml.Entries) (s : Settings) : Settings × List Notice :=
  let (s, first) := applyLauncher document s
  let (s, second) := applyLogging document s
  (s, first ++ second)

def applyVariable (value : Option String) (s : Settings) : Settings × List Notice :=
  match value with
  | none => (s, [])
  | some word => if word = "" then (s, []) else applyLevel word levelVariable s

def unreadable (p : Path) : Notice :=
  warning (.text s!"Ignoring unreadable {p.toString}: <toml error>")

/-- The document at a path. A malformed one counts as empty; the other errors end the reading. No
    document has a place for a zero byte, so that the first one behind the text stands for all. -/
def readDocument (t : FileTree) (p : Path) : Except Toml.ReadError (Toml.Entries × List Notice) :=
  match t.openFile p with
  | .error _ => .ok ([], [unreadable p])
  | .ok content =>
    match Toml.readBytes content.trimmed.toBytes with
    | .ok document => .ok (document, [])
    | .error .malformed => .ok ([], [unreadable p])
    | .error e => .error e

/-- The variable comes last, so that its level counts more than the document's. -/
def load (t : FileTree) (root : Path) (variableValue : Option String) :
    Except Fault (Settings × List Notice) := do
  let (s, first) ←
    match ← (findFile t root).mapError .opening with
    | none => pure ({ installRoot := root }, [])
    | some p => do
      let (document, notices) ← (readDocument t p).mapError .settings
      let (s, more) := applyDocument document { installRoot := root }
      pure (s, notices ++ more)
  let (s, second) := applyVariable variableValue s
  return (s, first ++ second)

def shippedDocument : String := Text.lines [
  "# Static launcher settings shipped with the package.",
  "",
  "[launcher]",
  "min_runtime_version = \"3.10.0\"",
  "show_banner = true",
  "banner = \"🚀 Starting AI Gateway...\"",
  "",
  "[logging]",
  "level = \"WARNING\""]

/-- The directory of the package, seen from the one that it is installed in. -/
def shippedRoot : Path := Path.ofString "ai_gateway_launcher"

def shippedTree : FileTree :=
  FileTree.empty.createFile (shippedRoot.child fileName) (.ofString shippedDocument) false

end Settings

end GatewayLauncher
