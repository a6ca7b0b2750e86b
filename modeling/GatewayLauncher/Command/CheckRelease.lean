import GatewayLauncher.Fault
import GatewayLauncher.Journal
import GatewayLauncher.Options
import GatewayLauncher.Release.Report
import GatewayLauncher.Settings

namespace GatewayLauncher.CheckRelease

structure Setting where
  host : Host
  tree : FileTree
  root : Path
  level : Option String := none
  args : List String := []

def grammar : Options.Grammar := {
  program := "ai-gateway-check-dist"
  usage := "ai-gateway-check-dist [-h] [--dist-dir DIST_DIR]"
  description := [
    "",
    "Check the bundled gateway binaries",
    "",
    "options:",
    "  -h, --help           show this help message and exit",
    "  --dist-dir DIST_DIR  Delegate directory to check (default: the installed",
    "                       package's)"]
  switches := [⟨["-h", "--help"], .help⟩, ⟨["--dist-dir"], .value⟩] }

/-- The directory to check: the installed one unless another is given. A switch that gives nothing
    names no directory, not even the installed one. -/
def directory (s : Settings) : Option Options.Given → Except Fault Path
  | some (.text text) => .ok (Path.ofString text)
  | some .nothing => .error .noDirectory
  | none => .ok s.delegateDir

def check (x : Setting) (s : Settings) (given : Option Options.Given) :
    Except Fault Release.Report := do
  let dir ← directory s given
  Release.check x.tree dir (Environment.capture x.host) s.minimum

def runWith (x : Setting) (s : Settings) : Outcome :=
  match grammar.read x.args with
  | .error .help => { stdout := grammar.helpText, ending := .exit 0 }
  | .error (.error e) => { stderr := grammar.complaint e, ending := .exit 2 }
  | .ok taken =>
    match check x s taken.value with
    | .error f => { ending := .fault f }
    | .ok r =>
      { stdout := r.stdout, stderr := r.stderr, ending := .exit (if r.ok then 0 else 1) }

/-- A whole run. The journal is never configured, so that warnings about the settings come bare. -/
def run (x : Setting) : Outcome :=
  match Settings.load x.tree x.root x.level with
  | .error f => { ending := .fault f }
  | .ok (s, notices) =>
    let early := ({} : Journal).writeAll Source.channel Journal.standardError notices
    if notices.any Notice.isTooDeep then { stderr := early, ending := .fault .tooDeepToNote }
    else
      let o := runWith x s
      { o with stderr := early ++ o.stderr }

end GatewayLauncher.CheckRelease
