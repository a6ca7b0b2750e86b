import GatewayLauncher.Journal
import GatewayLauncher.Launch
import GatewayLauncher.Settings

namespace GatewayLauncher.Gateway

structure Setting where
  host : Host
  tree : FileTree
  root : Path
  level : Option String := none
  args : List String := []
  course : Course
  /-- The channel of the program itself; it is its own only if the program is not run as a file. -/
  channel : String := Source.gateway.channel

def channelOf (x : Setting) : Source → String
  | .gateway => x.channel
  | source => source.channel

def Setting.journalText (x : Setting) (j : Journal) (ns : List Notice) : String :=
  j.writeAll (channelOf x) Journal.standardError ns

def capturedNotice (e : Environment) : Notice :=
  ⟨.gateway, .debug,
    match e.shown with
    | .ok s => .text ("Captured environment " ++ s)
    | .error _ => .nothing .overlong⟩

def follow (x : Setting) (s : Settings) : Selection → LaunchReport
  | .incompatible current required => ⟨failed "" [] (.runtimeTooOld current required), []⟩
  | .unsupported reason guidance =>
    ⟨{ stderr := printedGuidance reason guidance, ending := .exit 0 }, []⟩
  | .resolved name => launch x.tree name x.args s.delegateDir s.bannerLine? x.course

def runWith (x : Setting) (s : Settings) : LaunchReport :=
  match Environment.capture x.host with
  | .error e => ⟨{ ending := .fault (.version e) }, []⟩
  | .ok e =>
    match Selection.select s.minimum e with
    | .error error => ⟨{ ending := .fault (.version error) }, [capturedNotice e]⟩
    | .ok selection =>
      let r := follow x s selection
      { r with notices := capturedNotice e :: selection.notice e :: r.notices }

/-- A whole run. Notices of the settings come before the journal is configured, all others behind it
    and before what the program itself reports. -/
def run (x : Setting) : Outcome :=
  match Settings.load x.tree x.root x.level with
  | .error f => { ending := .fault f }
  | .ok (s, first) =>
    let j : Journal := {}
    let early := x.journalText j first
    if first.any Notice.isTooDeep then { stderr := early, ending := .fault .tooDeepToNote }
    else match j.configure s.level.name Journal.standardError with
    | (_, .error e) => { stderr := early, ending := .fault (.level e.message?) }
    | (j, .ok ()) =>
      let r := runWith x s
      { r.outcome with stderr := early ++ x.journalText j r.notices ++ r.outcome.stderr }

/-- The arguments for the gateway: those that are given, be they none at all, or else the words of
    the command line behind the name of the program. -/
def forwarded (given : Option (List String)) (words : List String) : List String :=
  given.getD (words.drop 1)

def start (x : Setting) (given : Option (List String)) (words : List String) : Outcome :=
  run { x with args := forwarded given words }

end GatewayLauncher.Gateway
