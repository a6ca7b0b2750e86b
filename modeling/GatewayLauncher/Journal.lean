import GatewayLauncher.Notice
import GatewayLauncher.Text.Character
import GatewayLauncher.Text.Quoted

namespace GatewayLauncher

/-- A handler writes to the stream of the given name: the launcher's own with channel and level, any
    other one the bare text. The key tells the handlers of others apart. -/
structure Handler where
  stream : String
  own : Bool
  key : Nat := 0
  deriving DecidableEq, Repr

/-- Level zero means that no level has been set. What spreads comes to the handlers at the root of
    all channels, which belong to others. -/
structure Journal where
  handlers : List Handler := []
  level : Nat := 0
  propagate : Bool := true
  rootHandlers : List Handler := []
  deriving DecidableEq, Repr

inductive LevelError where
  | pattern
  | styles
  deriving DecidableEq, Repr

namespace LevelError

def message? : LevelError → Option String
  | .pattern => some "Unknown level: '%(levelname)s:%(name)s:%(message)s'"
  | .styles => none

end LevelError

namespace Journal

def standardError : String := "stderr"

def ownChannel : String := "ai_gateway_launcher"

/-- The channels of the launcher's parts have a point behind its own name. Of points in a row only
    every other one divides, counted from the last: behind two points there is no part. -/
def isOwnChannel (channel : String) : Bool :=
  let own := ownChannel.toList
  let rest := channel.toList.drop own.length
  own.isPrefixOf channel.toList &&
    (rest.isEmpty || (rest.takeWhile (· = '.')).length % 2 == 1)

def levelWords : List (List Char × Nat) := [
  ("CRITICAL".toList, 50), ("FATAL".toList, 50), ("ERROR".toList, 40),
  ("WARNING".toList, 30), ("WARN".toList, 30), ("INFO".toList, 20),
  ("DEBUG".toList, 10), ("NOTSET".toList, 0)]

/-- The level that a word names in any letter case. Two words belong to the formats of notices and
    are refused; any other unknown word stands for warnings. -/
def levelNamed (word : String) : Except LevelError Nat :=
  let w := Text.upper word.toList
  if w = "BASIC_FORMAT".toList then .error .pattern
  else if w = "_STYLES".toList then .error .styles
  else .ok ((levelWords.lookup w).getD 30)

def attach (j : Journal) (stream : String) : Journal :=
  { j with handlers := j.handlers.filter (fun h => !h.own) ++ [{ stream, own := true }] }

def attachForeign (j : Journal) (stream : String) (key : Nat) : Journal :=
  let h : Handler := { stream, own := false, key }
  if h ∈ j.handlers then j else { j with handlers := j.handlers ++ [h] }

/-- Attaches the handler, then sets the level and keeps notices from spreading. Where the level is
    refused only the handler has been attached. -/
def configure (j : Journal) (word stream : String) : Journal × Except LevelError Unit :=
  let j := j.attach stream
  match levelNamed word with
  | .ok level => ({ j with level, propagate := false }, .ok ())
  | .error e => (j, .error e)

theorem own_attach (j : Journal) (stream : String) :
    (j.attach stream).handlers.filter (·.own) = [{ stream, own := true }] := by
  simp [attach, List.filter_append, List.filter_filter]

theorem foreign_attach (j : Journal) (stream : String) :
    (j.attach stream).handlers.filter (!·.own) = j.handlers.filter (!·.own) := by
  simp [attach, List.filter_append, List.filter_filter]

def threshold (j : Journal) (channel : String) : Nat :=
  if isOwnChannel channel ∧ j.level ≠ 0 then j.level else 30

/-- A notice on one of the launcher's channels comes to the root only if it spreads. -/
def handlersOf (j : Journal) (channel : String) : List Handler :=
  if isOwnChannel channel then j.handlers ++ (if j.propagate then j.rootHandlers else [])
  else j.rootHandlers

/-- Other levels than those of the severities are named by their number, but for zero. -/
def levelName (level : Int) : String :=
  match Severity.all.find? fun s => s.level = level with
  | some s => s.name
  | none => if level = 0 then "NOTSET" else s!"Level {level}"

def Handler.write (h : Handler) (channel : String) (level : Int) (text : String) :
    String × String :=
  (h.stream, (if h.own then noticeLine channel (levelName level) text else text) ++ "\n")

def write (j : Journal) (channel : String) (level : Int) (text : String) :
    List (String × String) :=
  if level < j.threshold channel then []
  else
    match j.handlersOf channel with
    | [] => if 30 ≤ level then [(standardError, text ++ "\n")] else []
    | hs => hs.map fun h => Handler.write h channel level text

inductive Step where
  | configure (word stream : String)
  | attachForeign (stream : String) (key : Nat)
  | record (channel : String) (level : Int) (text : String)
  deriving DecidableEq, Repr

structure StepResult where
  journal : Journal
  written : List (String × String) := []
  refusal : Option LevelError := none
  deriving DecidableEq, Repr

def step (j : Journal) : Step → StepResult
  | .configure word stream =>
    match j.configure word stream with
    | (j, .ok ()) => { journal := j }
    | (j, .error e) => { journal := j, refusal := some e }
  | .attachForeign stream key => { journal := j.attachForeign stream key }
  | .record channel level text => { journal := j, written := j.write channel level text }

def after (j : Journal) (steps : List Step) : Journal :=
  steps.foldl (fun j s => (j.step s).journal) j

/-- What the notices of one source write, with the channel that the source has in this run. Behind a
    notice that is nested too deeply no other comes to be written. -/
def writeAll (j : Journal) (rename : Source → String) (stream : String) (ns : List Notice) :
    String :=
  String.join ((ns.takeWhile (!·.isTooDeep)).flatMap fun n =>
    match n.text with
    | .nothing _ => []
    | .text text =>
      ((j.write (rename n.source) n.severity.level text).filter fun (s, _) => s == stream).map Prod.snd)

end Journal

end GatewayLauncher
