namespace GatewayLauncher

/-- An anchor is empty for a relative path, one slash, or exactly two slashes, which are not the
    same place. -/
structure Path where
  anchor : String
  parts : List String
  deriving DecidableEq, Repr

namespace Path

def anchorOf (s : List Char) : String :=
  match s with
  | '/' :: '/' :: '/' :: _ => "/"
  | '/' :: '/' :: _ => "//"
  | '/' :: _ => "/"
  | _ => ""

def ofString (text : String) : Path :=
  let s := text.toList
  { anchor := anchorOf s
    parts := ((s.splitOn '/').map String.ofList).filter fun p => p != "" && p != "." }

def toString (p : Path) : String :=
  if p.anchor = "" ∧ p.parts = [] then "." else p.anchor ++ "/".intercalate p.parts

/-- The place that `q` names as seen from `p`. An anchored `q` does not depend on `p`. -/
def join (p q : Path) : Path :=
  if q.anchor = "" then { p with parts := p.parts ++ q.parts } else q

def child (p : Path) (name : String) : Path := p.join (ofString name)

def name (p : Path) : String := p.parts.getLast?.getD ""

def hasNul (p : Path) : Bool := p.parts.any fun s => s.toList.contains '\x00'

def nameLimit : Nat := 255

def lengthLimit : Nat := 4095

def isOverlong (p : Path) : Bool := lengthLimit < p.toString.utf8ByteSize

/-- The steps that are left when each step to the parent directory takes one step back. -/
def directSteps (p : Path) : List String :=
  p.parts.foldl (fun steps s => if s = ".." then steps.dropLast else steps ++ [s]) []

end Path

/-- The bytes of a file, with a number of zero bytes behind them. -/
structure Content where
  bytes : ByteArray
  padding : Nat := 0

namespace Content

def size (c : Content) : Nat := c.bytes.size + c.padding

def firstBytes (c : Content) (n : Nat) : List UInt8 :=
  (c.bytes.toList ++ List.replicate (min n c.padding) 0).take n

def toBytes (c : Content) : ByteArray := c.bytes ++ ⟨Array.replicate c.padding 0⟩

def trimmed (c : Content) : Content := { c with padding := min c.padding 1 }

def ofString (s : String) : Content := { bytes := s.toUTF8 }

end Content

inductive FileNode where
  | file (content : Content) (executable : Bool)
  | directory (entries : List (String × FileNode))

inductive OpenError where
  | absent
  | notDirectory
  | isDirectory
  | nulInName
  /-- The path is too long, or a name in a directory that it comes to. -/
  | nameTooLong
  deriving DecidableEq, Repr

namespace FileNode

def empty : FileNode := .directory []

/-- Follows the steps of a path. The directories passed on the way, the nearest first, tell where a
    step to the parent leads; `top` tells it for the place where the path starts. -/
def walk (top : FileNode) (above : List FileNode) (here : FileNode) :
    List String → Except OpenError FileNode
  | [] => .ok here
  | step :: steps =>
    match here with
    | .file _ _ => .error .notDirectory
    | .directory entries =>
      if step = ".." then
        match above with
        | [] => walk top [] top steps
        | parent :: above => walk top above parent steps
      else if Path.nameLimit < step.utf8ByteSize then .error .nameTooLong
      else
        match entries.lookup step with
        | none => .error .absent
        | some next => walk top (here :: above) next steps

def setEntry (name : String) (t : FileNode) :
    List (String × FileNode) → List (String × FileNode)
  | [] => [(name, t)]
  | (n, u) :: es => if n = name then (n, t) :: es else (n, u) :: setEntry name t es

theorem lookup_setEntry_self (name : String) (t : FileNode) (es : List (String × FileNode)) :
    (setEntry name t es).lookup name = some t := by
  induction es with
  | nil => simp [setEntry]
  | cons e es ih =>
    obtain ⟨n, u⟩ := e
    by_cases h : n = name
    · simp [setEntry, h]
    · have hn : (name == n) = false := beq_eq_false_iff_ne.mpr (Ne.symm h)
      rw [setEntry, if_neg h, List.lookup_cons, hn, ih]

theorem lookup_setEntry_of_ne {name other : String} (t : FileNode) (h : other ≠ name)
    (es : List (String × FileNode)) : (setEntry name t es).lookup other = es.lookup other := by
  have ho : (other == name) = false := beq_eq_false_iff_ne.mpr h
  induction es with
  | nil => rw [setEntry, List.lookup_cons, ho]
  | cons e es ih =>
    obtain ⟨n, u⟩ := e
    by_cases hn : n = name
    · rw [setEntry, if_pos hn, hn, List.lookup_cons, List.lookup_cons, ho]
    · rw [setEntry, if_neg hn, List.lookup_cons, List.lookup_cons, ih]

def entriesOf : FileNode → List (String × FileNode)
  | .directory entries => entries
  | .file _ _ => []

/-- Puts a node at the end of the given steps; whatever stands in the way becomes a directory. -/
def put (new : FileNode) : List String → FileNode → FileNode
  | [], _ => new
  | step :: steps, t =>
    let entries := t.entriesOf
    let old := (entries.lookup step).getD empty
    .directory (setEntry step (put new steps old) entries)

def removeAt : List String → FileNode → FileNode
  | [], t => t
  | [step], t => .directory (t.entriesOf.filter fun (name, _) => name != step)
  | step :: steps, t =>
    match t.entriesOf.lookup step with
    | none => t
    | some old => .directory (setEntry step (removeAt steps old) t.entriesOf)

end FileNode

/-- The files below the working directory, and those below the root, which a path with an anchor
    starts from. All of them may be read, listed and written: no attempt fails for want of a
    permission, which counts for running only. -/
structure FileTree where
  working : FileNode := .empty
  anchored : FileNode := .empty

namespace FileTree

def empty : FileTree := {}

/-- The root is its own parent. Nothing is known of the places above the working directory: they
    count as empty. -/
def find (t : FileTree) (p : Path) : Except OpenError FileNode :=
  if p.hasNul then .error .nulInName
  else if p.isOverlong then .error .nameTooLong
  else if p.anchor = "" then FileNode.walk .empty [] t.working p.parts
  else FileNode.walk t.anchored [] t.anchored p.parts

/-- A path with too long a name cannot even be asked about: the question itself fails. For any other
    path that leads nowhere the answer is that nothing is there. -/
def refuses (t : FileTree) (p : Path) : Bool := t.find p matches .error .nameTooLong

def askable (t : FileTree) (p : Path) : Except OpenError Unit :=
  if t.refuses p then .error .nameTooLong else .ok ()

def isFile (t : FileTree) (p : Path) : Bool := t.find p matches .ok (.file _ _)

def isDirectory (t : FileTree) (p : Path) : Bool := t.find p matches .ok (.directory _)

def contains (t : FileTree) (p : Path) : Bool := t.find p matches .ok _

def isExecutable (t : FileTree) (p : Path) : Bool := t.find p matches .ok (.file _ true)

def openFile (t : FileTree) (p : Path) : Except OpenError Content :=
  match t.find p with
  | .ok (.file content _) => .ok content
  | .ok (.directory _) => .error .isDirectory
  | .error e => .error e

def names (t : FileTree) (p : Path) : List String :=
  match t.find p with
  | .ok (.directory entries) => (entries.map Prod.fst).eraseDups
  | _ => []

def change (t : FileTree) (anchor : String) (f : FileNode → FileNode) : FileTree :=
  if anchor = "" then { t with working := f t.working } else { t with anchored := f t.anchored }

def putFile (t : FileTree) (p : Path) (content : Content) (executable : Bool) : FileTree :=
  t.change p.anchor (.put (.file content executable) p.directSteps)

def makeDirectoryAt (anchor : String) (steps : List String) (t : FileTree) : FileTree :=
  if t.isDirectory ⟨anchor, steps⟩ then t else t.change anchor (.put .empty steps)

/-- Makes the directories that the steps lead through, also those that a step to the parent leaves
    again. The steps taken before lead to `here`. -/
def makeWay (anchor : String) (here : List String) : List String → FileTree → FileTree
  | [], t => t
  | step :: steps, t =>
    let next := if step = ".." then here.dropLast else here ++ [step]
    makeWay anchor next steps (makeDirectoryAt anchor next t)

def makeDirectory (t : FileTree) (p : Path) : FileTree := makeWay p.anchor [] p.parts t

def createFile (t : FileTree) (p : Path) (content : Content) (executable : Bool) : FileTree :=
  putFile (makeWay p.anchor [] p.parts.dropLast t) p content executable

def remove (t : FileTree) (p : Path) : FileTree :=
  if t.contains p then t.change p.anchor (.removeAt p.directSteps) else t

/-- The permission stays; a file that was not there may not be run. -/
def writeFile (t : FileTree) (p : Path) (content : Content) : FileTree :=
  t.putFile p content (t.isExecutable p)

def setExecutable (t : FileTree) (p : Path) (executable : Bool) : FileTree :=
  match t.find p with
  | .ok (.file content _) => t.putFile p content executable
  | _ => t

end FileTree

end GatewayLauncher
