import GatewayLauncher.Toml.Value

namespace GatewayLauncher.Toml

structure Key where
  parents : List String
  name : String
  deriving DecidableEq, Repr

abbrev TablePath := List String

def Key.path (k : Key) : TablePath := k.parents ++ [k.name]

def Entries.set (name : String) (v : Value) : Entries → Entries
  | [] => [(name, v)]
  | (n, w) :: es => if n = name then (n, v) :: es else (n, w) :: Entries.set name v es

/-- Changes the table at a path. Tables that are missing on the way are made; of an array the last
    item is entered. There is no way through any other value. -/
def Entries.modify? (f : Entries → Option Entries) : TablePath → Entries → Option Entries
  | [], es => f es
  | name :: path, es =>
    match es.get? name with
    | none => (modify? f path []).map fun sub => es.set name (.table sub)
    | some (.table sub) => (modify? f path sub).map fun sub => es.set name (.table sub)
    | some (.array items) =>
      match items.getLast? with
      | some (.table sub) =>
        (modify? f path sub).map fun sub => es.set name (.array (items.dropLast ++ [.table sub]))
      | _ => none
    | some _ => none

structure Namespace where
  entries : Entries := []
  /-- Values that are closed, with everything in them. -/
  closed : List TablePath := []
  /-- Tables that may not be declared again. -/
  declared : List TablePath := []
  /-- Tables that count as declared from the next header on. -/
  pending : List TablePath := []

namespace Namespace

def isClosed (ns : Namespace) (path : TablePath) : Bool := ns.closed.any (·.isPrefixOf path)

def isDeclared (ns : Namespace) (path : TablePath) : Bool := ns.declared.contains path

def isCompound : Value → Bool
  | .array _ => true
  | .table _ => true
  | _ => false

/-- The paths from the header's table down to the one that holds the key's name. -/
def between (header : TablePath) (k : Key) : List TablePath :=
  (List.range k.parents.length).map fun i => header ++ k.parents.take (i + 1)

def addEntry (name : String) (v : Value) (es : Entries) : Option Entries :=
  if (es.get? name).isSome then none else some (es.set name v)

def assign (ns : Namespace) (header : TablePath) (k : Key) (v : Value) : Option Namespace := do
  let inner := between header k
  guard !(inner.any ns.isDeclared)
  guard !(ns.isClosed (header ++ k.parents))
  let entries ← ns.entries.modify? (addEntry k.name v) (header ++ k.parents)
  let closed := if isCompound v then (header ++ k.path) :: ns.closed else ns.closed
  return { ns with entries, closed, pending := inner ++ ns.pending }

def settle (ns : Namespace) : Namespace :=
  { ns with declared := ns.pending ++ ns.declared, pending := [] }

def declareTable (ns : Namespace) (path : TablePath) : Option Namespace := do
  guard !(ns.isDeclared path || ns.isClosed path)
  let entries ← ns.entries.modify? some path
  return { ns with entries, declared := path :: ns.declared }

def addItem (name : String) (es : Entries) : Option Entries :=
  match es.get? name with
  | none => some (es.set name (.array [.table []]))
  | some (.array items) => some (es.set name (.array (items ++ [.table []])))
  | some _ => none

/-- Starts a new item of the array of tables at a path. What was known of the item before no longer
    counts. -/
def declareItem (ns : Namespace) (k : Key) : Option Namespace := do
  guard !(ns.isClosed k.path)
  let entries ← ns.entries.modify? (addItem k.name) k.parents
  return { ns with
    entries
    closed := ns.closed.filter fun p => !k.path.isPrefixOf p
    declared := k.path :: ns.declared.filter fun p => !k.path.isPrefixOf p }

end Namespace

end GatewayLauncher.Toml
