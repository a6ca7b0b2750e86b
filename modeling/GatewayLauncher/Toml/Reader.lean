import GatewayLauncher.Text.Lines
import GatewayLauncher.Toml.Namespace
import GatewayLauncher.Toml.Scalar

namespace GatewayLauncher.Toml

def orMalformed {α : Type} : Option α → Except ReadError α
  | some a => .ok a
  | none => .error .malformed

def skipSpaces (s : List Char) : List Char := s.dropWhile isSpace

def skipComment (s : List Char) : Except ReadError (List Char) :=
  match s with
  | '#' :: rest =>
    if (rest.takeWhile (· ≠ '\n')).all (allowed false) then .ok (rest.dropWhile (· ≠ '\n'))
    else .error .malformed
  | _ => .ok s

/-- Skips blanks, line feeds and comments from a place that may lie within a comment. -/
def skipLines (inComment : Bool) : List Char → Except ReadError (List Char)
  | [] => .ok []
  | c :: rest =>
    if c = '\n' then skipLines false rest
    else if inComment then
      if allowed false c then skipLines true rest else .error .malformed
    else if isSpace c then skipLines false rest
    else if c = '#' then skipLines true rest
    else .ok (c :: rest)

def skipFiller (s : List Char) : Except ReadError (List Char) := skipLines false s

def isBareKeyChar (c : Char) : Bool := c.isAlphanum || c == '-' || c == '_'

def keyName? (s : List Char) : Option (String × List Char) :=
  let bare := s.takeWhile isBareKeyChar
  if bare.isEmpty then quotation? s else some (String.ofList bare, s.dropWhile isBareKeyChar)

def moreNames? (fuel : Nat) (parents : List String) (name : String) (s : List Char) :
    Option (Key × List Char) :=
  match fuel, s with
  | fuel + 1, '.' :: rest => do
    let (next, rest) ← keyName? (skipSpaces rest)
    moreNames? fuel (parents ++ [name]) next (skipSpaces rest)
  | 0, '.' :: _ => none
  | _, s => some (⟨parents, name⟩, s)

def key? (s : List Char) : Option (Key × List Char) := do
  let (name, rest) ← keyName? s
  moreNames? s.length [] name (skipSpaces rest)

def keyOfPair (s : List Char) : Except ReadError (Key × List Char) := do
  let (k, s) ← orMalformed (key? s)
  match s with
  | '=' :: rest => .ok (k, skipSpaces rest)
  | _ => .error .malformed

def scalar (s : List Char) : Except ReadError (Value × List Char) :=
  match s with
  | [] => .error .malformed
  | '"' :: _ => orMalformed ((longQuotation? s).map fun (t, rest) => (.text t, rest))
  | '\'' :: _ => orMalformed ((longQuotation? s).map fun (t, rest) => (.text t, rest))
  | 't' :: 'r' :: 'u' :: 'e' :: rest => .ok (.boolean true, rest)
  | 'f' :: 'a' :: 'l' :: 's' :: 'e' :: rest => .ok (.boolean false, rest)
  | s =>
    match moment? s with
    | some (m, rest) => if m.Exists then .ok (.moment m, rest) else .error .malformed
    | none =>
      match radixInteger? s with
      | some (n, rest) => .ok (.integer n, rest)
      | none =>
        match decimal? s with
        | some result => result
        | none => orMalformed (specialFloat? s)

/-- The room that the outermost values of a document have: what a limit of 1000 nested calls leaves
    behind the calls that lead to the reading. -/
def nestingRoom : Nat := 987

def roomWithin (room taken : Nat) : Except ReadError Nat :=
  if room < taken then .error .tooDeep else .ok (room - taken)

mutual

/-- An array takes two units of the room, a table on one line three, and any other value one. -/
def value (fuel room : Nat) (s : List Char) : Except ReadError (Value × List Char) :=
  match fuel with
  | 0 => .error .malformed
  | fuel + 1 =>
    match s with
    | '[' :: rest => do
      let room ← roomWithin room 2
      let rest ← skipFiller rest
      arrayItems fuel room [] rest
    | '\x7b' :: rest => do
      let room ← roomWithin room 3
      match skipSpaces rest with
      | '\x7d' :: rest => .ok (.table [], rest)
      | rest => inlineEntries fuel room {} rest
    | s => do
      let _ ← roomWithin room 1
      scalar s

/-- The items in front of the next one are given from the last one back. -/
def arrayItems (fuel room : Nat) (before : List Value) (s : List Char) :
    Except ReadError (Value × List Char) :=
  match fuel with
  | 0 => .error .malformed
  | fuel + 1 =>
    match s with
    | ']' :: rest => .ok (.array before.reverse, rest)
    | s => do
      let (v, s) ← value fuel room s
      match ← skipFiller s with
      | ']' :: rest => .ok (.array (v :: before).reverse, rest)
      | ',' :: rest => do
        let rest ← skipFiller rest
        arrayItems fuel room (v :: before) rest
      | _ => .error .malformed

def inlineEntries (fuel room : Nat) (ns : Namespace) (s : List Char) :
    Except ReadError (Value × List Char) :=
  match fuel with
  | 0 => .error .malformed
  | fuel + 1 => do
    let (k, s) ← keyOfPair s
    let (v, s) ← value fuel room s
    let ns ← orMalformed (ns.assign [] k v)
    match skipSpaces s with
    | '\x7d' :: rest => .ok (.table ns.entries, rest)
    | ',' :: rest => inlineEntries fuel room ns (skipSpaces rest)
    | _ => .error .malformed

end

/-- A document so far: the tables, and the one that the last header has opened. -/
structure Progress where
  tables : Namespace := {}
  header : TablePath := []

/-- A header `[[k]]` or `[k]`, given without its first bracket. -/
def headerLine (p : Progress) (s : List Char) : Except ReadError (Progress × List Char) :=
  let tables := p.tables.settle
  match s with
  | '[' :: rest => do
    let (k, rest) ← orMalformed (key? (skipSpaces rest))
    let tables ← orMalformed (tables.declareItem k)
    match rest with
    | ']' :: ']' :: rest => .ok ({ tables, header := k.path }, rest)
    | _ => .error .malformed
  | s => do
    let (k, rest) ← orMalformed (key? (skipSpaces s))
    let tables ← orMalformed (tables.declareTable k.path)
    match rest with
    | ']' :: rest => .ok ({ tables, header := k.path }, rest)
    | _ => .error .malformed

def pairLine (p : Progress) (s : List Char) : Except ReadError (Progress × List Char) := do
  let (k, s) ← keyOfPair s
  let (v, s) ← value (2 * s.length + 2) nestingRoom s
  let tables ← orMalformed (p.tables.assign p.header k v)
  return ({ p with tables }, s)

def statement (p : Progress) (s : List Char) : Except ReadError (Progress × List Char) :=
  match s with
  | [] => .ok (p, s)
  | c :: rest =>
    if c = '\n' ∨ c = '#' then .ok (p, s)
    else if c = '[' then headerLine p rest
    else pairLine p s

def lines (fuel : Nat) (p : Progress) (s : List Char) : Except ReadError Entries :=
  match fuel with
  | 0 => .error .malformed
  | fuel + 1 => do
    let (p, s) ← statement p (skipSpaces s)
    match ← skipComment (skipSpaces s) with
    | [] => .ok p.tables.entries
    | '\n' :: rest => lines fuel p rest
    | _ => .error .malformed

def readText (s : String) : Except ReadError Entries :=
  let cs := Text.joinLineEnds s.toList
  lines (cs.length + 1) {} cs

def readBytes (bytes : ByteArray) : Except ReadError Entries :=
  match String.fromUTF8? bytes with
  | some s => readText s
  | none => .error .notUtf8

end GatewayLauncher.Toml
