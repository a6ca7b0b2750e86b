import GatewayLauncher.Toml.Value

namespace GatewayLauncher.Toml

open GatewayLauncher.Decimal

inductive ReadError where
  | malformed
  | overlongInteger
  | notUtf8
  | tooDeep
  deriving DecidableEq, Repr

/-- The digits at the head of a text in which a first digit has been read: each further one may have
    an underscore before it. -/
def moreDigits (p : Char → Bool) : List Char → List Char × List Char
  | [] => ([], [])
  | '_' :: c :: rest =>
    if p c then
      let (ds, rest) := moreDigits p rest
      (c :: ds, rest)
    else ([], '_' :: c :: rest)
  | c :: rest =>
    if p c then
      let (ds, rest) := moreDigits p rest
      (c :: ds, rest)
    else ([], c :: rest)

def digits? (p : Char → Bool) : List Char → Option (List Char × List Char)
  | c :: rest =>
    if p c then
      let (ds, rest) := moreDigits p rest
      some (c :: ds, rest)
    else none
  | [] => none

def isHexDigit (c : Char) : Bool :=
  c.isDigit || ('a' ≤ c && c ≤ 'f') || ('A' ≤ c && c ≤ 'F')

def hexValue (c : Char) : Nat :=
  if c.isDigit then c.toNat - 48 else if c.toNat < 97 then c.toNat - 55 else c.toNat - 87

def inBase (base : Nat) (ds : List Char) : Nat := ds.foldl (fun n c => base * n + hexValue c) 0

/-- An integer in base sixteen, eight or two, whose letter follows a zero. -/
def radixInteger? : List Char → Option (Nat × List Char)
  | '0' :: 'x' :: rest => (digits? isHexDigit rest).map fun (ds, rest) => (inBase 16 ds, rest)
  | '0' :: 'o' :: rest =>
    (digits? (fun c => '0' ≤ c && c ≤ '7') rest).map fun (ds, rest) => (inBase 8 ds, rest)
  | '0' :: 'b' :: rest =>
    (digits? (fun c => c == '0' || c == '1') rest).map fun (ds, rest) => (inBase 2 ds, rest)
  | _ => none

def sign : List Char → Bool × List Char
  | '-' :: rest => (true, rest)
  | '+' :: rest => (false, rest)
  | s => (false, s)

def wholePart? : List Char → Option (List Char × List Char)
  | '0' :: rest => some (['0'], rest)
  | s => digits? Char.isDigit s

def fractionPart? : List Char → Option (List Char × List Char)
  | '.' :: rest => digits? Char.isDigit rest
  | _ => none

def exponentPart? : List Char → Option (Int × List Char)
  | c :: rest =>
    if c = 'e' ∨ c = 'E' then do
      let (negative, rest) := sign rest
      let (ds, rest) ← digits? Char.isDigit rest
      let n : Int := inBase 10 ds
      return (if negative then -n else n, rest)
    else none
  | [] => none

def decimal? (s : List Char) : Option (Except ReadError (Value × List Char)) := do
  let (negative, s) := sign s
  let (whole, s) ← wholePart? s
  match fractionPart? s, exponentPart? s with
  | none, none =>
    if Text.digitLimit < whole.length then return .error .overlongInteger
    let n : Int := inBase 10 whole
    return .ok (.integer (if negative then -n else n), s)
  | none, some (e, s) =>
    return .ok (.float (.ofDecimal negative (inBase 10 whole) e), s)
  | some (fraction, s), _ =>
    let (e, s) := (exponentPart? s).getD (0, s)
    let digits := inBase 10 (whole ++ fraction)
    return .ok (.float (.ofDecimal negative digits (e - fraction.length)), s)

def specialFloat? (s : List Char) : Option (Value × List Char) :=
  match sign s with
  | (negative, 'i' :: 'n' :: 'f' :: rest) => some (.float (.infinite negative), rest)
  | (_, 'n' :: 'a' :: 'n' :: rest) => some (.float .nan, rest)
  | _ => none

def isControl (c : Char) : Bool := c.toNat < 32 || c.toNat == 127

def allowed (multiline : Bool) (c : Char) : Bool :=
  !isControl c || c == '\t' || (multiline && c == '\n')

def isSpace (c : Char) : Bool := c == ' ' || c == '\t'

def shortEscape? : Char → Option Char
  | 'b' => some '\x08'
  | 't' => some '\t'
  | 'n' => some '\n'
  | 'f' => some '\x0c'
  | 'r' => some '\r'
  | '"' => some '"'
  | '\\' => some '\\'
  | _ => none

/-- The character with the given code point in base sixteen; surrogates are none. -/
def codePoint? (ds : List Char) : Option Char :=
  if ds.all isHexDigit then
    let n := inBase 16 ds
    if n.isValidChar then some (Char.ofNat n) else none
  else none

/-- Inside a basic text: reading on, behind a backslash that ends its line but for blanks, or in the
    blanks that such a backslash swallows. -/
inductive BasicState where
  | reading
  | lineEnding
  | skipping

def basic? (multiline : Bool) : BasicState → List Char → Option (List Char × List Char)
  | _, [] => none
  | .lineEnding, c :: rest =>
    if c = '\n' then basic? multiline .skipping rest
    else if isSpace c then basic? multiline .lineEnding rest
    else none
  | _, '"' :: rest =>
    if multiline then
      match rest with
      | '"' :: '"' :: rest => some ([], rest)
      | _ => (basic? multiline .reading rest).map fun (s, rest) => ('"' :: s, rest)
    else some ([], rest)
  | _, '\\' :: 'u' :: a :: b :: c :: d :: rest => do
    let x ← codePoint? [a, b, c, d]
    let (s, rest) ← basic? multiline .reading rest
    return (x :: s, rest)
  | _, '\\' :: 'U' :: a :: b :: c :: d :: e :: f :: g :: h :: rest => do
    let x ← codePoint? [a, b, c, d, e, f, g, h]
    let (s, rest) ← basic? multiline .reading rest
    return (x :: s, rest)
  | _, '\\' :: c :: rest =>
    if multiline && c == '\n' then basic? multiline .skipping rest
    else if multiline && isSpace c then basic? multiline .lineEnding rest
    else do
      let x ← shortEscape? c
      let (s, rest) ← basic? multiline .reading rest
      return (x :: s, rest)
  | .skipping, c :: rest =>
    if isSpace c || c == '\n' then basic? multiline .skipping rest
    else if allowed multiline c then
      (basic? multiline .reading rest).map fun (s, rest) => (c :: s, rest)
    else none
  | .reading, c :: rest =>
    if allowed multiline c then
      (basic? multiline .reading rest).map fun (s, rest) => (c :: s, rest)
    else none

def literal? (multiline : Bool) : List Char → Option (List Char × List Char)
  | [] => none
  | '\'' :: rest =>
    if multiline then
      match rest with
      | '\'' :: '\'' :: rest => some ([], rest)
      | _ => (literal? multiline rest).map fun (s, rest) => ('\'' :: s, rest)
    else some ([], rest)
  | c :: rest =>
    if allowed multiline c then (literal? multiline rest).map fun (s, rest) => (c :: s, rest)
    else none

/-- One or two quotes behind the closing three belong to the text. -/
def withTrailingQuotes (q : Char) (s rest : List Char) : List Char × List Char :=
  let extra := (rest.take 2).takeWhile (· = q)
  (s ++ extra, rest.drop extra.length)

def withoutFirstNewline : List Char → List Char
  | '\n' :: rest => rest
  | s => s

def quotation? : List Char → Option (String × List Char)
  | '"' :: rest => (basic? false .reading rest).map fun (s, rest) => (String.ofList s, rest)
  | '\'' :: rest => (literal? false rest).map fun (s, rest) => (String.ofList s, rest)
  | _ => none

/-- A quoted text that may span lines: three quotes open it, and a line feed right behind them does
    not count. -/
def longQuotation? : List Char → Option (String × List Char)
  | '"' :: '"' :: '"' :: rest =>
    (basic? true .reading (withoutFirstNewline rest)).map fun (s, rest) =>
      let (s, rest) := withTrailingQuotes '"' s rest
      (String.ofList s, rest)
  | '\'' :: '\'' :: '\'' :: rest =>
    (literal? true (withoutFirstNewline rest)).map fun (s, rest) =>
      let (s, rest) := withTrailingQuotes '\'' s rest
      (String.ofList s, rest)
  | s => quotation? s

end GatewayLauncher.Toml
