import GatewayLauncher.Text.Character
import GatewayLauncher.Text.Lines
import GatewayLauncher.Text.Quoted

namespace GatewayLauncher

/-- An empty list of identifiers means that the part is absent. -/
structure Version where
  major : Nat
  minor : Nat
  patch : Nat
  prerelease : List String := []
  build : List String := []
  deriving DecidableEq, Repr

inductive VersionPart where
  | major
  | minor
  | patch
  | prerelease
  deriving DecidableEq, Repr

def VersionPart.name : VersionPart → String
  | .major => "major"
  | .minor => "minor"
  | .patch => "patch"
  | .prerelease => "prerelease"

inductive VersionError where
  | malformed (text : String)
  | overlong
  | negative (part : VersionPart)
  | unsuitable
  deriving DecidableEq, Repr

def VersionError.message? : VersionError → Option String
  | .malformed text => some s!"{text} is not valid SemVer string"
  | .negative part => some s!"'{part.name}' is negative. A version can only be positive."
  | .overlong => none
  | .unsuitable => none

namespace Version

def dotted (ids : List String) : String := ".".intercalate ids

def writeNumber (n : Nat) : Except VersionError String :=
  match Text.writeNat? n with
  | some s => .ok (String.ofList s)
  | none => .error .overlong

/-- The written form. A version with a number over the digit limit has none. -/
def render (v : Version) : Except VersionError String := do
  let major ← writeNumber v.major
  let minor ← writeNumber v.minor
  let patch ← writeNumber v.patch
  return major ++ "." ++ minor ++ "." ++ patch ++
    (if v.prerelease.isEmpty then "" else "-" ++ dotted v.prerelease) ++
    (if v.build.isEmpty then "" else "+" ++ dotted v.build)

def quotedPart (ids : List String) : String :=
  if ids.isEmpty then "None" else Text.quoted (dotted ids)

def shown (v : Version) : Except VersionError String := do
  let major ← writeNumber v.major
  let minor ← writeNumber v.minor
  let patch ← writeNumber v.patch
  return "Version(major=" ++ major ++ ", minor=" ++ minor ++ ", patch=" ++ patch ++
    ", prerelease=" ++ quotedPart v.prerelease ++ ", build=" ++ quotedPart v.build ++ ")"

def ofInts (major minor patch : Int) : Except VersionError Version :=
  if major < 0 then .error (.negative .major)
  else if minor < 0 then .error (.negative .minor)
  else if patch < 0 then .error (.negative .patch)
  else .ok { major := major.toNat, minor := minor.toNat, patch := patch.toNat }

inductive Rank where
  | number (n : Nat)
  | word (s : String)
  deriving DecidableEq, Repr

/-- Numbers are below words; words are compared by code point. -/
def Rank.compare : Rank → Rank → Ordering
  | .number m, .number n => Ord.compare m n
  | .number _, .word _ => .lt
  | .word _, .number _ => .gt
  | .word s, .word t => Ord.compare s t

/-- An identifier of digits alone, of any script, is a number. One that is over the digit limit
    has no rank. -/
def rank? (id : String) : Option Rank :=
  let s := id.toList
  if !s.isEmpty && s.all Text.isDigit then (Text.numeral? s).map .number else some (.word id)

def compareRanks : List Rank → List Rank → Ordering
  | [], [] => .eq
  | [], _ :: _ => .lt
  | _ :: _, [] => .gt
  | x :: xs, y :: ys => (x.compare y).then (compareRanks xs ys)

/-- The empty prerelease is that of a release, and above all others. -/
def comparePrerelease : List Rank → List Rank → Ordering
  | [], [] => .eq
  | [], _ :: _ => .gt
  | _ :: _, [] => .lt
  | xs, ys => compareRanks xs ys

def compareNumbers (v w : Version) : Ordering :=
  (compare v.major w.major).then ((compare v.minor w.minor).then (compare v.patch w.patch))

/-- Fails when the prereleases have to be compared and an identifier has no rank. -/
def compare? (v w : Version) : Except VersionError Ordering :=
  match compareNumbers v w with
  | .eq =>
    match v.prerelease.mapM rank?, w.prerelease.mapM rank? with
    | some xs, some ys => .ok (comparePrerelease xs ys)
    | _, _ => .error .overlong
  | decided => .ok decided

def isBelow (v w : Version) : Except VersionError Bool := return (← compare? v w) == .lt

/-- Zero, or digits of any script that start with an ASCII digit other than zero. -/
def isNumber : List Char → Bool
  | ['0'] => true
  | c :: rest => '1' ≤ c && c ≤ '9' && rest.all Text.isDigit
  | [] => false

def isWordChar (c : Char) : Bool := c.isAlphanum || c == '-'

/-- A number, or digits followed by a letter or hyphen and any ASCII letters, digits and hyphens. -/
def isPrereleaseId (s : List Char) : Bool :=
  isNumber s ||
    match s.dropWhile Text.isDigit with
    | c :: rest => (c.isAlpha || c == '-') && rest.all isWordChar
    | [] => false

def isBuildId (s : List Char) : Bool := !s.isEmpty && s.all isWordChar

def identifiers? (test : List Char → Bool) : Option (List Char) → Option (List String)
  | none => some []
  | some s =>
    let ids := s.splitOn '.'
    if ids.all test then some (ids.map String.ofList) else none

inductive Completeness where
  | full
  | partialAllowed
  deriving DecidableEq, Repr

def coreNumbers? (c : Completeness) (s : List Char) :
    Option (List Char × List Char × List Char) :=
  match s.splitOn '.', c with
  | [x, y, z], _ => some (x, y, z)
  | [x, y], .partialAllowed => some (x, y, ['0'])
  | [x], .partialAllowed => some (x, ['0'], ['0'])
  | _, _ => none

structure Written where
  major : List Char
  minor : List Char
  patch : List Char
  prerelease : List String
  build : List String

/-- Cuts a text at the first plus sign and, before that, at the first hyphen. -/
def written? (c : Completeness) (s : List Char) : Option Written := do
  let (front, build) := Text.splitFirst '+' (Text.withoutFinalNewline s)
  let (core, prerelease) := Text.splitFirst '-' front
  let (major, minor, patch) ← coreNumbers? c core
  guard (isNumber major && isNumber minor && isNumber patch)
  let prerelease ← identifiers? isPrereleaseId prerelease
  let build ← identifiers? isBuildId build
  return { major, minor, patch, prerelease, build }

def Written.toVersion? (w : Written) : Option Version := do
  let major ← Text.numeral? w.major
  let minor ← Text.numeral? w.minor
  let patch ← Text.numeral? w.patch
  return { major, minor, patch, prerelease := w.prerelease, build := w.build }

def parse (c : Completeness) (text : String) : Except VersionError Version :=
  match written? c text.toList with
  | none => .error (.malformed text)
  | some w =>
    match w.toVersion? with
    | none => .error .overlong
    | some v => .ok v

/-- The text before the last row of digits, that row, and the text behind it. -/
def lastNumber? (s : List Char) : Option (List Char × List Char × List Char) :=
  let r := s.reverse
  let behind := r.takeWhile fun c => !Text.isDigit c
  let rest := r.dropWhile fun c => !Text.isDigit c
  let number := rest.takeWhile Text.isDigit
  if number.isEmpty then none
  else some ((rest.dropWhile Text.isDigit).reverse, number.reverse, behind.reverse)

/-- Counts the last number of a text up by one. Leading zeros stay as far as the width allows; a
    text without a number stays as it is. -/
def countUp (s : List Char) : Except VersionError (List Char) :=
  match lastNumber? s with
  | none => .ok s
  | some (before, number, behind) =>
    match Text.numeral? number with
    | none => .error .overlong
    | some n =>
      match Text.writeNat? (n + 1) with
      | none => .error .overlong
      | some next => .ok (before ++ number.take (number.length - next.length) ++ next ++ behind)

/-- Counts up the last identifier that has a digit. The list is given from its end. -/
def countUpLast : List String → Except VersionError (List String)
  | [] => .ok []
  | id :: rest =>
    if id.toList.any Text.isDigit then do
      return String.ofList (← countUp id.toList) :: rest
    else do
      return id :: (← countUpLast rest)

def countUpIdentifiers (ids : List String) : Except VersionError (List String) := do
  return (← countUpLast ids.reverse).reverse

def isRelease (v : Version) : Bool := v.prerelease.isEmpty && v.build.isEmpty

def nextMajor (v : Version) : Version := { major := v.major + 1, minor := 0, patch := 0 }

def nextMinor (v : Version) : Version := { major := v.major, minor := v.minor + 1, patch := 0 }

def nextPatch (v : Version) : Version :=
  { major := v.major, minor := v.minor, patch := v.patch + 1 }

def released (v : Version) : Version := { major := v.major, minor := v.minor, patch := v.patch }

/-- A release gets its first prerelease from the next patch. -/
def next (v : Version) : VersionPart → Except VersionError Version
  | .major =>
    .ok (if !v.isRelease && v.minor == 0 && v.patch == 0 then v.released else v.nextMajor)
  | .minor => .ok (if !v.isRelease && v.patch == 0 then v.released else v.nextMinor)
  | .patch => .ok (if !v.isRelease then v.released else v.nextPatch)
  | .prerelease =>
    if v.prerelease.isEmpty then .ok { v.nextPatch with prerelease := ["rc", "1"] }
    else do
      let prerelease ← countUpIdentifiers v.prerelease
      return { v.released with prerelease }

end Version

inductive VersionSpec where
  | exact (v : Version)
  /-- A partial version, after any number of letters `v`. -/
  | text (s : String)
  | number (n : Int)
  | other
  deriving DecidableEq, Repr

def VersionSpec.toVersion : VersionSpec → Except VersionError Version
  | .exact v => .ok v
  | .text s => Version.parse .partialAllowed (String.ofList (s.toList.dropWhile (· = 'v')))
  | .number n => Version.ofInts n 0 0
  | .other => .error .unsuitable

end GatewayLauncher
