import GatewayLauncher.Decimal
import GatewayLauncher.Text.Character
import GatewayLauncher.Text.Quoted

namespace GatewayLauncher.Toml

structure Date where
  year : Nat
  month : Nat
  day : Nat
  deriving DecidableEq, Repr

structure Time where
  hour : Nat
  minute : Nat
  second : Nat
  microsecond : Nat
  deriving DecidableEq, Repr

inductive Moment where
  | date (d : Date)
  | time (t : Time)
  /-- The offset from universal time, if there is one, is in minutes. -/
  | dateTime (d : Date) (t : Time) (offset : Option Int)
  deriving DecidableEq, Repr

def isLeap (year : Nat) : Bool := year % 4 == 0 && (year % 100 != 0 || year % 400 == 0)

def daysInMonth (year month : Nat) : Nat :=
  if month = 2 then (if isLeap year then 29 else 28)
  else if month = 4 ∨ month = 6 ∨ month = 9 ∨ month = 11 then 30
  else 31

/-- Years count from one. The grammar already keeps the month within twelve and the day above
    zero. -/
def Date.Exists (d : Date) : Prop := 1 ≤ d.year ∧ d.day ≤ daysInMonth d.year d.month

instance (d : Date) : Decidable d.Exists := by unfold Date.Exists; infer_instance

def asciiDigit? (c : Char) : Option Nat := if c.isDigit then some (c.toNat - 48) else none

def twoDigits? : List Char → Option (Nat × List Char)
  | a :: b :: rest => do return (10 * (← asciiDigit? a) + (← asciiDigit? b), rest)
  | _ => none

def twoDigitsWithin? (low high : Nat) (s : List Char) : Option (Nat × List Char) := do
  let (n, rest) ← twoDigits? s
  if low ≤ n ∧ n ≤ high then some (n, rest) else none

def expect? (c : Char) : List Char → Option (List Char)
  | d :: rest => if d = c then some rest else none
  | [] => none

/-- Digits of a second's fraction, to six places; further digits are dropped. -/
def microseconds (ds : List Char) : Nat :=
  ((ds ++ List.replicate 6 '0').take 6).foldl (fun n c => 10 * n + (c.toNat - 48)) 0

def fraction (s : List Char) : Nat × List Char :=
  match s with
  | '.' :: rest =>
    let ds := rest.takeWhile Char.isDigit
    if ds.isEmpty then (0, s) else (microseconds ds, rest.dropWhile Char.isDigit)
  | _ => (0, s)

def time? (s : List Char) : Option (Time × List Char) := do
  let (hour, s) ← twoDigitsWithin? 0 23 s
  let (minute, s) ← twoDigitsWithin? 0 59 (← expect? ':' s)
  let (second, s) ← twoDigitsWithin? 0 59 (← expect? ':' s)
  let (microsecond, s) := fraction s
  return ({ hour, minute, second, microsecond }, s)

def date? (s : List Char) : Option (Date × List Char) := do
  let (century, s) ← twoDigits? s
  let (year, s) ← twoDigits? s
  let (month, s) ← twoDigitsWithin? 1 12 (← expect? '-' s)
  let (day, s) ← twoDigitsWithin? 1 31 (← expect? '-' s)
  return ({ year := 100 * century + year, month, day }, s)

/-- `Z`, or a sign with hours and minutes. -/
def offset? : List Char → Option (Int × List Char)
  | [] => none
  | c :: s =>
    if c = 'Z' ∨ c = 'z' then some (0, s)
    else if c = '+' ∨ c = '-' then do
      let (hours, s) ← twoDigitsWithin? 0 23 s
      let (minutes, s) ← twoDigitsWithin? 0 59 (← expect? ':' s)
      let total : Int := 60 * hours + minutes
      return (if c = '-' then -total else total, s)
    else none

def timeAfterDate? : List Char → Option (Time × List Char)
  | c :: s => if c = 'T' ∨ c = 't' ∨ c = ' ' then time? s else none
  | [] => none

/-- The longest moment at the head of a text. Its date need not exist. -/
def moment? (s : List Char) : Option (Moment × List Char) :=
  match date? s with
  | some (d, rest) =>
    match timeAfterDate? rest with
    | none => some (.date d, rest)
    | some (t, rest) =>
      match offset? rest with
      | none => some (.dateTime d t none, rest)
      | some (offset, rest) => some (.dateTime d t (some offset), rest)
  | none => (time? s).map fun (t, rest) => (.time t, rest)

def Moment.Exists : Moment → Prop
  | .date d => d.Exists
  | .time _ => True
  | .dateTime d _ _ => d.Exists

instance (m : Moment) : Decidable m.Exists := by cases m <;> unfold Moment.Exists <;> infer_instance

def commas (ns : List Nat) : String := ", ".intercalate (ns.map toString)

/-- Seconds are left out when they are zero, and so is their fraction. -/
def Time.fields (t : Time) : List Nat :=
  if t.microsecond ≠ 0 then [t.hour, t.minute, t.second, t.microsecond]
  else if t.second ≠ 0 then [t.hour, t.minute, t.second]
  else [t.hour, t.minute]

def Date.fields (d : Date) : List Nat := [d.year, d.month, d.day]

/-- A negative offset is a day back and the rest of that day forward. -/
def offsetText (offset : Int) : String :=
  if offset = 0 then "datetime.timezone.utc"
  else
    let days := if offset < 0 then "days=-1, " else ""
    let seconds := if offset < 0 then 86400 + 60 * offset else 60 * offset
    s!"datetime.timezone(datetime.timedelta({days}seconds={seconds}))"

def Moment.text : Moment → String
  | .date d => s!"datetime.date({commas d.fields})"
  | .time t => s!"datetime.time({commas t.fields})"
  | .dateTime d t none => s!"datetime.datetime({commas (d.fields ++ t.fields)})"
  | .dateTime d t (some offset) =>
    s!"datetime.datetime({commas (d.fields ++ t.fields)}, tzinfo={offsetText offset})"

open GatewayLauncher.Decimal

/-- A table keeps its entries in the order in which they were first made. -/
inductive Value where
  | text (s : String)
  | integer (i : Int)
  | float (x : Binary64)
  | boolean (b : Bool)
  | moment (m : Moment)
  | array (items : List Value)
  | table (entries : List (String × Value))

abbrev Entries := List (String × Value)

def Entries.get? (es : Entries) (name : String) : Option Value := es.lookup name

mutual

def Value.writeWithin (depth : Nat) (v : Value) : Except Text.Unwritable String :=
  match depth with
  | 0 => .error .tooDeep
  | depth + 1 =>
    match v with
    | .text s => .ok (Text.quoted s)
    | .integer i =>
      match Text.writeInt? i with
      | some s => .ok (String.ofList s)
      | none => .error .overlong
    | .float x => .ok x.text
    | .boolean b => .ok (if b then "True" else "False")
    | .moment m => .ok m.text
    | .array items => do return "[" ++ ", ".intercalate (← writeItems depth items) ++ "]"
    | .table entries => do
      return "\x7b" ++ ", ".intercalate (← writeEntries depth entries) ++ "\x7d"

def writeItems (depth : Nat) : List Value → Except Text.Unwritable (List String)
  | [] => .ok []
  | v :: vs => do return (← v.writeWithin depth) :: (← writeItems depth vs)

def writeEntries (depth : Nat) : List (String × Value) → Except Text.Unwritable (List String)
  | [] => .ok []
  | (name, v) :: es => do
    return (Text.quoted name ++ ": " ++ (← v.writeWithin depth)) :: (← writeEntries depth es)

end

/-- How deep a value may be nested, counted with itself, and still be written: what a limit of 1000
    nested calls leaves behind the calls that lead to the report. -/
def writingDepth : Nat := 985

/-- The written form. A value with an integer over the digit limit has none, and neither has one
    that is nested too deeply; what comes first in the text decides. -/
def Value.write (v : Value) : Except Text.Unwritable String := v.writeWithin writingDepth

end GatewayLauncher.Toml
