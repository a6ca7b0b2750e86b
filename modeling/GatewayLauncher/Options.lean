import GatewayLauncher.Text.Character
import GatewayLauncher.Text.Lines
import GatewayLauncher.Text.Quoted

namespace GatewayLauncher.Options

inductive Effect where
  | help
  | value
  deriving DecidableEq, Repr

structure Switch where
  spellings : List String
  effect : Effect
  deriving DecidableEq, Repr

def Switch.label (s : Switch) : String := "/".intercalate s.spellings

structure Operand where
  name : String
  choices : List String
  deriving DecidableEq, Repr

/-- Every switch gives one value or asks for help. A long one may be shortened as long as it stays
    unambiguous, and everything behind a double hyphen is an operand. -/
structure Grammar where
  program : String
  usage : String
  description : List String
  switches : List Switch
  operand : Option Operand := none

inductive UsageError where
  | ambiguous (given : String) (candidates : List String)
  | missingValue (s : Switch)
  | needlessValue (s : Switch) (value : String)
  | wrongChoice (o : Operand) (value : String)
  | missingOperand (name : String)
  | unrecognized (args : List String)
  deriving DecidableEq, Repr

def UsageError.message : UsageError → String
  | .ambiguous given candidates =>
    s!"ambiguous option: {given} could match " ++ ", ".intercalate candidates
  | .missingValue s => s!"argument {s.label}: expected one argument"
  | .needlessValue s value =>
    s!"argument {s.label}: ignored explicit argument {Text.quoted value}"
  | .wrongChoice o value =>
    s!"argument {o.name}: invalid choice: {Text.quoted value} (choose from " ++
      ", ".intercalate (o.choices.map Text.quoted) ++ ")"
  | .missingOperand name => s!"the following arguments are required: {name}"
  | .unrecognized args => "unrecognized arguments: " ++ " ".intercalate args

def Grammar.complaint (g : Grammar) (e : UsageError) : String :=
  Text.lines [s!"usage: {g.usage}", s!"{g.program}: error: {e.message}"]

def Grammar.helpText (g : Grammar) : String := Text.lines (s!"usage: {g.usage}" :: g.description)

/-- A switch with the text that stands in the same argument, behind an equals sign or right behind
    the letter. -/
structure Found where
  switch : Switch
  spelling : String
  attached : Option (List Char) := none
  deriving DecidableEq, Repr

inductive Kind where
  | operand
  | separator
  | switch (f : Found)
  | unknown
  deriving DecidableEq, Repr

def Grammar.spellings (g : Grammar) : List (String × Switch) :=
  g.switches.flatMap fun s => s.spellings.map (·, s)

def Grammar.spelled? (g : Grammar) (s : List Char) : Option Switch :=
  g.spellings.lookup (String.ofList s)

/-- A hyphen with digits, and possibly a point before the last of them. -/
def isNegativeNumber (s : List Char) : Bool :=
  match Text.withoutFinalNewline s with
  | '-' :: rest =>
    match Text.splitFirst '.' rest with
    | (whole, none) => !whole.isEmpty && whole.all Text.isDigit
    | (whole, some part) =>
      whole.all Text.isDigit && !part.isEmpty && part.all Text.isDigit
  | _ => false

/-- The switches that an argument may shorten, or that have their value right behind them. -/
def Grammar.candidates (g : Grammar) (s : List Char) : List Found :=
  let (front, value) := Text.splitFirst '=' s
  g.spellings.filterMap fun (spelling, switch) =>
    if ['-', '-'].isPrefixOf s then
      if front.isPrefixOf spelling.toList then
        some { switch, spelling, attached := value }
      else none
    else if spelling.toList = s.take 2 then
      some { switch, spelling, attached := some (s.drop 2) }
    else if s.isPrefixOf spelling.toList then some { switch, spelling }
    else none

def Grammar.exact? (g : Grammar) (s : List Char) : Option Found :=
  match g.spelled? s with
  | some switch => some { switch, spelling := String.ofList s }
  | none =>
    match Text.splitFirst '=' s with
    | (front, some value) =>
      (g.spelled? front).map fun switch =>
        { switch, spelling := String.ofList front, attached := some value }
    | (_, none) => none

def Grammar.kindOf (g : Grammar) (arg : String) : Except UsageError Kind :=
  let s := arg.toList
  if s.head? ≠ some '-' ∨ s = ['-'] then .ok .operand
  else
    match g.exact? s with
    | some f => .ok (.switch f)
    | none =>
      match g.candidates s with
      | [f] => .ok (.switch f)
      | [] => .ok (if isNegativeNumber s || s.contains ' ' then .operand else .unknown)
      | fs => .error (.ambiguous arg (fs.map Found.spelling))

def Grammar.kinds (g : Grammar) : List String → Except UsageError (List (String × Kind))
  | [] => .ok []
  | arg :: args =>
    if arg = "--" then .ok ((arg, .separator) :: args.map (·, .operand))
    else do
      let kind ← g.kindOf arg
      return (arg, kind) :: (← g.kinds args)

inductive Stop where
  | help
  | error (e : UsageError)
  deriving DecidableEq, Repr

/-- What a switch gives: a text, or nothing where a double hyphen stands in its place. -/
inductive Given where
  | text (s : String)
  | nothing
  deriving DecidableEq, Repr

structure Taken where
  value : Option Given := none
  operand : Option String := none
  extras : List String := []
  deriving DecidableEq, Repr

/-- What stands behind the letter that asks for help: letters of further switches, and no value. -/
def Grammar.helpLetters (g : Grammar) (s : Switch) : List Char → Stop
  | [] => .error (.needlessValue s "")
  | c :: rest =>
    match g.spelled? ['-', c], rest with
    | none, _ => .error (.needlessValue s (String.ofList (c :: rest)))
    | some _, [] => .help
    | some next, d :: rest => g.helpLetters next (d :: rest)

def Grammar.stopAtHelp (g : Grammar) (f : Found) : Stop :=
  match f.attached with
  | none => .help
  | some letters =>
    if ['-', '-'].isPrefixOf f.spelling.toList then
      .error (.needlessValue f.switch (String.ofList letters))
    else g.helpLetters f.switch letters

def valueOf (f : Found) (rest : List (String × Kind)) :
    Except Stop (Given × List (String × Kind)) :=
  match f.attached, rest with
  | some ['-', '-'], rest => .ok (.nothing, rest)
  | some text, rest => .ok (.text (String.ofList text), rest)
  | none, (arg, .operand) :: rest => .ok (.text arg, rest)
  | none, _ => .error (.error (.missingValue f.switch))

/-- How many arguments an operand takes with the double hyphens around it; zero if there is none. -/
def operandSpan (args : List (String × Kind)) : Nat :=
  let before := args.takeWhile (·.2 = .separator)
  match args.drop before.length with
  | (_, .operand) :: rest => before.length + 1 + (rest.takeWhile (·.2 = .separator)).length
  | _ => 0

def Grammar.takeOperand (g : Grammar) (t : Taken) (args : List (String × Kind)) :
    Except Stop (Taken × List (String × Kind)) :=
  match g.operand, t.operand with
  | some o, none =>
    let n := operandSpan args
    match ((args.take n).map Prod.fst).erase "--" with
    | [] => .ok (t, args)
    | value :: _ =>
      if value ∈ o.choices then .ok ({ t with operand := some value }, args.drop n)
      else .error (.error (.wrongChoice o value))
  | _, _ => .ok (t, args)

def isPlain (arg : String × Kind) : Bool := arg.2 matches .operand | .separator

/-- Takes the operands up to the next switch; those that nobody wants are left over. -/
def Grammar.takePlain (g : Grammar) (t : Taken) (args : List (String × Kind)) :
    Except Stop (Taken × List (String × Kind)) := do
  let (t, args) ← g.takeOperand t args
  let extras := t.extras ++ (args.takeWhile isPlain).map Prod.fst
  return ({ t with extras }, args.dropWhile isPlain)

/-- Takes operands and switches in turn. The bound is the number of arguments. -/
def Grammar.takeAll (g : Grammar) : Nat → Taken → List (String × Kind) → Except Stop Taken
  | 0, t, args => return (← g.takePlain t args).1
  | bound + 1, t, args => do
    let (t, args) ← g.takePlain t args
    match args with
    | (arg, .unknown) :: rest => g.takeAll bound { t with extras := t.extras ++ [arg] } rest
    | (_, .switch f) :: rest =>
      match f.switch.effect with
      | .help => throw (g.stopAtHelp f)
      | .value =>
        let (value, rest) ← valueOf f rest
        g.takeAll bound { t with value := some value } rest
    | _ => return t

def Grammar.finish (g : Grammar) (t : Taken) : Except Stop Taken :=
  match g.operand, t.operand with
  | some o, none => .error (.error (.missingOperand o.name))
  | _, _ => if t.extras.isEmpty then .ok t else .error (.error (.unrecognized t.extras))

def Grammar.read (g : Grammar) (args : List String) : Except Stop Taken := do
  let kinds ← (g.kinds args).mapError Stop.error
  g.finish (← g.takeAll kinds.length {} kinds)

end GatewayLauncher.Options
