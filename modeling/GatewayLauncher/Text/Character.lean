namespace GatewayLauncher.Text

/-- White space of Unicode, the four information separators (28 to 31) included. -/
def isBlank (c : Char) : Bool :=
  let n := c.toNat
  (9 ≤ n && n ≤ 13) || (28 ≤ n && n ≤ 32) || n == 0x85 || n == 0xa0 || n == 0x1680 ||
    (0x2000 ≤ n && n ≤ 0x200a) || n == 0x2028 || n == 0x2029 || n == 0x202f || n == 0x205f ||
    n == 0x3000

def strip (s : List Char) : List Char :=
  ((s.dropWhile isBlank).reverse.dropWhile isBlank).reverse

/-- The zeros of all scripts; the other nine digits of a script follow its zero. -/
def zeros : List Nat := [
  0x30, 0x660, 0x6f0, 0x7c0, 0x966, 0x9e6, 0xa66, 0xae6, 0xb66, 0xbe6, 0xc66, 0xce6, 0xd66, 0xde6,
  0xe50, 0xed0, 0xf20, 0x1040, 0x1090, 0x17e0, 0x1810, 0x1946, 0x19d0, 0x1a80, 0x1a90, 0x1b50,
  0x1bb0, 0x1c40, 0x1c50, 0xa620, 0xa8d0, 0xa900, 0xa9d0, 0xa9f0, 0xaa50, 0xabf0, 0xff10, 0x104a0,
  0x10d30, 0x11066, 0x110f0, 0x11136, 0x111d0, 0x112f0, 0x11450, 0x114d0, 0x11650, 0x116c0,
  0x11730, 0x118e0, 0x11950, 0x11c50, 0x11d50, 0x11da0, 0x16a60, 0x16ac0, 0x16b50, 0x1d7ce,
  0x1d7d8, 0x1d7e2, 0x1d7ec, 0x1d7f6, 0x1e140, 0x1e2f0, 0x1e950, 0x1fbf0]

def digit? (c : Char) : Option Nat :=
  zeros.findSome? fun z => if z ≤ c.toNat ∧ c.toNat < z + 10 then some (c.toNat - z) else none

def isDigit (c : Char) : Bool := (digit? c).isSome

def numeral (s : List Char) : Nat :=
  s.foldl (fun n c => 10 * n + (digit? c).getD 0) 0

/-- A numeral with more digits is neither read nor written. -/
def digitLimit : Nat := 4300

def numeral? (s : List Char) : Option Nat :=
  if s.length ≤ digitLimit then some (numeral s) else none

def writeNat? (n : Nat) : Option (List Char) :=
  let s := Nat.toDigits 10 n
  if s.length ≤ digitLimit then some s else none

def writeInt? (i : Int) : Option (List Char) :=
  (writeNat? i.natAbs).map fun s => if i < 0 then '-' :: s else s

/-- The characters outside ASCII whose capital form has an ASCII letter in it. -/
def foreignCapitals : List (Nat × List Char) := [
  (0xdf, ['S', 'S']), (0x131, ['I']), (0x149, ['\u02bc', 'N']), (0x17f, ['S']),
  (0x1f0, ['J', '\u030c']), (0x1e96, ['H', '\u0331']), (0x1e97, ['T', '\u0308']),
  (0x1e98, ['W', '\u030a']), (0x1e99, ['Y', '\u030a']), (0x1e9a, ['A', '\u02be']),
  (0xfb00, ['F', 'F']), (0xfb01, ['F', 'I']), (0xfb02, ['F', 'L']), (0xfb03, ['F', 'F', 'I']),
  (0xfb04, ['F', 'F', 'L']), (0xfb05, ['S', 'T']), (0xfb06, ['S', 'T'])]

/-- Outside ASCII a character that is not in the table is kept: its capital form is outside ASCII
    too, so that neither of them is part of an ASCII word. -/
def capital (c : Char) : List Char :=
  match foreignCapitals.lookup c.toNat with
  | some u => u
  | none => [c.toUpper]

def upper (s : List Char) : List Char := s.flatMap capital

/-- The characters outside ASCII whose small form has an ASCII letter in it. -/
def foreignSmalls : List (Nat × List Char) := [(0x130, ['i', '\u0307']), (0x212a, ['k'])]

def small (c : Char) : List Char :=
  match foreignSmalls.lookup c.toNat with
  | some l => l
  | none => [c.toLower]

def lower (s : List Char) : List Char := s.flatMap small

end GatewayLauncher.Text
