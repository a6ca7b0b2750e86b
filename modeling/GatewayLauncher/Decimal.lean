namespace GatewayLauncher.Decimal

/-- The integer nearest to `n / d`; of two at the same distance the even one. -/
def roundHalfEven (n d : Nat) : Nat :=
  let q := n / d
  let r := n % d
  if 2 * r < d then q
  else if d < 2 * r then q + 1
  else if q % 2 = 0 then q else q + 1

def hundredths (n d : Nat) : String :=
  let h := roundHalfEven (100 * n) d
  let r := h % 100
  toString (h / 100) ++ "." ++ (if r < 10 then "0" else "") ++ toString r

def megabytes (size : Nat) : String := hundredths size (1024 * 1024) ++ "MB"

def twoTo (k : Nat) : Nat := Nat.pow 2 k

def tenTo (k : Nat) : Nat := Nat.pow 10 k

/-- A finite number is `mantissa * 2 ^ exponent` with a mantissa below `2 ^ 53` and an exponent of
    at least `-1074`; the mantissa is at least `2 ^ 52` unless the exponent is the least one. -/
inductive Binary64 where
  | finite (negative : Bool) (mantissa : Nat) (exponent : Int)
  | infinite (negative : Bool)
  | nan
  deriving DecidableEq, Repr

namespace Binary64

def zero (negative : Bool) : Binary64 := .finite negative 0 (-1074)

def floorLog2 (n d : Nat) : Int :=
  let k : Int := (Nat.log2 n : Int) - Nat.log2 d
  if d * twoTo k.toNat ≤ n * twoTo (-k).toNat then k else k - 1

/-- The number nearest to `n / d`, of two the one with the even mantissa. -/
def ofQuotient (negative : Bool) (n d : Nat) : Binary64 :=
  if n = 0 then zero negative
  else
    let e := max (floorLog2 n d - 52) (-1074)
    let m := roundHalfEven (n * twoTo (-e).toNat) (d * twoTo e.toNat)
    let (m, e) := if m = twoTo 53 then (twoTo 52, e + 1) else (m, e)
    if 971 < e then .infinite negative else .finite negative m e

/-- The number nearest to `n * 10 ^ exponent`. Outside `10 ^ -400` to `10 ^ 400` the answer is known
    from the number of digits alone. -/
def ofDecimal (negative : Bool) (n : Nat) (exponent : Int) : Binary64 :=
  let size : Int := (Nat.toDigits 10 n).length + exponent
  if n = 0 ∨ size < -400 then zero negative
  else if 400 < size then .infinite negative
  else ofQuotient negative (n * tenTo exponent.toNat) (tenTo (-exponent).toNat)

end Binary64

structure Scaled where
  digits : Nat
  exponent : Int
  deriving DecidableEq, Repr

def floorLog10 (n d : Nat) : Int :=
  if d ≤ n then ((Nat.toDigits 10 (n / d)).length : Int) - 1
  else -((Nat.toDigits 10 ((d + n - 1) / n - 1)).length : Int)

/-- The reals that round to `m * 2 ^ e`, as numerators over one denominator. Below a power of two
    the neighbour is only half as far away; the ends belong to it exactly when `m` is even. -/
structure Interval where
  low : Nat
  value : Nat
  high : Nat
  denominator : Nat
  closed : Bool

def Interval.around (m : Nat) (e : Int) : Interval :=
  let s := twoTo e.toNat
  let below := if m = twoTo 52 ∧ -1074 < e then 1 else 2
  { low := (4 * m - below) * s, value := 4 * m * s, high := (4 * m + 2) * s,
    denominator := 4 * twoTo (-e).toNat, closed := m % 2 = 0 }

def Interval.contains (i : Interval) (k n d : Nat) : Bool :=
  let x := k * n * i.denominator
  if i.closed then i.low * d ≤ x && x ≤ i.high * d else i.low * d < x && x < i.high * d

/-- The nearest point, if any lies in the interval, of the grid `0, n / d, 2 * n / d, ...`. -/
def Interval.gridPoint? (i : Interval) (n d : Nat) : Option Nat :=
  let k := i.value * d / (i.denominator * n)
  let nearest := roundHalfEven (i.value * d) (i.denominator * n)
  if i.contains nearest n d then some nearest
  else if i.contains k n d then some k
  else if i.contains (k + 1) n d then some (k + 1)
  else none

def Interval.firstPoint? (i : Interval) (fuel : Nat) (exponent : Int) : Option Scaled :=
  match fuel with
  | 0 => none
  | fuel + 1 =>
    match i.gridPoint? (tenTo exponent.toNat) (tenTo (-exponent).toNat) with
    | some k => some ⟨k, exponent⟩
    | none => i.firstPoint? fuel (exponent - 1)

/-- The shortest decimal that reads back as `m * 2 ^ e`. Seventeen digits always suffice. -/
def shortest (m : Nat) (e : Int) : Scaled :=
  if m = 0 then ⟨0, 0⟩
  else
    let i := Interval.around m e
    (i.firstPoint? 17 (floorLog10 i.value i.denominator)).getD ⟨0, 0⟩

def exponentText (e : Int) : String :=
  let a := toString e.natAbs
  "e" ++ (if e < 0 then "-" else "+") ++ (if a.length < 2 then "0" else "") ++ a

/-- The number `0.d₁d₂…` times `10 ^ point`, without exponent. -/
def positional (ds : List Char) (point : Int) : String :=
  if point ≤ 0 then
    "0." ++ String.ofList (List.replicate (-point).toNat '0' ++ ds)
  else
    let n := point.toNat
    let whole := ds.take n ++ List.replicate (n - ds.length) '0'
    let rest := ds.drop n
    String.ofList whole ++ "." ++ (if rest.isEmpty then "0" else String.ofList rest)

def scientific (ds : List Char) (exponent : Int) : String :=
  match ds with
  | [] => "0"
  | [d] => d.toString ++ exponentText exponent
  | d :: rest => d.toString ++ "." ++ String.ofList rest ++ exponentText exponent

def significant (n : Nat) : List Char :=
  ((Nat.toDigits 10 n).reverse.dropWhile (· = '0')).reverse

def Scaled.text (s : Scaled) : String :=
  if s.digits = 0 then "0.0"
  else
    let first : Int := (Nat.toDigits 10 s.digits).length - 1 + s.exponent
    let ds := significant s.digits
    if first < -4 ∨ 16 ≤ first then scientific ds first else positional ds (first + 1)

def Binary64.text : Binary64 → String
  | .finite negative m e => (if negative then "-" else "") ++ (shortest m e).text
  | .infinite negative => if negative then "-inf" else "inf"
  | .nan => "nan"

end GatewayLauncher.Decimal
