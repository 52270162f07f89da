import TabularReport.Number.Double
import TabularReport.Text.Basic
/-!
Decimal text of numbers, written and read.  A finite number is written with the fewest digits that read
back as the same number, always positionally; of two candidates of that length the nearer is taken, the
larger one on a tie.  Reading rounds once, to the nearest number.
-/
set_option autoImplicit false

namespace TabularReport

/-- The number of decimal places that every finite number can be written with. -/
def decimalPlaces : Nat := 1074

def digitsOf (n : Nat) : List Char :=
  Nat.toDigits 10 n

def digitsValue (cs : List Char) : Nat :=
  cs.foldl (fun n c => 10 * n + (c.toNat - 48)) 0

def onGrid? (reads : Nat → Bool) (exact step : Nat) : Option Nat :=
  let below := exact / step
  let above := below + 1
  match reads (below * step), reads (above * step) with
  | true, true => some (if 2 * (exact % step) < step then below else above)
  | true, false => some below
  | false, true => some above
  | false, false => none

/-- The first hit on the grids of 10^k, 10^(k-1), … 1, with its exponent. -/
def firstOnGrid (reads : Nat → Bool) (exact : Nat) : Nat → Nat × Nat
  | 0 => (exact, 0)
  | k + 1 =>
    match onGrid? reads exact (Nat.pow 10 (k + 1)) with
    | some d => (d, k + 1)
    | none => firstOnGrid reads exact k

namespace Magnitude

/-- The magnitude in units of 10^-1074, which is exact: a unit is 5^1074 of them. -/
def decimalUnits (m : Magnitude) : Nat :=
  m.units * Nat.pow 5 decimalPlaces

def readsBack (m : Magnitude) (d : Nat) : Bool :=
  roundBits d (Nat.pow 5 decimalPlaces) == m.units

/-- The fewest digits that read back, and the power of ten of 10^-1074 they count. -/
def shortest (m : Magnitude) : Nat × Nat :=
  firstOnGrid m.readsBack m.decimalUnits ((digitsOf m.decimalUnits).length - 1)

end Magnitude

def dropEndZeros (cs : List Char) : List Char :=
  (cs.reverse.dropWhile (· == '0')).reverse

def padded (width n : Nat) : List Char :=
  let ds := digitsOf n
  List.replicate (width - ds.length) '0' ++ ds

/-- The positional text of `n` / 10^`places`, without zeros at the end of the fraction. -/
def positional (n places : Nat) : List Char :=
  let one := Nat.pow 10 places
  let fraction := dropEndZeros (padded places (n % one))
  digitsOf (n / one) ++ if n % one = 0 then [] else '.' :: fraction

def laidOut (places n k : Nat) : List Char :=
  if k ≤ places then positional n (places - k) else digitsOf (n * Nat.pow 10 (k - places))

def Magnitude.chars (m : Magnitude) : List Char :=
  laidOut decimalPlaces m.shortest.1 m.shortest.2

namespace Double

def signChars (negative : Bool) : List Char :=
  if negative then ['-'] else []

def chars : Double → List Char
  | .nan => ['N', 'a', 'N']
  | .infinite s => signChars s ++ ['i', 'n', 'f']
  | .finite s m => signChars s ++ m.chars

def text (x : Double) : String :=
  String.ofList x.chars

/-- The text of a finite number with exactly `places` decimals.  The exact value is rounded, a half to
the even neighbour; the sign of a negative number stays even if all digits are zero. -/
def fixed (places : Nat) : Double → List Char
  | .finite s m =>
    let one := Nat.pow 10 places
    let scaled := divNearest (m.units * one) unitsPerOne
    signChars s ++ digitsOf (scaled / one) ++
      if places = 0 then [] else '.' :: padded places (scaled % one)
  | x => x.chars

/-- The number nearest to `digits` · 10^`exponent`.  Exponents that decide the answer alone are not
computed with. -/
def ofDecimal (negative : Bool) (digits : Nat) (exponent : Int) : Double :=
  if digits = 0 then .finite negative .zero
  else if 400 < exponent then .infinite negative
  else if exponent + (digitsOf digits).length < -400 then .finite negative .zero
  else if 0 ≤ exponent then round negative (digits * Nat.pow 10 exponent.toNat * unitsPerOne) 1
  else round negative (digits * unitsPerOne) (Nat.pow 10 (-exponent).toNat)

def readPoint (cs : List Char) : List Char × Nat × List Char :=
  let whole := cs.takeWhile Char.isDigit
  match cs.dropWhile Char.isDigit with
  | '.' :: rest =>
    let fraction := rest.takeWhile Char.isDigit
    (whole ++ fraction, fraction.length, rest.dropWhile Char.isDigit)
  | rest => (whole, 0, rest)

def readSign : List Char → Bool × List Char
  | '-' :: cs => (true, cs)
  | '+' :: cs => (false, cs)
  | cs => (false, cs)

def readExponent? : List Char → Option Int
  | [] => some 0
  | c :: cs =>
    let (negative, ds) := readSign cs
    if (c = 'e' || c = 'E') && !ds.isEmpty && ds.all Char.isDigit then
      some (if negative then -(digitsValue ds : Int) else digitsValue ds)
    else none

/-- The number that all of `cs` spells: digits with an optional point and exponent, or the words `inf`,
`infinity` and `nan` in any case, each after an optional sign. -/
def readChars? (cs : List Char) : Option Double :=
  let (negative, body) := readSign cs
  let word := body.map Char.toLower
  if word = ['i', 'n', 'f'] || word = ['i', 'n', 'f', 'i', 'n', 'i', 't', 'y'] then
    some (.infinite negative)
  else if word = ['n', 'a', 'n'] then some .nan
  else
    let (digits, places, rest) := readPoint body
    if digits.isEmpty then none
    else
      match readExponent? rest with
      | some e => some (ofDecimal negative (digitsValue digits) (e - places))
      | none => none

def read? (s : String) : Option Double :=
  readChars? s.toList

end Double
end TabularReport
