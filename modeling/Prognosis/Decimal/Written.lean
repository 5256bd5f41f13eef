/-! Numbers of a floating-point format taken apart, so that what is written and rounded is decided
on whole numbers, and their decimal digits: a given count of significant digits, a given count of
places, or the fewest that read back. As text, significant digits are laid out by size.
-/

namespace Prognosis.Decimal

/-- A floating-point number taken apart: a finite one is `± mantissa * 2 ^ exponent`. -/
inductive Parts where
  | nan
  | infinite (negative : Bool)
  | finite (negative : Bool) (mantissa : Nat) (exponent : Int)
  deriving DecidableEq, Repr

/-- A positive quotient of whole numbers. -/
structure Ratio where
  numerator : Nat
  denominator : Nat
  deriving DecidableEq, Repr

/-- `mantissa * 2 ^ exponent` as a quotient. -/
def Ratio.ofBinary (mantissa : Nat) (exponent : Int) : Ratio :=
  if 0 ≤ exponent then ⟨mantissa <<< exponent.toNat, 1⟩
  else ⟨mantissa, 1 <<< (-exponent).toNat⟩

/-- The quotient times a power of ten. -/
def Ratio.shift (r : Ratio) (places : Int) : Ratio :=
  if 0 ≤ places then ⟨r.numerator * Nat.pow 10 places.toNat, r.denominator⟩
  else ⟨r.numerator, r.denominator * Nat.pow 10 (-places).toNat⟩

/-- The quotient rounded to the nearest whole number, a half to the even neighbour. -/
def Ratio.round (r : Ratio) : Nat :=
  let whole := r.numerator / r.denominator
  let rest := r.numerator % r.denominator
  if 2 * rest < r.denominator then whole
  else if r.denominator < 2 * rest then whole + 1
  else whole + whole % 2

/-- The quotient without its fraction. -/
def Ratio.floor (r : Ratio) : Nat :=
  r.numerator / r.denominator

/-- The power of ten is at most the quotient. -/
def Ratio.reaches (r : Ratio) (power : Int) : Bool :=
  let shifted := r.shift (-power)
  shifted.denominator ≤ shifted.numerator

/-- Largest power of ten that a positive quotient reaches. The lengths in bits give it up to
one step, so three powers are tried from above.
-/
def Ratio.magnitude (r : Ratio) : Int :=
  let bits : Int := (r.numerator.log2 : Int) - r.denominator.log2
  let estimate := bits * 30103 / 100000
  if r.reaches (estimate + 1) then estimate + 1
  else if r.reaches estimate then estimate
  else estimate - 1

/-- The whole number nearest to zero on the way to the value; infinities and undefined values
have none.
-/
def Parts.truncate? : Parts → Option Int
  | .finite negative mantissa exponent =>
      let whole := (Ratio.ofBinary mantissa exponent).floor
      some (if negative then -(whole : Int) else whole)
  | _ => none

-----------------------------------------------------------------------------------------
-- Digits
-----------------------------------------------------------------------------------------

/-- The number `coefficient * 10 ^ exponent`. -/
structure Digits where
  coefficient : Nat
  exponent : Int
  deriving DecidableEq, Repr

/-- The quotient rounded to a count of significant digits, a half to the even neighbour. -/
def Ratio.significant (r : Ratio) (count : Nat) : Digits :=
  if r.numerator == 0 then ⟨0, 0⟩
  else
    let exponent := r.magnitude - count + 1
    let coefficient := (r.shift (-exponent)).round
    ⟨coefficient, exponent⟩

/-- The quotient rounded to a count of places after the point, or before it when the count is
negative; a half goes to the even neighbour.
-/
def Ratio.toPlaces (r : Ratio) (places : Int) : Digits :=
  ⟨(r.shift places).round, -places⟩

/-- The digits without zeros at their end; zero keeps one digit. The fuel is the size of the
coefficient.
-/
def Digits.strip (d : Digits) : Digits :=
  go (d.coefficient.log2 + 1) d
where
  /-- Drops one zero at a time. -/
  go : Nat → Digits → Digits
    | 0, d => d
    | fuel + 1, d =>
        if d.coefficient != 0 && d.coefficient % 10 == 0 then
          go fuel ⟨d.coefficient / 10, d.exponent + 1⟩
        else d

/-- Numerators of the ends of the interval of numbers that round to
`mantissa * 2 ^ exponent` in a format of `precision` bits whose smallest exponent is `least`,
over a common denominator: below a power of two the format is twice as fine.
-/
def roundingInterval (precision : Nat) (least : Int) (mantissa : Nat) (exponent : Int)
    : Ratio × Ratio :=
  let finer := mantissa == 1 <<< (precision - 1) && least < exponent
  let below := if finer then 4 * mantissa - 1 else 4 * mantissa - 2
  (Ratio.ofBinary below (exponent - 2), Ratio.ofBinary (4 * mantissa + 2) (exponent - 2))

/-- Order of quotients. -/
def Ratio.lessThan (r s : Ratio) : Bool :=
  r.numerator * s.denominator < s.numerator * r.denominator

/-- The fewest digits that read back as `mantissa * 2 ^ exponent` in the format, and of those
the nearest. The neighbours of the number on each decimal grid are tried from one digit up.
-/
def shortest (precision : Nat) (least : Int) (mantissa : Nat) (exponent : Int) : Digits :=
  if mantissa == 0 then ⟨0, 0⟩
  else
    let value := Ratio.ofBinary mantissa exponent
    let (low, high) := roundingInterval precision least mantissa exponent
    let closed := mantissa % 2 == 0
    let inside (d : Digits) : Bool :=
      let r := Ratio.shift ⟨d.coefficient, 1⟩ d.exponent
      (low.lessThan r || closed && !r.lessThan low)
        && (r.lessThan high || closed && !high.lessThan r)
    let magnitude := value.magnitude
    let found := (List.range 17).findSome? fun (n : Nat) =>
      let grid : Int := magnitude - n
      let scaled := value.shift (-grid)
      let floor := scaled.floor
      let nearest : Digits := ⟨scaled.round, grid⟩
      let other : Digits :=
        if scaled.round == floor then ⟨floor + 1, grid⟩ else ⟨floor, grid⟩
      if inside nearest then some nearest
      else if inside other then some other
      else none
    (found.getD ⟨(value.shift (16 - magnitude)).round, magnitude - 16⟩).strip

/-- How digits become text: numbers from `10 ^ -4` up to `10 ^ below` are written positionally
and all others with an exponent; `pointed` whole numbers end in ".0".
-/
structure Layout where
  below : Int
  pointed : Bool

/-- Decimal digits of a whole number. -/
def wholeText (n : Nat) : String :=
  String.ofList (Nat.toDigits 10 n)

/-- A whole number padded with zeros on the left. -/
def paddedText (width n : Nat) : String :=
  let text := wholeText n
  String.ofList (List.replicate (width - text.length) '0') ++ text

/-- Text of a whole number with its sign. -/
def signedText (n : Int) : String :=
  if n < 0 then "-" ++ wholeText n.natAbs else wholeText n.natAbs

/-- The exponent with its sign and at least two digits. -/
def exponentText (exponent : Int) : String :=
  (if exponent < 0 then "e-" else "e+") ++ paddedText 2 exponent.natAbs

/-- Text of digits that end in no zero. -/
def Layout.digitsText (layout : Layout) (d : Digits) : String :=
  let digits := Nat.toDigits 10 d.coefficient
  let count := digits.length
  let top : Int := if d.coefficient == 0 then 0 else d.exponent + count - 1
  if top < -4 || layout.below ≤ top then
    match digits with
    | [] => ""
    | first :: rest =>
        let fraction := if rest.isEmpty then "" else "." ++ String.ofList rest
        String.ofList [first] ++ fraction ++ exponentText top
  else if 0 ≤ d.exponent then
    String.ofList (digits ++ List.replicate d.exponent.toNat '0')
      ++ (if layout.pointed then ".0" else "")
  else
    let places := (-d.exponent).toNat
    let padded := List.replicate (places + 1 - count) '0' ++ digits
    let whole := padded.length - places
    String.ofList (padded.take whole) ++ "." ++ String.ofList (padded.drop whole)

/-- Text of undefined and infinite values, and of finite ones by their digits. -/
def Parts.text (digitsText : Nat → Int → String) : Parts → String
  | .nan => "nan"
  | .infinite negative => if negative then "-inf" else "inf"
  | .finite negative mantissa exponent =>
      (if negative then "-" else "") ++ digitsText mantissa exponent

/-- Text with a count of significant digits, without zeros at the end, and with an exponent
from that many digits on.
-/
def Parts.general (count : Nat) (p : Parts) : String :=
  p.text fun mantissa exponent =>
    let digits := ((Ratio.ofBinary mantissa exponent).significant count).strip
    Layout.digitsText ⟨count, false⟩ digits

/-- Text with a count of places after the point. -/
def Parts.fixed (places : Nat) (p : Parts) : String :=
  p.text fun mantissa exponent =>
    let coefficient := ((Ratio.ofBinary mantissa exponent).toPlaces places).coefficient
    let digits := (paddedText (places + 1) coefficient).toList
    let whole := digits.length - places
    if places == 0 then String.ofList digits
    else String.ofList (digits.take whole) ++ "." ++ String.ofList (digits.drop whole)

/-- Text with the fewest digits that read back as the same double; whole numbers end in ".0"
and an exponent is used from `10 ^ 16` on.
-/
def Parts.exact (p : Parts) : String :=
  p.text fun mantissa exponent =>
    Layout.digitsText ⟨16, true⟩ (shortest 53 (-1074) mantissa exponent)

end Prognosis.Decimal
