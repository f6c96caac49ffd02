/-!
# Shortest decimals

The decimal text of a floating-point number has the fewest digits that read back as the number, and
among those the ones nearest to it. The search is exact: it tests the two neighbours of the number
on the decimal grids of one digit, two digits and so on against the interval of reals that round to
the number.
-/

namespace AnnotatedSql

/-- A decimal `digits * 10 ^ exponent`. -/
structure Decimal where
  digits : Nat
  exponent : Int
  deriving DecidableEq, Repr

namespace Decimal

/-- A real interval `lower/unit` to `upper/unit` around `value/unit`. -/
structure Interval where
  lower : Nat
  value : Nat
  upper : Nat
  unit : Nat
  /-- Whether the ends belong to the interval. -/
  closed : Bool

/-- The reals that round to `mantissa * 2 ^ exponent`. `narrow` says that the next smaller number
is only half as far away as the next greater one. -/
def roundingInterval (mantissa : Nat) (exponent : Int) (narrow : Bool) : Interval :=
  let scale := Nat.pow 2 (exponent - 2).toNat
  { lower := (4 * mantissa - if narrow then 1 else 2) * scale
    value := 4 * mantissa * scale
    upper := (4 * mantissa + 2) * scale
    unit := Nat.pow 2 (2 - exponent).toNat
    closed := mantissa % 2 == 0 }

namespace Interval

/-- The decimal as a multiple of the unit, and the interval, both scaled to whole numbers. -/
private def scaledBy (i : Interval) (exponent : Int) : Nat × Nat :=
  (i.unit * Nat.pow 10 exponent.toNat, Nat.pow 10 (-exponent).toNat)

/-- Whether the interval contains the decimal. -/
def contains (i : Interval) (d : Decimal) : Bool :=
  let (step, factor) := i.scaledBy d.exponent
  let point := d.digits * step
  if i.closed then i.lower * factor ≤ point && point ≤ i.upper * factor
  else i.lower * factor < point && point < i.upper * factor

/-- The greatest decimal with the exponent that is not above the value. -/
def below (i : Interval) (exponent : Int) : Decimal :=
  let (step, factor) := i.scaledBy exponent
  ⟨i.value * factor / step, exponent⟩

/-- Whether the first of two neighbouring decimals is at least as near to the value. -/
def nearerBelow (i : Interval) (d : Decimal) : Bool :=
  let (step, factor) := i.scaledBy d.exponent
  2 * i.value * factor ≤ (2 * d.digits + 1) * step

/-- The decimal of the grid that lies in the interval, the nearer one if two do. -/
def onGrid? (i : Interval) (exponent : Int) : Option Decimal :=
  let low := i.below exponent
  let high : Decimal := ⟨low.digits + 1, exponent⟩
  match i.contains low, i.contains high with
  | true, true => some (if i.nearerBelow low then low else high)
  | true, false => some low
  | false, true => some high
  | false, false => none

/-- The first hit on grids ever finer. -/
def search (i : Interval) : Nat → Int → Option Decimal
  | 0, _ => none
  | fuel + 1, exponent => i.onGrid? exponent <|> i.search fuel (exponent - 1)

/-- The number of digits before the point of a number not below one; for a smaller one, minus the
number of zeros after the point. -/
def magnitude (i : Interval) : Nat → Int → Int
  | 0, exponent => exponent
  | fuel + 1, exponent =>
    if (i.below exponent).digits = 0 then i.magnitude fuel (exponent - 1) else exponent + 1

end Interval

/-- The decimal without zeros at the end of its digits. -/
def normalized (d : Decimal) : Nat → Decimal
  | 0 => d
  | fuel + 1 =>
    if d.digits % 10 = 0 ∧ d.digits ≠ 0 then
      normalized ⟨d.digits / 10, d.exponent + 1⟩ fuel
    else d

private def zeros (count : Nat) : String := String.ofList (List.replicate count '0')

/-- The text of a decimal: with a point where at most sixteen digits stand before it and at most
four zeros follow it, else with an exponent and its sign. -/
def text (d : Decimal) : String :=
  let digits := toString d.digits
  let length := digits.length
  let point : Int := length + d.exponent
  if 0 ≤ d.exponent && point ≤ 16 then digits ++ zeros d.exponent.toNat ++ ".0"
  else if 0 < point && point ≤ 16 then
    String.ofList (digits.toList.take point.toNat) ++ "." ++
      String.ofList (digits.toList.drop point.toNat)
  else if -5 < point && point ≤ 0 then "0." ++ zeros (-point).toNat ++ digits
  else
    let fraction := digits.toList.drop 1
    String.ofList (digits.toList.take 1) ++
      (if fraction.isEmpty then "" else "." ++ String.ofList fraction) ++
      "e" ++ (if 0 < point then "+" else "") ++ toString (point - 1)

/-- The shortest text of a finite number. -/
def shortest (number : Float) : String :=
  let bits := number.toBits.toNat
  let sign := if bits / Nat.pow 2 63 = 1 then "-" else ""
  let power : Nat := bits / Nat.pow 2 52 % Nat.pow 2 11
  let fraction := bits % Nat.pow 2 52
  if power = 0 ∧ fraction = 0 then sign ++ "0.0"
  else
    let i :=
      if power = 0 then roundingInterval fraction (-1074) false
      else roundingInterval (Nat.pow 2 52 + fraction) ((power : Int) - 1075)
        (fraction == 0 && decide (1 < power))
    let top := i.magnitude 640 309
    match i.search 18 (top - 1) with
    | some d => sign ++ (d.normalized 20).text
    | none => sign ++ "0.0"

end Decimal

end AnnotatedSql
