import AnnotatedSql.Json.Reader
import AnnotatedSql.Decimal.Shortest

/-!
# Numbers in JSON texts

Whole numbers of at most 64 bits are kept as they are. All others become floating-point numbers:
as many digits as fit 64 bits, scaled by a power of ten.
-/

namespace AnnotatedSql.Json

/-- A number as read. -/
inductive Number
  | natural (value : Nat)
  | negative (magnitude : Nat)
  | floating (value : Float)

namespace Number

/-- The number in messages. -/
def describe : Number → String
  | natural value => "integer `" ++ toString value ++ "`"
  | negative magnitude => "integer `-" ++ toString magnitude ++ "`"
  | floating value => "floating point `" ++ Decimal.shortest value ++ "`"

end Number

/-- The digits of a number as far as they are kept. -/
structure Significand where
  value : Nat
  /-- The digits read but not kept. -/
  dropped : Nat
  /-- The digits kept. -/
  kept : Nat

namespace Significand

/-- The greatest number of 64 bits. -/
def limit : Nat := UInt64.size - 1

/-- Adds digits until one no longer fits. -/
def addDigits (s : Significand) : List Char → Significand
  | [] => s
  | c :: digits =>
    let value := s.value * 10 + (c.toNat - '0'.toNat)
    if s.dropped = 0 ∧ value ≤ limit then
      addDigits { s with value, kept := s.kept + 1 } digits
    else addDigits { s with dropped := s.dropped + 1 } digits

end Significand

namespace Reader

/-- Ten to the power of at most 308. -/
private def powerOfTen (exponent : Nat) : Float := Float.ofScientific 1 false exponent

/-- A significand divided by a power of ten, in steps that a floating-point number can hold. -/
private def scaledDown : Nat → Float → Nat → Float
  | 0, value, exponent => value / powerOfTen (min exponent 308)
  | fuel + 1, value, exponent =>
    if exponent ≤ 308 then value / powerOfTen exponent
    else scaledDown fuel (value / powerOfTen 308) (exponent - 308)

/-- The number with the given sign, digits and decimal exponent. -/
def scaled (positive : Bool) (significand : Nat) (exponent : Int) : Reader Number := do
  let value := (UInt64.ofNat significand).toFloat
  let magnitude ←
    if exponent < 0 then pure (scaledDown 3 value exponent.natAbs)
    else if significand = 0 then pure value
    else if 308 < exponent then failHere .numberOutOfRange
    else
      let product := value * powerOfTen exponent.natAbs
      if product.isInf then failHere .numberOutOfRange else pure product
  return .floating (if positive then magnitude else -magnitude)

/-- The greatest exponent that is told apart from greater ones. -/
private def exponentLimit : Nat := Nat.pow 2 31 - 1

/-- The digits of an exponent. Stops at one that makes the number too great. -/
private def exponentDigits (tooGreat : Bool) : Nat → Nat → Reader (Option Nat)
  | 0, value => return some value
  | fuel + 1, value => do
    match ← peek? with
    | none => return some value
    | some c =>
      if !c.isDigit then return some value
      skip
      let value := value * 10 + (c.toNat - '0'.toNat)
      if value ≤ exponentLimit then exponentDigits tooGreat fuel value
      else if tooGreat then failHere .numberOutOfRange
      else
        let _ ← takeWhile Char.isDigit
        return none

/-- The rest of a number from the letter of its exponent. -/
def exponentPart (positive : Bool) (significand : Nat) (start : Int) : Reader Number := do
  skip
  let up ← match ← peek? with
    | some '+' => skip; pure true
    | some '-' => skip; pure false
    | _ => pure true
  match ← peek? with
  | none => failHere .eofValue
  | some c =>
    if !c.isDigit then failAhead .invalidNumber
    skip
    match ← exponentDigits (up && significand != 0) (← fuel) (c.toNat - '0'.toNat) with
    | none => return .floating (if positive then 0 else -0)
    | some exponent =>
      scaled positive significand (if up then start + exponent else start - exponent)

/-- The rest of a number from its decimal point. -/
def fractionPart (positive : Bool) (whole : Significand) : Reader Number := do
  skip
  let digits ← takeWhile Char.isDigit
  if digits.isEmpty then
    match ← peek? with
    | none => failAhead .eofValue
    | some _ => failAhead .invalidNumber
  let s := ({ whole with dropped := 0, kept := 0 } : Significand).addDigits digits
  let exponent : Int := whole.dropped - s.kept
  match ← peek? with
  | some 'e' | some 'E' => exponentPart positive s.value exponent
  | _ => scaled positive s.value exponent

/-- A number after its sign. -/
def number (positive : Bool) : Reader Number := do
  match ← peek? with
  | none => failHere .eofValue
  | some c =>
    if !c.isDigit then failAhead .invalidNumber
    skip
    let more ← if c == '0' then pure [] else takeWhile Char.isDigit
    if c == '0' && ((← peek?).any Char.isDigit) then failAhead .invalidNumber
    let s := ({ value := 0, dropped := 0, kept := 0 } : Significand).addDigits (c :: more)
    match ← peek? with
    | some '.' => fractionPart positive s
    | some 'e' | some 'E' => exponentPart positive s.value s.dropped
    | _ =>
      if 0 < s.dropped then scaled positive s.value s.dropped
      else if positive then return .natural s.value
      else if s.value = 0 || Nat.pow 2 63 < s.value then
        return .floating (-(UInt64.ofNat s.value).toFloat)
      else return .negative s.value

/-- Takes off a number after its sign without looking at its size. -/
def skipNumber : Reader Unit := do
  match ← peek? with
  | none => failHere .invalidNumber
  | some c =>
    if !c.isDigit then failAhead .invalidNumber
    skip
    if c == '0' then
      if (← peek?).any Char.isDigit then failAhead .invalidNumber
    else
      let _ ← takeWhile Char.isDigit
    if (← peek?) == some '.' then
      skip
      if (← takeWhile Char.isDigit).isEmpty then failAhead .invalidNumber
    if (← peek?) == some 'e' || (← peek?) == some 'E' then
      skip
      if (← peek?) == some '+' || (← peek?) == some '-' then skip
      match ← peek? with
      | none => failHere .invalidNumber
      | some d => if !d.isDigit then failAhead .invalidNumber
      let _ ← takeWhile Char.isDigit

end Reader

end AnnotatedSql.Json
