/-!
# Words and numerals

Unquoted SQL names and keywords compare without regard to the case of ASCII letters; other letters
keep their case. Names of generated types are SQL names in Pascal case. Positions and counts are
decimal numerals.
-/

namespace AnnotatedSql

/-! ## ASCII case -/

/-- The text with every ASCII capital made small. -/
def foldCase (text : String) : String := text.map Char.toLower

/-- Folding goes letter by letter. -/
theorem foldCase_eq_ofList (text : String) :
    foldCase text = String.ofList (text.toList.map Char.toLower) := by
  simp [foldCase, ← String.toList_inj]

/-- Whether two texts agree up to the case of ASCII letters. -/
def equalFold (a b : String) : Bool := foldCase a == foldCase b

/-- Texts agree up to case exactly when they fold to the same text. -/
theorem equalFold_iff {a b : String} : equalFold a b = true ↔ foldCase a = foldCase b := by
  simp [equalFold]

@[simp] theorem equalFold_refl (a : String) : equalFold a a = true := by simp [equalFold]

/-- The order of the texts does not matter. -/
theorem equalFold_comm (a b : String) : equalFold a b = equalFold b a :=
  BEq.comm

/-! ## Pascal case

Words begin with a capital and follow one another without a separator. A word that mixes capitals and
small letters keeps its inner case; any other word is small after its first letter. Case is that of
ASCII letters. -/

/-- The characters between words. -/
def isWordBreak (c : Char) : Bool := c == '_' || c == '-' || c == '.' || c == ' '

/-- The runs of characters between word breaks. Neighbouring breaks have empty words between. -/
def words : List Char → List (List Char)
  | [] => [[]]
  | c :: text =>
    if isWordBreak c then [] :: words text
    else match words text with
      | [] => [[c]]
      | word :: rest => (c :: word) :: rest

/-- A word with a capital first letter. -/
def capitalized : List Char → List Char
  | [] => []
  | c :: rest =>
    let mixed := (c :: rest).any Char.isUpper && (c :: rest).any Char.isLower
    c.toUpper :: if mixed then rest else rest.map Char.toLower

/-- A name in Pascal case. -/
def pascalCase (name : String) : String :=
  String.ofList ((words name.toList).flatMap capitalized)

/-! ## Numerals

They are below a bound: that of 32 bits for what a query writes, that of a machine word for
options. -/

/-- The value of a run of decimal digits, read from the left onto `value`. -/
def digitsValue (value : Nat) : List Char → Nat
  | [] => value
  | c :: digits => digitsValue (value * 10 + (c.toNat - '0'.toNat)) digits

/-- The number that a non-empty run of digits stands for, if it is below the bound. -/
def digitsBelow? (bound : Nat) (digits : List Char) : Option Nat :=
  if digits.isEmpty || !digits.all Char.isDigit then none
  else
    let value := digitsValue 0 digits
    if value < bound then some value else none

/-- The number below the bound that a numeral stands for. One plus sign may stand before the
digits. -/
def numeralBelow? (bound : Nat) (text : String) : Option Nat :=
  match text.toList with
  | '+' :: digits => digitsBelow? bound digits
  | digits => digitsBelow? bound digits

/-- The number of at most 32 bits that a numeral stands for. -/
def numeral? (text : String) : Option Nat := numeralBelow? UInt32.size text

end AnnotatedSql
