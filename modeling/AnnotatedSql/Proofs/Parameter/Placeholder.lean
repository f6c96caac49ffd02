import AnnotatedSql.Parameter.Key
import AnnotatedSql.Proofs.Token.Language

/-!
# Placeholders that are written out

A position that fits in 32 bits is read back from the placeholder that displays it.
-/

namespace AnnotatedSql

/-! ## Numerals -/

theorem digitsValue_eq (value : Nat) (digits : List Char) :
    digitsValue value digits = Nat.ofDigitChars 10 digits value := by
  induction digits generalizing value with
  | nil => exact Nat.ofDigitChars_nil.symm
  | cons c digits ih =>
    have step : digitsValue value (c :: digits) =
      digitsValue (value * 10 + (c.toNat - '0'.toNat)) digits := rfl
    rw [step, ih, Nat.ofDigitChars_cons, Nat.mul_comm value 10]

theorem digitsValue_toDigits (number : Nat) : digitsValue 0 (Nat.toDigits 10 number) = number := by
  rw [digitsValue_eq, Nat.ofDigitChars_ten_toDigits]

theorem toList_toString (number : Nat) : (toString number).toList = Nat.toDigits 10 number :=
  Nat.toList_repr

/-- A number below the bound is read back from its numeral. -/
theorem digitsBelow_toDigits {bound number : Nat} (small : number < bound) :
    digitsBelow? bound (Nat.toDigits 10 number) = some number := by
  have digits : (Nat.toDigits 10 number).all Char.isDigit = true := by
    rw [List.all_eq_true]
    exact fun c member => Nat.isDigit_of_mem_toDigits (by omega) (by omega) member
  have nonempty : (Nat.toDigits 10 number).isEmpty = false := by
    rw [List.isEmpty_eq_false_iff]
    exact Nat.toDigits_ne_nil
  unfold digitsBelow?
  simp [digits, nonempty, digitsValue_toDigits, small]

theorem numeral_toString {number : Nat} (small : number < UInt32.size) :
    numeral? (toString number) = some number := by
  have noSign : ∀ rest, Nat.toDigits 10 number ≠ '+' :: rest := by
    intro rest signed
    have digit : '+'.isDigit = true :=
      Nat.isDigit_of_mem_toDigits (by omega) (by omega) (signed ▸ List.mem_cons_self)
    exact absurd digit (by decide)
  unfold numeral? numeralBelow?
  rw [toList_toString]
  split
  next rest signed => exact absurd signed (noSign rest)
  next => exact digitsBelow_toDigits small

/-! ## Positions -/

namespace ParamKey

theorem display_positional (number : Nat) :
    (positional number).display.toList = '$' :: Nat.toDigits 10 number := by
  simp only [display, String.toList_append, toList_toString]
  rfl

/-- A displayed position is a placeholder. -/
theorem matches_display (number : Nat) :
    Pattern.Matches Rule.positional (positional number).display.toList := by
  rw [display_positional]
  refine Rule.matches_positional.mpr ⟨_, rfl, Nat.toDigits_ne_nil, List.all_eq_true.mpr ?_⟩
  exact fun c member => Nat.isDigit_of_mem_toDigits (by omega) (by omega) member

/-- A placeholder that displays a position stands for it. -/
theorem ofLexeme_display {number : Nat} (small : number < UInt32.size) :
    ofLexeme? ⟨.positionalParam, (positional number).display⟩ = some (positional number) := by
  have text : String.ofList ((positional number).display.toList.drop 1) = toString number := by
    rw [display_positional, List.drop_one, List.tail_cons, ← Nat.toList_repr, String.ofList_toList]
    rfl
  unfold ofLexeme?
  dsimp only
  rw [text, numeral_toString small]
  rfl

end ParamKey

end AnnotatedSql
