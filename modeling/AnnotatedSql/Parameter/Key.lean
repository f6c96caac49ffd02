import AnnotatedSql.Text.Word
import AnnotatedSql.Token.Lexer

/-!
# Parameter keys

A placeholder stands for the parameter with its key: a position, or a name.
-/

namespace AnnotatedSql

/-- The identity of a parameter. -/
inductive ParamKey
  /-- Written `$n`. -/
  | positional (number : Nat)
  /-- Written `:name`. -/
  | named (name : String)
  deriving DecidableEq, Repr

namespace ParamKey

/-- The key as a placeholder. -/
def display : ParamKey → String
  | positional number => "$" ++ toString number
  | named name => ":" ++ name

/-- The position, if the key is one. -/
def position? : ParamKey → Option Nat
  | positional number => some number
  | named _ => none

/-- The name, if the key is one. -/
def name? : ParamKey → Option String
  | positional _ => none
  | named name => some name

/-- The key of a placeholder. A position that does not fit in 32 bits gives none. -/
def ofLexeme? (lexeme : Lexeme) : Option ParamKey :=
  let text := String.ofList (lexeme.text.toList.drop 1)
  match lexeme.kind with
  | .positionalParam => (numeral? text).map positional
  | .namedParam => some (named text)
  | _ => none

end ParamKey

end AnnotatedSql
