/-!
# Patterns

A pattern denotes a set of texts. `derive` takes one character off: a text starting with `c`
belongs to a pattern exactly when the rest of it belongs to the derivative by `c`. The derivative
of a pattern that no text starting with `c` belongs to is `never` itself, because the combining
functions pass `never` upwards; a scanner may therefore stop at `never`.
-/

namespace AnnotatedSql

/-- A regular set of texts. -/
inductive Pattern
  | never
  | empty
  | char (accepts : Char → Bool)
  | seq (first second : Pattern)
  | alt (left right : Pattern)
  | star (item : Pattern)

namespace Pattern

/-- Membership of a text in the set a pattern denotes. -/
inductive Matches : Pattern → List Char → Prop
  | empty : Matches .empty []
  | char {accepts : Char → Bool} {c : Char} (h : accepts c = true) : Matches (.char accepts) [c]
  | seq {p q : Pattern} {a b : List Char} :
      Matches p a → Matches q b → Matches (.seq p q) (a ++ b)
  | altLeft {p q : Pattern} {a : List Char} : Matches p a → Matches (.alt p q) a
  | altRight {p q : Pattern} {a : List Char} : Matches q a → Matches (.alt p q) a
  | starNil {p : Pattern} : Matches (.star p) []
  | starCons {p : Pattern} {a b : List Char} :
      Matches p a → Matches (.star p) b → Matches (.star p) (a ++ b)

/-- Whether the empty text belongs to the pattern. -/
def nullable : Pattern → Bool
  | never => false
  | empty => true
  | char _ => false
  | seq p q => p.nullable && q.nullable
  | alt p q => p.nullable || q.nullable
  | star _ => true

/-- One pattern after another, never if either is. -/
def sequence : Pattern → Pattern → Pattern
  | never, _ => never
  | _, never => never
  | empty, q => q
  | p, q => seq p q

/-- Either pattern, without an alternative that is never met. -/
def either : Pattern → Pattern → Pattern
  | never, q => q
  | p, never => p
  | p, q => alt p q

/-- What remains of the pattern after the character `c`. -/
def derive (c : Char) : Pattern → Pattern
  | never => never
  | empty => never
  | char accepts => if accepts c then empty else never
  | seq p q =>
    if p.nullable then either (sequence (p.derive c) q) (q.derive c)
    else sequence (p.derive c) q
  | alt p q => either (p.derive c) (q.derive c)
  | star p => sequence (p.derive c) (star p)

/-- Whether the pattern is `never`. -/
def isNever : Pattern → Bool
  | never => true
  | _ => false

/-- Exactly the given text. -/
def text : List Char → Pattern
  | [] => empty
  | [c] => char (· == c)
  | c :: cs => seq (char (· == c)) (text cs)

/-- The item once or more. -/
def oneOrMore (p : Pattern) : Pattern := seq p (star p)

/-- The item once or not at all. -/
def zeroOrOne (p : Pattern) : Pattern := alt p empty

end Pattern

end AnnotatedSql
