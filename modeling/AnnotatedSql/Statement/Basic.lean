import AnnotatedSql.Text.Word
import AnnotatedSql.Token.Lexer

/-!
# Statements

A statement is the run of significant lexemes of a query's body together with the nesting of its
parentheses. Tokens are referred to by index. A statement knows nothing of positions, blanks and
comments, so whatever is computed from it cannot depend on them.
-/

namespace AnnotatedSql

/-! ## Nesting of parentheses

An opening parenthesis is paired with the closing one that ends it; a parenthesis that nothing
answers stays unpaired. Every token has an innermost opening parenthesis around it, unless it
stands outside all of them. -/

namespace Nesting

/-- The pairs of a run of tokens whose first has the given index, in closing order. `opened` are
the parentheses open before it, innermost first. -/
def pairs (index : Nat) (opened : List Nat) : List TokenKind → List (Nat × Nat)
  | [] => []
  | kind :: kinds =>
    match kind, opened with
    | .parenOpen, _ => pairs (index + 1) (index :: opened) kinds
    | .parenClose, opening :: outer => (opening, index) :: pairs (index + 1) outer kinds
    | _, _ => pairs (index + 1) opened kinds

/-- The innermost parenthesis around each token of such a run. A closing parenthesis lies outside
the pair it ends. -/
def around (index : Nat) (opened : List Nat) : List TokenKind → List (Option Nat)
  | [] => []
  | kind :: kinds =>
    match kind, opened with
    | .parenOpen, _ => opened.head? :: around (index + 1) (index :: opened) kinds
    | .parenClose, _ :: outer => outer.head? :: around (index + 1) outer kinds
    | _, _ => opened.head? :: around (index + 1) opened kinds

end Nesting

/-! ## Tokens, parentheses and items -/

/-- The significant lexemes of a body and how its parentheses nest. -/
structure Statement where
  lexemes : Array Lexeme
  pairs : List (Nat × Nat)
  around : Array (Option Nat)

namespace Statement

/-- The statement that some significant lexemes make up. -/
def ofLexemes (lexemes : List Lexeme) : Statement :=
  let kinds := lexemes.map (·.kind)
  { lexemes := lexemes.toArray
    pairs := Nesting.pairs 0 [] kinds
    around := (Nesting.around 0 [] kinds).toArray }

/-- The number of tokens. -/
def size (s : Statement) : Nat := s.lexemes.size

/-- The kind of token `i`. -/
def kind? (s : Statement) (i : Nat) : Option TokenKind := s.lexemes[i]?.map (·.kind)

/-- Whether token `i` exists and has the kind. -/
def is (s : Statement) (i : Nat) (kind : TokenKind) : Bool := s.kind? i == some kind

/-- The spelling of token `i`, empty past the end. -/
def text (s : Statement) (i : Nat) : String := (s.lexemes[i]?.map (·.text)).getD ""

/-- Whether token `i` is the keyword, in any case of letters. -/
def isKeyword (s : Statement) (i : Nat) (keyword : String) : Bool :=
  s.is i .ident && equalFold (s.text i) keyword

/-- Whether token `i` is one of the keywords. -/
def isOneOf (s : Statement) (i : Nat) (keywords : List String) : Bool :=
  keywords.any (s.isKeyword i)

/-- Words that start or continue a clause and are never names. -/
def clauseKeywords : List String := [
  "select", "from", "where", "join", "left", "right", "full", "inner", "cross", "natural",
  "outer", "on", "using", "group", "by", "order", "having", "limit", "offset", "union",
  "except", "intersect", "window", "for", "fetch", "returning", "set", "values", "into",
  "lateral", "default", "as", "and", "or", "not", "is", "in", "like", "ilike", "between",
  "exists", "distinct", "all", "any", "some", "case", "when", "then", "else", "end", "asc",
  "desc", "nulls", "null", "true", "false", "with", "insert", "update", "delete"]

/-- Whether token `i` is such a word. Quoted words never are. -/
def isClauseKeyword (s : Statement) (i : Nat) : Bool := s.isOneOf i clauseKeywords

/-- Whether token `i` is an identifier, quoted or not. -/
def isWord (s : Statement) (i : Nat) : Bool := (s.kind? i).any TokenKind.isWord

/-- Whether token `i` is a placeholder. -/
def isParam (s : Statement) (i : Nat) : Bool := (s.kind? i).any TokenKind.isParam

/-- The parenthesis paired with the one at `i`. -/
def partner (s : Statement) (i : Nat) : Option Nat :=
  match s.pairs.find? (·.1 == i) with
  | some (_, closing) => some closing
  | none => (s.pairs.find? (·.2 == i)).map Prod.fst

/-- The innermost opening parenthesis around token `i`. -/
def enclosing (s : Statement) (i : Nat) : Option Nat := s.around[i]?.join

/-- The opening parentheses from `first` outwards, at most `fuel` of them. -/
def outwards (s : Statement) : Nat → Option Nat → List Nat
  | 0, _ => []
  | _, none => []
  | fuel + 1, some opening => opening :: s.outwards fuel (s.enclosing opening)

/-- The opening parentheses around token `i`, innermost first. Each stands before the token it
encloses, so there are no more than `i`. -/
def enclosers (s : Statement) (i : Nat) : List Nat := s.outwards i (s.enclosing i)

/-- A parenthesis opens a subquery if the next word is `SELECT` or `WITH`. -/
def opensSubquery (s : Statement) (i : Nat) : Bool :=
  s.is i .parenOpen && (s.isKeyword (i + 1) "select" || s.isKeyword (i + 1) "with")

/-- The subqueries around token `i`, innermost first, each by its opening parenthesis. -/
def subqueries (s : Statement) (i : Nat) : List Nat := (s.enclosers i).filter s.opensSubquery

/-- The innermost subquery around token `i`; none at statement level. -/
def queryContext (s : Statement) (i : Nat) : Option Nat := (s.enclosers i).find? s.opensSubquery

/-- Whether the parenthesis at `i` follows a function name. -/
def isCall (s : Statement) (i : Nat) : Bool :=
  0 < i && s.is (i - 1) .ident && !s.isClauseKeyword (i - 1)

/-- Widens `lo` to `hi` by at most `fuel` pairs of parentheses. -/
def widen (s : Statement) : Nat → Nat → Nat → Nat × Nat
  | 0, lo, hi => (lo, hi)
  | fuel + 1, lo, hi =>
    if 0 < lo && s.is (lo - 1) .parenOpen && s.partner (lo - 1) == some (hi + 1) &&
        !s.isCall (lo - 1) then
      s.widen fuel (lo - 1) (hi + 1)
    else (lo, hi)

/-- The tokens `lo` to `hi` with all the parentheses that do nothing but wrap them. -/
def unwrapParens (s : Statement) (lo hi : Nat) : Nat × Nat := s.widen lo lo hi

/-- Splits the rest of a range in at most `fuel` steps. The current item begins at `start`, and `i`
is the next token to look at. -/
def itemsFrom (s : Statement) (hi : Nat) : Nat → Nat → Nat → List (Nat × Nat)
  | 0, start, _ => if start < hi then [(start, hi)] else []
  | fuel + 1, start, i =>
    if i < hi then
      match s.kind? i with
      | some .parenOpen =>
        s.itemsFrom hi fuel start (match s.partner i with
          | some closing => closing + 1
          | none => hi)
      | some .comma => (start, i) :: s.itemsFrom hi fuel (i + 1) (i + 1)
      | _ => s.itemsFrom hi fuel start (i + 1)
    else if start < hi then [(start, hi)] else []

/-- Splits the range from `lo` to before `hi` at the commas outside parentheses. -/
def splitCommas (s : Statement) (lo hi : Nat) : List (Nat × Nat) := s.itemsFrom hi (hi - lo) lo lo

end Statement

end AnnotatedSql
