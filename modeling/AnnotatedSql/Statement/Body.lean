import AnnotatedSql.Statement.Basic

/-!
# Bodies

A body is the text of a query with its significant tokens. It turns ranges of tokens into spans of
the module and into the text under them.
-/

namespace AnnotatedSql

/-- The text of a query after its header line. -/
structure Body where
  /-- Where the text starts in its module. -/
  base : Nat
  text : List Char
  /-- The tokens that carry meaning. -/
  tokens : Array Token

namespace Body

/-- Reads the text that starts at `base`. -/
def read (base : Nat) (text : List Char) : Body := ⟨base, text, (significantAt base text).toArray⟩

/-- The statement in the body. -/
def statement (body : Body) : Statement := .ofLexemes (body.tokens.toList.map (·.toLexeme))

/-- The span of token `i`. -/
def spanAt (body : Body) (i : Nat) : Span := (body.tokens[i]?.map (·.span)).getD default

/-- The span of the tokens from `lo` to before `hi`, and of the first one at least. -/
def spanOf (body : Body) (lo hi : Nat) : Span :=
  (body.spanAt lo).cover (body.spanAt (max hi (lo + 1) - 1))

/-- The text under a span of the module. -/
def slice (body : Body) (span : Span) : List Char := span.slice body.base body.text

end Body

end AnnotatedSql
