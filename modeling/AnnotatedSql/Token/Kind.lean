/-!
# Kinds of tokens

Headers need punctuation and identifiers. Bodies need placeholders, comparison operators and enough
structure to find clauses; every other operator is one kind.
-/

namespace AnnotatedSql

/-- What a token is. -/
inductive TokenKind
  | parenOpen | parenClose | bracketOpen | bracketClose
  | optionalOpen | exactOpen | braceOpen | braceClose
  | comma | semicolon | dot | star | doubleColon | colon
  | positionalParam | namedParam
  | eq | notEq | lt | ltEq | gt | gtEq
  | minus | operator
  | ident | quotedIdent | stringLiteral | number
  | whitespace | newline | lineComment | blockComment
  | garbage
  deriving DecidableEq, Repr, Inhabited

namespace TokenKind

/-- The name of the kind in listings. -/
def name : TokenKind → String
  | parenOpen => "ParenOpen"
  | parenClose => "ParenClose"
  | bracketOpen => "BracketOpen"
  | bracketClose => "BracketClose"
  | optionalOpen => "OptionalOpen"
  | exactOpen => "ExactOpen"
  | braceOpen => "BraceOpen"
  | braceClose => "BraceClose"
  | comma => "Comma"
  | semicolon => "Semicolon"
  | dot => "Dot"
  | star => "Star"
  | doubleColon => "DoubleColon"
  | colon => "Colon"
  | positionalParam => "PositionalParam"
  | namedParam => "NamedParam"
  | eq => "Eq"
  | notEq => "NotEq"
  | lt => "Lt"
  | ltEq => "LtEq"
  | gt => "Gt"
  | gtEq => "GtEq"
  | minus => "Minus"
  | operator => "Operator"
  | ident => "Ident"
  | quotedIdent => "QuotedIdent"
  | stringLiteral => "StringLiteral"
  | number => "Number"
  | whitespace => "Whitespace"
  | newline => "Newline"
  | lineComment => "LineComment"
  | blockComment => "BlockComment"
  | garbage => "Garbage"

/-- Blank space and comments carry no meaning. -/
def isTrivia : TokenKind → Bool
  | whitespace | newline | lineComment | blockComment => true
  | _ => false

/-- `$1` and `:name` stand for parameters. -/
def isParam : TokenKind → Bool
  | positionalParam | namedParam => true
  | _ => false

/-- The operators that compare two operands of one type. -/
def isComparison : TokenKind → Bool
  | eq | notEq | lt | ltEq | gt | gtEq => true
  | _ => false

/-- Words are identifiers, quoted or not. -/
def isWord : TokenKind → Bool
  | ident | quotedIdent => true
  | _ => false

end TokenKind

end AnnotatedSql
