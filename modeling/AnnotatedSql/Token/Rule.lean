import AnnotatedSql.Token.Kind
import AnnotatedSql.Token.Pattern

/-!
# Token rules

The rules of the token language. Fixed texts stand before patterns, so that a fixed text wins where
both match the same length. The opening tag of a dollar-quoted string is a rule of its own: the
string it opens is no regular set, because it ends at the next occurrence of the same tag.
-/

namespace AnnotatedSql

/-- What a match of a rule means. -/
inductive Reading
  | token (kind : TokenKind)
  /-- The match opens a dollar-quoted string. -/
  | openingTag
  deriving DecidableEq, Repr

/-- A set of texts and what a member of it means. -/
structure Rule where
  reading : Reading
  pattern : Pattern

namespace Rule

open Pattern

/-- What a word begins with. -/
def letter (c : Char) : Bool := c.isAlpha || c == '_'

/-- What a word goes on with. -/
def wordChar (c : Char) : Bool := c.isAlphanum || c == '_'

/-- What operators are written with, apart from those that are tokens of their own. -/
def operatorChar (c : Char) : Bool := "+/%^&|~#@?".toList.contains c

/-- The blanks within a line. -/
def blankChar (c : Char) : Bool := c == ' ' || c == '\t' || c == '\r' || c == '\x0c'

/-- Any character but one. -/
def isNot (excluded : Char) (c : Char) : Bool := c != excluded

/-- A single character. -/
def one (c : Char) : Pattern := char (· == c)

/-- A letter or underscore, then letters, digits and underscores. -/
def word : Pattern := seq (char letter) (star (char wordChar))

/-- Text between two quotes, where a quote inside is written twice. -/
def quoted (quote : Char) : Pattern :=
  seq (one quote)
    (seq (star (alt (char (isNot quote)) (seq (one quote) (one quote)))) (one quote))

/-- From `--` to the end of the line. -/
def lineComment : Pattern := seq (text ['-', '-']) (star (char (isNot '\n')))

/-- Anything up to a star, and all stars there. -/
def throughStars : Pattern := seq (star (char (isNot '*'))) (oneOrMore (one '*'))

/-- A character that does not end a comment, and then through the next stars. -/
def onToStars : Pattern := seq (char fun c => c != '/' && c != '*') throughStars

/-- From `/*` to the first `*/`. -/
def blockComment : Pattern :=
  seq (text ['/', '*']) (seq throughStars (seq (star onToStars) (one '/')))

/-- `$`, an optional word, `$`. -/
def dollarTag : Pattern := seq (one '$') (seq (zeroOrOne word) (one '$'))

/-- A token that is always spelled the same. -/
def fixed (kind : TokenKind) (spelling : String) : Rule :=
  ⟨.token kind, text spelling.toList⟩

/-- All rules, fixed texts first. -/
def all : List Rule := [
  fixed .parenOpen "(",
  fixed .parenClose ")",
  fixed .bracketOpen "[",
  fixed .bracketClose "]",
  fixed .optionalOpen "?\x7b",
  fixed .exactOpen "!\x7b",
  fixed .braceOpen "\x7b",
  fixed .braceClose "\x7d",
  fixed .comma ",",
  fixed .semicolon ";",
  fixed .dot ".",
  fixed .star "*",
  fixed .doubleColon "::",
  fixed .colon ":",
  fixed .eq "=",
  fixed .notEq "<>",
  fixed .notEq "!=",
  fixed .lt "<",
  fixed .ltEq "<=",
  fixed .gt ">",
  fixed .gtEq ">=",
  fixed .minus "-",
  fixed .newline "\n",
  fixed .newline "\r\n",
  ⟨.token .positionalParam, seq (one '$') (oneOrMore (char Char.isDigit))⟩,
  ⟨.token .namedParam, seq (one ':') word⟩,
  ⟨.token .operator, oneOrMore (char operatorChar)⟩,
  ⟨.token .ident, word⟩,
  ⟨.token .quotedIdent, quoted '"'⟩,
  ⟨.token .stringLiteral, quoted '\''⟩,
  ⟨.openingTag, dollarTag⟩,
  ⟨.token .number,
    seq (oneOrMore (char Char.isDigit)) (zeroOrOne (seq (one '.') (star (char Char.isDigit))))⟩,
  ⟨.token .whitespace, oneOrMore (char blankChar)⟩,
  ⟨.token .lineComment, lineComment⟩,
  ⟨.token .blockComment, blockComment⟩]

end Rule

end AnnotatedSql
