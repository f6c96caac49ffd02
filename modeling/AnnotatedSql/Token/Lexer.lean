import AnnotatedSql.Text.Span
import AnnotatedSql.Token.Rule

/-!
# Lexing

All rules run side by side over the text; the longest match wins, and of equal ones the first rule.
Where no rule matches, everything that some rule could still have begun is one fault; neighbouring
faults make one `garbage` token. No character is lost: the texts of the tokens, one after another,
are the text that was read.
-/

namespace AnnotatedSql

/-- A token without its place: what it is and how it is spelled. -/
structure Lexeme where
  kind : TokenKind
  text : String
  deriving DecidableEq, Repr, Inhabited

/-- A lexeme at its place in a module. -/
structure Token extends Lexeme where
  span : Span
  deriving DecidableEq, Repr, Inhabited

namespace Lexer

/-- The rules that the character leaves alive, each with what remains of its pattern. -/
def advance (c : Char) : List Rule → List Rule
  | [] => []
  | rule :: rules =>
    let rest := rule.pattern.derive c
    if rest.isNever then advance c rules else ⟨rule.reading, rest⟩ :: advance c rules

/-- The reading of the first rule that accepts what has been read. -/
def accepted (rules : List Rule) : Option Reading :=
  (rules.find? (·.pattern.nullable)).map Rule.reading

/-- The outcome of running the rules over the start of a text. -/
structure Scan where
  /-- The longest match and its length. -/
  best : Option (Reading × Nat)
  /-- The length up to which some rule was alive. -/
  reach : Nat

/-- Runs the living rules on, `count` characters having been read. -/
def scanFrom : List Rule → Nat → Option (Reading × Nat) → List Char → Scan
  | _, count, best, [] => ⟨best, count⟩
  | rules, count, best, c :: text =>
    match advance c rules with
    | [] => ⟨best, count⟩
    | living@(_ :: _) =>
      let best := match accepted living with
        | some reading => some (reading, count + 1)
        | none => best
      scanFrom living (count + 1) best text

/-- The number of characters before the next occurrence of `tag`. -/
def distanceTo (tag : List Char) : List Char → Option Nat
  | [] => if tag.isEmpty then some 0 else none
  | c :: text =>
    if tag.isPrefixOf (c :: text) then some 0 else (distanceTo tag text).map (· + 1)

/-- The kind and length of the piece a text begins with; no kind for a fault. -/
def step (text : List Char) : Option TokenKind × Nat :=
  let scan := scanFrom Rule.all 0 none text
  match scan.best with
  | some (.token kind, length) => (some kind, length)
  | some (.openingTag, length) =>
    match distanceTo (text.take length) (text.drop length) with
    | some distance => (some .stringLiteral, length + distance + length)
    | none => (none, length)
  | none => (none, max 1 scan.reach)

/-- A stretch of text that is a token, or a fault if it has no kind. -/
structure Piece where
  kind : Option TokenKind
  text : List Char
  deriving DecidableEq, Repr

/-- Cuts a text into at most `fuel` pieces. -/
def cut : Nat → List Char → List Piece
  | 0, _ => []
  | _ + 1, [] => []
  | fuel + 1, c :: text =>
    let (kind, length) := step (c :: text)
    ⟨kind, (c :: text).take length⟩ :: cut fuel ((c :: text).drop length)

/-- The pending fault as a token, if there is one. -/
def flush (fault : List Char) : List Lexeme :=
  if fault.isEmpty then [] else [⟨.garbage, String.ofList fault⟩]

/-- Joins neighbouring faults; `fault` is the one being gathered. -/
def join (fault : List Char) : List Piece → List Lexeme
  | [] => flush fault
  | ⟨none, text⟩ :: pieces => join (fault ++ text) pieces
  | ⟨some kind, text⟩ :: pieces =>
    flush fault ++ ⟨kind, String.ofList text⟩ :: join [] pieces

end Lexer

/-- The lexemes of a text. A piece has at least one character, so the length of the text is fuel
enough. -/
def lexemes (text : List Char) : List Lexeme := Lexer.join [] (Lexer.cut text.length text)

/-- Puts lexemes at their places, the first at `offset`. -/
def place (offset : Nat) : List Lexeme → List Token
  | [] => []
  | lexeme :: rest =>
    let stop := offset + byteLength lexeme.text.toList
    ⟨lexeme, ⟨offset, stop⟩⟩ :: place stop rest

/-- The tokens of a text that starts at `offset` in its module. -/
def lexAt (offset : Nat) (text : List Char) : List Token := place offset (lexemes text)

/-- The tokens that are not blank space or comments. -/
def significantAt (offset : Nat) (text : List Char) : List Token :=
  (lexAt offset text).filter fun token => !token.kind.isTrivia

end AnnotatedSql
