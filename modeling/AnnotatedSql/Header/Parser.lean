import AnnotatedSql.Block
import AnnotatedSql.Diagnostic.Report
import AnnotatedSql.Header.Descriptor
import AnnotatedSql.Text.Word

/-!
# Headers

A header is a name, an optional list of parameter names in parentheses, and modifiers:

    header   := name [ '(' [ ident (',' ident)* [','] ] ')' ] modifier*
    modifier := '?{' [ ident | number ] '}' | '!{' '}'

Reading a header ends with what it says, or with the first fault from the left.
-/

namespace AnnotatedSql

/-- What could have stood where a header has another token. -/
inductive Expected
  | modifier
  | commaOrClose
  | parameterName
  | closingBrace
  | count
  | nameOrCount
  deriving DecidableEq, Repr

namespace Expected

/-- What was expected, in words. -/
def text : Expected → String
  | modifier => "`?\x7b` or `!\x7b`"
  | commaOrClose => "`,` or `)`"
  | parameterName => "parameter name"
  | closingBrace => "`\x7d`"
  | count => "a parameter count"
  | nameOrCount => "parameter name or count"

end Expected

/-- Why two parts of a header exclude each other. -/
inductive Conflict
  | rowCount
  | optionalParameters
  | parameterList
  deriving DecidableEq, Repr

namespace Conflict

/-- The reason in words. -/
def text : Conflict → String
  | rowCount => "row count is already constrained"
  | optionalParameters => "optional parameters are already declared"
  | parameterList => "header already declares a parameter list"

end Conflict

/-- Why a header says nothing. -/
inductive HeaderFault
  | unnamed
  | unexpected (found : Token) (expected : Expected)
  | unclosedList (opening : Span)
  | duplicate (name : Token) (first : Span)
  | unterminated (opening : Token)
  | conflict (marker earlier : Span) (reason : Conflict)
  deriving DecidableEq, Repr

/-- What a header says and where it says it. -/
structure Header where
  descriptor : Descriptor
  nameSpan : Span
  /-- One span for each declared name. -/
  declaredSpans : List Span
  /-- The modifier `?{…}` with an argument. -/
  optionalSpan : Option Span
  deriving DecidableEq, Repr

/-- What a modifier says. -/
inductive MarkerKind
  | exact
  | optional (argument : Option OptionalKind)
  deriving DecidableEq, Repr

/-- A modifier at its place. -/
structure Marker where
  kind : MarkerKind
  span : Span
  deriving DecidableEq, Repr

/-- The modifiers read so far. -/
structure Modifiers where
  exact : Option Span := none
  emptyOptional : Option Span := none
  argument : Option (OptionalKind × Span) := none
  deriving DecidableEq, Repr

namespace Modifiers

/-- The place of a modifier `?{N}`. -/
def counted (modifiers : Modifiers) : Option Span :=
  match modifiers.argument with
  | some (.count _, span) => some span
  | _ => none

/-- Adds a modifier unless an earlier part of the header excludes it. `list` is the span of the
name that has a parameter list. -/
def add (modifiers : Modifiers) (list : Option Span) (marker : Marker) :
    Except HeaderFault Modifiers :=
  let span := marker.span
  match marker.kind with
  | .exact =>
    match modifiers.exact <|> modifiers.emptyOptional <|> modifiers.counted with
    | some earlier => .error (.conflict span earlier .rowCount)
    | none => .ok { modifiers with exact := some span }
  | .optional none =>
    match modifiers.emptyOptional <|> modifiers.exact with
    | some earlier => .error (.conflict span earlier .rowCount)
    | none => .ok { modifiers with emptyOptional := some span }
  | .optional (some kind) =>
    match modifiers.argument, list, kind, modifiers.exact with
    | some (_, earlier), _, _, _ => .error (.conflict span earlier .optionalParameters)
    | none, some name, _, _ => .error (.conflict span name .parameterList)
    | none, none, .count _, some earlier => .error (.conflict span earlier .rowCount)
    | none, none, _, _ => .ok { modifiers with argument := some (kind, span) }

/-- The row count that the modifiers promise. -/
def cardinality (modifiers : Modifiers) : Cardinality :=
  if modifiers.exact.isSome then .exactlyOne
  else if modifiers.emptyOptional.isSome || modifiers.counted.isSome then .atMostOne
  else .many

end Modifiers

namespace Header

/-- Reads a parameter list after its opening parenthesis. `names` are those read before, the last
one first. -/
def readList (opening : Span) (names : List Token) :
    List Token → Except HeaderFault (List Token × List Token)
  | [] => .error (.unclosedList opening)
  | token :: rest =>
    match token.kind with
    | .parenClose => .ok (names.reverse, rest)
    | .ident =>
      match names.reverse.find? (·.text == token.text) with
      | some first => .error (.duplicate token first.span)
      | none =>
        match rest with
        | [] => .error (.unclosedList opening)
        | next :: after =>
          match next.kind with
          | .comma => readList opening (token :: names) after
          | .parenClose => .ok ((token :: names).reverse, after)
          | _ => .error (.unexpected next .commaOrClose)
    | _ => .error (.unexpected token .parameterName)

/-- Reads the tokens between the braces of `?{…}`. -/
def readArgument : List Token → Except HeaderFault (Option OptionalKind)
  | [] => .ok none
  | [token] =>
    match token.kind with
    | .ident => .ok (some (.named token.text))
    | .number =>
      match numeral? token.text with
      | some count => .ok (some (.count count))
      | none => .error (.unexpected token .count)
    | _ => .error (.unexpected token .nameOrCount)
  | _ :: token :: _ => .error (.unexpected token .closingBrace)

/-- Reads a modifier and leaves the tokens after it. The first closing brace ends it. -/
def readMarker (opening : Token) (rest : List Token) : Except HeaderFault (Marker × List Token) :=
  match rest.span (fun token => token.kind != .braceClose) with
  | (_, []) => .error (.unterminated opening)
  | (inner, closing :: after) =>
    let span : Span := ⟨opening.span.start, closing.span.stop⟩
    if opening.kind == .exactOpen then
      match inner with
      | [] => .ok (⟨.exact, span⟩, after)
      | token :: _ => .error (.unexpected token .closingBrace)
    else do
      let argument ← readArgument inner
      .ok (⟨.optional argument, span⟩, after)

/-- Reads at most `fuel` modifiers. -/
def readMarkers (list : Option Span) : Nat → Modifiers → List Token → Except HeaderFault Modifiers
  | _, modifiers, [] => .ok modifiers
  | 0, modifiers, _ => .ok modifiers
  | fuel + 1, modifiers, token :: rest =>
    if token.kind == .optionalOpen || token.kind == .exactOpen then do
      let (marker, after) ← readMarker token rest
      let modifiers ← modifiers.add list marker
      readMarkers list fuel modifiers after
    else .error (.unexpected token .modifier)

/-- Reads the parameter list if the tokens begin with one. -/
def readParameters : List Token → Except HeaderFault (Option (List Token) × List Token)
  | [] => .ok (none, [])
  | token :: rest =>
    if token.kind == .parenOpen then do
      let (names, after) ← readList token.span [] rest
      .ok (some names, after)
    else .ok (none, token :: rest)

/-- Puts the parts of a header together. -/
def assemble (suffix : String) (name : Token) (list : Option (List Token)) (modifiers : Modifiers) :
    Header :=
  let (style, declared) := match list, modifiers.argument with
    | some names, _ => (BindingStyle.explicitList (names.map (·.text)), names.map (·.span))
    | none, some (.named name, span) => (.positionalOptional (.named name), [span])
    | none, some (.count count, _) => (.positionalOptional (.count count), [])
    | none, none => (.implicit, [])
  { descriptor :=
      { name := name.text
        bindingStyle := style
        cardinality := modifiers.cardinality
        streaming := isStreamingName suffix name.text }
    nameSpan := name.span
    declaredSpans := declared
    optionalSpan := modifiers.argument.map Prod.snd }

/-- Reads the significant tokens of a header. A modifier takes at least two tokens, so their number
is fuel enough. -/
def ofTokens (suffix : String) : List Token → Except HeaderFault Header
  | [] => .error .unnamed
  | name :: rest =>
    if name.kind == .ident then do
      let (list, rest) ← readParameters rest
      let modifiers ← readMarkers (list.map fun _ => name.span) rest.length {} rest
      .ok (assemble suffix name list modifiers)
    else .error .unnamed

end Header

namespace HeaderFault

/-- The report on a fault in the header of a block. -/
def report (source : Nat) (block : Block) : HeaderFault → Report
  | unnamed => .plain .malformedHeader source block.lineSpan
  | unexpected found expected =>
    .detailed .unexpectedHeaderToken source found.span
      ("expected " ++ expected.text ++ ", found `" ++ found.text ++ "`")
  | unclosedList opening =>
    .detailed .unclosedParameterList source (.emptyAt block.headerSpan.stop)
      "parameter list is never closed" [⟨"list opened here", source, opening⟩]
  | duplicate name first =>
    .detailed .duplicateDeclaredParameter source name.span name.text
      [⟨"first declared here", source, first⟩]
  | unterminated opening =>
    .detailed .unterminatedModifier source (.emptyAt block.headerSpan.stop)
      ("`" ++ opening.text ++ "` is never closed") [⟨"modifier opened here", source, opening.span⟩]
  | conflict marker earlier reason =>
    .detailed .conflictingModifiers source marker reason.text
      [⟨"conflicts with this", source, earlier⟩]

end HeaderFault

end AnnotatedSql
