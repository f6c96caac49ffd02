import AnnotatedSql.Parameter.Key
import AnnotatedSql.Query
import AnnotatedSql.Statement.Body

/-!
# Findings

A finding is a fault in a query, named by its cause and by the tokens it is found at. It becomes a
report once the query and the places of its tokens are known. Findings themselves do not depend on
how the query is laid out.
-/

namespace AnnotatedSql

/-- What a finding points at. -/
inductive Place
  /-- The tokens of the body from `lo` to before `hi`. -/
  | tokens (lo hi : Nat)
  /-- The declared name with the given index in the header. -/
  | declaration (index : Nat)
  /-- The header's modifier for optional parameters. -/
  | optionalModifier
  deriving DecidableEq, Repr

/-- The place of one token. -/
def Place.token (i : Nat) : Place := .tokens i (i + 1)

/-- Why a query is faulty. -/
inductive Cause
  /-- The position of the placeholder is too large. -/
  | positionOutOfRange (placeholder : String)
  | positionZero
  /-- The positions from `first` to `last` have no placeholder. -/
  | positionsSkipped (first last : Nat)
  | conflictingHints (key : ParamKey) (first second : String) (firstCast : Place)
  | undeclaredName (name : String)
  | unusedDeclaration (name : String)
  | countMismatch (declared used : Nat)
  | unknownRelation (name : String)
  | unknownColumn (name : String)
  | ambiguousColumn (name : String)
  | unknownType (name : String)
  | untypedParameter (key : ParamKey)
  | ambiguousParameter (key : ParamKey) (first second : String) (firstUse : Place)
  | unknownField (type field : String)
  /-- Only a cast could give the expression a type. -/
  | untypedExpression
  deriving DecidableEq, Repr

/-- A fault and where it shows. -/
structure Finding where
  cause : Cause
  place : Place
  deriving DecidableEq, Repr

namespace Cause

/-- The kind of the diagnostic that reports the cause. -/
def kind : Cause → DiagnosticKind
  | positionOutOfRange _ | positionZero | positionsSkipped _ _ =>
    .nonContiguousPositionalParameters
  | conflictingHints _ _ _ _ => .conflictingTypeHints
  | undeclaredName _ => .undeclaredParameter
  | unusedDeclaration _ => .unusedDeclaredParameter
  | countMismatch _ _ => .parameterCountMismatch
  | unknownRelation _ => .unknownRelation
  | unknownColumn _ => .unknownColumn
  | ambiguousColumn _ => .ambiguousColumn
  | unknownType _ => .unknownType
  | untypedParameter _ => .unresolvedParameterType
  | ambiguousParameter _ _ _ _ => .ambiguousParameterType
  | unknownField _ _ => .unknownCompositeField
  | untypedExpression => .unsupportedExpression

private def ticked (text : String) : String := "`" ++ text ++ "`"

private def position (number : Nat) : String := ticked (ParamKey.positional number).display

/-- The detail of the message. `excerpt` is the text at the place of the finding. -/
def detail (excerpt : String) : Cause → String
  | positionOutOfRange placeholder => ticked placeholder ++ " is out of range"
  | positionZero => "positions start at " ++ position 1
  | positionsSkipped first last =>
    if first == last then position first ++ " is never used"
    else position first ++ " to " ++ position last ++ " are never used"
  | conflictingHints key first second _ =>
    ticked key.display ++ " is cast to " ++ ticked first ++ " and " ++ ticked second
  | undeclaredName name | unusedDeclaration name => name
  | countMismatch declared used =>
    "header declares " ++ toString declared ++ " optional parameters, body uses " ++ toString used
  | unknownRelation name | unknownColumn name | ambiguousColumn name | unknownType name => name
  | untypedParameter key => key.display
  | ambiguousParameter key first second _ =>
    ticked key.display ++ " is used as " ++ ticked first ++ " and " ++ ticked second
  | unknownField type field => ticked type ++ " has no field " ++ ticked field
  | untypedExpression => ticked excerpt ++ " has no inferable type; add a cast"

/-- The other place that the cause refers to, and what is found there. -/
def related? : Cause → Option (String × Place)
  | conflictingHints _ _ _ firstCast => some ("first cast here", firstCast)
  | ambiguousParameter _ first _ firstUse => some ("used as " ++ ticked first ++ " here", firstUse)
  | _ => none

end Cause

namespace Place

/-- The span of a place. `body` is the body of the query. -/
def span (query : Query) (body : Body) : Place → Span
  | tokens lo hi => body.spanOf lo hi
  | declaration index => query.header.declaredSpans[index]?.getD query.nameSpan
  | optionalModifier => query.header.optionalSpan.getD query.nameSpan

end Place

namespace Finding

/-- The kind of the diagnostic that reports the finding. -/
def kind (finding : Finding) : DiagnosticKind := finding.cause.kind

/-- Whether the finding fails its query. -/
def isError (finding : Finding) : Bool := finding.kind.severity == .error

/-- The finding as a report on its query. -/
def report (query : Query) (body : Body) (finding : Finding) : Report :=
  let span := finding.place.span query body
  .detailed finding.kind query.source span
    (finding.cause.detail (String.ofList (body.slice span)))
    (finding.cause.related?.toList.map fun (message, place) =>
      ⟨message, query.source, place.span query body⟩)

end Finding

namespace Findings

/-- Whether some finding fails the query. -/
def hasErrors (findings : List Finding) : Bool := findings.any Finding.isError

end Findings

/-- What an analysis gives, if it does not fail, and what it found. -/
structure Analyzed (α : Type) where
  value : Option α
  findings : List Finding

end AnnotatedSql
