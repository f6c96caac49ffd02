/-!
# Kinds of diagnostics

Every fault a compilation can report, how severe it is and how it is worded. A fault is worded by
a fixed text, or by a text with one place for a detail.
-/

namespace AnnotatedSql

/-- How much a diagnostic matters. -/
inductive Severity
  | error
  | warning
  deriving DecidableEq, Repr

namespace Severity

/-- The word for the severity in reports. -/
def name : Severity → String
  | error => "error"
  | warning => "warning"

end Severity

/-- Errors in a header end its block, errors in a body end its query, and a name defined twice
fails the compilation after all modules are done. -/
inductive DiagnosticKind
  | malformedHeader | sqlOutsideQuery | emptyQueryBody
  | unterminatedModifier | unclosedParameterList | unexpectedHeaderToken | conflictingModifiers
  | duplicateDeclaredParameter
  | nonContiguousPositionalParameters | undeclaredParameter | unusedDeclaredParameter
  | parameterCountMismatch | conflictingTypeHints
  | unknownRelation | unknownColumn | ambiguousColumn | unknownType | ambiguousParameterType
  | unresolvedParameterType | unknownCompositeField | unsupportedExpression
  | duplicateQueryName
  deriving DecidableEq, Repr

namespace DiagnosticKind

/-- All kinds in the order of the stages that report them. -/
def all : List DiagnosticKind := [
  malformedHeader, sqlOutsideQuery, emptyQueryBody,
  unterminatedModifier, unclosedParameterList, unexpectedHeaderToken, conflictingModifiers,
  duplicateDeclaredParameter,
  nonContiguousPositionalParameters, undeclaredParameter, unusedDeclaredParameter,
  parameterCountMismatch, conflictingTypeHints,
  unknownRelation, unknownColumn, ambiguousColumn, unknownType, ambiguousParameterType,
  unresolvedParameterType, unknownCompositeField, unsupportedExpression,
  duplicateQueryName]

/-- The name of the kind in records. -/
def name : DiagnosticKind → String
  | malformedHeader => "MalformedHeader"
  | sqlOutsideQuery => "SqlOutsideQuery"
  | emptyQueryBody => "EmptyQueryBody"
  | unterminatedModifier => "UnterminatedModifier"
  | unclosedParameterList => "UnclosedParameterList"
  | unexpectedHeaderToken => "UnexpectedHeaderToken"
  | conflictingModifiers => "ConflictingModifiers"
  | duplicateDeclaredParameter => "DuplicateDeclaredParameter"
  | nonContiguousPositionalParameters => "NonContiguousPositionalParameters"
  | undeclaredParameter => "UndeclaredParameter"
  | unusedDeclaredParameter => "UnusedDeclaredParameter"
  | parameterCountMismatch => "ParameterCountMismatch"
  | conflictingTypeHints => "ConflictingTypeHints"
  | unknownRelation => "UnknownRelation"
  | unknownColumn => "UnknownColumn"
  | ambiguousColumn => "AmbiguousColumn"
  | unknownType => "UnknownType"
  | ambiguousParameterType => "AmbiguousParameterType"
  | unresolvedParameterType => "UnresolvedParameterType"
  | unknownCompositeField => "UnknownCompositeField"
  | unsupportedExpression => "UnsupportedExpression"
  | duplicateQueryName => "DuplicateQueryName"

/-- Two kinds only warn; all others are errors. -/
def severity : DiagnosticKind → Severity
  | unusedDeclaredParameter | sqlOutsideQuery => .warning
  | _ => .error

/-- The message where no detail is known. -/
def fallback : DiagnosticKind → String
  | malformedHeader => "query header has no name"
  | sqlOutsideQuery => "SQL before the first query header is ignored"
  | emptyQueryBody => "query has no SQL body"
  | unterminatedModifier => "missing closing `\x7d`"
  | unclosedParameterList => "missing closing `)`"
  | unexpectedHeaderToken => "unexpected token in query header"
  | conflictingModifiers => "conflicting header modifiers"
  | duplicateDeclaredParameter => "parameter declared twice"
  | nonContiguousPositionalParameters => "positional parameters are not contiguous"
  | undeclaredParameter => "parameter is not declared in the header"
  | unusedDeclaredParameter => "declared parameter is never used"
  | parameterCountMismatch => "parameter count does not match the header"
  | conflictingTypeHints => "parameter is cast to different types"
  | unknownRelation => "unknown relation"
  | unknownColumn => "unknown column"
  | ambiguousColumn => "ambiguous column reference"
  | unknownType => "unknown type"
  | ambiguousParameterType => "parameter is compared against different types"
  | unresolvedParameterType => "cannot infer parameter type"
  | unknownCompositeField => "unknown composite field"
  | unsupportedExpression => "unsupported expression"
  | duplicateQueryName => "duplicate query name"

/-- The texts before and after the detail of a message. -/
def frame (kind : DiagnosticKind) : String × String :=
  match kind with
  | duplicateQueryName => ("query `", "` is defined more than once")
  | emptyQueryBody => ("query `", "` has no SQL body")
  | duplicateDeclaredParameter => ("parameter `", "` is declared twice")
  | undeclaredParameter => ("`:", "` is not declared in the header")
  | unusedDeclaredParameter => ("declared parameter `", "` is never used")
  | unknownRelation => ("`", "` is not a known relation")
  | unknownColumn => ("`", "` is not a column of any relation in scope")
  | ambiguousColumn => ("column `", "` exists in more than one relation")
  | unknownType => ("`", "` is not a known type")
  | unresolvedParameterType =>
    ("cannot infer type of `", "`; compare it to a column or add a cast")
  | unterminatedModifier | unclosedParameterList => (kind.fallback ++ "; ", "")
  | _ => (kind.fallback ++ ": ", "")

/-- The message with a detail. -/
def detailed (kind : DiagnosticKind) (detail : String) : String :=
  kind.frame.1 ++ detail ++ kind.frame.2

/-- The message with or without a detail. -/
def message (kind : DiagnosticKind) : Option String → String
  | none => kind.fallback
  | some detail => kind.detailed detail

/-- The wording of detailed messages, with empty braces where the detail goes. -/
def template (kind : DiagnosticKind) : String := kind.detailed "\x7b\x7d"

end DiagnosticKind

end AnnotatedSql
