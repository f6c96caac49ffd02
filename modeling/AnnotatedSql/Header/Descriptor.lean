/-!
# Query descriptors

What a header says about its query, and the canonical header that says it.
-/

namespace AnnotatedSql

/-- The argument of `?{…}`. -/
inductive OptionalKind
  /-- That many optional parameters. -/
  | count (count : Nat)
  /-- The one named parameter the query accepts. -/
  | named (name : String)
  deriving DecidableEq, Repr

/-- How the parameters of a query are found. -/
inductive BindingStyle
  /-- The placeholders of the body are the parameters. -/
  | implicit
  /-- The header lists every named parameter. -/
  | explicitList (names : List String)
  /-- The parameters are optional at call time. -/
  | positionalOptional (kind : OptionalKind)
  deriving DecidableEq, Repr

/-- How many rows a query may return. -/
inductive Cardinality
  | many
  | atMostOne
  | exactlyOne
  deriving DecidableEq, Repr

/-- What a header says. -/
structure Descriptor where
  name : String
  bindingStyle : BindingStyle
  cardinality : Cardinality
  streaming : Bool
  deriving DecidableEq, Repr

namespace BindingStyle

/-- The names a header declares, in order. -/
def declaredNames : BindingStyle → List String
  | explicitList names => names
  | positionalOptional (.named name) => [name]
  | _ => []

/-- Whether the parameters are optional at call time. -/
def isOptional : BindingStyle → Bool
  | positionalOptional _ => true
  | _ => false

/-- Whether every named placeholder has to be declared. -/
def checksDeclarations : BindingStyle → Bool
  | explicitList _ | positionalOptional (.named _) => true
  | _ => false

/-- The number of parameters the header fixes. -/
def count? : BindingStyle → Option Nat
  | positionalOptional (.count count) => some count
  | _ => none

/-- The style as part of a canonical header. -/
def display : BindingStyle → String
  | implicit => ""
  | explicitList names => "(" ++ String.intercalate ", " names ++ ")"
  | positionalOptional (.count count) => " ?\x7b" ++ toString count ++ "\x7d"
  | positionalOptional (.named name) => " ?\x7b" ++ name ++ "\x7d"

end BindingStyle

namespace Descriptor

/-- The names the header declares, in order. -/
def declaredNames (descriptor : Descriptor) : List String :=
  descriptor.bindingStyle.declaredNames

/-- Whether the parameters are optional at call time. -/
def isOptional (descriptor : Descriptor) : Bool := descriptor.bindingStyle.isOptional

/-- The row-count marker of a canonical header. A counted query returns at most one row without
saying so. -/
def cardinalityMarker (descriptor : Descriptor) : String :=
  match descriptor.cardinality with
  | .atMostOne => if descriptor.bindingStyle.count?.isSome then "" else " ?\x7b\x7d"
  | .exactlyOne => " !\x7b\x7d"
  | .many => ""

/-- The canonical header, without the marker. -/
def display (descriptor : Descriptor) : String :=
  descriptor.name ++ descriptor.bindingStyle.display ++ descriptor.cardinalityMarker

end Descriptor

/-- Whether a name marks a streaming query: it ends with the suffix, and there is a suffix. -/
def isStreamingName (suffix name : String) : Bool :=
  !suffix.isEmpty && suffix.toList.isSuffixOf name.toList

end AnnotatedSql
