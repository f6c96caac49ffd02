/-!
# Byte spans

Positions count bytes of UTF-8 text from the start of a module. A span runs from its start up to,
not including, its stop. Scanners work on lists of characters; this module measures such lists in
bytes and cuts them by byte position.
-/

namespace AnnotatedSql

/-- The number of bytes a text takes in UTF-8. -/
def byteLength : List Char → Nat
  | [] => 0
  | c :: text => c.utf8Size + byteLength text

@[simp] theorem byteLength_nil : byteLength [] = 0 := rfl

@[simp] theorem byteLength_cons (c : Char) (text : List Char) :
    byteLength (c :: text) = c.utf8Size + byteLength text := rfl

@[simp] theorem byteLength_append (a b : List Char) :
    byteLength (a ++ b) = byteLength a + byteLength b := by
  induction a with
  | nil => simp
  | cons c a ih => simp [ih, Nat.add_assoc]

/-- What is left of a text after its first `count` bytes. -/
def dropBytes : Nat → List Char → List Char
  | 0, text => text
  | _ + 1, [] => []
  | count + 1, c :: text => dropBytes (count + 1 - c.utf8Size) text

/-- The characters of a text that lie within its first `count` bytes. -/
def takeBytes : Nat → List Char → List Char
  | _, [] => []
  | count, c :: text =>
    if c.utf8Size ≤ count then c :: takeBytes (count - c.utf8Size) text else []

/-- A range of bytes within a module. -/
structure Span where
  start : Nat
  stop : Nat
  deriving DecidableEq, Repr, Inhabited

namespace Span

/-- The empty span at a position. -/
def emptyAt (position : Nat) : Span := ⟨position, position⟩

/-- The least span that contains both. -/
def cover (a b : Span) : Span := ⟨min a.start b.start, max a.stop b.stop⟩

/-- The same range in a text that begins `offset` bytes later. -/
def shift (span : Span) (offset : Nat) : Span := ⟨span.start + offset, span.stop + offset⟩

/-- The part of `text` under the span, where `text` itself begins at position `base`. -/
def slice (span : Span) (base : Nat) (text : List Char) : List Char :=
  takeBytes (span.stop - span.start) (dropBytes (span.start - base) text)

end Span

end AnnotatedSql
