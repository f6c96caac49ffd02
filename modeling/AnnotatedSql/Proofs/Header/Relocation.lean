import AnnotatedSql.Header.Parser
import AnnotatedSql.Proofs.Outcome
import Mathlib.Data.List.TakeDrop

/-!
# Headers at other places

Reading a header moves positions around and never looks at them. Wherever the positions of its
tokens are sent, the header that is read, or its fault, has its own positions sent there.
-/

namespace AnnotatedSql

/-- The span between the images of its ends. -/
def Span.relocate (send : Nat → Nat) (span : Span) : Span := ⟨send span.start, send span.stop⟩

/-- The token with its span relocated. -/
def Token.relocate (send : Nat → Nat) (token : Token) : Token :=
  { token with span := token.span.relocate send }

/-- The header with all its spans relocated. -/
def Header.relocate (send : Nat → Nat) (header : Header) : Header :=
  { header with
    nameSpan := header.nameSpan.relocate send
    declaredSpans := header.declaredSpans.map (Span.relocate send)
    optionalSpan := header.optionalSpan.map (Span.relocate send) }

/-- The fault with all its spans relocated. -/
def HeaderFault.relocate (send : Nat → Nat) : HeaderFault → HeaderFault
  | unnamed => unnamed
  | unexpected found expected => .unexpected (found.relocate send) expected
  | unclosedList opening => .unclosedList (opening.relocate send)
  | duplicate name first => .duplicate (name.relocate send) (first.relocate send)
  | unterminated opening => .unterminated (opening.relocate send)
  | conflict marker earlier reason =>
    .conflict (marker.relocate send) (earlier.relocate send) reason

/-- The modifier with its span relocated. -/
def Marker.relocate (send : Nat → Nat) (marker : Marker) : Marker :=
  { marker with span := marker.span.relocate send }

/-- The modifiers with all their spans relocated. -/
def Modifiers.relocate (send : Nat → Nat) (modifiers : Modifiers) : Modifiers where
  exact := modifiers.exact.map (Span.relocate send)
  emptyOptional := modifiers.emptyOptional.map (Span.relocate send)
  argument := modifiers.argument.map fun (kind, span) => (kind, span.relocate send)

variable (send : Nat → Nat)

@[simp] theorem Token.relocate_kind (token : Token) : (token.relocate send).kind = token.kind := rfl

@[simp] theorem Token.relocate_text (token : Token) : (token.relocate send).text = token.text := rfl

@[simp] theorem Token.relocate_span (token : Token) :
    (token.relocate send).span = token.span.relocate send := rfl

@[simp] theorem Token.relocate_toLexeme (token : Token) :
    (token.relocate send).toLexeme = token.toLexeme := rfl

namespace Modifiers

@[simp] theorem relocate_cardinality (modifiers : Modifiers) :
    (modifiers.relocate send).cardinality = modifiers.cardinality := by
  rcases modifiers with ⟨exact, emptyOptional, argument⟩
  rcases argument with _ | ⟨_ | _, span⟩ <;> simp [relocate, cardinality, counted]

theorem relocate_counted (modifiers : Modifiers) :
    (modifiers.relocate send).counted = modifiers.counted.map (Span.relocate send) := by
  rcases modifiers with ⟨exact, emptyOptional, argument⟩
  rcases argument with _ | ⟨_ | _, span⟩ <;> rfl

/-- Adding a modifier relocates. -/
theorem relocate_add (modifiers : Modifiers) (list : Option Span) (marker : Marker) :
    (modifiers.relocate send).add (list.map (Span.relocate send)) (marker.relocate send) =
      mapBoth (HeaderFault.relocate send) (relocate send) (modifiers.add list marker) := by
  rcases marker with ⟨_ | _ | kind, span⟩
  · simp only [add, Marker.relocate, relocate_counted]
    rcases modifiers with ⟨_ | exact, _ | emptyOptional, _ | ⟨_ | _, argument⟩⟩ <;> rfl
  · rcases modifiers with ⟨_ | exact, _ | emptyOptional, argument⟩ <;> rfl
  · rcases modifiers with ⟨_ | exact, emptyOptional, _ | argument⟩ <;> cases list <;>
      cases kind <;> rfl

end Modifiers

namespace Header

theorem find_relocate (text : String) (names : List Token) :
    (names.map (Token.relocate send)).find? (·.text == text) =
      (names.find? (·.text == text)).map (Token.relocate send) := by
  rw [List.find?_map]
  rfl

theorem readList_relocate (opening : Span) (names tokens : List Token) :
    readList (opening.relocate send) (names.map (Token.relocate send))
        (tokens.map (Token.relocate send)) =
      mapBoth (HeaderFault.relocate send)
        (fun (names, rest) => (names.map (Token.relocate send), rest.map (Token.relocate send)))
        (readList opening names tokens) := by
  have listed : ∀ (names : List Token) (text : String),
      (names.map (Token.relocate send)).reverse.find? (·.text == text) =
        (names.reverse.find? (·.text == text)).map (Token.relocate send) := fun names text => by
    rw [← List.map_reverse, find_relocate]
  fun_induction readList opening names tokens with
  | case1 => rfl
  | case2 names token rest closes =>
    rw [List.map_cons, readList.eq_def]
    simp [mapBoth, closes]
  | case3 names token rest named first found =>
    rw [List.map_cons, readList.eq_def]
    simp only [Token.relocate_kind, Token.relocate_text, named, listed, found]
    rfl
  | case4 names token named fresh =>
    rw [List.map_cons, readList.eq_def]
    simp only [Token.relocate_kind, Token.relocate_text, named, listed, fresh]
    rfl
  | case5 names token named fresh next after comma ih =>
    rw [List.map_cons, readList.eq_def]
    simp only [Token.relocate_kind, Token.relocate_text, named, listed, fresh, comma,
      List.map_cons]
    exact ih
  | case6 names token named fresh next after closes =>
    rw [List.map_cons, readList.eq_def]
    simp only [Token.relocate_kind, Token.relocate_text, named, listed, fresh, closes,
      List.map_cons]
    simp [mapBoth]
  | case7 names token named fresh next after notComma notClose =>
    rw [List.map_cons, readList.eq_def]
    simp only [Token.relocate_kind, Token.relocate_text, named, listed, fresh, List.map_cons]
    simp only [Option.map_none]
    rfl
  | case8 names token rest notClose notNamed =>
    rw [List.map_cons, readList.eq_def]
    simp only [Token.relocate_kind]
    rfl

theorem readArgument_relocate (tokens : List Token) :
    readArgument (tokens.map (Token.relocate send)) =
      mapBoth (HeaderFault.relocate send) id (readArgument tokens) := by
  match tokens with
  | [] => rfl
  | [token] =>
    simp only [List.map_cons, List.map_nil, readArgument, Token.relocate_kind, Token.relocate_text]
    split
    · rfl
    · split
      · rfl
      · rfl
    · rfl
  | _ :: token :: _ => rfl

theorem span_relocate (kind : TokenKind) (tokens : List Token) :
    (tokens.map (Token.relocate send)).span (·.kind != kind) =
      ((tokens.span (·.kind != kind)).1.map (Token.relocate send),
        (tokens.span (·.kind != kind)).2.map (Token.relocate send)) := by
  simp only [List.span_eq_takeWhile_dropWhile, List.takeWhile_map, List.dropWhile_map]
  rfl

theorem readMarker_relocate (opening : Token) (rest : List Token) :
    readMarker (opening.relocate send) (rest.map (Token.relocate send)) =
      mapBoth (HeaderFault.relocate send)
        (fun (marker, after) => (marker.relocate send, after.map (Token.relocate send)))
        (readMarker opening rest) := by
  unfold readMarker
  rw [span_relocate]
  generalize rest.span (·.kind != .braceClose) = parts
  rcases parts with ⟨inner, _ | ⟨closing, after⟩⟩
  · rfl
  · simp only [List.map_cons, Token.relocate_kind]
    refine mapBoth_ite ?_ ?_
    · cases inner <;> rfl
    · exact mapBoth_bind (readArgument_relocate send inner) fun argument => rfl

theorem readMarkers_relocate (list : Option Span) (fuel : Nat) (modifiers : Modifiers)
    (tokens : List Token) :
    readMarkers (list.map (Span.relocate send)) fuel (modifiers.relocate send)
        (tokens.map (Token.relocate send)) =
      mapBoth (HeaderFault.relocate send) (Modifiers.relocate send)
        (readMarkers list fuel modifiers tokens) := by
  induction fuel generalizing modifiers tokens with
  | zero => cases tokens <;> rfl
  | succ fuel ih =>
    cases tokens with
    | nil => rfl
    | cons token rest =>
      rw [List.map_cons]
      simp only [readMarkers, Token.relocate_kind]
      refine mapBoth_ite ?_ rfl
      refine mapBoth_bind (readMarker_relocate send token rest) fun (marker, after) => ?_
      exact mapBoth_bind (modifiers.relocate_add send list marker) fun added => ih added after

theorem readParameters_relocate (tokens : List Token) :
    readParameters (tokens.map (Token.relocate send)) =
      mapBoth (HeaderFault.relocate send)
        (fun (list, rest) =>
          (list.map (List.map (Token.relocate send)), rest.map (Token.relocate send)))
        (readParameters tokens) := by
  cases tokens with
  | nil => rfl
  | cons token rest =>
    rw [List.map_cons]
    simp only [readParameters, Token.relocate_kind]
    refine mapBoth_ite ?_ rfl
    exact mapBoth_bind (readList_relocate send token.span [] rest) fun _ => rfl

theorem assemble_relocate (suffix : String) (name : Token) (list : Option (List Token))
    (modifiers : Modifiers) :
    assemble suffix (name.relocate send) (list.map (List.map (Token.relocate send)))
        (modifiers.relocate send) =
      (assemble suffix name list modifiers).relocate send := by
  have cardinality := modifiers.relocate_cardinality send
  rcases modifiers with ⟨exact, emptyOptional, argument⟩
  unfold assemble relocate
  rw [cardinality]
  rcases list with _ | names <;> rcases argument with _ | ⟨_ | _, span⟩ <;>
    simp [Modifiers.relocate]

/-- The header at other places says the same there. -/
theorem ofTokens_relocate (suffix : String) (tokens : List Token) :
    ofTokens suffix (tokens.map (Token.relocate send)) =
      mapBoth (HeaderFault.relocate send) (relocate send) (ofTokens suffix tokens) := by
  cases tokens with
  | nil => rfl
  | cons name rest =>
    rw [List.map_cons]
    simp only [ofTokens, Token.relocate_kind]
    refine mapBoth_ite ?_ rfl
    refine mapBoth_bind (readParameters_relocate send rest) fun (list, after) => ?_
    have markers := readMarkers_relocate send (list.map fun _ => name.span) after.length {} after
    have sameSpan : (list.map fun _ => name.span).map (Span.relocate send) =
        ((list.map (List.map (Token.relocate send))).map fun _ => name.span.relocate send) := by
      cases list <;> rfl
    rw [sameSpan] at markers
    dsimp only
    rw [List.length_map]
    exact mapBoth_bind markers fun modifiers =>
      congrArg Except.ok (assemble_relocate send suffix name list modifiers)

end Header

end AnnotatedSql
