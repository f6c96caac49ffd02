import AnnotatedSql.Proofs.Header.Relocation

/-!
# Spans that a header passes on

Every span in a header or in its fault is the span of a token, or runs from the start of a token to
the end of a later one. What holds of all such spans holds of all spans in the header.
-/

namespace AnnotatedSql

/-- The property holds of the spans of all tokens, and of those from one token to a later one. -/
structure Spanned (holds : Span → Prop) (tokens : List Token) : Prop where
  single : ∀ token ∈ tokens, holds token.span
  joined : tokens.Pairwise fun first later => holds ⟨first.span.start, later.span.stop⟩

theorem Spanned.sublist {holds : Span → Prop} {tokens others : List Token}
    (spanned : Spanned holds tokens) (part : others.Sublist tokens) : Spanned holds others :=
  ⟨fun token member => spanned.single token (part.subset member), spanned.joined.sublist part⟩

/-- The property holds of all spans of the header. -/
structure Header.All (holds : Span → Prop) (header : Header) : Prop where
  name : holds header.nameSpan
  declared : ∀ span ∈ header.declaredSpans, holds span
  optional : ∀ span, header.optionalSpan = some span → holds span

/-- The property holds of all spans of the fault. -/
def HeaderFault.All (holds : Span → Prop) : HeaderFault → Prop
  | unnamed => True
  | unexpected found _ => holds found.span
  | unclosedList opening => holds opening
  | duplicate name first => holds name.span ∧ holds first
  | unterminated opening => holds opening.span
  | conflict marker earlier _ => holds marker ∧ holds earlier

/-- The property holds of the spans of all modifiers read so far. -/
structure Modifiers.All (holds : Span → Prop) (modifiers : Modifiers) : Prop where
  exact : ∀ span, modifiers.exact = some span → holds span
  emptyOptional : ∀ span, modifiers.emptyOptional = some span → holds span
  argument : ∀ kind span, modifiers.argument = some (kind, span) → holds span

/-- The property holds of all spans of the fault, or else the value is as it should be. -/
def Sound {α : Type} (holds : Span → Prop) (onValue : α → Prop) : Except HeaderFault α → Prop
  | .error fault => fault.All holds
  | .ok value => onValue value

variable {holds : Span → Prop}

theorem Sound.bind {α β : Type} {onMiddle : α → Prop} {onValue : β → Prop}
    {first : Except HeaderFault α} {next : α → Except HeaderFault β}
    (firstSound : Sound holds onMiddle first)
    (nextSound : ∀ x, onMiddle x → Sound holds onValue (next x)) :
    Sound holds onValue (first >>= next) := by
  cases first with
  | error fault => exact firstSound
  | ok x => exact nextSound x firstSound

namespace Modifiers

variable {modifiers : Modifiers}

/-- Where no modifier has been read there is no span. -/
theorem All.none : ({} : Modifiers).All holds := ⟨by simp, by simp, by simp⟩

theorem All.counted (all : modifiers.All holds) {span : Span}
    (found : modifiers.counted = some span) : holds span := by
  unfold Modifiers.counted at found
  split at found
  next known =>
    cases found
    exact all.argument _ _ known
  · cases found

/-- What holds of either span, where it is there, holds of the first that is. -/
theorem holds_orElse {first second : Option Span} (left : ∀ span, first = some span → holds span)
    (right : ∀ span, second = some span → holds span) (span : Span)
    (found : (first <|> second) = some span) : holds span := by
  cases first with
  | none => exact right span found
  | some other =>
    cases found
    exact left _ rfl

theorem All.add (all : modifiers.All holds) {list : Option Span} {marker : Marker}
    (listed : ∀ span, list = some span → holds span) (marked : holds marker.span) :
    Sound holds (Modifiers.All holds) (modifiers.add list marker) := by
  unfold Modifiers.add
  dsimp only
  split
  · split
    next earlier found =>
      have others := holds_orElse all.emptyOptional fun _ => all.counted
      exact ⟨marked, holds_orElse all.exact others earlier found⟩
    · refine ⟨fun span same => ?_, all.emptyOptional, all.argument⟩
      cases same
      exact marked
  · split
    next earlier found =>
      exact ⟨marked, holds_orElse all.emptyOptional all.exact earlier found⟩
    · refine ⟨all.exact, fun span same => ?_, all.argument⟩
      cases same
      exact marked
  next kind _ =>
    have added : ({ modifiers with argument := some (kind, marker.span) }).All holds := by
      refine ⟨all.exact, all.emptyOptional, fun kind span same => ?_⟩
      cases same
      exact marked
    cases earlier : modifiers.argument with
    | some argument => exact ⟨marked, all.argument _ _ earlier⟩
    | none =>
      cases list with
      | some name => exact ⟨marked, listed name rfl⟩
      | none =>
        cases kind with
        | named name => exact added
        | count count =>
          cases exact : modifiers.exact with
          | some span => exact ⟨marked, all.exact _ exact⟩
          | none =>
            rw [exact] at added
            exact added

end Modifiers

namespace Header

theorem readList_sound {opening : Span} (opens : holds opening) {names tokens : List Token}
    (earlier : ∀ token ∈ names, holds token.span) (spanned : Spanned holds tokens) :
    Sound holds (fun (list, rest) => (∀ token ∈ list, holds token.span) ∧ rest.Sublist tokens)
      (readList opening names tokens) := by
  fun_induction readList opening names tokens with
  | case1 => exact opens
  | case2 names token rest closes =>
    exact ⟨fun other member => earlier other (List.mem_reverse.mp member), List.sublist_cons_self ..⟩
  | case3 names token rest named first found =>
    refine ⟨spanned.single token List.mem_cons_self, earlier first ?_⟩
    exact List.mem_reverse.mp (List.mem_of_find?_eq_some found)
  | case4 names token named fresh => exact opens
  | case5 names token named fresh next after comma ih =>
    have shorter : after.Sublist (token :: next :: after) :=
      (List.sublist_cons_self ..).trans (List.sublist_cons_self ..)
    have read := ih (fun other member => by
      rcases List.mem_cons.mp member with rfl | member
      · exact spanned.single _ List.mem_cons_self
      · exact earlier other member) (spanned.sublist shorter)
    cases found : readList opening (token :: names) after with
    | error fault =>
      rw [found] at read
      exact read
    | ok result =>
      rw [found] at read
      exact ⟨read.1, read.2.trans shorter⟩
  | case6 names token named fresh next after closes =>
    refine ⟨fun other member => ?_,
      (List.sublist_cons_self ..).trans (List.sublist_cons_self ..)⟩
    rcases List.mem_cons.mp (List.mem_reverse.mp member) with rfl | member
    · exact spanned.single _ List.mem_cons_self
    · exact earlier other member
  | case7 names token named fresh next after notComma notClose =>
    exact spanned.single next (by simp)
  | case8 names token rest notClose notNamed => exact spanned.single token List.mem_cons_self

theorem readArgument_sound {tokens : List Token} (spanned : Spanned holds tokens) :
    Sound holds (fun _ => True) (readArgument tokens) := by
  unfold readArgument
  split
  · trivial
  next token =>
    have here := spanned.single token List.mem_cons_self
    split
    · trivial
    · split
      · trivial
      · exact here
    · exact here
  next token _ => exact spanned.single token (by simp)

/-- A modifier runs from its first token to a later one. -/
theorem readMarker_sound {opening : Token} {rest : List Token}
    (spanned : Spanned holds (opening :: rest)) :
    Sound holds (fun (marker, after) => holds marker.span ∧ after.Sublist rest)
      (readMarker opening rest) := by
  have opens := spanned.single opening List.mem_cons_self
  have tail := spanned.sublist (List.sublist_cons_self opening rest)
  have parts := List.takeWhile_append_dropWhile (p := fun token : Token => token.kind != .braceClose)
    (l := rest)
  unfold readMarker
  rw [List.span_eq_takeWhile_dropWhile]
  generalize rest.takeWhile (fun token => token.kind != .braceClose) = inner at parts
  generalize rest.dropWhile (fun token => token.kind != .braceClose) = others at parts
  subst parts
  cases others with
  | nil => exact opens
  | cons closing after =>
    have marked : holds ⟨opening.span.start, closing.span.stop⟩ :=
      List.rel_of_pairwise_cons spanned.joined (by simp)
    have shorter : after.Sublist (inner ++ closing :: after) :=
      (List.sublist_cons_self closing after).trans (List.sublist_append_right inner _)
    dsimp only
    split
    · split
      · exact ⟨marked, shorter⟩
      next token _ => exact tail.single token (by simp)
    · exact (readArgument_sound (tail.sublist (List.sublist_append_left ..))).bind
        fun argument _ => ⟨marked, shorter⟩

theorem readMarkers_sound {list : Option Span} (listed : ∀ span, list = some span → holds span)
    {fuel : Nat} {modifiers : Modifiers} (all : modifiers.All holds) {tokens : List Token}
    (spanned : Spanned holds tokens) :
    Sound holds (Modifiers.All holds) (readMarkers list fuel modifiers tokens) := by
  induction fuel generalizing modifiers tokens with
  | zero => cases tokens <;> exact all
  | succ fuel ih =>
    cases tokens with
    | nil => exact all
    | cons token rest =>
      unfold readMarkers
      split
      · refine (readMarker_sound spanned).bind fun result sound => ?_
        obtain ⟨marked, shorter⟩ := sound
        refine (all.add listed marked).bind fun more all => ih all (spanned.sublist ?_)
        exact shorter.trans (List.sublist_cons_self token rest)
      · exact spanned.single token List.mem_cons_self

theorem readParameters_sound {tokens : List Token} (spanned : Spanned holds tokens) :
    Sound holds
      (fun (list, rest) => (∀ names, list = some names → ∀ token ∈ names, holds token.span) ∧
        rest.Sublist tokens) (readParameters tokens) := by
  cases tokens with
  | nil => exact ⟨by simp, List.Sublist.refl _⟩
  | cons token rest =>
    have shorter := List.sublist_cons_self token rest
    rw [readParameters]
    split
    · have read : Sound holds (fun result => (∀ name ∈ result.1, holds name.span) ∧
          result.2.Sublist rest) (readList token.span [] rest) :=
        readList_sound (spanned.single token List.mem_cons_self) (by simp) (spanned.sublist shorter)
      refine read.bind fun result sound => ?_
      refine ⟨fun others same => ?_, sound.2.trans shorter⟩
      cases same
      exact sound.1
    · exact ⟨by simp, List.Sublist.refl _⟩

theorem assemble_all {suffix : String} {name : Token} {list : Option (List Token)}
    {modifiers : Modifiers} (named : holds name.span)
    (listed : ∀ names, list = some names → ∀ token ∈ names, holds token.span)
    (all : modifiers.All holds) : (assemble suffix name list modifiers).All holds := by
  refine ⟨named, fun span member => ?_, fun span found => ?_⟩
  · unfold assemble at member
    dsimp only at member
    cases list with
    | some names =>
      obtain ⟨token, inList, rfl⟩ := List.mem_map.mp member
      exact listed names rfl token inList
    | none =>
      cases argument : modifiers.argument with
      | none =>
        rw [argument] at member
        cases member
      | some found =>
        rw [argument] at member
        rcases found with ⟨_ | _, place⟩
        · cases member
        · obtain rfl := List.mem_singleton.mp member
          exact all.argument _ _ argument
  · obtain ⟨⟨kind, place⟩, argument, rfl⟩ := Option.map_eq_some_iff.mp found
    exact all.argument _ _ argument

/-- What holds of the spans of the tokens, and of those from one to a later one, holds of all spans
in the header, or in its fault. -/
theorem ofTokens_sound (suffix : String) {tokens : List Token} (spanned : Spanned holds tokens) :
    Sound holds (Header.All holds) (ofTokens suffix tokens) := by
  cases tokens with
  | nil => trivial
  | cons name rest =>
    have named := spanned.single name List.mem_cons_self
    have tail := spanned.sublist (List.sublist_cons_self name rest)
    rw [ofTokens]
    split
    · refine (readParameters_sound tail).bind fun result sound => ?_
      obtain ⟨all, shorter⟩ := sound
      refine (readMarkers_sound (fun span same => ?_) .none (tail.sublist shorter)).bind
        fun modifiers allModifiers => assemble_all named all allModifiers
      obtain ⟨_, _, rfl⟩ := Option.map_eq_some_iff.mp same
      exact named
    · trivial

end Header

end AnnotatedSql
