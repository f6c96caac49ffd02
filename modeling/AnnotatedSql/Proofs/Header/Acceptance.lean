import AnnotatedSql.Proofs.Header.Reading
import AnnotatedSql.Proofs.Query.Extent
import Mathlib.Data.List.Induction

/-!
# Headers that are accepted

A header is accepted exactly if it derives from the grammar and its parts agree. The reader gathers
modifiers one by one and refuses the first that an earlier one excludes; what it has gathered is the
first modifier of each sort, and no sort has two.
-/

namespace AnnotatedSql

/-! ## Modifiers that agree -/

/-- Nothing before the modifier excludes it. -/
def ModifierForm.Fits (listed : Bool) (earlier : List ModifierForm) : ModifierForm → Prop
  | exact => ∀ other ∈ earlier,
      other.isExact = false ∧ other.isEmpty = false ∧ other.isCount = false
  | optional none => ∀ other ∈ earlier, other.isEmpty = false ∧ other.isExact = false
  | optional (some argument) => listed = false ∧
      ∀ other ∈ earlier, other.argument? = none ∧ (argument.kind = .number → other.isExact = false)

theorem compatible_nil (listed : Bool) : Compatible listed [] := by
  constructor <;> simp

theorem countP_le_one_append {α : Type} {p : α → Bool} {items : List α} {item : α} :
    (items ++ [item]).countP p ≤ 1 ↔
      items.countP p ≤ 1 ∧ (p item = true → ∀ other ∈ items, p other = false) := by
  rw [List.countP_append, List.countP_singleton]
  by_cases chosen : p item = true
  · rw [if_pos chosen]
    have none : items.countP p = 0 ↔ ∀ other ∈ items, p other = false := by
      simp [List.countP_eq_zero]
    simp only [chosen, forall_const, ← none]
    omega
  · rw [if_neg chosen]
    simp [chosen]

/-- Whether modifiers agree shows from the last one, given that the others do. -/
theorem compatible_append {listed : Bool} {earlier : List ModifierForm} {form : ModifierForm} :
    Compatible listed (earlier ++ [form]) ↔
      Compatible listed earlier ∧ form.Fits listed earlier := by
  constructor
  · rintro ⟨emptyOnce, exactOnce, argumentOnce, noArgument, exactAlone⟩
    rw [countP_le_one_append] at emptyOnce exactOnce argumentOnce
    refine ⟨⟨emptyOnce.1, exactOnce.1, argumentOnce.1, ?_, ?_⟩, ?_⟩
    · exact fun isListed other member => noArgument isListed other (by simp [member])
    · intro other member isExact another present
      exact exactAlone other (by simp [member]) isExact another (by simp [present])
    · have noExact : form.isEmpty = true ∨ form.isCount = true →
          ∀ other ∈ earlier, other.isExact = false := by
        intro sort other member
        cases isExact : other.isExact with
        | false => rfl
        | true =>
          have alone := exactAlone other (by simp [member]) isExact form (by simp)
          rw [alone.1, alone.2] at sort
          rcases sort with impossible | impossible <;> cases impossible
      rcases form with _ | _ | argument
      · intro other member
        have alone := exactAlone .exact (by simp) rfl other (by simp [member])
        exact ⟨exactOnce.2 rfl other member, alone.1, alone.2⟩
      · exact fun other member =>
          ⟨emptyOnce.2 rfl other member, noExact (Or.inl rfl) other member⟩
      · refine ⟨?_, fun other member => ⟨?_, fun isNumber => ?_⟩⟩
        · cases listed with
          | false => rfl
          | true => cases noArgument rfl (.optional (some argument)) (by simp)
        · simpa using argumentOnce.2 rfl other member
        · exact noExact (Or.inr (by simp [isNumber])) other member
  · rintro ⟨⟨emptyOnce, exactOnce, argumentOnce, noArgument, exactAlone⟩, fits⟩
    refine ⟨countP_le_one_append.mpr ⟨emptyOnce, ?_⟩, countP_le_one_append.mpr ⟨exactOnce, ?_⟩,
      countP_le_one_append.mpr ⟨argumentOnce, ?_⟩, ?_, ?_⟩ <;>
    rcases form with _ | _ | argument
    all_goals simp [ModifierForm.Fits] at fits
    all_goals grind

/-- The first modifier of each sort. -/
def gathered (modifiers : List WrittenModifier) : Modifiers :=
  { exact := (modifiers.find? (·.form.isExact)).map (·.span)
    emptyOptional := (modifiers.find? (·.form.isEmpty)).map (·.span)
    argument := modifiers.findSome? fun written =>
      written.form.argument?.map fun argument => (argument.optionalKind, written.span) }

section Gathering

variable {earlier : List WrittenModifier} {written : WrittenModifier}

theorem gathered_exact : (gathered earlier).exact = none ↔
    ∀ form ∈ earlier.map (·.form), form.isExact = false := by
  simp [gathered]

theorem gathered_emptyOptional : (gathered earlier).emptyOptional = none ↔
    ∀ form ∈ earlier.map (·.form), form.isEmpty = false := by
  simp [gathered]

theorem gathered_argument : (gathered earlier).argument = none ↔
    ∀ form ∈ earlier.map (·.form), form.argument? = none := by
  simp [gathered]

theorem gathered_argument_kind : (gathered earlier).argument.map Prod.fst =
    ((earlier.map (·.form)).findSome? ModifierForm.argument?).map Lexeme.optionalKind := by
  simp [gathered, List.map_findSome?, List.findSome?_map, Function.comp_def]

theorem counted_eq_none {modifiers : Modifiers} : modifiers.counted = none ↔
    ∀ count, modifiers.argument.map Prod.fst ≠ some (.count count) := by
  rcases modifiers with ⟨_, _, _ | ⟨_ | _, span⟩⟩ <;> simp [Modifiers.counted]

theorem gathered_counted (once : (earlier.map (·.form)).countP (·.argument?.isSome) ≤ 1) :
    (gathered earlier).counted = none ↔
      ∀ form ∈ earlier.map (·.form), form.isCount = false := by
  rw [counted_eq_none, gathered_argument_kind]
  constructor
  · intro none form member
    cases form with
    | exact => rfl
    | optional argument =>
      cases argument with
      | none => rfl
      | some argument =>
        cases counts : argument.kind == .number with
        | false => exact counts
        | true =>
          have found := (findSome_argument once).mpr ⟨_, member, rfl⟩
          exact absurd (by simp [found, Lexeme.optionalKind, counts])
            (none (digitsValue 0 argument.text.toList))
  · intro none count found
    obtain ⟨argument, first, said⟩ := Option.map_eq_some_iff.mp found
    obtain ⟨form, member, has⟩ := (findSome_argument once).mp first
    have noCount := none form member
    rw [ModifierForm.isCount, has] at noCount
    simp [Lexeme.optionalKind, noCount] at said

theorem gathered_append {others : List WrittenModifier} : gathered (earlier ++ others) =
    { exact := (gathered earlier).exact.or (gathered others).exact
      emptyOptional := (gathered earlier).emptyOptional.or (gathered others).emptyOptional
      argument := (gathered earlier).argument.or (gathered others).argument } := by
  simp [gathered, List.find?_append, List.findSome?_append, Option.map_or]

/-- A modifier is added if it fits. -/
theorem add_gathered {list : Option Span} {found : Modifiers}
    (compatible : Compatible list.isSome (earlier.map (·.form))) :
    (gathered earlier).add list written.marker = .ok found ↔
      written.form.Fits list.isSome (earlier.map (·.form)) ∧
        found = gathered (earlier ++ [written]) := by
  have noCount := gathered_counted compatible.argumentOnce
  have noExact : (gathered earlier).exact = none ↔ _ := gathered_exact
  have noEmpty : (gathered earlier).emptyOptional = none ↔ _ := gathered_emptyOptional
  have noArgument : (gathered earlier).argument = none ↔ _ := gathered_argument
  rw [gathered_append]
  unfold Modifiers.add
  rcases written with ⟨_ | _ | argument, span⟩
  · have alone : gathered [⟨.exact, span⟩] = { exact := some span } := rfl
    rw [alone]
    simp only [WrittenModifier.marker, ModifierForm.kind, ModifierForm.Fits, forall_and,
      ← noExact, ← noEmpty, ← noCount]
    generalize gathered earlier = before
    cases exact : before.exact <;> cases empty : before.emptyOptional <;>
      cases counted : before.counted <;> simp [eq_comm]
  · have alone : gathered [⟨.optional none, span⟩] = { emptyOptional := some span } := rfl
    rw [alone]
    simp only [WrittenModifier.marker, ModifierForm.kind, ModifierForm.Fits, forall_and,
      ← noExact, ← noEmpty]
    generalize gathered earlier = before
    cases exact : before.exact <;> cases empty : before.emptyOptional <;> simp [eq_comm]
  · have alone : gathered [⟨.optional (some argument), span⟩] =
      { argument := some (argument.optionalKind, span) } := rfl
    rw [alone]
    have exactAllowed : (∀ form ∈ earlier.map (·.form), argument.kind = .number →
        form.isExact = false) ↔ (argument.kind = .number → (gathered earlier).exact = none) := by
      rw [noExact]
      exact ⟨fun all isNumber form member => all form member isNumber,
        fun all form member isNumber => all isNumber form member⟩
    simp only [WrittenModifier.marker, ModifierForm.kind, ModifierForm.Fits, forall_and,
      exactAllowed, ← noArgument]
    generalize gathered earlier = before
    by_cases isNumber : argument.kind = .number
    · cases before.argument <;> cases list <;> cases before.exact <;>
        simp [Lexeme.optionalKind_number isNumber, isNumber, eq_comm]
    · cases before.argument <;> cases list <;>
        simp [Lexeme.optionalKind_name isNumber, isNumber, eq_comm]

end Gathering

/-- Modifiers are added one after another if they agree. -/
theorem foldlM_add_eq_ok {list : Option Span} {modifiers : List WrittenModifier}
    {found : Modifiers} :
    (modifiers.map WrittenModifier.marker).foldlM (·.add list ·) ({} : Modifiers) = .ok found ↔
      Compatible list.isSome (modifiers.map (·.form)) ∧ found = gathered modifiers := by
  induction modifiers using List.reverseRecOn generalizing found with
  | nil =>
    have start : gathered [] = {} := rfl
    simp [compatible_nil, start, pure, Except.pure, eq_comm]
  | append_singleton earlier written ih =>
    rw [List.map_append, List.foldlM_append, List.map_append, List.map_singleton,
      List.map_singleton, compatible_append]
    constructor
    · intro success
      obtain ⟨before, run, last⟩ := bind_success success
      obtain ⟨compatible, rfl⟩ := ih.mp run
      rw [List.foldlM_cons] at last
      obtain ⟨after, added, same⟩ := bind_success last
      cases same
      obtain ⟨fits, rfl⟩ := (add_gathered compatible).mp added
      exact ⟨⟨compatible, fits⟩, rfl⟩
    · rintro ⟨⟨compatible, fits⟩, rfl⟩
      refine (bind_ok (ih.mpr ⟨compatible, rfl⟩)).trans ?_
      rw [List.foldlM_cons]
      exact bind_ok ((add_gathered compatible).mpr ⟨fits, rfl⟩)

/-! ## Headers -/

section Headers

variable {tokens after : List Token} {list : Option (List Token)}

theorem readParameters_eq_ok : Header.readParameters tokens = .ok (list, after) ↔
    (∀ token ∈ tokens.head?, token.kind ≠ .parenOpen) ∧ list = none ∧ after = tokens ∨
    ∃ opening rest names, tokens = opening :: rest ∧ opening.kind = .parenOpen ∧
      ReadsList rest names after ∧ (names.map (·.text)).Nodup ∧ list = some names := by
  cases tokens with
  | nil => simp [Header.readParameters, eq_comm]
  | cons token rest =>
    unfold Header.readParameters
    dsimp only
    by_cases opens : token.kind = .parenOpen
    · rw [if_pos (by simpa using opens)]
      constructor
      · intro success
        obtain ⟨⟨found, others⟩, read, same⟩ := bind_success success
        cases same
        obtain ⟨names, reads, whole, distinct⟩ := (readList_eq_ok (by simp)).mp read
        obtain rfl : found = names := whole
        exact Or.inr ⟨token, rest, found, rfl, opens, reads, distinct, rfl⟩
      · rintro (⟨closed, _⟩ | ⟨_, _, names, same, _, reads, distinct, rfl⟩)
        · exact absurd opens (closed token rfl)
        · cases same
          have read : Header.readList token.span [] rest = .ok (names, after) ↔ _ :=
            readList_eq_ok List.nodup_nil
          exact bind_ok (read.mpr ⟨names, reads, rfl, distinct⟩)
    · rw [if_neg (by simpa using opens)]
      constructor
      · intro same
        cases same
        exact Or.inl ⟨by simpa using opens, rfl, rfl⟩
      · rintro (⟨_, rfl, rfl⟩ | ⟨_, _, _, same, opening, _⟩)
        · rfl
        · cases same
          exact absurd opening opens

theorem isSome_eq_any {α β : Type} {value : Option α} {items : List β} {p : β → Bool}
    (same : value = none ↔ ∀ item ∈ items, p item = false) : value.isSome = items.any p := by
  rw [Bool.eq_iff_iff, ← not_iff_not]
  simpa using same

theorem gathered_cardinality {written : WrittenHeader}
    (once : written.forms.countP (·.argument?.isSome) ≤ 1) :
    (gathered written.modifiers).cardinality = written.cardinality := by
  have exact : (gathered written.modifiers).exact.isSome = _ := isSome_eq_any gathered_exact
  have empty : (gathered written.modifiers).emptyOptional.isSome = _ :=
    isSome_eq_any gathered_emptyOptional
  have counted : (gathered written.modifiers).counted.isSome = _ :=
    isSome_eq_any (gathered_counted once)
  unfold Modifiers.cardinality WrittenHeader.cardinality
  rw [exact, empty, counted]
  rfl

/-- What the parts of a header make up is what the header says. -/
theorem assemble_gathered {written : WrittenHeader} (suffix : String)
    (once : written.forms.countP (·.argument?.isSome) ≤ 1) :
    Header.assemble suffix written.name written.list (gathered written.modifiers) =
      written.header suffix := by
  have sameArgument : (gathered written.modifiers).argument =
      written.argument?.map fun (argument, span) => (argument.optionalKind, span) := by
    simp [gathered, WrittenHeader.argument?, List.map_findSome?, Function.comp_def]
  have sameForm := written.argument_forms
  unfold Header.assemble WrittenHeader.header WrittenHeader.descriptor WrittenHeader.style
    WrittenHeader.declaredSpans WrittenHeader.names?
  rw [gathered_cardinality once, sameArgument, ← sameForm]
  cases written.list with
  | some names => cases written.argument? <;> rfl
  | none =>
    cases written.argument? with
    | none => rfl
    | some both =>
      obtain ⟨argument, span⟩ := both
      by_cases isNumber : argument.kind = .number
      · simp [Lexeme.optionalKind_number isNumber, isNumber]
      · simp [Lexeme.optionalKind_name isNumber, isNumber]

/-- The modifiers of a header are read if they derive from the grammar and agree. -/
theorem readMarkers_gathered {place : Option Span} {found : Modifiers}
    (spelled : NumbersSpelled tokens) :
    Header.readMarkers place tokens.length {} tokens = .ok found ↔ ∃ modifiers,
      DerivesModifiers tokens modifiers ∧ (∀ form ∈ modifiers.map (·.form), form.Counts) ∧
        Compatible place.isSome (modifiers.map (·.form)) ∧ found = gathered modifiers := by
  rw [readMarkers_eq_ok (Nat.le_refl _) spelled]
  simp only [foldlM_add_eq_ok, List.forall_mem_map]

theorem DerivesModifiers.noParen {modifiers : List WrittenModifier}
    (derives : DerivesModifiers tokens modifiers) :
    ∀ token ∈ tokens.head?, token.kind ≠ .parenOpen := by
  intro token first
  cases tokens with
  | nil => cases first
  | cons opening rest =>
    cases first
    obtain ⟨tokens, after, written, _, whole, starts, _⟩ := derivesModifiers_cons.mp derives
    cases tokens with
    | nil => exact absurd starts.length_pos (by simp)
    | cons first tokens =>
      cases whole
      rcases starts.opens with opens | opens <;> simp [opens]

theorem NumbersSpelled.of_readParameters (spelled : NumbersSpelled tokens)
    (read : Header.readParameters tokens = .ok (list, after)) : NumbersSpelled after := by
  rcases readParameters_eq_ok.mp read with
    ⟨_, _, rfl⟩ | ⟨opening, _, _, rfl, _, ⟨inner, closing, rfl, _⟩, _⟩
  · exact spelled
  · exact fun token member => spelled token (by simp [member])

/-- The stages in which a header is read. -/
theorem ofTokens_cons_eq_ok {suffix : String} {name : Token} {header : Header} :
    Header.ofTokens suffix (name :: tokens) = .ok header ↔
      name.kind = .ident ∧ ∃ list after modifiers,
        Header.readParameters tokens = .ok (list, after) ∧
        Header.readMarkers (list.map fun _ => name.span) after.length {} after = .ok modifiers ∧
        header = Header.assemble suffix name list modifiers := by
  unfold Header.ofTokens
  dsimp only
  by_cases ident : name.kind = .ident
  · rw [if_pos (by simpa using ident)]
    constructor
    · intro success
      obtain ⟨⟨list, after⟩, parameters, run⟩ := bind_success success
      obtain ⟨modifiers, read, same⟩ := bind_success run
      cases same
      exact ⟨ident, list, after, modifiers, parameters, read, rfl⟩
    · rintro ⟨_, list, after, modifiers, parameters, read, rfl⟩
      exact (bind_ok parameters).trans (bind_ok read)
  · rw [if_neg (by simpa using ident)]
    simp [ident]

/-- After the name and the list, a header is read if its modifiers derive from the grammar and its
parts agree. -/
theorem ofTokens_gathered {suffix : String} {name : Token} {header : Header}
    (spelled : NumbersSpelled tokens) :
    Header.ofTokens suffix (name :: tokens) = .ok header ↔
      name.kind = .ident ∧ ∃ list after modifiers,
        Header.readParameters tokens = .ok (list, after) ∧ DerivesModifiers after modifiers ∧
        (WrittenHeader.mk name list modifiers).Valid ∧
        header = (WrittenHeader.mk name list modifiers).header suffix := by
  rw [ofTokens_cons_eq_ok]
  refine and_congr_right fun _ => exists_congr fun list => exists_congr fun after => ?_
  constructor
  · rintro ⟨found, parameters, read, rfl⟩
    obtain ⟨modifiers, derives, counts, compatible, rfl⟩ :=
      (readMarkers_gathered (spelled.of_readParameters parameters)).mp read
    rw [Option.isSome_map] at compatible
    have distinct : ∀ names, (WrittenHeader.mk name list modifiers).names? = some names →
        names.Nodup := by
      rintro _ listed
      obtain ⟨names, rfl, rfl⟩ := Option.map_eq_some_iff.mp listed
      rcases readParameters_eq_ok.mp parameters with
        ⟨_, none, _⟩ | ⟨_, _, _, _, _, _, distinct, same⟩
      · cases none
      · cases same
        exact distinct
    have valid : (WrittenHeader.mk name list modifiers).Valid := ⟨distinct, counts, compatible⟩
    exact ⟨modifiers, parameters, derives, valid,
      assemble_gathered suffix valid.compatible.argumentOnce⟩
  · rintro ⟨modifiers, parameters, derives, valid, rfl⟩
    have compatible := valid.compatible
    rw [← Option.isSome_map (f := fun _ => name.span)] at compatible
    have read := (readMarkers_gathered (spelled.of_readParameters parameters)).mpr
      ⟨modifiers, derives, valid.counts, compatible, rfl⟩
    exact ⟨gathered modifiers, parameters, read,
      (assemble_gathered suffix valid.compatible.argumentOnce).symm⟩

/-- A header is read exactly if it derives from the grammar and its parts agree. -/
theorem ofTokens_eq_ok {suffix : String} {header : Header} (spelled : NumbersSpelled tokens) :
    Header.ofTokens suffix tokens = .ok header ↔
      ∃ written, DerivesHeader tokens written ∧ written.Valid ∧
        header = written.header suffix := by
  constructor
  · intro success
    cases tokens with
    | nil => cases success
    | cons name rest =>
      have spelledRest : NumbersSpelled rest := NumbersSpelled.of_append (a := [name]) spelled
      obtain ⟨ident, list, after, modifiers, parameters, derives, valid, rfl⟩ :=
        (ofTokens_gathered spelledRest).mp success
      refine ⟨⟨name, list, modifiers⟩, ?_, valid, rfl⟩
      rcases readParameters_eq_ok.mp parameters with
        ⟨_, rfl, rfl⟩ | ⟨opening, _, names, rfl, opens, ⟨inner, closing, rfl, between, closes⟩, _, rfl⟩
      · exact .plain ident derives
      · exact .listed ident opens between closes derives
  · rintro ⟨written, derives, valid, rfl⟩
    have spelledRest := NumbersSpelled.of_append (a := [written.name]) (b := tokens.tail)
    cases derives with
    | plain ident derives =>
      refine (ofTokens_gathered (spelledRest spelled)).mpr ⟨ident, _, _, _, ?_, derives, valid, rfl⟩
      exact readParameters_eq_ok.mpr (Or.inl ⟨derives.noParen, rfl, rfl⟩)
    | listed ident opens between closes derives =>
      refine (ofTokens_gathered (spelledRest spelled)).mpr ⟨ident, _, _, _, ?_, derives, valid, rfl⟩
      exact readParameters_eq_ok.mpr (Or.inr
        ⟨_, _, _, rfl, opens, ⟨_, _, rfl, between, closes⟩, valid.distinct _ rfl, rfl⟩)

end Headers

/-! ## Headers of blocks -/

theorem lexeme_of_significant {offset : Nat} {text : List Char} {token : Token}
    (member : token ∈ significantAt offset text) : token.toLexeme ∈ lexemes text := by
  have listed := List.mem_map_of_mem (f := Token.toLexeme) (List.mem_of_mem_filter member)
  rwa [lexAt, place_lexeme] at listed

theorem Block.headerTokens_spelled (block : Block) : NumbersSpelled block.headerTokens :=
  fun _ member isNumber => Lexer.matches_number_of_number (lexeme_of_significant member) isNumber

/-- The header of a block is read exactly if it derives from the grammar and its parts agree. It
then says what is written, with a span for each name it declares, and is no reason for a report.
Otherwise the one report on the block is an error. Modifiers may stand in any order: a header with
the same modifiers in another order is read if this one is, and says the same. -/
theorem Header.read_iff_derives (source : Nat) (suffix : String) (block : Block) :
    (∀ header, ofTokens suffix block.headerTokens = .ok header ↔
      ∃ written, DerivesHeader block.headerTokens written ∧ written.Valid ∧
        header = written.header suffix) ∧
    (∀ header, ofTokens suffix block.headerTokens = .ok header →
      header.declaredSpans.length = header.descriptor.declaredNames.length ∧
      ∀ report, Query.ofBlock source suffix block = .error report →
        report.kind = .emptyQueryBody) ∧
    ((¬∃ written, DerivesHeader block.headerTokens written ∧ written.Valid) →
      ∃ fault : HeaderFault, ofTokens suffix block.headerTokens = .error fault ∧
        Query.ofBlock source suffix block = .error (fault.report source block) ∧
        (fault.report source block).isError = true) ∧
    ∀ written other : WrittenHeader, other.name.text = written.name.text →
      other.names? = written.names? → written.forms.Perm other.forms → written.Valid →
        other.Valid ∧ other.descriptor suffix = written.descriptor suffix := by
  have reads := fun header => @ofTokens_eq_ok block.headerTokens suffix header
    block.headerTokens_spelled
  refine ⟨reads, fun header read => ⟨?_, fun report failed => ?_⟩, fun underivable => ?_, ?_⟩
  · obtain ⟨written, _, _, rfl⟩ := (reads header).mp read
    exact written.declaredSpans_length
  · unfold Query.ofBlock at failed
    rw [read] at failed
    dsimp only at failed
    split at failed
    · cases failed
    · cases failed
      rfl
  · cases outcome : ofTokens suffix block.headerTokens with
    | ok header =>
      obtain ⟨written, derives, valid, _⟩ := (reads header).mp outcome
      exact absurd ⟨written, derives, valid⟩ underivable
    | error fault =>
      refine ⟨fault, rfl, ?_, fault.report_isError source block⟩
      unfold Query.ofBlock
      rw [outcome]
  · intro written other sameName sameNames reordered valid
    have reordered := valid.reorder sameName sameNames reordered
    exact ⟨reordered.1, reordered.2 suffix⟩

/-- `!{}` goes with `?{name}` in either order, but not with `?{2}`. -/
theorem Header.read_iff_derives_exact :
    let block : Block := ⟨0, "--!q ?\x7bid\x7d !\x7b\x7d\n".toList, "select :id;\n".toList⟩
    let counted : Block := ⟨0, "--!q !\x7b\x7d ?\x7b2\x7d\n".toList, "select $1, $2;\n".toList⟩
    (∃ header written, ofTokens "" block.headerTokens = .ok header ∧
      DerivesHeader block.headerTokens written ∧ written.Valid ∧ header = written.header "" ∧
      header.descriptor = ⟨"q", .positionalOptional (.named "id"), .exactlyOne, false⟩ ∧
      header.declaredSpans.length = 1 ∧
      ∀ other : WrittenHeader, other.name.text = written.name.text →
        other.names? = written.names? → other.forms = written.forms.reverse →
          other.Valid ∧ other.descriptor "" = written.descriptor "") ∧
    ∃ fault : HeaderFault, ofTokens "" counted.headerTokens = .error fault ∧
      Query.ofBlock 0 "" counted = .error (fault.report 0 counted) ∧
      (fault.report 0 counted).isError = true := by
  intro block counted
  have read : ∃ header, ofTokens "" block.headerTokens = .ok header ∧ header.descriptor =
      ⟨"q", .positionalOptional (.named "id"), .exactlyOne, false⟩ := ⟨_, rfl, by decide +kernel⟩
  constructor
  · obtain ⟨header, read, said⟩ := read
    obtain ⟨accepts, parallel, _, reorders⟩ := Header.read_iff_derives 0 "" block
    obtain ⟨written, derives, valid, same⟩ := (accepts header).mp read
    refine ⟨header, written, read, derives, valid, same, said, ?_, ?_⟩
    · rw [(parallel header read).1, said]
      rfl
    · intro other sameName sameNames reversed
      refine reorders written other sameName sameNames ?_ valid
      rw [reversed]
      exact (List.reverse_perm _).symm
  · obtain ⟨accepts, _, rejects, _⟩ := Header.read_iff_derives 0 "" counted
    refine rejects ?_
    rintro ⟨written, derives, valid⟩
    have impossible := (accepts _).mpr ⟨written, derives, valid, rfl⟩
    have fails : (ofTokens "" counted.headerTokens).toOption = none := by decide +kernel
    rw [impossible] at fails
    cases fails

end AnnotatedSql
