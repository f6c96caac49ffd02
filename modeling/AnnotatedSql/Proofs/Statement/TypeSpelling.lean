import AnnotatedSql.Proofs.Parameter.Casts

/-!
# How type names are spelled

A type name is a word with the words that qualify it and those that complete it. A modifier in
parentheses follows, before the words of a time zone, and array suffixes end the name. A spelling is
read as a whole, whatever follows that cannot continue it, unless words of a time zone stand after a
modifier.
-/

namespace AnnotatedSql

/-- The spelling of the lexeme as a part of a type name. -/
def Lexeme.typeWord (lexeme : Lexeme) : String :=
  if lexeme.kind = .ident then foldCase lexeme.text else lexeme.text

/-- Whether the lexeme is the keyword, in any case of letters. -/
def Lexeme.isKeyword (lexeme : Lexeme) (keyword : String) : Bool :=
  lexeme.kind == .ident && equalFold lexeme.text keyword

/-! ## Runs of tokens -/

namespace Statement

/-- The lexemes stand one after another from token `i` on. -/
def HasAt (s : Statement) (i : Nat) (lexemes : List Lexeme) : Prop :=
  lexemes <+: s.lexemes.toList.drop i

instance (s : Statement) (i : Nat) (lexemes : List Lexeme) : Decidable (s.HasAt i lexemes) :=
  inferInstanceAs (Decidable (_ <+: _))

namespace HasAt

variable {s : Statement} {i : Nat} {lexeme : Lexeme} {first rest : List Lexeme}

theorem left (written : s.HasAt i (first ++ rest)) : s.HasAt i first :=
  (List.prefix_append first rest).trans written

theorem right (written : s.HasAt i (first ++ rest)) : s.HasAt (i + first.length) rest := by
  obtain ⟨after, whole⟩ := written
  refine ⟨after, ?_⟩
  rw [← List.drop_drop, ← whole, List.append_assoc, List.drop_left]

theorem tail (written : s.HasAt i (lexeme :: rest)) : s.HasAt (i + 1) rest := by
  have parts : s.HasAt i ([lexeme] ++ rest) := written
  exact parts.right

theorem head (written : s.HasAt i (lexeme :: rest)) : s.lexemes[i]? = some lexeme := by
  obtain ⟨after, whole⟩ := written
  have first : (s.lexemes.toList.drop i)[0]? = some lexeme := by
    rw [← whole]
    rfl
  simpa using first

theorem kind (written : s.HasAt i (lexeme :: rest)) : s.kind? i = some lexeme.kind := by
  rw [kind?, written.head, Option.map_some]

theorem is (written : s.HasAt i (lexeme :: rest)) : s.is i lexeme.kind = true := by
  rw [Statement.is, written.kind]
  exact beq_self_eq_true _

theorem isKeyword (written : s.HasAt i (lexeme :: rest)) (keyword : String) :
    s.isKeyword i keyword = lexeme.isKeyword keyword := by
  rw [Statement.isKeyword, Statement.is, written.kind, text, written.head]
  rfl

theorem typeWord (written : s.HasAt i (lexeme :: rest)) (word : lexeme.kind.isWord = true) :
    s.typeWord? i = some lexeme.typeWord := by
  rw [typeWord?, written.kind, text, written.head]
  unfold Lexeme.typeWord
  cases kind : lexeme.kind <;> simp_all [TokenKind.isWord]

/-- What is written in a statement is no longer than it. -/
theorem length_le_size (written : s.HasAt i first) : first.length ≤ s.size := by
  have bound : first.length ≤ (s.lexemes.toList.drop i).length := written.length_le
  rw [List.length_drop, Array.length_toList] at bound
  exact Nat.le_trans bound (Nat.sub_le _ _)

end HasAt

end Statement

/-! ## Spellings -/

/-- The words are the keywords, in any case of letters. -/
def SpellKeywords (words : List Lexeme) (keywords : List String) : Prop :=
  List.Forall₂ (fun word keyword => word.isKeyword keyword = true) words keywords

/-- The words that complete a type name after its first word, `second` before a modifier and `zone`
after it, and the text that all of them stand for. -/
inductive Completes : (word : String) → (second zone : List Lexeme) → (text : String) → Prop
  | alone (word : String) : Completes word [] [] word
  | precision {second : List Lexeme} (spelled : SpellKeywords second ["precision"]) :
      Completes "double" second [] "double precision"
  | varying {second : List Lexeme} (spelled : SpellKeywords second ["varying"]) :
      Completes "character" second [] "varchar"
  | timestampWith {zone : List Lexeme} (spelled : SpellKeywords zone ["with", "time", "zone"]) :
      Completes "timestamp" [] zone "timestamptz"
  | timeWith {zone : List Lexeme} (spelled : SpellKeywords zone ["with", "time", "zone"]) :
      Completes "time" [] zone "time"
  | without {word : String} {zone : List Lexeme} (named : word = "timestamp" ∨ word = "time")
      (spelled : SpellKeywords zone ["without", "time", "zone"]) : Completes word [] zone word

/-- Only a name of one word has a time zone. -/
theorem Completes.second_eq_nil {word text : String} {second zone : List Lexeme}
    (completed : Completes word second zone text) (zoned : zone ≠ []) : second = [] := by
  cases completed with
  | precision => exact absurd rfl zoned
  | varying => exact absurd rfl zoned
  | _ => rfl

/-- The tokens between the parentheses of a modifier. -/
structure TypeModifier where
  inner : List Lexeme
  flat : ∀ lexeme ∈ inner, lexeme.kind ≠ .parenOpen ∧ lexeme.kind ≠ .parenClose

/-- A name after the names that qualify it, with dots between them. -/
def qualifiedName : List Lexeme → Lexeme → List Lexeme
  | [], name => [name]
  | part :: path, name => part :: ⟨.dot, "."⟩ :: qualifiedName path name

/-- A modifier with its parentheses. -/
def groupLexemes : Option TypeModifier → List Lexeme
  | none => []
  | some modifier => ⟨.parenOpen, "("⟩ :: (modifier.inner ++ [⟨.parenClose, ")"⟩])

/-- An array suffix, which may hold a size. -/
def suffixLexemes : Option Lexeme → List Lexeme
  | none => [⟨.bracketOpen, "["⟩, ⟨.bracketClose, "]"⟩]
  | some size => [⟨.bracketOpen, "["⟩, size, ⟨.bracketClose, "]"⟩]

/-- A type name as written, but for a modifier. -/
structure TypeSpelling where
  /-- The names that qualify it, outermost first. -/
  path : List Lexeme := []
  name : Lexeme
  second : List Lexeme := []
  zone : List Lexeme := []
  /-- The sizes of the array suffixes. -/
  suffixes : List (Option Lexeme) := []
  /-- What the name and the words that complete it stand for. -/
  element : String
  qualified : ∀ part ∈ path, part.kind.isWord = true := by simp
  word : name.kind.isWord = true
  completed : Completes name.typeWord second zone element
  sizes : ∀ size, some size ∈ suffixes → size.kind = .number := by simp

namespace TypeSpelling

/-- The text that the type name is read as. -/
def text (t : TypeSpelling) : String :=
  t.element ++ String.join (List.replicate t.suffixes.length "[]")

/-- The lexemes of the type name with a modifier or without one. -/
def lexemes (t : TypeSpelling) (modifier : Option TypeModifier) : List Lexeme :=
  qualifiedName t.path t.name ++
    (t.second ++ (groupLexemes modifier ++ (t.zone ++ t.suffixes.flatMap suffixLexemes)))

end TypeSpelling

namespace Statement

/-- Whether an array suffix stands at token `i`. -/
def suffixAt (s : Statement) (i : Nat) : Bool :=
  s.is i .bracketOpen &&
    (s.is (i + 1) .bracketClose || (s.is (i + 1) .number && s.is (i + 2) .bracketClose))

/-- Whether parentheses that are closed open at token `i`. -/
def groupAt (s : Statement) (i : Nat) : Bool := s.is i .parenOpen && (s.partner i).isSome

/-- Whether token `i` is a dot before a word. -/
def dottedAt (s : Statement) (i : Nat) : Bool := s.is i .dot && s.isWord (i + 1)

/-- Whether the words at token `i` complete a type name after `word`. -/
def completedAt (s : Statement) (word : String) (i : Nat) : Bool :=
  (word == "double" && s.isKeyword i "precision") ||
    (word == "character" && s.isKeyword i "varying") ||
    ((word == "timestamp" || word == "time") && (s.isTimeZone i "with" || s.isTimeZone i "without"))

/-- The type name stands at token `i`, and what follows does not continue it. -/
structure Spells (s : Statement) (i : Nat) (t : TypeSpelling) (modifier : Option TypeModifier) :
    Prop where
  written : s.HasAt i (t.lexemes modifier)
  suffix : s.suffixAt (i + (t.lexemes modifier).length) = false
  group : modifier = none → t.suffixes = [] →
    s.groupAt (i + (t.lexemes modifier).length) = false
  dotted : modifier = none → t.second ++ t.zone = [] → t.suffixes = [] →
    s.dottedAt (i + (t.lexemes modifier).length) = false
  completed : modifier = none → t.second ++ t.zone = [] → t.suffixes = [] →
    s.completedAt t.name.typeWord (i + (t.lexemes modifier).length) = false

/-! ## Reading -/

variable {s : Statement} {i fuel : Nat} {word text : String}

/-- Where a type name goes on with a token that is no word and no dot, its first words are all. -/
theorem ends_of_is {kind : TokenKind} (found : s.is i kind = true) (noDot : kind ≠ .dot)
    (noWord : kind ≠ .ident) : s.dottedAt i = false ∧ s.completedAt word i = false := by
  have noKeyword : ∀ keyword, s.isKeyword i keyword = false := by
    intro keyword
    rw [isKeyword, is_eq_false found noWord, Bool.false_and]
  simp [dottedAt, completedAt, isTimeZone, is_eq_false found noDot, noKeyword]

theorem followTypeDots_end (ends : s.dottedAt i = false) :
    s.followTypeDots fuel word i = (word, i) := by
  cases fuel with
  | zero => rfl
  | succ fuel =>
    unfold followTypeDots
    split
    next dot =>
      split
      next part found =>
        rw [dottedAt, dot, isWord_of_typeWord found] at ends
        cases ends
      next => rfl
    next => rfl

/-- A qualified name is followed to its last part. -/
theorem followTypeDots_qualified {path : List Lexeme} {name : Lexeme}
    (qualified : ∀ part ∈ path, part.kind.isWord = true) (named : name.kind.isWord = true)
    (written : s.HasAt i (qualifiedName path name))
    (ends : s.dottedAt (i + (qualifiedName path name).length) = false)
    (enough : path.length ≤ fuel) : ∃ first, s.typeWord? i = some first ∧
      s.followTypeDots fuel first (i + 1) =
        (name.typeWord, i + (qualifiedName path name).length) := by
  induction path generalizing i fuel with
  | nil => exact ⟨_, written.typeWord named, followTypeDots_end ends⟩
  | cons part path ih =>
    obtain ⟨less, rfl⟩ := Nat.exists_eq_add_of_le' (Nat.one_le_of_lt enough)
    have further : ∀ other ∈ path, other.kind.isWord = true := fun other member =>
      qualified other (List.mem_cons_of_mem _ member)
    have length : i + (qualifiedName (part :: path) name).length =
        i + 1 + 1 + (qualifiedName path name).length := by
      simp only [qualifiedName, List.length_cons]
      omega
    rw [length] at ends ⊢
    obtain ⟨next, found, followed⟩ :=
      ih further written.tail.tail ends (Nat.le_of_succ_le_succ enough)
    refine ⟨_, written.typeWord (qualified part List.mem_cons_self), ?_⟩
    rw [followTypeDots, if_pos written.tail.is, found]
    exact followed

/-- A token is one keyword. -/
theorem foldCase_eq_of_keyword {first second : String} (found : s.isKeyword i first = true)
    (again : s.isKeyword i second = true) : foldCase first = foldCase second := by
  simp only [isKeyword, Bool.and_eq_true, equalFold_iff] at found again
  exact found.2.symm.trans again.2

/-- A type name that nothing completes stands for itself. -/
theorem completeType_alone (ends : s.completedAt word i = false) :
    s.completeType word i = (word, i) := by
  simp only [completedAt, Bool.or_eq_false_iff, Bool.and_eq_false_iff] at ends
  unfold completeType
  grind

namespace HasAt

variable {words second zone : List Lexeme} {keyword first : String}

theorem spelledKeyword (written : s.HasAt i words) (spelled : SpellKeywords words [keyword]) :
    s.isKeyword i keyword = true ∧ words.length = 1 := by
  rcases spelled with _ | ⟨found, _ | _⟩
  exact ⟨(written.isKeyword keyword).trans found, rfl⟩

theorem isTimeZone (written : s.HasAt i zone)
    (spelled : SpellKeywords zone [first, "time", "zone"]) :
    s.isTimeZone i first = true ∧ zone.length = 3 := by
  rcases spelled with _ | ⟨starts, _ | ⟨time, _ | ⟨last, _ | _⟩⟩⟩
  rw [Statement.isTimeZone, written.isKeyword, written.tail.isKeyword, written.tail.tail.isKeyword,
    starts, time, last]
  exact ⟨rfl, rfl⟩

/-- The words that complete a type name are read with it, if nothing stands between them. -/
theorem completeType (written : s.HasAt i (second ++ zone))
    (completed : Completes word second zone text)
    (ends : second ++ zone = [] → s.completedAt word i = false) :
    s.completeType word i = (text, i + (second ++ zone).length) := by
  cases completed with
  | alone => exact completeType_alone (ends rfl)
  | precision spelled =>
    rw [List.append_nil] at written ⊢
    obtain ⟨found, length⟩ := written.spelledKeyword spelled
    simp [Statement.completeType, found, length]
  | varying spelled =>
    rw [List.append_nil] at written ⊢
    obtain ⟨found, length⟩ := written.spelledKeyword spelled
    simp [Statement.completeType, found, length]
  | timestampWith spelled =>
    rw [List.nil_append] at written ⊢
    obtain ⟨found, length⟩ := written.isTimeZone spelled
    simp [Statement.completeType, found, length]
  | timeWith spelled =>
    rw [List.nil_append] at written ⊢
    obtain ⟨found, length⟩ := written.isTimeZone spelled
    simp [Statement.completeType, found, length]
  | without named spelled =>
    rw [List.nil_append] at written ⊢
    obtain ⟨found, length⟩ := written.isTimeZone spelled
    have other : s.isTimeZone i "with" = false := by
      simp only [Statement.isTimeZone, Bool.and_eq_true] at found
      simp only [Statement.isTimeZone, Bool.and_eq_false_iff]
      refine Or.inl (Or.inl (Bool.eq_false_iff.mpr fun starts => ?_))
      have same := foldCase_eq_of_keyword found.1.1 starts
      simp [foldCase_eq_ofList] at same
    rcases named with rfl | rfl
    · simp [Statement.completeType, found, length, other]
    · simp [Statement.completeType, found, length, other]

end HasAt

theorem arraySuffixes_end (ends : s.suffixAt i = false) : s.arraySuffixes fuel i = (0, i) := by
  cases fuel with
  | zero => rfl
  | succ fuel =>
    unfold suffixAt at ends
    rw [arraySuffixes]
    split
    next opens =>
      rw [opens, Bool.true_and, Bool.or_eq_false_iff] at ends
      cases sized : s.is (i + 1) .number with
      | true => simpa [sized] using ends.2
      | false => simp [ends.1]
    next => rfl

/-- An array suffix is counted, with a size or without one. -/
theorem arraySuffixes_suffix {suffix : Option Lexeme}
    (size : ∀ number, suffix = some number → number.kind = .number)
    (written : s.HasAt i (suffixLexemes suffix)) : s.arraySuffixes (fuel + 1) i =
      ((s.arraySuffixes fuel (i + (suffixLexemes suffix).length)).1 + 1,
        (s.arraySuffixes fuel (i + (suffixLexemes suffix).length)).2) := by
  cases suffix with
  | none =>
    have closes : s.is (i + 1) .bracketClose = true := written.tail.is
    rw [arraySuffixes, if_pos written.is]
    simp [suffixLexemes, is_eq_false closes, closes]
  | some number =>
    have sized : s.is (i + 1) .number = true := size number rfl ▸ written.tail.is
    have closes : s.is (i + 2) .bracketClose = true := written.tail.tail.is
    rw [arraySuffixes, if_pos written.is]
    simp [suffixLexemes, sized, closes]

/-- Array suffixes are counted until something else follows. -/
theorem HasAt.arraySuffixes {suffixes : List (Option Lexeme)}
    (sizes : ∀ size, some size ∈ suffixes → size.kind = .number)
    (written : s.HasAt i (suffixes.flatMap suffixLexemes))
    (ends : s.suffixAt (i + (suffixes.flatMap suffixLexemes).length) = false)
    (enough : suffixes.length ≤ fuel) :
    s.arraySuffixes fuel i =
      (suffixes.length, i + (suffixes.flatMap suffixLexemes).length) := by
  induction suffixes generalizing i fuel with
  | nil => exact arraySuffixes_end ends
  | cons suffix suffixes ih =>
    obtain ⟨less, rfl⟩ := Nat.exists_eq_add_of_le' (Nat.one_le_of_lt enough)
    rw [List.flatMap_cons] at written ends ⊢
    rw [List.length_append, ← Nat.add_assoc] at ends ⊢
    have others : ∀ size, some size ∈ suffixes → size.kind = .number := fun size member =>
      sizes size (List.mem_cons_of_mem _ member)
    have first : ∀ number, suffix = some number → number.kind = .number := fun number same =>
      sizes number (same ▸ List.mem_cons_self)
    rw [arraySuffixes_suffix first written.left,
      ih others written.right ends (Nat.le_of_succ_le_succ enough), List.length_cons]

/-- What array suffixes begin with. -/
theorem HasAt.opens_suffix {suffixes : List (Option Lexeme)} (some_ : suffixes ≠ [])
    (written : s.HasAt i (suffixes.flatMap suffixLexemes)) : s.is i .bracketOpen = true := by
  rcases suffixes with _ | ⟨_ | size, suffixes⟩
  · exact absurd rfl some_
  · exact written.is
  · exact written.is

theorem skipGroup_end (ends : s.groupAt i = false) : s.skipGroup i = i := by
  unfold groupAt at ends
  unfold skipGroup
  split
  next opens =>
    rw [opens, Bool.true_and, Option.isSome_eq_false_iff, Option.isNone_iff_eq_none] at ends
    rw [ends]
  next => rfl

/-- What is written in a statement stands between the lexemes before it and those after it. -/
theorem HasAt.split {lexemes : List Lexeme} {lexeme : Lexeme} {rest : List Lexeme}
    (written : (ofLexemes lexemes).HasAt i (lexeme :: rest)) :
    ∃ first after, lexemes = first ++ (lexeme :: rest ++ after) ∧ first.length = i := by
  obtain ⟨after, whole⟩ := written
  have inside : i < lexemes.length := by
    have length := congrArg List.length whole
    simp only [List.length_append, List.length_cons, ofLexemes, List.length_drop] at length
    omega
  refine ⟨lexemes.take i, after, ?_, List.length_take_of_le (Nat.le_of_lt inside)⟩
  rw [whole]
  exact (List.take_append_drop i lexemes).symm

/-- A modifier is skipped with its parentheses. -/
theorem HasAt.skipGroup {lexemes : List Lexeme} {modifier : TypeModifier}
    (written : (ofLexemes lexemes).HasAt i (groupLexemes (some modifier))) :
    (ofLexemes lexemes).skipGroup i = i + (groupLexemes (some modifier)).length := by
  have opens := written.is
  obtain ⟨first, after, rfl, rfl⟩ := written.split
  have same : ⟨.parenOpen, "("⟩ :: (modifier.inner ++ [⟨.parenClose, ")"⟩]) ++ after =
      (⟨.parenOpen, "("⟩ : Lexeme) :: (modifier.inner ++ ⟨.parenClose, ")"⟩ :: after) := by simp
  have paired : (ofLexemes (first ++ (⟨.parenOpen, "("⟩ ::
      (modifier.inner ++ [⟨.parenClose, ")"⟩]) ++ after))).partner first.length =
        some (first.length + 1 + modifier.inner.length) := by
    rw [same]
    exact partner_of_flat rfl rfl modifier.flat
  rw [Statement.skipGroup, if_pos opens, paired]
  simp only [groupLexemes, List.length_cons, List.length_append, List.length_nil]
  omega

/-! ## Whole type names -/

/-- The words that complete a type name begin with a word. -/
theorem HasAt.opens_words {second zone : List Lexeme} (completed : Completes word second zone text)
    (some_ : second ++ zone ≠ []) (written : s.HasAt i (second ++ zone)) :
    s.is i .ident = true := by
  have begins : ∀ {words : List Lexeme} {keyword : String} {keywords : List String},
      s.HasAt i words → SpellKeywords words (keyword :: keywords) → s.is i .ident = true := by
    rintro _ _ _ written (_ | ⟨first, _⟩)
    exact is_of_keyword ((written.isKeyword _).trans first)
  cases completed with
  | alone => exact absurd rfl some_
  | precision spelled => exact begins written.left spelled
  | varying spelled => exact begins written.left spelled
  | timestampWith spelled => exact begins written spelled
  | timeWith spelled => exact begins written spelled
  | without _ spelled => exact begins written spelled

theorem length_le_qualifiedName (path : List Lexeme) (name : Lexeme) :
    path.length ≤ (qualifiedName path name).length := by
  induction path with
  | nil => exact Nat.zero_le _
  | cons part path ih =>
    simp only [qualifiedName, List.length_cons]
    omega

theorem length_le_suffixes (suffixes : List (Option Lexeme)) :
    suffixes.length ≤ (suffixes.flatMap suffixLexemes).length := by
  induction suffixes with
  | nil => exact Nat.zero_le _
  | cons suffix suffixes ih =>
    have some_ : 0 < (suffixLexemes suffix).length := by
      cases suffix <;> simp [suffixLexemes]
    rw [List.flatMap_cons, List.length_cons, List.length_append]
    omega

/-- A type name is read part by part. -/
theorem typeName_of_parts {t : TypeSpelling} {named completed skipped : Nat}
    (qualified : s.HasAt i (qualifiedName t.path t.name))
    (afterName : i + (qualifiedName t.path t.name).length = named)
    (words : s.HasAt named (t.second ++ t.zone))
    (alone : t.second ++ t.zone = [] →
      s.dottedAt named = false ∧ s.completedAt t.name.typeWord named = false)
    (afterWords : named + (t.second ++ t.zone).length = completed)
    (modifier : s.skipGroup completed = skipped)
    (suffixes : s.HasAt skipped (t.suffixes.flatMap suffixLexemes))
    (ends : s.suffixAt (skipped + (t.suffixes.flatMap suffixLexemes).length) = false) :
    s.typeName? i =
      some ⟨t.text, i, skipped + (t.suffixes.flatMap suffixLexemes).length⟩ := by
  have noDot : s.dottedAt named = false := by
    by_cases none_ : t.second ++ t.zone = []
    · exact (alone none_).1
    · rw [dottedAt, is_eq_false (words.opens_words t.completed none_) (by simp), Bool.false_and]
  obtain ⟨first, found, followed⟩ := followTypeDots_qualified t.qualified t.word qualified
    (afterName ▸ noDot)
    (Nat.le_trans (length_le_qualifiedName _ _) qualified.length_le_size)
  have several := words.completeType t.completed fun none_ => (alone none_).2
  have counted := suffixes.arraySuffixes t.sizes ends
    (Nat.le_trans (length_le_suffixes _) suffixes.length_le_size)
  rw [typeName?, found]
  simp only [Option.bind_eq_bind, Option.bind_some, followed, afterName, several, afterWords,
    modifier, counted]
  rfl

namespace Spells

variable {lexemes : List Lexeme} {t : TypeSpelling} {modifier : Option TypeModifier}

/-- A type name is read as a whole, without its modifier, if no words of a time zone follow the
modifier. -/
theorem typeName (spelled : (ofLexemes lexemes).Spells i t modifier)
    (whole : modifier = none ∨ t.zone = []) : (ofLexemes lexemes).typeName? i =
      some ⟨t.text, i, i + (t.lexemes modifier).length⟩ := by
  obtain ⟨written, suffix, group, dotted, completed⟩ := spelled
  cases modifier with
  | none =>
    have parts : t.lexemes none = qualifiedName t.path t.name ++
        (t.second ++ t.zone ++ t.suffixes.flatMap suffixLexemes) := by
      simp [TypeSpelling.lexemes, groupLexemes]
    have length : i + (t.lexemes none).length = i + (qualifiedName t.path t.name).length +
        (t.second ++ t.zone).length + (t.suffixes.flatMap suffixLexemes).length := by
      simp only [parts, List.length_append]
      omega
    rw [length] at suffix group dotted completed ⊢
    rw [parts] at written
    have suffixes := written.right.right
    by_cases none_ : t.suffixes = []
    · have noGroup := group rfl none_
      simp only [none_, List.flatMap_nil, List.length_nil, Nat.add_zero] at noGroup dotted completed
      refine typeName_of_parts written.left rfl written.right.left (fun alone => ?_) rfl
        (skipGroup_end noGroup) suffixes suffix
      have ends := And.intro (dotted trivial alone trivial) (completed trivial alone trivial)
      rwa [alone, List.length_nil, Nat.add_zero] at ends
    · have opens := suffixes.opens_suffix none_
      refine typeName_of_parts written.left rfl written.right.left (fun alone => ?_) rfl
        (skipGroup_end ?_) suffixes suffix
      · rw [alone] at opens
        exact ends_of_is opens (by simp) (by simp)
      · rw [groupAt, is_eq_false opens (by simp), Bool.false_and]
  | some modifier =>
    have noZone := whole.resolve_left (by simp)
    have parts : t.lexemes (some modifier) = qualifiedName t.path t.name ++
        (t.second ++ t.zone ++ (groupLexemes (some modifier) ++
          t.suffixes.flatMap suffixLexemes)) := by
      simp [TypeSpelling.lexemes, noZone]
    have length : i + (t.lexemes (some modifier)).length =
        i + (qualifiedName t.path t.name).length + (t.second ++ t.zone).length +
          (groupLexemes (some modifier)).length + (t.suffixes.flatMap suffixLexemes).length := by
      simp only [parts, List.length_append]
      omega
    rw [length] at suffix ⊢
    rw [parts] at written
    have opens := written.right.right.left.is
    refine typeName_of_parts written.left rfl written.right.left (fun alone => ?_) rfl
      written.right.right.left.skipGroup written.right.right.right suffix
    rw [alone] at opens
    exact ends_of_is opens (by simp) (by simp)

/-- Where words of a time zone follow a modifier, the type name is read to the modifier only. -/
theorem typeName_before_zone {modifier : TypeModifier}
    (spelled : (ofLexemes lexemes).Spells i t (some modifier)) (zoned : t.zone ≠ []) :
    ∃ hi, (ofLexemes lexemes).typeName? i = some ⟨t.name.typeWord, i, hi⟩ ∧
      hi < i + (t.lexemes (some modifier)).length := by
  have oneWord := t.completed.second_eq_nil zoned
  let start : TypeSpelling :=
    { t with second := [], zone := [], suffixes := [], element := t.name.typeWord,
             completed := .alone _, sizes := by simp }
  have parts : t.lexemes (some modifier) =
      start.lexemes (some modifier) ++ (t.zone ++ t.suffixes.flatMap suffixLexemes) := by
    simp [TypeSpelling.lexemes, start, oneWord]
  have written := parts ▸ spelled.written
  have completed := t.completed
  rw [oneWord] at completed
  have words := HasAt.opens_words completed zoned written.right.left
  have begins : (ofLexemes lexemes).Spells i start (some modifier) := by
    refine ⟨written.left, ?_, nofun, nofun, nofun⟩
    rw [suffixAt, is_eq_false words (by simp), Bool.false_and]
  have bare : start.text = t.name.typeWord := by simp [TypeSpelling.text, start]
  refine ⟨i + (start.lexemes (some modifier)).length, ?_, ?_⟩
  · rw [begins.typeName (Or.inr rfl), bare]
  · have some_ := List.length_pos_iff.mpr zoned
    simp only [parts, List.length_append]
    omega

end Spells

/-- The tokens from `i` on are read as a type name of the given text, and so is a cast to them. -/
structure ReadsType (s : Statement) (i length : Nat) (text : String) : Prop where
  name : s.typeName? i = some ⟨text, i, i + length⟩
  cast : ∀ p, s.CastTo p i (i + length) → s.castHint? p = some ⟨text, i, i + length⟩

theorem readsType_of_typeName (matched : s.Matched) {length : Nat}
    (found : s.typeName? i = some ⟨text, i, i + length⟩) : s.ReadsType i length text :=
  ⟨found, fun _ cast => (castHint_iff matched).mpr ⟨found, cast⟩⟩

end Statement

/-- A type name with a modifier is read as the one without it, and each to its end, exactly if no
words of a time zone follow the modifier. -/
theorem Body.modifier_neutral_iff {modified bare : Body} {t : TypeSpelling}
    {modifier : TypeModifier} {i j : Nat} (spelled : modified.statement.Spells i t (some modifier))
    (spelledBare : bare.statement.Spells j t none) :
    (∃ text, modified.statement.ReadsType i (t.lexemes (some modifier)).length text ∧
      bare.statement.ReadsType j (t.lexemes none).length text) ↔ t.zone = [] := by
  constructor
  · rintro ⟨text, whole, _⟩
    by_contra zoned
    obtain ⟨hi, found, before⟩ := spelled.typeName_before_zone zoned
    have same := Option.some.inj (found.symm.trans whole.name)
    rw [(TypeName.mk.injEq _ _ _ _ _ _).mp same |>.2.2] at before
    exact Nat.lt_irrefl _ before
  · intro noZone
    exact ⟨t.text,
      Statement.readsType_of_typeName (Statement.ofLexemes_matched _)
        (spelled.typeName (Or.inr noZone)),
      Statement.readsType_of_typeName (Statement.ofLexemes_matched _)
        (spelledBare.typeName (Or.inl rfl))⟩

/-- A qualified name with two numbers as its modifier and two array suffixes. -/
theorem Body.qualified_numeric_modifier :
    let modified := Body.read 0 "select :x::pg_catalog.numeric(10, 2)[][3]".toList
    let bare := Body.read 0 "select :x::pg_catalog.numeric[][3]".toList
    (∃ text, modified.statement.ReadsType 3 13 text ∧ bare.statement.ReadsType 3 8 text) ∧
      modified.statement.castHint? 1 = some ⟨"numeric[][]", 3, 16⟩ := by
  intro modified bare
  let t : TypeSpelling :=
    { path := [⟨.ident, "pg_catalog"⟩], name := ⟨.ident, "numeric"⟩
      suffixes := [none, some ⟨.number, "3"⟩], element := Lexeme.typeWord ⟨.ident, "numeric"⟩
      qualified := by decide, word := rfl, completed := .alone _, sizes := by simp }
  let modifier : TypeModifier := ⟨[⟨.number, "10"⟩, ⟨.comma, ","⟩, ⟨.number, "2"⟩], by decide⟩
  have spelled : modified.statement.Spells 3 t (some modifier) :=
    ⟨by decide +kernel, by decide +kernel, nofun, nofun, nofun⟩
  have spelledBare : bare.statement.Spells 3 t none :=
    ⟨by decide +kernel, by decide +kernel, nofun, nofun, nofun⟩
  exact ⟨(Body.modifier_neutral_iff spelled spelledBare).mpr rfl, by decide +kernel⟩

/-- After a modifier the words of a time zone are not read: the cast is to another type than the one
without the modifier. -/
theorem Query.modifier_hides_time_zone :
    let queries := (parseModule 0 "_stream" ("--! a\nselect :at::timestamp(3) with time zone;\n" ++
      "--! b\nselect :at::timestamp with time zone;\n").toList).queries
    queries.map (fun query => query.statement.castHint? 1) =
        [some ⟨"timestamp", 3, 7⟩, some ⟨"timestamptz", 3, 7⟩] ∧
      queries.map (fun query => query.statement.isTimeZone 7 "with") = [true, false] := by
  decide +kernel

end AnnotatedSql
