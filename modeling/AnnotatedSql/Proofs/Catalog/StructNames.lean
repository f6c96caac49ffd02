import AnnotatedSql.Proofs.Catalog.WellFormed
import AnnotatedSql.Proofs.Header.Canonical
import Mathlib

/-!
# Names of generated types

Rows and arguments of a query are read into types that go by the name of the query in Pascal case. Such a
name consists of letters and digits, but it need not begin with a letter: that of rows does exactly if a
letter comes first after the underscores in front, that of arguments also if nothing comes after them.
-/

namespace AnnotatedSql

/-- The first character of the name that is no underscore. -/
def initial? (name : String) : Option Char := name.toList.find? (· != '_')

section Words

variable {c : Char} {name : String} {text word : List Char}

/-! ## Words of a text -/

/-- What belongs to a word separates none. -/
theorem mem_words (listed : word ∈ words text) (member : c ∈ word) :
    c ∈ text ∧ isWordBreak c = false := by
  induction text generalizing word with
  | nil =>
    obtain rfl := List.mem_singleton.mp listed
    cases member
  | cons first text ih =>
    have later : ∀ other ∈ words text, c ∈ other → c ∈ first :: text ∧ isWordBreak c = false :=
      fun other listed member => (ih listed member).imp_left (List.mem_cons_of_mem _)
    unfold words at listed
    split at listed
    · rcases List.mem_cons.mp listed with rfl | listed
      · cases member
      · exact later word listed member
    next noBreak =>
      have noBreak : isWordBreak first = false := Bool.eq_false_iff.mpr noBreak
      split at listed
      · obtain rfl := List.mem_singleton.mp listed
        obtain rfl := List.mem_singleton.mp member
        exact ⟨List.mem_cons_self, noBreak⟩
      next rest others whole =>
        rcases List.mem_cons.mp listed with rfl | listed
        · rcases List.mem_cons.mp member with rfl | member
          · exact ⟨List.mem_cons_self, noBreak⟩
          · exact later rest (by rw [whole]; exact List.mem_cons_self) member
        · exact later word (by rw [whole]; exact List.mem_cons_of_mem _ listed) member

/-- Each character stands for one of the word, in one case or the other. -/
theorem mem_capitalized (member : c ∈ capitalized word) :
    ∃ d ∈ word, c = d ∨ c = d.toUpper ∨ c = d.toLower := by
  cases word with
  | nil => cases member
  | cons first rest =>
    unfold capitalized at member
    dsimp only at member
    rcases List.mem_cons.mp member with rfl | member
    · exact ⟨first, List.mem_cons_self, Or.inr (Or.inl rfl)⟩
    · split at member
      · exact ⟨c, List.mem_cons_of_mem _ member, Or.inl rfl⟩
      · obtain ⟨d, listed, rfl⟩ := List.mem_map.mp member
        exact ⟨d, List.mem_cons_of_mem _ listed, Or.inr (Or.inr rfl)⟩

/-- The first word that is not empty gives the first character, as a capital. -/
theorem head_capitalized (text : List Char) : ((words text).flatMap capitalized).head? =
    (text.find? (!isWordBreak ·)).map Char.toUpper := by
  induction text with
  | nil => rfl
  | cons first text ih =>
    unfold words
    split
    next isBreak =>
      rw [List.find?_cons_of_neg (by simp [isBreak]), ← ih]
      rfl
    next noBreak =>
      rw [List.find?_cons_of_pos (by simpa using noBreak)]
      split <;> rfl

theorem mem_pascalCase (member : c ∈ (pascalCase name).toList) :
    ∃ d ∈ name.toList, isWordBreak d = false ∧ (c = d ∨ c = d.toUpper ∨ c = d.toLower) := by
  rw [pascalCase, String.toList_ofList] at member
  obtain ⟨word, listed, member⟩ := List.mem_flatMap.mp member
  obtain ⟨d, inside, cased⟩ := mem_capitalized member
  obtain ⟨present, noBreak⟩ := mem_words listed inside
  exact ⟨d, present, noBreak, cased⟩

end Words

/-! ## Identifiers -/

section Identifiers

variable {c : Char} {name : String}

theorem isAlphanum_toUpper (c : Char) : c.toUpper.isAlphanum = c.isAlphanum := by
  by_cases small : c.isLower = true
  · simp [Char.isAlphanum, Char.isAlpha, small]
  · rw [Char.toUpper_eq_of_not_isLower small]

theorem isAlphanum_toLower (c : Char) : c.toLower.isAlphanum = c.isAlphanum := by
  by_cases capital : c.isUpper = true
  · simp [Char.isAlphanum, Char.isAlpha, capital]
  · rw [Char.toLower_eq_of_not_isUpper capital]

theorem isIdentifier_iff : IsIdentifier name ↔
    (∃ c, name.toList.head? = some c ∧ Rule.letter c = true) ∧
      ∀ c ∈ name.toList, Rule.wordChar c = true := by
  unfold IsIdentifier
  constructor
  · intro matched
    obtain ⟨_, words⟩ := Rule.all_wordChar matched
    refine ⟨?_, List.all_eq_true.mp words⟩
    cases text : name.toList with
    | nil => simp [text] at *
    | cons first rest =>
      rw [text] at matched
      exact ⟨first, rfl, (Rule.matches_word.mp matched).1⟩
  · rintro ⟨⟨first, begins, isLetter⟩, words⟩
    obtain ⟨rest, text⟩ := List.head?_eq_some_iff.mp begins
    rw [text] at words ⊢
    refine Rule.matches_word.mpr ⟨isLetter, List.all_eq_true.mpr fun c member => ?_⟩
    exact words c (List.mem_cons_of_mem _ member)

/-- In an identifier only underscores separate words. -/
theorem isWordBreak_of_wordChar (inWord : Rule.wordChar c = true) :
    isWordBreak c = (c == '_') := by
  have others : ∀ other ∈ ['-', '.', ' '], (c == other) = false := by
    intro other member
    refine beq_eq_false_iff_ne.mpr ?_
    rintro rfl
    revert inWord
    fin_cases member <;> decide
  simp [isWordBreak, others]

theorem isAlphanum_of_wordChar (inWord : Rule.wordChar c = true)
    (noBreak : isWordBreak c = false) : c.isAlphanum = true := by
  rw [isWordBreak_of_wordChar inWord] at noBreak
  simpa [Rule.wordChar, noBreak] using inWord

/-- No underscore is left of an identifier in Pascal case. -/
theorem isAlphanum_of_mem_pascalCase (identifier : IsIdentifier name)
    (member : c ∈ (pascalCase name).toList) : c.isAlphanum = true := by
  obtain ⟨d, present, noBreak, cased⟩ := mem_pascalCase member
  have alphanum := isAlphanum_of_wordChar ((isIdentifier_iff.mp identifier).2 d present) noBreak
  rcases cased with rfl | rfl | rfl
  · exact alphanum
  · rw [isAlphanum_toUpper, alphanum]
  · rw [isAlphanum_toLower, alphanum]

/-- What an identifier becomes begins with its first character that is no underscore. -/
theorem head_pascalCase (identifier : IsIdentifier name) :
    (pascalCase name).toList.head? = (initial? name).map Char.toUpper := by
  have same : name.toList.find? (!isWordBreak ·) = name.toList.find? (· != '_') := by
    refine List.find?_congr fun c member => ?_
    rw [isWordBreak_of_wordChar ((isIdentifier_iff.mp identifier).2 c member)]
    rfl
  rw [pascalCase, String.toList_ofList, head_capitalized, same, initial?]

theorem letter_of_alphanum (alphanum : c.isAlphanum = true) : Rule.letter c = c.isAlpha := by
  have noUnderscore : c ≠ '_' := by
    rintro rfl
    revert alphanum
    decide
  simp [Rule.letter, noUnderscore]

/-- An identifier in Pascal case, with what is put after it, is an identifier if a letter comes first,
and only then. -/
theorem isIdentifier_pascalCase_append (identifier : IsIdentifier name) (ending : String)
    (plain : ∀ c ∈ ending.toList, c.isAlphanum = true) :
    (∀ c ∈ (pascalCase name ++ ending).toList, c.isAlphanum = true) ∧
      (IsIdentifier (pascalCase name ++ ending) ↔
        ∃ c, (initial? name).or ending.toList.head? = some c ∧ c.isAlpha = true) := by
  have alphanum : ∀ c ∈ (pascalCase name ++ ending).toList, c.isAlphanum = true := by
    intro c member
    rw [String.toList_append] at member
    rcases List.mem_append.mp member with inName | after
    · exact isAlphanum_of_mem_pascalCase identifier inName
    · exact plain c after
  have words : ∀ c ∈ (pascalCase name ++ ending).toList, Rule.wordChar c = true := fun c member => by
    simp [Rule.wordChar, alphanum c member]
  have head : (pascalCase name ++ ending).toList.head? =
      ((initial? name).map Char.toUpper).or ending.toList.head? := by
    rw [String.toList_append, List.head?_append, head_pascalCase identifier]
  refine ⟨alphanum, ?_⟩
  rw [isIdentifier_iff, and_iff_left words]
  have letters : ∀ c, (pascalCase name ++ ending).toList.head? = some c →
      Rule.letter c = c.isAlpha := fun c begins =>
    letter_of_alphanum (alphanum c (List.mem_of_head? begins))
  cases first : initial? name with
  | some initial =>
    rw [first, Option.map_some, Option.some_or] at head
    have same := (letters _ head).trans (Char.isAlpha_toUpper_eq_isAlpha initial)
    rw [head]
    simp [same]
  | none =>
    rw [first, Option.map_none, Option.none_or] at head
    rw [Option.none_or, ← head]
    exact exists_congr fun c => and_congr_right fun begins => by rw [letters c begins]

end Identifiers

/-! ## Entries -/

/-- The names of the types for an entry whose query was read from a module, and when they are
identifiers. -/
theorem CatalogEntry.structNames_identifiers {source : Nat} {suffix : String} {text : List Char}
    {entry : CatalogEntry} (parsed : entry.query ∈ (parseModule source suffix text).queries) :
    (∀ row, entry.rowStruct? = some row → (∀ c ∈ row.toList, c.isAlphanum = true) ∧
      (IsIdentifier row ↔ ∃ c, initial? entry.name = some c ∧ c.isAlpha = true)) ∧
    ∀ params, entry.paramsStruct? = some params → (∀ c ∈ params.toList, c.isAlphanum = true) ∧
      (IsIdentifier params ↔ ∀ c, initial? entry.name = some c → c.isAlpha = true) := by
  have identifier : IsIdentifier entry.name := (canonical_of_parsed parsed).name
  constructor
  · intro row named
    unfold rowStruct? at named
    split at named
    · cases named
      simpa using isIdentifier_pascalCase_append identifier "" (by simp)
    · cases named
  · intro params named
    unfold paramsStruct? at named
    split at named
    · cases named
    · cases named
      have plain : ∀ c ∈ "Params".toList, c.isAlphanum = true := List.all_eq_true.mp (by decide)
      obtain ⟨alphanum, iff⟩ := isIdentifier_pascalCase_append identifier "Params" plain
      refine ⟨alphanum, iff.trans ?_⟩
      cases initial? entry.name with
      | some c => simp
      | none => exact iff_of_true ⟨'P', rfl, rfl⟩ nofun

/-- A query whose name begins with underscores, and the names for its rows and its argument. -/
theorem CatalogEntry.structNames_identifiers_underscored :
    let catalog := (compile {} {} [⟨.query, "--! __by_Id\nselect :a::int4"⟩]).catalog
    catalog.map (fun entry => (entry.rowStruct?, entry.paramsStruct?)) =
        [(some "ById", some "ByIdParams")] ∧
      ∀ entry ∈ catalog,
        entry.query ∈ (parseModule 0 "_stream" "--! __by_Id\nselect :a::int4".toList).queries ∧
        (∀ row, entry.rowStruct? = some row → (∀ c ∈ row.toList, c.isAlphanum = true) ∧
          (IsIdentifier row ↔ ∃ c, initial? entry.name = some c ∧ c.isAlpha = true)) ∧
        ∀ params, entry.paramsStruct? = some params → (∀ c ∈ params.toList, c.isAlphanum = true) ∧
          (IsIdentifier params ↔ ∀ c, initial? entry.name = some c → c.isAlpha = true) := by
  refine ⟨by decide +kernel, fun entry member => ?_⟩
  obtain ⟨source, index, listed, parsed, _⟩ := compile_entry_resolves member
  obtain ⟨rfl, rfl⟩ : source = _ ∧ index = 0 := by simpa using listed
  exact ⟨parsed, structNames_identifiers parsed⟩

/-- After the underscores a digit is left in front of the name, and nothing of a name that has nothing
else. -/
theorem CatalogEntry.structNames_without_letter :
    (compile {} {} [⟨.query, "--! _1\nselect :a::int4\n--! _\nselect 1"⟩]).catalog.map
        (fun entry => (entry.name, entry.rowStruct?, entry.paramsStruct?)) =
      [("_1", some "1", some "1Params"), ("_", some "", none)] ∧
      ¬IsIdentifier "1" ∧ ¬IsIdentifier "1Params" ∧ ¬IsIdentifier "" := by
  have noDigit : ∀ text : List Char, ¬Rule.word.Matches ('1' :: text) := fun _ matched =>
    Bool.false_ne_true (Rule.matches_word.mp matched).1
  refine ⟨by decide +kernel, noDigit _, noDigit _, fun identifier => ?_⟩
  obtain ⟨⟨c, begins, _⟩, _⟩ := isIdentifier_iff.mp identifier
  cases begins

end AnnotatedSql
