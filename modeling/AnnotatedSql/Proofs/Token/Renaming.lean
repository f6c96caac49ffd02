import AnnotatedSql.Proofs.Token.Alike

/-!
# Names of placeholders in texts

A text in which names after colons give way to other names is cut at the same places, faults and all.
No rule depends on which word stands after a colon: most do not take colons, and inside of quotes and
comments words only fill the space.
-/

namespace AnnotatedSql

open Pattern Rule

/-! ## Words in quotes and comments -/

section

variable {name rest : List Char}

/-- A word is no part of what ends a quotation. -/
theorem closesQuote_word {quote : Char} (plain : wordChar quote = false)
    (words : name.all wordChar = true) :
    Rule.closesQuote quote false (name ++ rest) = Rule.closesQuote quote false rest := by
  induction name with
  | nil => rfl
  | cons c name ih =>
    rw [List.all_cons, Bool.and_eq_true] at words
    have different : c ≠ quote := by
      rintro rfl
      rw [plain] at words
      cases words.1
    simp [Rule.closesQuote, different, ih words.2]

/-- Nor of what ends a comment. -/
theorem closesComment_word (words : name.all wordChar = true) :
    Rule.closesComment false (name ++ rest) = Rule.closesComment false rest := by
  induction name with
  | nil => rfl
  | cons c name ih =>
    rw [List.all_cons, Bool.and_eq_true] at words
    have noStar : (c == '*') = false := by
      rw [beq_eq_false_iff_ne]
      rintro rfl
      cases words.1
    simp [Rule.closesComment, noStar, ih words.2]

end

/-! ## Texts with other words -/

/-- The second text is the first with other words in place of some words after a colon. -/
inductive Renamed : List Char → List Char → Prop
  | nil : Renamed [] []
  | cons (c : Char) {rest others : List Char} (next : Renamed rest others) :
      Renamed (c :: rest) (c :: others)
  | placeholder {name other rest others : List Char} (written : Matches word name)
      (new : Matches word other) (next : Renamed rest others) :
      Renamed (':' :: (name ++ rest)) (':' :: (other ++ others))

namespace Renamed

variable {text other more further : List Char} {c : Char}

theorem refl (text : List Char) : Renamed text text := by
  induction text with
  | nil => exact .nil
  | cons c text ih => exact .cons c ih

theorem symm (renamed : Renamed text other) : Renamed other text := by
  induction renamed with
  | nil => exact .nil
  | cons c _ ih => exact .cons c ih
  | placeholder written new _ ih => exact .placeholder new written ih

theorem append (renamed : Renamed text other) (follows : Renamed more further) :
    Renamed (text ++ more) (other ++ further) := by
  induction renamed with
  | nil => exact follows
  | cons c _ ih => exact .cons c ih
  | placeholder written new _ ih =>
    rw [List.cons_append, List.cons_append, List.append_assoc, List.append_assoc]
    exact .placeholder written new ih

/-- A text without a colon is as it was. -/
theorem eq_of_not_mem (renamed : Renamed text other) (plain : ':' ∉ text) : other = text := by
  induction renamed with
  | nil => rfl
  | cons c _ ih =>
    rw [List.mem_cons, not_or] at plain
    rw [ih plain.2]
  | placeholder _ _ _ _ => exact absurd List.mem_cons_self plain

/-- The first character is as it was. -/
theorem head (renamed : Renamed (c :: text) other) : ∃ tail, other = c :: tail := by
  cases renamed with
  | cons _ _ => exact ⟨_, rfl⟩
  | placeholder _ _ _ => exact ⟨_, rfl⟩

theorem tail (renamed : Renamed (c :: text) (c :: other)) (plain : c ≠ ':') :
    Renamed text other := by
  generalize whole : c :: text = left at renamed
  generalize result : c :: other = right at renamed
  cases renamed with
  | nil => cases whole
  | cons _ next =>
    cases whole
    cases result
    exact next
  | placeholder _ _ _ =>
    cases whole
    exact absurd rfl plain

/-- What is no part of a word is in the one text if it is in the other. -/
theorem mem_of_mem (renamed : Renamed text other) (plain : wordChar c = false) (member : c ∈ other) :
    c ∈ text := by
  induction renamed with
  | nil => exact member
  | cons d _ ih => exact List.mem_cons.mpr ((List.mem_cons.mp member).imp_right ih)
  | placeholder _ new _ ih =>
    rw [List.mem_cons, List.mem_append] at member ⊢
    refine member.imp_right fun later => Or.inr (ih (later.resolve_left fun inside => ?_))
    rw [List.all_eq_true.mp (all_wordChar new).2 c inside] at plain
    cases plain

/-- A start of the second text is a start of the first, renamed. A name of which only a part belongs
to it stands for the whole of the first name. -/
theorem part (renamed : Renamed text other) (starts : further <+: other) :
    ∃ more, more <+: text ∧ Renamed more further := by
  induction renamed generalizing further with
  | nil =>
    rw [List.prefix_nil.mp starts]
    exact ⟨[], List.nil_prefix, .nil⟩
  | cons c _ ih =>
    cases further with
    | nil => exact ⟨[], List.nil_prefix, .nil⟩
    | cons d further =>
      obtain ⟨rfl, within⟩ := List.cons_prefix_cons.mp starts
      obtain ⟨more, begins, same⟩ := ih within
      exact ⟨d :: more, List.cons_prefix_cons.mpr ⟨rfl, begins⟩, .cons d same⟩
  | @placeholder name other rest others written new _ ih =>
    cases further with
    | nil => exact ⟨[], List.nil_prefix, .nil⟩
    | cons d further =>
      obtain ⟨rfl, within⟩ := List.cons_prefix_cons.mp starts
      by_cases whole : further.length ≤ other.length
      · have inside : further <+: other :=
          List.prefix_of_prefix_length_le within (List.prefix_append _ _) whole
        cases further with
        | nil => exact ⟨[':'], by simp, refl _⟩
        | cons e further =>
          obtain ⟨tail, rfl⟩ := inside
          rw [List.cons_append] at new
          obtain ⟨begins, words⟩ := matches_word.mp new
          rw [List.all_append, Bool.and_eq_true] at words
          have short : Matches word (e :: further) := matches_word.mpr ⟨begins, words.1⟩
          refine ⟨':' :: name, by simp, ?_⟩
          have same := Renamed.placeholder written short .nil
          rwa [List.append_nil, List.append_nil] at same
      · obtain ⟨tail, rfl⟩ : other <+: further :=
          List.prefix_of_prefix_length_le (List.prefix_append _ _) within (by omega)
        obtain ⟨more, begins, same⟩ := ih ((List.prefix_append_right_inj other).mp within)
        refine ⟨':' :: (name ++ more), ?_, .placeholder written new same⟩
        exact List.cons_prefix_cons.mpr ⟨rfl, (List.prefix_append_right_inj name).mpr begins⟩

/-! ## Rules -/

theorem closesQuote {quote : Char} {pending : Bool} (renamed : Renamed text other)
    (plain : quote ≠ ':' ∧ wordChar quote = false)
    (closed : Rule.closesQuote quote pending text = true) :
    Rule.closesQuote quote pending other = true := by
  induction renamed generalizing pending with
  | nil => exact closed
  | cons c _ ih =>
    unfold Rule.closesQuote at closed ⊢
    split at closed
    next quotes => exact (if_pos quotes).trans (ih closed)
    next other =>
      rw [Bool.and_eq_true] at closed
      rw [if_neg other, closed.1, ih closed.2]
      rfl
  | placeholder written new _ ih =>
    have colon : ':' ≠ quote := plain.1.symm
    simp only [Rule.closesQuote, beq_iff_eq, colon, if_false, Bool.and_eq_true] at closed ⊢
    rw [closesQuote_word plain.2 (all_wordChar written).2] at closed
    rw [closesQuote_word plain.2 (all_wordChar new).2]
    exact ⟨closed.1, ih closed.2⟩

theorem closesComment {star : Bool} (renamed : Renamed text other)
    (closed : Rule.closesComment star text = true) : Rule.closesComment star other = true := by
  induction renamed generalizing star with
  | nil => exact closed
  | @cons c rest others next ih =>
    unfold Rule.closesComment at closed ⊢
    split at closed
    next ends =>
      rw [if_pos ends]
      rw [List.isEmpty_iff] at closed
      subst closed
      rw [next.eq_of_not_mem (by simp)]
      rfl
    next goesOn => exact (if_neg goesOn).trans (ih closed)
  | placeholder written new _ ih =>
    have plain : (star && ':' == '/') = false := by simp
    have noStar : (':' == '*') = false := by decide
    rw [Rule.closesComment, plain, noStar, if_neg (by simp)] at closed ⊢
    rw [closesComment_word (all_wordChar written).2] at closed
    rw [closesComment_word (all_wordChar new).2]
    exact ih closed

/-- The patterns that may take a colon. -/
theorem colon_patterns :
    (Rule.all.filter fun rule => !rule.pattern.avoids ':').map Rule.pattern =
      [.text "::".toList, .text ":".toList, named, quoted '"', quoted '\'', lineComment,
        blockComment] := rfl

theorem text_of_colons (renamed : Renamed text other) (colons : ∀ c ∈ text, c = ':') :
    other = text := by
  induction renamed with
  | nil => rfl
  | cons c _ ih => rw [ih fun d member => colons d (List.mem_cons_of_mem _ member)]
  | placeholder written _ _ _ =>
    obtain ⟨nonempty, words⟩ := all_wordChar written
    obtain ⟨d, name, rfl⟩ := List.exists_cons_of_ne_nil nonempty
    obtain rfl := colons d (by simp)
    cases words

theorem matches_named (renamed : Renamed text other) (matched : Matches named text) :
    Matches named other := by
  obtain ⟨spelling, rfl, isWord⟩ := Rule.matches_named.mp matched
  have noColon : ∀ {t : List Char}, t.all wordChar = true → ':' ∉ t := by
    intro t words member
    exact absurd (List.all_eq_true.mp words ':' member) (by decide)
  generalize whole : ':' :: spelling = text at renamed
  cases renamed with
  | nil => cases whole
  | cons _ next =>
    cases whole
    rw [next.eq_of_not_mem (noColon (all_wordChar isWord).2)]
    exact matched
  | @placeholder name other rest others written new next =>
    cases whole
    have words := (all_wordChar isWord).2
    rw [List.all_append, Bool.and_eq_true] at words
    rw [next.eq_of_not_mem (noColon words.2)]
    obtain ⟨d, other, rfl⟩ := List.exists_cons_of_ne_nil (all_wordChar new).1
    obtain ⟨begins, others⟩ := matches_word.mp new
    refine Rule.matches_named.mpr ⟨_, rfl, ?_⟩
    rw [List.cons_append]
    exact matches_word.mpr ⟨begins, by rw [List.all_append, others, words.2]; rfl⟩

theorem matches_quoted {quote : Char} (plain : quote ≠ ':' ∧ wordChar quote = false)
    (renamed : Renamed text other) (matched : Matches (quoted quote) text) :
    Matches (quoted quote) other := by
  cases text with
  | nil => exact absurd matched not_matches_char_seq_nil
  | cons c text =>
    obtain ⟨rfl, closed⟩ := Rule.matches_quoted.mp matched
    obtain ⟨tail, rfl⟩ := renamed.head
    exact Rule.matches_quoted.mpr ⟨rfl, (renamed.tail plain.1).closesQuote plain closed⟩

theorem matches_lineComment (renamed : Renamed text other) (matched : Matches lineComment text) :
    Matches lineComment other := by
  obtain ⟨spelling, rfl, line⟩ := Rule.matches_lineComment.mp matched
  obtain ⟨tail, rfl⟩ := renamed.head
  have inside := renamed.tail (by decide)
  obtain ⟨tail, rfl⟩ := inside.head
  have goesOn := inside.tail (by decide)
  exact Rule.matches_lineComment.mpr ⟨tail, rfl, fun ends => line (goesOn.mem_of_mem (by decide) ends)⟩

theorem matches_blockComment (renamed : Renamed text other) (matched : Matches blockComment text) :
    Matches blockComment other := by
  obtain ⟨spelling, rfl, closed⟩ := Rule.matches_blockComment.mp matched
  obtain ⟨tail, rfl⟩ := renamed.head
  have inside := renamed.tail (by decide)
  obtain ⟨tail, rfl⟩ := inside.head
  exact Rule.matches_blockComment.mpr ⟨tail, rfl, (inside.tail (by decide)).closesComment closed⟩

theorem matched {rule : Rule} (renamed : Renamed text other) (member : rule ∈ Rule.all)
    (matched : rule.pattern.Matches text) : rule.pattern.Matches other := by
  cases avoided : rule.pattern.avoids ':' with
  | true =>
    rw [renamed.eq_of_not_mem (not_mem_of_avoids matched avoided)]
    exact matched
  | false =>
    have listed : rule.pattern ∈
        (Rule.all.filter fun rule => !rule.pattern.avoids ':').map Rule.pattern :=
      List.mem_map_of_mem (List.mem_filter.mpr ⟨member, by simp [avoided]⟩)
    have fixed : ∀ {spelling : List Char}, (∀ c ∈ spelling, c = ':') →
        Matches (.text spelling) text → Matches (.text spelling) other := by
      intro spelling colons written
      obtain rfl := matches_text.mp written
      exact matches_text.mpr (renamed.text_of_colons colons)
    rw [colon_patterns] at listed
    simp only [List.mem_cons, List.not_mem_nil, or_false] at listed
    generalize rule.pattern = pattern at listed matched
    rcases listed with rfl | rfl | rfl | rfl | rfl | rfl | rfl
    · exact fixed (by simp) matched
    · exact fixed (by simp) matched
    · exact renamed.matches_named matched
    · exact renamed.matches_quoted (by decide) matched
    · exact renamed.matches_quoted (by decide) matched
    · exact renamed.matches_lineComment matched
    · exact renamed.matches_blockComment matched

end Renamed

/-- No rule tells which names stand after colons. -/
theorem Lexer.indistinct_renamed : Indistinct Renamed where
  refl := Renamed.refl
  symm := Renamed.symm
  append := Renamed.append
  empty renamed := renamed.eq_of_not_mem (by simp)
  single renamed := by
    generalize whole : [_] = text at renamed
    cases renamed with
    | nil => cases whole
    | cons _ next =>
      cases whole
      exact ⟨_, by rw [next.eq_of_not_mem (by simp)]⟩
    | placeholder written _ _ =>
      obtain ⟨_, none⟩ := List.cons.inj whole
      obtain ⟨nonempty, _⟩ := all_wordChar written
      simp [nonempty] at none
  part := Renamed.part
  matched member renamed := renamed.matched member

/-- What does not begin within a word and has no colon occurs where it occurred. -/
theorem Renamed.infix_of_infix {text other tag : List Char} {c : Char}
    (renamed : Renamed text other) (plain : wordChar c = false) (noColon : ':' ∉ c :: tag)
    (occurs : c :: tag <:+: other) : c :: tag <:+: text := by
  have past : ∀ {name rest : List Char}, name.all wordChar = true → c :: tag <:+: name ++ rest →
      c :: tag <:+: rest := by
    intro name rest words inside
    induction name with
    | nil => exact inside
    | cons d name ih =>
      rw [List.all_cons, Bool.and_eq_true] at words
      rcases List.infix_cons_iff.mp inside with starts | later
      · obtain ⟨rfl, _⟩ := List.cons_prefix_cons.mp starts
        rw [plain] at words
        cases words.1
      · exact ih words.2 later
  induction renamed with
  | nil => exact occurs
  | cons d next ih =>
    rcases List.infix_cons_iff.mp occurs with starts | later
    · obtain ⟨more, begins, same⟩ := (Renamed.cons d next).part starts
      rw [← same.symm.eq_of_not_mem noColon]
      exact begins.isInfix
    · exact List.infix_cons_iff.mpr (Or.inr (ih later))
  | @placeholder name _ rest _ _ new _ ih =>
    rcases List.infix_cons_iff.mp occurs with starts | later
    · obtain ⟨rfl, _⟩ := List.cons_prefix_cons.mp starts
      exact absurd List.mem_cons_self noColon
    · have found := ih (past (all_wordChar new).2 later)
      exact List.infix_cons_iff.mpr (Or.inr (found.trans (List.suffix_append name rest).isInfix))

/-- A tag is no part of a name after a colon, so other names close none. -/
theorem Lexer.keepsOpen_renamed (text other : List Char) : KeepsOpen Renamed text other := by
  intro before tag after first second _ _ _ _ renamed tagged missing occurs
  have noColon : ':' ∉ tag := not_mem_of_avoids tagged (by decide)
  obtain ⟨name, rfl, _⟩ := matches_dollarTag.mp tagged
  exact missing (renamed.infix_of_infix (by decide) noColon occurs)

end AnnotatedSql
