import AnnotatedSql.Proofs.Statement.Parentheses
import AnnotatedSql.Scope.Basic
import Mathlib.Data.List.Basic

/-!
# Lexical scoping

A name is looked for in one query after another, from the innermost around its token to the statement.
The search ends, since each query begins before the last one, and the innermost query in which an entry
of the scope knows the name decides. Entries of queries that do not enclose the token, or that lie
beyond the one that decides, make no difference.

In the order of optional numbers the statement, which is `none`, comes first, and among the subqueries
around a token the later ones are deeper inside.
-/

namespace AnnotatedSql

/-! ## Queries around a token -/

namespace Statement

/-- Token `i` stands in the query: in the statement, or within the parenthesis that opens the subquery. -/
def Within (s : Statement) (i : Nat) : Option Nat → Prop
  | none => True
  | some opening => s.Encloses opening i ∧ s.opensSubquery opening = true

/-- The way outwards from a parenthesis ends at the first that opens a subquery, or at the statement. -/
inductive Climbs (s : Statement) : Option Nat → Option Nat → Prop
  | statement : Climbs s none none
  | subquery {opening : Nat} (opens : s.opensSubquery opening = true) :
      Climbs s (some opening) (some opening)
  | outwards {opening : Nat} {context : Option Nat} (plain : s.opensSubquery opening = false)
      (rest : Climbs s (s.enclosing opening) context) : Climbs s (some opening) context

namespace Bracketed

variable {s : Statement} (bracketed : s.Bracketed) {i : Nat}

include bracketed

theorem mem_contexts_iff {context : Option Nat} : context ∈ s.contexts i ↔ s.Within i context := by
  unfold contexts subqueries Within
  cases context with
  | none => simp
  | some opening => simp [bracketed.mem_enclosers_iff]

theorem contexts_pairwise (i : Nat) : (s.contexts i).Pairwise (· > ·) := by
  unfold contexts
  refine List.pairwise_append.mpr ⟨?_, List.pairwise_singleton _ _, ?_⟩
  · exact List.pairwise_map.mpr ((bracketed.enclosers_pairwise i).filter _)
  · intro context member other last
    obtain ⟨opening, _, rfl⟩ := List.mem_map.mp member
    obtain rfl := List.mem_singleton.mp last
    exact trivial

/-- The way outwards from a token ends at the innermost query around it. -/
theorem climbs_iff {context : Option Nat} :
    s.Climbs (s.enclosing i) context ↔ s.queryContext i = context := by
  unfold queryContext
  generalize around : s.enclosers i = outer
  induction outer generalizing i with
  | nil =>
    rw [← bracketed.enclosers_head, around]
    constructor
    · rintro ⟨⟩
      rfl
    · rintro rfl
      exact .statement
  | cons opening outer ih =>
    rw [← bracketed.enclosers_head, around, List.head?_cons]
    have further := @ih opening (bracketed.enclosers_of_cons around)
    cases opens : s.opensSubquery opening with
    | true =>
      rw [List.find?_cons_of_pos opens]
      constructor
      · rintro (_ | _ | ⟨plain, _⟩)
        · rfl
        · rw [opens] at plain
          cases plain
      · rintro rfl
        exact .subquery opens
    | false =>
      rw [List.find?_cons_of_neg (by simp [opens]), ← further]
      constructor
      · rintro (_ | subquery | ⟨_, rest⟩)
        · rw [opens] at subquery
          cases subquery
        · exact rest
      · exact .outwards opens

/-- The queries around the innermost one around a token are the others around the token. -/
theorem subqueries_of_cons {opening : Nat} {outer : List Nat}
    (around : s.subqueries i = opening :: outer) : s.subqueries opening = outer := by
  obtain ⟨inner, beyond, enclosers, _, _, rest⟩ := List.filter_eq_cons_iff.mp around
  rw [subqueries, bracketed.enclosers_of_append enclosers, rest]

end Bracketed

end Statement

namespace Scope

/-! ## What decides -/

/-- The entries of a query that know the name. -/
def answering (scope : Scope) (name : ColumnName) (context : Option Nat) : List ScopeEntry :=
  (scope.entries.filter (·.context == context)).filter fun entry => (entry.column? name).isSome

/-- The query is the innermost one around token `i` in which an entry knows the name. -/
structure Decides (scope : Scope) (s : Statement) (i : Nat) (name : ColumnName)
    (context : Option Nat) : Prop where
  around : s.Within i context
  knows : scope.answering name context ≠ []
  innermost : ∀ inner, s.Within i inner → context < inner → scope.answering name inner = []

/-- The search ends in a query in which one column or several are found, or else goes on in the query
around it. After the statement there is none. -/
inductive Searches (scope : Scope) (s : Statement) (name : ColumnName) :
    Option Nat → Except LookupFault FoundColumn → Prop
  | found {context : Option Nat} {column : FoundColumn}
      (one : scope.candidates name context = [column]) : Searches scope s name context (.ok column)
  | ambiguous {context : Option Nat} (several : 2 ≤ (scope.candidates name context).length) :
      Searches scope s name context (.error .ambiguous)
  | outwards {opening : Nat} {context : Option Nat} {answer : Except LookupFault FoundColumn}
      (none_ : scope.candidates name (some opening) = [])
      (climbs : s.Climbs (s.enclosing opening) context)
      (rest : Searches scope s name context answer) : Searches scope s name (some opening) answer
  | unknown (none_ : scope.candidates name none = []) :
      Searches scope s name none (.error .unknown)

/-- The scope answers for a name at token `i` as its nested queries say. -/
structure Lexical (scope : Scope) (s : Statement) (i : Nat) (name : ColumnName) : Prop where
  /-- The search from the token outwards ends, with this answer. -/
  ends : ∃ context, s.Climbs (s.enclosing i) context ∧
    ∀ answer, scope.Searches s name context answer ↔ scope.lookup s i name = answer
  found : ∀ column, scope.lookup s i name = .ok column ↔
    ∃ context entry, scope.Decides s i name context ∧ scope.answering name context = [entry] ∧
      entry.column? name = some column
  ambiguous : scope.lookup s i name = .error .ambiguous ↔
    ∃ context, scope.Decides s i name context ∧ 2 ≤ (scope.answering name context).length
  unknown : scope.lookup s i name = .error .unknown ↔ ¬∃ context, scope.Decides s i name context
  /-- Only entries of queries around the token count, and of these none beyond the one that decides. -/
  undisturbed : ∀ other : Scope,
    (∀ context, s.Within i context →
      (∀ deciding, scope.Decides s i name deciding → ¬context < deciding) →
      other.entries.filter (·.context == context) = scope.entries.filter (·.context == context)) →
    other.lookup s i name = scope.lookup s i name

variable {scope other : Scope} {name : ColumnName} {context : Option Nat}

/-! ## One query -/

theorem candidates_eq_answering (scope : Scope) (name : ColumnName) (context : Option Nat) :
    scope.candidates name context = (scope.answering name context).filterMap (·.column? name) := by
  unfold candidates answering
  generalize scope.entries.filter (·.context == context) = entries
  rw [List.filterMap_filter]
  refine List.filterMap_congr fun entry _ => ?_
  cases entry.column? name <;> rfl

/-- Each entry that knows the name stands for one column. -/
theorem candidates_length (scope : Scope) (name : ColumnName) (context : Option Nat) :
    (scope.candidates name context).length = (scope.answering name context).length := by
  unfold candidates answering
  rw [List.length_filterMap_eq_countP, List.countP_eq_length_filter]

theorem candidates_eq_nil_iff :
    scope.candidates name context = [] ↔ scope.answering name context = [] := by
  rw [← List.length_eq_zero_iff, ← List.length_eq_zero_iff, candidates_length]

/-- One column is found if one entry knows the name, and it is what that entry knows. -/
theorem candidates_eq_singleton_iff {column : FoundColumn} :
    scope.candidates name context = [column] ↔
      ∃ entry, scope.answering name context = [entry] ∧ entry.column? name = some column := by
  constructor
  · intro one
    have length := candidates_length scope name context
    rw [one] at length
    obtain ⟨entry, alone⟩ := List.length_eq_one_iff.mp length.symm
    rw [candidates_eq_answering, alone] at one
    refine ⟨entry, alone, ?_⟩
    cases known : entry.column? name with
    | none => simp [known] at one
    | some _ => simpa [known] using one
  · rintro ⟨entry, alone, known⟩
    rw [candidates_eq_answering, alone]
    simp [known]

theorem lookupIn_single_ok {column : FoundColumn} :
    scope.lookupIn name [context] = .ok column ↔ scope.candidates name context = [column] := by
  unfold lookupIn
  rcases scope.candidates name context with _ | ⟨first, _ | ⟨second, others⟩⟩
  · simp [lookupIn]
  · simp
  · simp

theorem lookupIn_single_ambiguous : scope.lookupIn name [context] = .error .ambiguous ↔
    2 ≤ (scope.candidates name context).length := by
  unfold lookupIn
  rcases scope.candidates name context with _ | ⟨first, _ | ⟨second, others⟩⟩
  · simp [lookupIn]
  · simp
  · simp

theorem lookupIn_single_unknown :
    scope.lookupIn name [context] = .error .unknown ↔ scope.candidates name context = [] := by
  unfold lookupIn
  rcases scope.candidates name context with _ | ⟨first, _ | ⟨second, others⟩⟩
  · simp [lookupIn]
  · simp
  · simp

/-! ## One query after another -/

theorem lookupIn_of_unknown (none_ : scope.candidates name context = [])
    (contexts : List (Option Nat)) :
    scope.lookupIn name (context :: contexts) = scope.lookupIn name contexts := by
  rw [lookupIn, none_]

theorem lookupIn_of_known (knows : scope.candidates name context ≠ [])
    (contexts : List (Option Nat)) :
    scope.lookupIn name (context :: contexts) = scope.lookupIn name [context] := by
  rw [lookupIn, lookupIn]
  split
  next none_ => exact absurd none_ knows
  · rfl
  · rfl

/-- The first query in which an entry knows the name decides. -/
theorem lookupIn_cases (contexts : List (Option Nat)) :
    (∀ context ∈ contexts, scope.answering name context = []) ∧
        scope.lookupIn name contexts = .error .unknown ∨
      ∃ inner context outer, contexts = inner ++ context :: outer ∧
        (∀ other ∈ inner, scope.answering name other = []) ∧ scope.answering name context ≠ [] ∧
          scope.lookupIn name contexts = scope.lookupIn name [context] := by
  induction contexts with
  | nil => exact Or.inl ⟨nofun, rfl⟩
  | cons context contexts ih =>
    by_cases knows : scope.answering name context = []
    · rw [lookupIn_of_unknown (candidates_eq_nil_iff.mpr knows)]
      rcases ih with ⟨none_, fails⟩ | ⟨inner, deciding, outer, whole, none_, decides⟩
      · exact Or.inl ⟨List.forall_mem_cons.mpr ⟨knows, none_⟩, fails⟩
      · refine Or.inr ⟨context :: inner, deciding, outer, by rw [whole]; rfl, ?_, decides⟩
        exact List.forall_mem_cons.mpr ⟨knows, none_⟩
    · refine Or.inr ⟨[], context, contexts, rfl, nofun, knows, ?_⟩
      exact lookupIn_of_known (mt candidates_eq_nil_iff.mp knows) contexts

/-- What is found depends on no query beyond the first in which anything is found. -/
theorem lookupIn_congr {contexts : List (Option Nat)}
    (same : ∀ inner context outer, contexts = inner ++ context :: outer →
      (∀ query ∈ inner, scope.candidates name query = []) →
        other.candidates name context = scope.candidates name context) :
    other.lookupIn name contexts = scope.lookupIn name contexts := by
  induction contexts with
  | nil => rfl
  | cons context contexts ih =>
    rw [lookupIn, lookupIn, same [] context contexts rfl nofun]
    split
    next none_ =>
      refine ih fun inner query outer whole others => ?_
      refine same (context :: inner) query outer (by rw [whole]; rfl) ?_
      exact List.forall_mem_cons.mpr ⟨none_, others⟩
    · rfl
    · rfl

section Tokens

variable {s : Statement} {i : Nat} {deciding : Option Nat}

/-- There is only one innermost query that knows the name. -/
theorem Decides.unique (first : scope.Decides s i name context)
    (second : scope.Decides s i name deciding) : context = deciding := by
  have noDeeper : ¬context < deciding := fun deeper =>
    second.knows (first.innermost deciding second.around deeper)
  have noHigher : ¬deciding < context := fun deeper =>
    first.knows (second.innermost context first.around deeper)
  cases context with
  | none =>
    cases deciding with
    | none => rfl
    | some _ => exact absurd trivial noDeeper
  | some opening =>
    cases deciding with
    | none => exact absurd trivial noHigher
    | some other => exact congrArg some (Nat.le_antisymm (Nat.not_lt.mp noHigher) (Nat.not_lt.mp noDeeper))

theorem not_lt_of_lt {first second : Option Nat} (less : first < second) : ¬second < first := by
  cases second with
  | none => cases first <;> cases less
  | some _ =>
    cases first with
    | none => exact id
    | some _ => exact Nat.lt_asymm less

/-- The search ends in a query that knows the name. -/
theorem searches_of_known {answer : Except LookupFault FoundColumn}
    (knows : scope.candidates name context ≠ []) :
    scope.Searches s name context answer ↔ scope.lookupIn name [context] = answer := by
  constructor
  · intro searches
    cases searches with
    | found one => exact lookupIn_single_ok.mpr one
    | ambiguous several => exact lookupIn_single_ambiguous.mpr several
    | outwards none_ => exact absurd none_ knows
    | unknown none_ => exact absurd none_ knows
  · intro answered
    rcases answer with (_ | _) | column
    · exact absurd (lookupIn_single_unknown.mp answered) knows
    · exact .ambiguous (lookupIn_single_ambiguous.mp answered)
    · exact .found (lookupIn_single_ok.mp answered)

variable (bracketed : s.Bracketed)

include bracketed

/-- What is looked in before a query are the deeper ones around the token. -/
theorem mem_inner_iff {inner outer : List (Option Nat)}
    (whole : s.contexts i = inner ++ context :: outer) {query : Option Nat} :
    query ∈ inner ↔ s.Within i query ∧ context < query := by
  have sorted := bracketed.contexts_pairwise i
  rw [← bracketed.mem_contexts_iff, whole]
  rw [whole] at sorted
  obtain ⟨_, rest, deeper⟩ := List.pairwise_append.mp sorted
  constructor
  · exact fun member => ⟨List.mem_append_left _ member, deeper query member context List.mem_cons_self⟩
  · rintro ⟨member, later⟩
    refine (List.mem_append.mp member).resolve_right fun further => ?_
    rcases List.mem_cons.mp further with rfl | further
    · exact not_lt_of_lt later later
    · exact not_lt_of_lt later (List.rel_of_pairwise_cons rest further)

/-- Either no query around the token knows the name, or the innermost that does gives the answer. -/
theorem lookup_cases (scope : Scope) (i : Nat) (name : ColumnName) :
    (∀ context, ¬scope.Decides s i name context) ∧ scope.lookup s i name = .error .unknown ∨
      ∃ context, scope.Decides s i name context ∧
        scope.lookup s i name = scope.lookupIn name [context] := by
  rcases @lookupIn_cases scope name (s.contexts i) with ⟨none_, fails⟩ | found
  · refine Or.inl ⟨fun context decides => ?_, fails⟩
    exact decides.knows (none_ context (bracketed.mem_contexts_iff.mpr decides.around))
  · obtain ⟨inner, context, outer, whole, none_, knows, answer⟩ := found
    have around : s.Within i context := bracketed.mem_contexts_iff.mp (by simp [whole])
    refine Or.inr ⟨context, ⟨around, knows, fun query inside deeper => ?_⟩, answer⟩
    exact none_ query ((mem_inner_iff bracketed whole).mpr ⟨inside, deeper⟩)

/-- The query that decides gives the answer. -/
theorem lookup_of_decides (decides : scope.Decides s i name context) :
    scope.lookup s i name = scope.lookupIn name [context] := by
  rcases lookup_cases bracketed scope i name with ⟨none_, _⟩ | ⟨deciding, first, answer⟩
  · exact absurd decides (none_ context)
  · rw [decides.unique first, answer]

/-- The search from a token outwards ends with the answer. -/
theorem searches_iff {answer : Except LookupFault FoundColumn} :
    scope.Searches s name (s.queryContext i) answer ↔ scope.lookup s i name = answer := by
  have first : ∀ j, s.queryContext j = (s.subqueries j).head? := fun _ => List.head?_filter.symm
  rw [first, lookup, Statement.contexts]
  generalize around : s.subqueries i = outer
  induction outer generalizing i with
  | nil =>
    rw [List.map_nil, List.nil_append]
    by_cases knows : scope.candidates name none = []
    · rw [lookupIn_single_unknown.mpr knows]
      constructor
      · intro searches
        cases searches with
        | found one => simp [knows] at one
        | ambiguous several => simp [knows] at several
        | unknown _ => rfl
      · rintro rfl
        exact .unknown knows
    · exact searches_of_known knows
  | cons opening outer ih =>
    rw [List.head?_cons, List.map_cons, List.cons_append]
    by_cases knows : scope.candidates name (some opening) = []
    · have rest := bracketed.subqueries_of_cons around
      rw [lookupIn_of_unknown knows]
      refine Iff.trans ?_ (ih rest)
      rw [← rest, ← first]
      constructor
      · intro searches
        cases searches with
        | found one => simp [knows] at one
        | ambiguous several => simp [knows] at several
        | outwards _ climbs rest => rwa [bracketed.climbs_iff.mp climbs]
      · exact .outwards knows (bracketed.climbs_iff.mpr rfl)
    · rw [lookupIn_of_known knows]
      exact searches_of_known knows

end Tokens

/-- Lookups are lexically scoped, whatever the scope and the tokens are. -/
theorem lookup_lexical (scope : Scope) (lexemes : List Lexeme) (i : Nat) (name : ColumnName) :
    scope.Lexical (Statement.ofLexemes lexemes) i name := by
  have bracketed := Statement.ofLexemes_bracketed lexemes
  generalize Statement.ofLexemes lexemes = s at bracketed
  refine ⟨⟨s.queryContext i, bracketed.climbs_iff.mpr rfl, fun _ => searches_iff bracketed⟩,
    fun column => ?_, ?_, ?_, fun other same => ?_⟩
  · constructor
    · intro found
      rcases lookup_cases bracketed scope i name with ⟨_, fails⟩ | ⟨context, decides, answer⟩
      · rw [fails] at found
        cases found
      · have one := lookupIn_single_ok.mp (answer.symm.trans found)
        obtain ⟨entry, alone, known⟩ := candidates_eq_singleton_iff.mp one
        exact ⟨context, entry, decides, alone, known⟩
    · rintro ⟨context, entry, decides, alone, known⟩
      rw [lookup_of_decides bracketed decides]
      exact lookupIn_single_ok.mpr (candidates_eq_singleton_iff.mpr ⟨entry, alone, known⟩)
  · constructor
    · intro fails
      rcases lookup_cases bracketed scope i name with ⟨_, unknown⟩ | ⟨context, decides, answer⟩
      · rw [unknown] at fails
        cases fails
      · have several := lookupIn_single_ambiguous.mp (answer.symm.trans fails)
        exact ⟨context, decides, by rwa [← candidates_length]⟩
    · rintro ⟨context, decides, several⟩
      rw [lookup_of_decides bracketed decides]
      exact lookupIn_single_ambiguous.mpr (by rwa [candidates_length])
  · constructor
    · rintro fails ⟨context, decides⟩
      rw [lookup_of_decides bracketed decides] at fails
      exact decides.knows (candidates_eq_nil_iff.mp (lookupIn_single_unknown.mp fails))
    · intro none_
      rcases lookup_cases bracketed scope i name with ⟨_, fails⟩ | ⟨context, decides, _⟩
      · exact fails
      · exact absurd ⟨context, decides⟩ none_
  · refine lookupIn_congr fun inner context outer whole none_ => ?_
    have around : s.Within i context := bracketed.mem_contexts_iff.mp (by simp [whole])
    have agrees := same context around fun deciding decides beyond => ?_
    · unfold candidates
      rw [agrees]
    · have before := (mem_inner_iff bracketed whole).mpr ⟨decides.around, beyond⟩
      exact decides.knows (candidates_eq_nil_iff.mp (none_ deciding before))

end Scope

end AnnotatedSql
