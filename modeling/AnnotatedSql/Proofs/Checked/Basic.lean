import AnnotatedSql.Proofs.Text.Cutting
import Mathlib.Data.List.Basic

/-!
# Operations that may be bad

Not every operation on positions can be carried out: an item may be read past the end of its list, a
number taken from a smaller one, a sum may need more than 32 bits, a span may end before it starts,
and a text may be cut within a character. Here each of these ends in a trap. The modules of this
part read, bind and resolve with these operations in all the places where an item is read, a
number taken away, a 32-bit number made or a text cut, and show that no trap is ever met.
-/

namespace AnnotatedSql

/-- Why an operation cannot be carried out. -/
inductive Trap
  /-- The list has no item at the index. -/
  | noItem
  /-- The difference would be less than zero. -/
  | underflow
  /-- The number does not fit in 32 bits. -/
  | overflow
  /-- The span would stop before it starts. -/
  | backwards
  /-- The position lies past the end of the text or within a character. -/
  | noBoundary
  deriving DecidableEq, Repr

/-- The value of an operation, or the trap it ends in. -/
abbrev Checked (α : Type) := Except Trap α

namespace Checked

variable {α β : Type}

/-- The item at an index. -/
def get (items : List α) (i : Nat) : Checked α :=
  match items[i]? with
  | some item => pure item
  | none => throw .noItem

/-- The items with another one at an index. -/
def put (items : List α) (i : Nat) (item : α) : Checked (List α) :=
  if i < items.length then pure (items.set i item) else throw .noItem

/-- The difference of two numbers. -/
def sub (a b : Nat) : Checked Nat := if b ≤ a then pure (a - b) else throw .underflow

/-- The number in 32 bits. -/
def narrow (number : Nat) : Checked Nat :=
  if number < UInt32.size then pure number else throw .overflow

/-- The span between two positions. -/
def span (start stop : Nat) : Checked Span :=
  if start ≤ stop then pure ⟨start, stop⟩ else throw .backwards

/-- Whether a condition holds, and then one that is looked at only where it does. -/
def both (first : Bool) (second : Checked Bool) : Checked Bool :=
  if first then second else pure false

theorem get_eq {items : List α} {i : Nat} {item : α} (found : items[i]? = some item) :
    get items i = pure item := by
  rw [get, found]

theorem put_eq {items : List α} {i : Nat} (inside : i < items.length) (item : α) :
    put items i item = pure (items.set i item) := if_pos inside

theorem sub_eq {a b : Nat} (ordered : b ≤ a) : sub a b = pure (a - b) := if_pos ordered

theorem narrow_eq {number : Nat} (fits : number < UInt32.size) : narrow number = pure number :=
  if_pos fits

theorem span_eq {start stop : Nat} (ordered : start ≤ stop) :
    span start stop = pure ⟨start, stop⟩ := if_pos ordered

/-- A pass without a trap is a pass. -/
theorem mapM_eq {check : α → Checked β} {f : α → β} {items : List α}
    (passes : ∀ item ∈ items, check item = pure (f item)) :
    items.mapM check = pure (items.map f) := by
  induction items with
  | nil => rfl
  | cons item rest ih =>
    have others := ih fun other member => passes other (List.mem_cons_of_mem _ member)
    rw [List.mapM_cons, passes item List.mem_cons_self, pure_bind, others, pure_bind]
    rfl

theorem both_eq {second : Checked Bool} {value : Bool} (passes : second = pure value)
    (first : Bool) : both first second = pure (first && value) := by
  rw [both, passes]
  cases first <;> rfl

/-- A condition on a difference that is looked at only where the difference exists. -/
theorem both_sub {first : Bool} {a b : Nat} (guards : first = true → b ≤ a) (test : Nat → Bool) :
    (both first do
      let difference ← sub a b
      pure (test difference)) = pure (first && test (a - b)) := by
  cases first with
  | false => rfl
  | true => rw [both, if_pos rfl, sub_eq (guards rfl), pure_bind, Bool.true_and]

/-- A condition on the number before a positive one. -/
theorem both_positive (a : Nat) (test : Nat → Bool) :
    (both (decide (0 < a)) do
      let difference ← sub a 1
      pure (test difference)) = pure (decide (0 < a) && test (a - 1)) :=
  both_sub (fun positive => of_decide_eq_true positive) test

/-- A condition on the number before one that is at least two. -/
theorem both_two (a : Nat) (test : Nat → Bool) :
    (both (decide (2 ≤ a)) do
      let difference ← sub a 1
      pure (test difference)) = pure (decide (2 ≤ a) && test (a - 1)) :=
  both_sub (fun far => Nat.le_of_succ_le (of_decide_eq_true far)) test

/-- A condition on the two numbers before one. -/
theorem both_pair {first : Bool} {a : Nat} (guards : first = true → 2 ≤ a)
    (test : Nat → Nat → Bool) :
    (both first do
      let last ← sub a 1
      let previous ← sub a 2
      pure (test last previous)) = pure (first && test (a - 1) (a - 2)) := by
  cases first with
  | false => rfl
  | true =>
    have far := guards rfl
    rw [both, if_pos rfl, sub_eq (by omega), pure_bind, sub_eq far, pure_bind, Bool.true_and]

/-! ## Cutting a text by bytes

A text may be cut only between characters. A span whose ends both fall between characters, the first
not after the second, holds a piece of the text, and cutting by it gives that piece. -/

section Cutting

/-- The text before and the text after its first bytes. -/
def splitAt : Nat → List Char → Checked (List Char × List Char)
  | 0, text => pure ([], text)
  | _ + 1, [] => throw .noBoundary
  | count + 1, c :: text =>
    if c.utf8Size ≤ count + 1 then do
      let (before, after) ← splitAt (count + 1 - c.utf8Size) text
      pure (c :: before, after)
    else throw .noBoundary

/-- The part of a text between two positions. -/
def cut (text : List Char) (start stop : Nat) : Checked (List Char) := do
  let length ← sub stop start
  let (_, rest) ← splitAt start text
  let (piece, _) ← splitAt length rest
  pure piece

/-- The part under a span of a text that begins at `base`. -/
def slice (base : Nat) (text : List Char) (span : Span) : Checked (List Char) := do
  let start ← sub span.start base
  let stop ← sub span.stop base
  cut text start stop

theorem splitAt_append (before after : List Char) :
    splitAt (byteLength before) (before ++ after) = pure (before, after) := by
  induction before with
  | nil => cases after <;> rfl
  | cons c before ih =>
    obtain ⟨size, positive⟩ := Nat.exists_eq_add_one.mpr c.utf8Size_pos
    have count : byteLength (c :: before) = size + byteLength before + 1 := by
      rw [byteLength_cons, positive, Nat.add_right_comm]
    rw [count, List.cons_append, splitAt, positive, if_pos (by omega)]
    rw [show size + byteLength before + 1 - (size + 1) = byteLength before by omega, ih, pure_bind]

theorem cut_append (before piece after : List Char) :
    cut (before ++ piece ++ after) (byteLength before) (byteLength before + byteLength piece) =
      pure piece := by
  unfold cut
  rw [sub_eq (Nat.le_add_right _ _), pure_bind, List.append_assoc, splitAt_append, pure_bind,
    Nat.add_sub_cancel_left]
  dsimp only
  rw [splitAt_append, pure_bind]

variable {base : Nat} {text piece : List Char} {span : Span}

theorem slice_holds (holds : span.Holds base text piece) : slice base text span = pure piece := by
  obtain ⟨before, after, rfl, rfl⟩ := holds
  unfold slice
  dsimp only
  rw [sub_eq (Nat.le_add_right _ _), pure_bind, sub_eq (by omega), pure_bind, Nat.add_assoc,
    Nat.add_sub_cancel_left, Nat.add_sub_cancel_left, cut_append]

theorem slice_eq (cuts : span.Cuts base text) :
    slice base text span = pure (span.slice base text) := by
  obtain ⟨piece, holds⟩ := cuts.exists_piece
  rw [slice_holds holds, holds.slice]

end Cutting

end Checked

end AnnotatedSql
