import Mathlib.Data.List.Induction
import TypedMarkup.Source.Position

/-!
Contract: what the positions of a text count.

Owns: how a position moves over a piece of text, `Position.Marks`, which says of a position and a
whole text that line and column are those of the offset, `Span.PointsInto`, which says it of both
ends of a span, and the slices of a text that stands in parts.
-/

namespace TypedMarkup

namespace Position

@[simp] theorem after_nil (position : Position) : position.after [] = position := rfl

@[simp] theorem after_cons (position : Position) (character : Char) (rest : List Char) :
    position.after (character :: rest) = (position.next character).after rest := rfl

@[simp] theorem after_append (position : Position) (first second : List Char) :
    position.after (first ++ second) = (position.after first).after second :=
  List.foldl_append

@[simp] theorem next_offset (position : Position) (character : Char) :
    (position.next character).offset = position.offset + 1 := by
  unfold next
  split <;> rfl

@[simp] theorem after_offset (position : Position) (text : List Char) :
    (position.after text).offset = position.offset + text.length := by
  induction text generalizing position with
  | nil => rfl
  | cons character rest ih =>
    rw [after_cons, ih, next_offset, List.length_cons]
    omega

@[simp] theorem origin_after_offset (text : List Char) :
    (origin.after text).offset = text.length := by
  rw [after_offset]
  exact Nat.zero_add _

theorem next_eq_right {character : Char} (sameLine : character ≠ '\n') (position : Position) :
    position.next character = position.right := by
  rw [next, if_neg sameLine, right]

@[simp] theorem left_right (position : Position) : position.right.left = position := rfl

/-- A position is the one of its offset: the line counts the line feeds before it, and the column
the characters since the last of them, both from one. -/
structure Marks (text : List Char) (position : Position) : Prop where
  inside : position.offset ≤ text.length
  line : position.line = 1 + (text.take position.offset).count '\n'
  column : position.column =
    1 + ((text.take position.offset).reverse.takeWhile fun character => character != '\n').length

theorem origin_after_line (text : List Char) :
    (origin.after text).line = 1 + text.count '\n' := by
  induction text using List.reverseRecOn with
  | nil => rfl
  | append_singleton before last ih =>
    rw [after_append, after_cons, after_nil, next, List.count_append]
    by_cases feed : last = '\n'
    · rw [if_pos feed, ih, feed]
      rfl
    · rw [if_neg feed, ih, List.count_singleton, if_neg (by simpa using feed),
        Nat.add_zero]

theorem origin_after_column (text : List Char) :
    (origin.after text).column =
      1 + (text.reverse.takeWhile fun character => character != '\n').length := by
  induction text using List.reverseRecOn with
  | nil => rfl
  | append_singleton before last ih =>
    rw [after_append, after_cons, after_nil, next, List.reverse_concat, List.takeWhile_cons]
    by_cases feed : last = '\n'
    · simp [feed]
    · rw [if_neg feed, if_pos (by simpa using feed), List.length_cons]
      change (origin.after before).column + 1 = _
      omega

/-- Counting character by character comes to what the offset says. -/
theorem marks_after (before after : List Char) : (origin.after before).Marks (before ++ after) := by
  have upTo : (before ++ after).take (origin.after before).offset = before := by
    rw [origin_after_offset, List.take_left]
  refine ⟨?_, ?_, ?_⟩
  · rw [origin_after_offset, List.length_append]
    omega
  · rw [upTo, origin_after_line]
  · rw [upTo, origin_after_column]

end Position

/-! ## Spans of a text -/

/-- A span points into a text: its ends are positions of the text, and in order. -/
structure Span.PointsInto (text : List Char) (span : Span) : Prop where
  forward : span.start.offset ≤ span.stop.offset
  start : span.start.Marks text
  stop : span.stop.Marks text

namespace Span.PointsInto

variable {text : List Char} {span : Span}

/-- What stands before the end of a span is what stands before its start, and then the span. -/
theorem take_stop (points : span.PointsInto text) :
    text.take span.stop.offset =
      text.take span.start.offset ++ sliceOf text span.start.offset span.stop.offset := by
  have length : span.stop.offset = span.start.offset + (span.stop.offset - span.start.offset) := by
    have forward := points.forward
    omega
  rw [sliceOf, ← List.take_add, ← length]

theorem line_le (points : span.PointsInto text) : span.start.line ≤ span.stop.line := by
  rw [points.start.line, points.stop.line, points.take_stop, List.count_append]
  omega

/-- On one line, columns are as far apart as offsets. -/
theorem column_stop (points : span.PointsInto text) (oneLine : span.stop.line = span.start.line) :
    span.stop.column = span.start.column + (span.stop.offset - span.start.offset) := by
  have noFeed : (sliceOf text span.start.offset span.stop.offset).count '\n' = 0 := by
    have startLine := points.start.line
    have stopLine := points.stop.line
    rw [points.take_stop, List.count_append] at stopLine
    omega
  have within : ∀ character ∈ (sliceOf text span.start.offset span.stop.offset).reverse,
      (character != '\n') = true := by
    intro character member
    have isFeed : character ≠ '\n' := by
      rintro rfl
      exact List.count_eq_zero.mp noFeed (List.mem_reverse.mp member)
    simpa using isFeed
  have length : (sliceOf text span.start.offset span.stop.offset).length =
      span.stop.offset - span.start.offset := by
    have inside := points.stop.inside
    rw [sliceOf, List.length_take, List.length_drop]
    omega
  rw [points.start.column, points.stop.column, points.take_stop, List.reverse_append,
    List.takeWhile_append_of_pos within, List.length_append, List.length_reverse, length]
  omega

end Span.PointsInto

/-- A position stands before a character of a text that does not end its line. -/
def Position.StandsAt (text : List Char) (position : Position) : Prop :=
  ∃ before character after, text = before ++ character :: after ∧ character ≠ '\n' ∧
    position = origin.after before

namespace Position.StandsAt

variable {text : List Char} {position : Position}

theorem inside (stands : position.StandsAt text) : position.offset < text.length := by
  obtain ⟨before, character, after, rfl, -, rfl⟩ := stands
  rw [origin_after_offset, List.length_append, List.length_cons]
  omega

theorem pointsInto (stands : position.StandsAt text) :
    Span.PointsInto text ⟨position, position.right⟩ := by
  obtain ⟨before, character, after, rfl, sameLine, rfl⟩ := stands
  have behind : (origin.after before).right = origin.after (before ++ [character]) := by
    rw [after_append, after_cons, after_nil, next_eq_right sameLine]
  have stop := marks_after (before ++ [character]) after
  rw [← behind, List.append_assoc] at stop
  exact ⟨Nat.le_succ _, marks_after before _, stop⟩

end Position.StandsAt

/-! ## Slices -/

theorem sliceOf_parts (before middle after : List Char) {start stop : Nat}
    (starts : start = before.length) (stops : stop = before.length + middle.length) :
    sliceOf (before ++ (middle ++ after)) start stop = middle := by
  subst starts stops
  simp [sliceOf]

end TypedMarkup
