import MessageTables.Proofs.Text.Breaks

/-!
# Breaks and lines

How a break is written does not show in the lines of a text, and joined breaks
leave none. Unbroken lines that are each ended by a line feed are the lines of the
text they make, and the pieces that cutting at line feeds gives, followed by an
empty one.
-/

namespace MessageTables.Text

theorem lines_lineFeed (rest : List Symbol) : lines ('\n' :: rest) = [] :: lines rest :=
  lines.eq_3 _ _ (by simp)

theorem lines_unifyBreaks (text : List Symbol) : lines (unifyBreaks text) = lines text := by
  fun_induction unifyBreaks text with
  | case1 => rfl
  | case2 rest ih => rw [lines_lineFeed, ih, lines]
  | case3 character rest noPair ih =>
      rw [lines.eq_3 character rest noPair]
      split
      · rw [lines_lineFeed, ih]
      · rename_i ordinary
        have noReturn : character ≠ '\r' := by
          rintro rfl
          exact ordinary (by decide)
        rw [lines.eq_3 _ _ (fun _ same _ => noReturn same), if_neg ordinary, ih]

theorem unbroken_joinBreaksAfter (afterBreak : Bool) (text : List Symbol) :
    Unbroken (joinBreaksAfter afterBreak text) := by
  induction text generalizing afterBreak with
  | nil => exact List.forall_mem_nil _
  | cons character rest ih =>
      rw [joinBreaksAfter]
      split
      · split
        · exact ih true
        · exact (ih true).cons rfl
      · rename_i ordinary
        exact (ih false).cons (Bool.eq_false_of_not_eq_true ordinary)

theorem unbroken_joinBreaks (text : List Symbol) : Unbroken (joinBreaks text) :=
  unbroken_joinBreaksAfter false text

theorem lines_flatMap_lineFeed {lines : List (List Symbol)}
    (unbroken : ∀ line ∈ lines, Unbroken line) :
    Text.lines (lines.flatMap (· ++ [Symbol.char '\n'])) = lines ++ [[]] := by
  induction lines with
  | nil => rfl
  | cons line lines ih =>
      rw [List.forall_mem_cons] at unbroken
      have further :
          Text.lines ('\n' :: lines.flatMap (· ++ [Symbol.char '\n'])) = [] :: (lines ++ [[]]) := by
        rw [lines_lineFeed, ih unbroken.2]
      rw [List.flatMap_cons, List.append_assoc]
      exact lines_append_of_unbroken unbroken.1 further

end MessageTables.Text
