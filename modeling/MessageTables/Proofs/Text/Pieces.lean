import Mathlib
import MessageTables.Text.Basic

/-!
# Pieces between separators

The pieces of a text are its longest parts without a separator. There is no empty
piece, so several separators in a row do the same as one, and separators at the
beginning or at the end make no difference. The elements may be anything: the
pieces of a list of lines are the rows of lines between empty ones.

A text is built from its pieces: `pieces_append_of_separators` and `pieces_append`
read a text off from the left, and `exists_of_pieces_eq_cons` takes it apart again
in the same way.
-/

namespace MessageTables.Text

variable {α : Type} {isSeparator : α → Bool} {text piece rest separators : List α}
  {others : List (List α)}

/-- The parts of a text between separators, without the empty ones. -/
def pieces (isSeparator : α → Bool) (text : List α) : List (List α) :=
  (text.splitOnP isSeparator).filter (!·.isEmpty)

/-- What a piece is: it has characters, none of which is a separator. -/
structure IsPiece (isSeparator : α → Bool) (piece : List α) : Prop where
  nonempty : piece ≠ []
  free : ∀ character ∈ piece, isSeparator character = false

/-- Whether a text is empty or begins with a separator, so that it goes on no piece. -/
def StartsApart (isSeparator : α → Bool) (text : List α) : Prop :=
  ∀ character ∈ text.head?, isSeparator character = true

theorem pieces_cons_of_separator {separator : α} (separates : isSeparator separator = true)
    (rest : List α) : pieces isSeparator (separator :: rest) = pieces isSeparator rest := by
  have cut := List.splitOnP_append_cons [] rest separates
  rw [List.nil_append, List.splitOnP_nil] at cut
  rw [pieces, cut]
  rfl

theorem pieces_append_of_separators
    (separate : ∀ character ∈ separators, isSeparator character = true) (rest : List α) :
    pieces isSeparator (separators ++ rest) = pieces isSeparator rest := by
  induction separators with
  | nil => rfl
  | cons separator separators ih =>
      rw [List.cons_append, pieces_cons_of_separator (separate _ List.mem_cons_self)]
      exact ih fun character inside => separate character (List.mem_cons_of_mem _ inside)

theorem pieces_append (isPiece : IsPiece isSeparator piece)
    (apart : StartsApart isSeparator rest) :
    pieces isSeparator (piece ++ rest) = piece :: pieces isSeparator rest := by
  have filled : (!piece.isEmpty) = true := by
    simpa using isPiece.nonempty
  cases rest with
  | nil =>
      rw [List.append_nil, pieces, List.splitOnP_eq_singleton isPiece.free, List.filter_cons,
        if_pos filled]
      rfl
  | cons separator rest =>
      have separates : isSeparator separator = true := apart separator rfl
      rw [pieces_cons_of_separator separates, pieces,
        List.splitOnP_append_cons_of_forall_mem isPiece.free separator separates,
        List.filter_cons, if_pos filled]
      rfl

theorem pieces_of_separators
    (separate : ∀ character ∈ text, isSeparator character = true) :
    pieces isSeparator text = [] := by
  rw [← List.append_nil text, pieces_append_of_separators separate]
  rfl

theorem startsApart_dropWhile (isSeparator : α → Bool) (text : List α) :
    StartsApart isSeparator (text.dropWhile (!isSeparator ·)) := by
  intro character first
  have kept := List.head?_dropWhile_not (!isSeparator ·) text
  rw [Option.mem_def.mp first] at kept
  simpa using kept

/-- A text that is not all separators begins with some of them and a piece. -/
theorem exists_piece (isSeparator : α → Bool) (text : List α) :
    (∀ character ∈ text, isSeparator character = true) ∨
      ∃ before piece rest, text = before ++ piece ++ rest ∧
        (∀ character ∈ before, isSeparator character = true) ∧ IsPiece isSeparator piece ∧
          StartsApart isSeparator rest := by
  have whole := List.takeWhile_append_dropWhile (p := isSeparator) (l := text)
  have before : ∀ character ∈ text.takeWhile isSeparator, isSeparator character = true :=
    fun _ inside => List.mem_takeWhile_imp inside
  cases shape : text.dropWhile isSeparator with
  | nil =>
      rw [shape, List.append_nil] at whole
      rw [whole] at before
      exact Or.inl before
  | cons first behind =>
      right
      have ordinary : isSeparator first = false := by
        have kept := List.head?_dropWhile_not isSeparator text
        rw [shape] at kept
        simpa using kept
      have split := List.takeWhile_append_dropWhile (p := (!isSeparator ·)) (l := first :: behind)
      refine ⟨_, (first :: behind).takeWhile (!isSeparator ·), _, ?_, before, ⟨?_, ?_⟩,
        startsApart_dropWhile isSeparator (first :: behind)⟩
      · rw [List.append_assoc, split, ← shape, whole]
      · simp [ordinary]
      · intro character inside
        simpa using List.mem_takeWhile_imp inside

theorem pieces_eq_nil_iff :
    pieces isSeparator text = [] ↔ ∀ character ∈ text, isSeparator character = true := by
  constructor
  · intro none
    rcases exists_piece isSeparator text with
      all | ⟨before, piece, rest, rfl, separate, isPiece, apart⟩
    · exact all
    · rw [List.append_assoc, pieces_append_of_separators separate, pieces_append isPiece apart]
        at none
      cases none
  · exact pieces_of_separators

theorem exists_of_pieces_eq_cons (shape : pieces isSeparator text = piece :: others) :
    ∃ before rest, text = before ++ piece ++ rest ∧
      (∀ character ∈ before, isSeparator character = true) ∧ IsPiece isSeparator piece ∧
        StartsApart isSeparator rest ∧ pieces isSeparator rest = others := by
  rcases exists_piece isSeparator text with
    all | ⟨before, first, rest, rfl, separate, isPiece, apart⟩
  · rw [pieces_of_separators all] at shape
    cases shape
  · rw [List.append_assoc, pieces_append_of_separators separate, pieces_append isPiece apart]
      at shape
    cases shape
    exact ⟨before, rest, rfl, separate, isPiece, apart, rfl⟩

theorem StartsApart.exists_separator (apart : StartsApart isSeparator text)
    (filled : pieces isSeparator text ≠ []) :
    ∃ separator rest, text = separator :: rest ∧ isSeparator separator = true ∧
      pieces isSeparator rest = pieces isSeparator text := by
  cases text with
  | nil => exact absurd rfl filled
  | cons separator rest =>
      have separates : isSeparator separator = true := apart separator rfl
      exact ⟨separator, rest, rfl, separates, (pieces_cons_of_separator separates rest).symm⟩

end MessageTables.Text
