import MessageTables.Proofs.LookupModule.RoundTrip
import MessageTables.Proofs.Text.Spelling

/-!
# Modules that can be written

A module is written in UTF-8, which has no spelling for stray bytes. The names and
the protocols in a module are quoted, and so is the module's own name, so there is one
place where stray bytes stand as they are: the comment line that names the table. So
it is the table's path alone that decides whether a module can be written.
-/

namespace MessageTables

namespace Text

variable {symbol : Symbol} {text : Text} {byte : Fin 128}

theorem encode?_eq_none_iff :
    text.encode? = none ↔ ∃ byte, Symbol.stray byte ∈ text.toList := by
  rw [encode?]
  split
  · rename_i stray
    obtain ⟨symbol, inside, isStray⟩ := List.any_eq_true.mp stray
    cases symbol with
    | char value => cases isStray
    | stray byte => exact iff_of_true rfl ⟨byte, inside⟩
  · rename_i written
    refine iff_of_false (by simp) ?_
    rintro ⟨byte, inside⟩
    exact written (List.any_eq_true.mpr ⟨_, inside, rfl⟩)

theorem Printable.stray_not_mem {symbols : List Symbol} (printable : Printable symbols) :
    Symbol.stray byte ∉ symbols := by
  intro inside
  have shown := printable _ inside
  rw [isPrintable_stray] at shown
  cases shown

/-- To join the breaks of a text leaves everything else in it where it is. -/
theorem mem_joinBreaksAfter_iff (noBreak : isBreak symbol = false) (noSpace : symbol ≠ ' ')
    (afterBreak : Bool) (symbols : List Symbol) :
    symbol ∈ joinBreaksAfter afterBreak symbols ↔ symbol ∈ symbols := by
  induction symbols generalizing afterBreak with
  | nil => rfl
  | cons first rest ih =>
      rw [joinBreaksAfter, List.mem_cons]
      split
      · rename_i broken
        have other : symbol ≠ first := by
          rintro rfl
          rw [noBreak] at broken
          cases broken
        split
        · simp only [ih, other, false_or]
        · simp only [List.mem_cons, ih, other, noSpace, false_or]
      · rw [List.mem_cons, ih]

end Text

namespace LookupModule

theorem stray_mem_originLine_iff {byte : Fin 128} (source : Text) :
    Symbol.stray byte ∈ originLine (Text.joinBreaks source.toList) ↔
      Symbol.stray byte ∈ source.toList := by
  have beginning : Text.Printable originBeginning := Text.printable_of_ascii (by decide)
  have ending : Text.Printable originEnding := Text.printable_of_ascii (by decide)
  rw [originLine, List.mem_append, List.mem_append, Text.joinBreaks,
    Text.mem_joinBreaksAfter_iff rfl (by simp)]
  simp only [beginning.stray_not_mem, ending.stray_not_mem, false_or, or_false]

theorem stray_mem_render_iff {byte : Fin 128} (moduleName : Text) (records : List Record)
    (source : Text) :
    Symbol.stray byte ∈ (render moduleName records source).toList ↔
      Symbol.stray byte ∈ source.toList := by
  rw [← stray_mem_originLine_iff source, render, text, Text.toList_ofList, List.mem_flatMap]
  constructor
  · rintro ⟨line, written, inside⟩
    rcases List.mem_append.mp inside with inside | ended
    · rcases printable_or_eq_originLine moduleName records source written with printable | rfl
      · exact absurd inside printable.stray_not_mem
      · exact inside
    · simp at ended
  · intro inside
    exact ⟨_, List.mem_append_left _ (List.mem_cons_of_mem _ List.mem_cons_self),
      List.mem_append_left _ inside⟩

/-- A module can be written exactly if its table's path has a spelling in UTF-8. -/
theorem encode?_render_eq_none_iff (moduleName : Text) (records : List Record) (source : Text) :
    (render moduleName records source).encode? = none ↔ source.encode? = none := by
  simp only [Text.encode?_eq_none_iff, stray_mem_render_iff]

end LookupModule

end MessageTables
