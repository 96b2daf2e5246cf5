import MessageTables.Proofs.Text.Pieces
import MessageTables.Text.Lines

/-!
# Texts and their lines

A line break is written in one of three ways, and a carriage return with a line
feed behind it is one break, never two. `Cut` says what the lines of a text are:
the unbroken texts between its breaks. It is the relation that `lines` computes,
so that facts about lines are inductions on a cut, one break at a time, and need
not look at single characters.

What is before a line of a text is empty or ends with a break. Such a text is
closed: its last line is empty, and whatever follows it begins a line of its own.
-/

namespace MessageTables.Text

/-- The ways to write a line break. -/
inductive LineBreak : List Symbol → Prop where
  | lineFeed : LineBreak ['\n']
  | carriageReturn : LineBreak ['\r']
  | both : LineBreak ['\r', '\n']

/-- Any number of line breaks. -/
inductive Breaks : List Symbol → Prop where
  | none : Breaks []
  | more {ending rest : List Symbol} (first : LineBreak ending) (further : Breaks rest) :
      Breaks (ending ++ rest)

/-- Whether a text has no character that breaks a line. -/
def Unbroken (text : List Symbol) : Prop :=
  ∀ character ∈ text, isBreak character = false

/-- How many line breaks a text has; a carriage return and the line feed behind it are one. -/
def breakCount : List Symbol → Nat
  | [] => 0
  | '\r' :: '\n' :: rest => breakCount rest + 1
  | character :: rest =>
      if isBreak character then breakCount rest + 1 else breakCount rest

instance (text : List Symbol) : Decidable (Unbroken text) :=
  decidable_of_iff (text.all (!isBreak ·)) (by simp [Unbroken])

variable {text line ending rest front : List Symbol} {cut others earlier later : List (List Symbol)}
  {character : Symbol}

theorem LineBreak.isBreak (broken : LineBreak ending) :
    ∀ character ∈ ending, Text.isBreak character = true := by
  cases broken <;> simp [Text.isBreak]

theorem LineBreak.ne_nil (broken : LineBreak ending) : ending ≠ [] := by
  cases broken with
  | lineFeed => exact List.cons_ne_nil _ _
  | carriageReturn => exact List.cons_ne_nil _ _
  | both => exact List.cons_ne_nil _ _

theorem LineBreak.startsApart (broken : LineBreak ending) (rest : List Symbol) :
    StartsApart Text.isBreak (ending ++ rest) := by
  intro character first
  rw [List.head?_append_of_ne_nil _ broken.ne_nil] at first
  exact broken.isBreak character (List.mem_of_mem_head? first)

/--
Line breaks are written with nothing but break characters, and every row of these is line
breaks.
-/
theorem breaks_iff : Breaks text ↔ ∀ character ∈ text, isBreak character = true := by
  constructor
  · intro breaks
    induction breaks with
    | none => simp
    | more first further ih =>
        intro character inside
        rcases List.mem_append.mp inside with here | later
        · exact first.isBreak character here
        · exact ih character later
  · intro all
    induction text with
    | nil => exact .none
    | cons character rest ih =>
        have further := ih fun other inside => all other (List.mem_cons_of_mem character inside)
        rcases isBreak_iff.mp (all character List.mem_cons_self) with rfl | rfl
        · exact .more .carriageReturn further
        · exact .more .lineFeed further

theorem Unbroken.cons (ordinary : isBreak character = false) (unbroken : Unbroken rest) :
    Unbroken (character :: rest) := by
  intro other inside
  rcases List.mem_cons.mp inside with rfl | later
  · exact ordinary
  · exact unbroken other later

theorem Unbroken.append (unbroken : Unbroken front) (further : Unbroken rest) :
    Unbroken (front ++ rest) :=
  List.forall_mem_append.mpr ⟨unbroken, further⟩

theorem Unbroken.not_mem (unbroken : Unbroken text) (broken : isBreak character = true) :
    character ∉ text := by
  intro inside
  rw [unbroken character inside] at broken
  cases broken

/-! ## Cutting a text -/

/-- A text with what is between its line breaks. No break is the carriage return of a longer one. -/
inductive Cut : List Symbol → List (List Symbol) → Prop where
  | last {line : List Symbol} (unbroken : Unbroken line) : Cut line [line]
  | more {line ending rest : List Symbol} {others : List (List Symbol)} (unbroken : Unbroken line)
      (broken : LineBreak ending) (whole : ending = ['\r'] → rest.head? ≠ some '\n')
      (further : Cut rest others) : Cut (line ++ ending ++ rest) (line :: others)

theorem Cut.cons (ordinary : isBreak character = false) (cut : Cut rest (line :: others)) :
    Cut (character :: rest) ((character :: line) :: others) := by
  cases cut with
  | last unbroken => exact .last (unbroken.cons ordinary)
  | more unbroken broken whole further => exact .more (unbroken.cons ordinary) broken whole further

theorem cut_lines (text : List Symbol) : Cut text (lines text) := by
  fun_induction lines text with
  | case1 => exact .last (List.forall_mem_nil _)
  | case2 rest ih =>
      exact .more (List.forall_mem_nil _) .both (fun same => absurd same (by decide)) ih
  | case3 character rest noPair broken ih =>
      rcases isBreak_iff.mp broken with rfl | rfl
      · refine .more (List.forall_mem_nil _) .carriageReturn (fun _ first => ?_) ih
        rcases List.head?_eq_some_iff.mp first with ⟨behind, rfl⟩
        exact noPair behind rfl rfl
      · exact .more (List.forall_mem_nil _) .lineFeed (fun same => absurd same (by decide)) ih
  | case4 character rest _ _ none => exact absurd none (lines_ne_nil rest)
  | case5 character rest _ ordinary line others shape ih =>
      rw [shape] at ih
      exact ih.cons (Bool.eq_false_of_not_eq_true ordinary)

theorem lines_cons_of_not_isBreak (ordinary : isBreak character = false)
    (shape : lines rest = line :: others) :
    lines (character :: rest) = (character :: line) :: others := by
  have noReturn : character ≠ '\r' := by
    rintro rfl
    exact absurd ordinary (by decide)
  rw [lines.eq_3 character rest fun _ same _ => noReturn same, if_neg (by simp [ordinary]), shape]

theorem lines_append_of_unbroken (unbroken : Unbroken line) (shape : lines rest = [] :: others) :
    lines (line ++ rest) = line :: others := by
  induction line with
  | nil => exact shape
  | cons character line ih =>
      exact lines_cons_of_not_isBreak (unbroken character List.mem_cons_self)
        (ih fun other inside => unbroken other (List.mem_cons_of_mem character inside))

theorem lines_append_of_break (broken : LineBreak ending)
    (whole : ending = ['\r'] → rest.head? ≠ some '\n') :
    lines (ending ++ rest) = [] :: lines rest := by
  cases broken with
  | lineFeed => exact lines.eq_3 '\n' rest (by simp)
  | carriageReturn =>
      refine lines.eq_3 '\r' rest fun behind _ same => whole rfl ?_
      rw [same]
      rfl
  | both => exact lines.eq_2 rest

/-- The lines of a text are what it is cut into. -/
theorem lines_eq_iff : lines text = cut ↔ Cut text cut := by
  constructor
  · rintro rfl
    exact cut_lines text
  · intro isCut
    induction isCut with
    | last unbroken =>
        have alone := lines_append_of_unbroken unbroken lines.eq_1
        rwa [List.append_nil] at alone
    | more unbroken broken whole further ih =>
        rw [List.append_assoc]
        apply lines_append_of_unbroken unbroken
        rw [lines_append_of_break broken whole, ih]

theorem Cut.unbroken (isCut : Cut text cut) : ∀ line ∈ cut, Unbroken line := by
  induction isCut with
  | last unbroken => simpa using unbroken
  | more unbroken broken whole further ih => exact List.forall_mem_cons.mpr ⟨unbroken, ih⟩

/-- A whole break between two texts puts the lines of the one before those of the other. -/
theorem Cut.append_break (isCut : Cut front cut) (broken : LineBreak ending)
    (whole : ending = ['\r'] → rest.head? ≠ some '\n')
    (alone : ending = ['\n'] → front.getLast? ≠ some '\r') (further : Cut rest others) :
    Cut (front ++ ending ++ rest) (cut ++ others) := by
  induction isCut with
  | last unbroken => exact .more unbroken broken whole further
  | @more line inner behind lines unbroken innerBroken innerWhole continued ih =>
      have begins : inner = ['\r'] → (behind ++ ending ++ rest).head? ≠ some '\n' := by
        intro isReturn
        cases behind with
        | cons first behind => exact innerWhole isReturn
        | nil =>
            -- The inner break ends the text here, so the break behind it is no lone line feed.
            cases broken with
            | lineFeed => exact absurd (by simp [isReturn]) (alone rfl)
            | carriageReturn => simp
            | both => simp
      have remaining : ending = ['\n'] → behind.getLast? ≠ some '\r' := by
        intro isFeed last
        apply alone isFeed
        rw [List.getLast?_append_of_ne_nil _ (by rintro rfl; cases last)]
        exact last
      have joined := Cut.more unbroken innerBroken begins (ih remaining)
      simpa only [List.append_assoc, List.cons_append] using joined

theorem lines_append_break (broken : LineBreak ending)
    (whole : ending = ['\r'] → rest.head? ≠ some '\n')
    (alone : ending = ['\n'] → front.getLast? ≠ some '\r') :
    lines (front ++ ending ++ rest) = lines front ++ lines rest :=
  lines_eq_iff.mpr ((cut_lines front).append_break broken whole alone (cut_lines rest))

/-! ## How many lines there are -/

theorem breakCount_append_of_unbroken (unbroken : Unbroken line) (rest : List Symbol) :
    breakCount (line ++ rest) = breakCount rest := by
  induction line with
  | nil => rfl
  | cons character line ih =>
      have ordinary := unbroken character List.mem_cons_self
      have noReturn : character ≠ '\r' := by
        rintro rfl
        exact absurd ordinary (by decide)
      rw [List.cons_append, breakCount.eq_3 character _ fun _ same _ => noReturn same,
        if_neg (by simp [ordinary])]
      exact ih fun other inside => unbroken other (List.mem_cons_of_mem character inside)

theorem breakCount_append_of_break (broken : LineBreak ending)
    (whole : ending = ['\r'] → rest.head? ≠ some '\n') :
    breakCount (ending ++ rest) = breakCount rest + 1 := by
  cases broken with
  | lineFeed => exact breakCount.eq_3 '\n' rest (by simp)
  | carriageReturn =>
      refine breakCount.eq_3 '\r' rest fun behind _ same => whole rfl ?_
      rw [same]
      rfl
  | both => exact breakCount.eq_2 rest

theorem Cut.length_eq (isCut : Cut text cut) : cut.length = breakCount text + 1 := by
  induction isCut with
  | @last line unbroken =>
      have alone := breakCount_append_of_unbroken unbroken []
      rw [List.append_nil] at alone
      rw [alone]
      rfl
  | more unbroken broken whole further ih =>
      rw [List.append_assoc, breakCount_append_of_unbroken unbroken,
        breakCount_append_of_break broken whole, List.length_cons, ih]

theorem length_lines (text : List Symbol) : (lines text).length = breakCount text + 1 :=
  (cut_lines text).length_eq

theorem lines_append_return (text : List Symbol) :
    lines (text ++ [Symbol.char '\r']) = lines text ++ [[]] := by
  have broken : lines (text ++ [Symbol.char '\r'] ++ []) = lines text ++ lines [] :=
    lines_append_break .carriageReturn (by simp) (by simp)
  rwa [List.append_nil, lines.eq_1] at broken

theorem breakCount_append_return (text : List Symbol) :
    breakCount (text ++ [Symbol.char '\r']) = breakCount text + 1 := by
  have count := length_lines (text ++ [Symbol.char '\r'])
  rw [lines_append_return, List.length_append, length_lines] at count
  exact (Nat.add_right_cancel count).symm

/-- The lines that are not empty are the pieces between break characters. -/
theorem Cut.pieces_eq (isCut : Cut text cut) : pieces isBreak text = cut.filter (!·.isEmpty) := by
  have begin {line rest : List Symbol} (unbroken : Unbroken line)
      (apart : StartsApart isBreak rest) :
      pieces isBreak (line ++ rest) = [line].filter (!·.isEmpty) ++ pieces isBreak rest := by
    cases line with
    | nil => rfl
    | cons character line => exact pieces_append ⟨List.cons_ne_nil _ _, unbroken⟩ apart
  induction isCut with
  | @last line unbroken =>
      have ended : StartsApart isBreak [] := nofun
      have alone := begin unbroken ended
      rwa [List.append_nil, pieces_of_separators (List.forall_mem_nil _), List.append_nil] at alone
  | @more line ending rest others unbroken broken whole further ih =>
      rw [List.append_assoc, begin unbroken (broken.startsApart rest),
        pieces_append_of_separators broken.isBreak, ih, ← List.filter_append]
      rfl

/-! ## Texts that end with a break -/

theorem Cut.ne_nil (isCut : Cut text cut) : cut ≠ [] := by
  cases isCut with
  | last => exact List.cons_ne_nil _ _
  | more => exact List.cons_ne_nil _ _

theorem Cut.eq_nil (isCut : Cut text [[]]) : text = [] := by
  generalize shape : [[]] = cut at isCut
  cases isCut with
  | last unbroken => exact (List.cons.inj shape).left.symm
  | more _ _ _ further => exact absurd (List.cons.inj shape).right.symm further.ne_nil

/-- A text of more than one line has a break behind its first line. -/
theorem Cut.exists_break (isCut : Cut text (line :: others)) (several : others ≠ []) :
    ∃ ending rest, text = line ++ ending ++ rest ∧ Unbroken line ∧ LineBreak ending ∧
      (ending = ['\r'] → rest.head? ≠ some '\n') ∧ Cut rest others := by
  cases isCut with
  | last => exact absurd rfl several
  | more unbroken broken whole further => exact ⟨_, _, rfl, unbroken, broken, whole, further⟩

theorem closed_ne_nil : earlier ++ line :: later ≠ [] :=
  List.append_ne_nil_of_right_ne_nil _ (List.cons_ne_nil _ _)

/-- What follows a closed text begins a line of its own. -/
theorem Cut.append (isCut : Cut front (earlier ++ [[]])) (begins : text.head? ≠ some '\n')
    (further : Cut text cut) : Cut (front ++ text) (earlier ++ cut) := by
  induction earlier generalizing front with
  | nil =>
      rw [isCut.eq_nil]
      exact further
  | cons line earlier ih =>
      rcases isCut.exists_break closed_ne_nil with
        ⟨ending, rest, rfl, unbroken, broken, whole, continued⟩
      rw [List.append_assoc]
      refine .more unbroken broken (fun alone => ?_) (ih continued)
      cases rest with
      | nil => exact begins
      | cons first rest => exact whole alone

theorem Cut.isBreak_getLast? (isCut : Cut front (earlier ++ [[]])) :
    ∀ character ∈ front.getLast?, isBreak character = true := by
  induction earlier generalizing front with
  | nil =>
      rw [isCut.eq_nil]
      rintro _ ⟨⟩
  | cons line earlier ih =>
      rcases isCut.exists_break closed_ne_nil with
        ⟨ending, rest, rfl, unbroken, broken, whole, continued⟩
      intro character last
      cases rest with
      | nil =>
          rw [List.append_nil, List.getLast?_append_of_ne_nil _ broken.ne_nil] at last
          exact broken.isBreak character (List.mem_of_mem_getLast? last)
      | cons first rest =>
          rw [List.getLast?_append_of_ne_nil _ (List.cons_ne_nil _ _)] at last
          exact ih continued character last

/-- A text that is empty or ends with a break is closed. -/
theorem Cut.exists_earlier (isCut : Cut text cut)
    (closed : ∀ character ∈ text.getLast?, isBreak character = true) :
    ∃ earlier, cut = earlier ++ [[]] := by
  induction isCut with
  | @last line unbroken =>
      cases shape : line.getLast? with
      | none =>
          rw [List.getLast?_eq_none_iff.mp shape]
          exact ⟨[], rfl⟩
      | some character =>
          have ordinary := unbroken character (List.mem_of_mem_getLast? shape)
          rw [closed character shape] at ordinary
          cases ordinary
  | @more line ending rest others unbroken broken whole further ih =>
      have closedRest : ∀ character ∈ rest.getLast?, isBreak character = true := by
        intro character last
        apply closed character
        rw [List.getLast?_append_of_ne_nil]
        · exact last
        · rintro rfl
          cases last
      rcases ih closedRest with ⟨earlier, rfl⟩
      exact ⟨line :: earlier, rfl⟩

theorem StartsApart.exists_break (apart : StartsApart isBreak rest) :
    rest = [] ∨ ∃ ending behind, rest = ending ++ behind ∧ LineBreak ending ∧
      (ending = ['\r'] → behind.head? ≠ some '\n') := by
  cases rest with
  | nil => exact Or.inl rfl
  | cons first rest =>
      right
      rcases isBreak_iff.mp (apart first rfl) with rfl | rfl
      · by_cases paired : rest.head? = some (Symbol.char '\n')
        · rcases List.head?_eq_some_iff.mp paired with ⟨behind, rfl⟩
          exact ⟨['\r', '\n'], behind, rfl, .both, fun same => absurd same (by decide)⟩
        · exact ⟨['\r'], rest, rfl, .carriageReturn, fun _ => paired⟩
      · exact ⟨['\n'], rest, rfl, .lineFeed, fun same => absurd same (by decide)⟩

theorem exists_cut_append (unbroken : Unbroken line) (apart : StartsApart isBreak rest) :
    ∃ others, Cut (line ++ rest) (line :: others) := by
  rcases apart.exists_break with rfl | ⟨ending, behind, rfl, broken, whole⟩
  · rw [List.append_nil]
    exact ⟨[], .last unbroken⟩
  · rw [← List.append_assoc]
    exact ⟨lines behind, .more unbroken broken whole (cut_lines behind)⟩

/-- Where a line of a text is: what is before it is closed, and what is behind it is apart. -/
theorem Cut.exists_front (isCut : Cut text (earlier ++ line :: later)) :
    ∃ front rest, text = front ++ line ++ rest ∧ Cut front (earlier ++ [[]]) ∧ Unbroken line ∧
      StartsApart isBreak rest := by
  have nothing : Cut [] [[]] := .last (List.forall_mem_nil _)
  induction earlier generalizing text with
  | nil =>
      cases isCut with
      | last unbroken =>
          refine ⟨[], [], (List.append_nil _).symm, nothing, unbroken, ?_⟩
          rintro _ ⟨⟩
      | more unbroken broken whole further =>
          exact ⟨[], _, List.append_assoc _ _ _, nothing, unbroken, broken.startsApart _⟩
  | cons first earlier ih =>
      rcases isCut.exists_break closed_ne_nil with
        ⟨ending, behind, rfl, unbroken, broken, whole, further⟩
      rcases ih further with ⟨front, rest, rfl, closed, lineUnbroken, apart⟩
      refine ⟨first ++ ending ++ front, rest, by simp only [List.append_assoc], ?_,
        lineUnbroken, apart⟩
      refine .more unbroken broken (fun alone => ?_) closed
      cases front with
      | nil =>
          rintro ⟨⟩
      | cons _ _ => exact whole alone

end MessageTables.Text
