import Mathlib
import MessageTables.CommandLine.Run

/-!
# Options on either side of the command

The options of a command may stand before its word, behind it, or on both sides. Written
in full, an option is read the same way at both places, and its value is any text that
does not look like an option, the words of commands included. What counts is the whole
row of options: `settingsOf` says what it means, and reading some options behind others
gives the settings of both rows together. So it makes no difference where the row is cut.

Words are looked at as words of the program first, then once more as words of the command.
Both see the same in the options that the command accepts.
-/

namespace MessageTables

namespace CommandLine

/--
An option as it may be given to a command: in full, with a value that does not look like an
option.
-/
structure Use (command : Command) where
  option : OptionName
  spelling : Text
  value : Text
  accepted : option ∈ (Scope.command command).options
  noHelp : option ≠ .help
  spelled : spelling ∈ option.spellings
  plain : value.toList.head? ≠ some (Symbol.char '-')

namespace Use

variable {command : Command} (use : Use command)

/-- The words that an option is written with: its value, if it takes one, is a word of its own. -/
def words : List Text :=
  if use.option.takesValue then [use.spelling, use.value] else [use.spelling]

/-- What the words of an option are read as. -/
def readings : List (Text × Word) :=
  (use.spelling, .option use.option (use.spelling.length = 2) none) ::
    if use.option.takesValue then [(use.value, .plain)] else []

/-- The value of the last of some options that is the given one. -/
def last? (option : OptionName) (uses : List (Use command)) : Option Text :=
  (uses.reverse.find? (·.option = option)).map value

/-- Whether an option is among some. -/
def has (option : OptionName) (uses : List (Use command)) : Bool :=
  uses.any (·.option = option)

end Use

variable {command : Command} {scope : Scope} {uses before after : List (Use command)}

/-- The words that some options are written with. -/
def wordsOf (uses : List (Use command)) : List Text :=
  uses.flatMap Use.words

/-- What the words of some options are read as. -/
def readingsOf (uses : List (Use command)) : List (Text × Word) :=
  uses.flatMap Use.readings

/-- What a row of options says. -/
def settingsOf (uses : List (Use command)) : Settings where
  verbose := Use.has .verbose uses
  debug := Use.has .debug uses
  sourceDirectory := Use.last? .sourceDirectory uses
  outputDirectory := Use.last? .outputDirectory uses
  force := Use.has .force uses
  keepGoing := Use.has .keepGoing uses

/-! ## Words -/

/-- Whether options are read at a place as at the place of a command. -/
def Reads (scope : Scope) (command : Command) : Prop :=
  scope = .program ∨ scope = .command command

theorem option?_spelling (reads : Reads scope command) (use : Use command) :
    scope.option? use.spelling = some use.option := by
  have all : ∀ option ∈ (Scope.command command).options, option ≠ .help →
      ∀ spelling ∈ option.spellings, Scope.program.option? spelling = some option ∧
        (Scope.command command).option? spelling = some option := by
    cases command <;> decide
  have both := all use.option use.accepted use.noHelp use.spelling use.spelled
  rcases reads with rfl | rfl
  · exact both.1
  · exact both.2

theorem option?_of_plain {text : Text} (plain : text.toList.head? ≠ some (Symbol.char '-')) :
    scope.option? text = none := by
  have hyphens : ∀ spelling ∈ scope.spellings,
      spelling.1.toList.head? = some (Symbol.char '-') := by
    rcases scope with _ | command
    · decide
    · cases command <;> decide
  rw [Scope.option?, List.lookup_eq_none_iff]
  intro spelling inside
  rw [bne_iff_ne]
  rintro rfl
  exact plain (hyphens spelling inside)

theorem read_of_plain {text : Text} (plain : text.toList.head? ≠ some (Symbol.char '-')) :
    Word.read scope text = .ok .plain := by
  have noHyphen (rest : List Symbol) : text.toList ≠ Symbol.char '-' :: rest := by
    intro shape
    exact plain (by rw [shape]; rfl)
  rw [Word.read, option?_of_plain plain]
  simp only
  split
  · rename_i shape
    exact absurd shape (noHyphen _)
  · rename_i shape
    exact absurd shape (noHyphen _)
  · rename_i shape
    exact absurd shape (noHyphen _)
  · rfl

theorem read_spelling (reads : Reads scope command) (use : Use command) :
    Word.read scope use.spelling =
      .ok (.option use.option (use.spelling.length = 2) none) := by
  rw [Word.read, option?_spelling reads use]

theorem readAll_cons_of_ne {text : Text} {rest : List Text} {word : Word}
    {others : List (Text × Word)} (first : Word.read scope text = .ok word)
    (noSeparator : word ≠ .separator) (further : Word.readAll scope rest = .ok others) :
    Word.readAll scope (text :: rest) = .ok ((text, word) :: others) := by
  rw [Word.readAll, first]
  cases word with
  | separator => exact absurd rfl noSeparator
  | plain =>
      rw [further]
      rfl
  | option name isShort attached =>
      rw [further]
      rfl
  | unknown =>
      rw [further]
      rfl

theorem readAll_use (reads : Reads scope command) (use : Use command) {rest : List Text}
    {others : List (Text × Word)} (further : Word.readAll scope rest = .ok others) :
    Word.readAll scope (use.words ++ rest) = .ok (use.readings ++ others) := by
  rw [Use.words, Use.readings]
  cases use.option.takesValue with
  | false => exact readAll_cons_of_ne (read_spelling reads use) (by simp) further
  | true =>
      have value := readAll_cons_of_ne (read_of_plain use.plain) (by simp) further
      exact readAll_cons_of_ne (read_spelling reads use) (by simp) value

theorem readAll_wordsOf (reads : Reads scope command) (uses : List (Use command))
    {rest : List Text} {others : List (Text × Word)}
    (further : Word.readAll scope rest = .ok others) :
    Word.readAll scope (wordsOf uses ++ rest) = .ok (readingsOf uses ++ others) := by
  induction uses with
  | nil => exact further
  | cons use uses ih =>
      rw [wordsOf, List.flatMap_cons, List.append_assoc, readingsOf, List.flatMap_cons,
        List.append_assoc]
      exact readAll_use reads use ih

/-! ## Settings -/

theorem Use.has_append (option : OptionName) (uses : List (Use command)) (use : Use command) :
    Use.has option (uses ++ [use]) = (Use.has option uses || decide (use.option = option)) := by
  simp [Use.has]

theorem Use.last?_append (option : OptionName) (uses : List (Use command)) (use : Use command) :
    Use.last? option (uses ++ [use]) =
      if use.option = option then some use.value else Use.last? option uses := by
  rw [Use.last?, List.reverse_append, List.reverse_singleton, List.singleton_append,
    List.find?_cons]
  split
  · rename_i same
    rw [if_pos (of_decide_eq_true same)]
    rfl
  · rename_i differs
    rw [if_neg (of_decide_eq_false differs)]
    rfl

theorem Use.noVersion (use : Use command) : use.option ≠ .version := by
  have none : OptionName.version ∉ (Scope.command command).options := by
    cases command <;> decide
  intro same
  exact none (same ▸ use.accepted)

/-- One more option changes the settings to those of the longer row. -/
theorem apply_settingsOf (scope : Scope) (uses : List (Use command)) (use : Use command) :
    (settingsOf uses).apply scope (use.option.directive use.value) =
      .ok (settingsOf (uses ++ [use])) := by
  simp only [settingsOf, Use.has_append, Use.last?_append]
  cases shape : use.option with
  | help => exact absurd shape use.noHelp
  | version => exact absurd shape use.noVersion
  | verbose => simp [OptionName.directive, Settings.apply]
  | debug => simp [OptionName.directive, Settings.apply]
  | sourceDirectory => simp [OptionName.directive, Settings.apply]
  | outputDirectory => simp [OptionName.directive, Settings.apply]
  | force => simp [OptionName.directive, Settings.apply]
  | keepGoing => simp [OptionName.directive, Settings.apply]

theorem readOptions_use (scope : Scope) (earlier : List (Use command)) (use : Use command)
    (unknown : List Text) (rest : List (Text × Word)) :
    readOptions scope (settingsOf earlier) unknown (use.readings ++ rest) =
      readOptions scope (settingsOf (earlier ++ [use])) unknown rest := by
  have applied := apply_settingsOf scope earlier use
  rw [Use.readings]
  cases takes : use.option.takesValue with
  | false =>
      -- An option without a value is read with an empty one, whatever stands in the use.
      have valueless : use.option.directive "" = use.option.directive use.value := by
        cases shape : use.option <;> simp_all [OptionName.takesValue, OptionName.directive]
      simp [readOptions, wordOptions, bareOption, takes, Settings.applyAll, valueless, applied]
  | true =>
      simp [readOptions, wordOptions, bareOption, takes, Settings.applyAll, applied]

theorem readOptions_readingsOf (scope : Scope) (earlier uses : List (Use command))
    (unknown : List Text) (rest : List (Text × Word)) :
    readOptions scope (settingsOf earlier) unknown (readingsOf uses ++ rest) =
      readOptions scope (settingsOf (earlier ++ uses)) unknown rest := by
  induction uses generalizing earlier with
  | nil => rw [List.append_nil, readingsOf, List.flatMap_nil, List.nil_append]
  | cons use uses ih =>
      rw [readingsOf, List.flatMap_cons, List.append_assoc, readOptions_use]
      have further := ih (earlier ++ [use])
      rwa [List.append_assoc] at further

/-! ## Command lines -/

theorem map_fst_readingsOf (uses : List (Use command)) :
    (readingsOf uses).map Prod.fst = wordsOf uses := by
  rw [readingsOf, wordsOf, List.map_flatMap]
  congr 1
  funext use
  rw [Use.readings, Use.words]
  split <;> rfl

theorem readOptions_settingsOf (scope : Scope) (earlier uses : List (Use command)) :
    readOptions scope (settingsOf earlier) [] (readingsOf uses) =
      .ok ⟨settingsOf (earlier ++ uses), [], []⟩ := by
  have read := readOptions_readingsOf scope earlier uses [] []
  rw [List.append_nil] at read
  rw [read, readOptions]

theorem classify_wordsOf (reads : Reads scope command) (uses : List (Use command)) :
    classify scope (wordsOf uses) = .ok (readingsOf uses) := by
  have all := readAll_wordsOf reads uses (show Word.readAll scope [] = .ok [] from rfl)
  rw [List.append_nil, List.append_nil] at all
  rw [classify, all]
  rfl

theorem settingsOf_nil : settingsOf ([] : List (Use command)) = .initial := rfl

theorem ofWord?_word (command : Command) : Command.ofWord? command.word = some command := by
  cases command <;> rfl

theorem plain_word (command : Command) : command.word.toList.head? ≠ some (Symbol.char '-') := by
  cases command <;> decide

theorem classify_around (before after : List (Use command)) :
    classify .program (wordsOf before ++ command.word :: wordsOf after) =
      .ok (readingsOf before ++ (command.word, .plain) :: readingsOf after) := by
  have behind := readAll_wordsOf (Or.inl rfl) after
    (show Word.readAll Scope.program [] = .ok [] from rfl)
  rw [List.append_nil, List.append_nil] at behind
  have worded := readAll_cons_of_ne (read_of_plain (plain_word command)) (by simp) behind
  rw [classify, readAll_wordsOf (Or.inl rfl) before worded]
  rfl

/-- Options around the word of a command are read as one row. -/
theorem parse_around (before after : List (Use command)) :
    parse (wordsOf before ++ command.word :: wordsOf after) =
      .ok ⟨command, settingsOf (before ++ after)⟩ := by
  have front : readOptions .program .initial []
      (readingsOf before ++ (command.word, .plain) :: readingsOf after) =
        .ok ⟨settingsOf before, [], command.word :: wordsOf after⟩ := by
    have read := readOptions_readingsOf .program [] before []
      ((command.word, .plain) :: readingsOf after)
    rw [settingsOf_nil] at read
    rw [read, List.nil_append, readOptions, map_fst_readingsOf]
    · nofun
    · nofun
  have back := readOptions_settingsOf (.command command) before after
  -- The word of a command is no separator, which begins with a hyphen.
  have noSeparator : ¬(command.word = "--" ∧ wordsOf after = []) := fun separator =>
    absurd (congrArg (·.toList.head?) separator.1) (plain_word command)
  rw [parse, classify_around]
  simp only [bind, Except.bind, front, if_neg noSeparator, ofWord?_word,
    classify_wordsOf (Or.inr rfl), back]
  rfl

theorem parse_wordsOf (uses : List (Use .generate)) :
    parse (wordsOf uses) = .ok ⟨.generate, settingsOf uses⟩ := by
  have read := readOptions_settingsOf .program [] uses
  rw [parse, classify_wordsOf (Or.inl rfl)]
  simp only [bind, Except.bind]
  rw [settingsOf_nil] at read
  rw [read]
  rfl

/-! ## Directories -/

/-- The first of some texts that is given and not empty. -/
def firstGiven? (texts : List (Option Text)) : Option Text :=
  texts.findSome? (·.filter (· ≠ Text.ofString ""))

/--
The directory of the tables: what the last option for it says, what the environment says, or
`src`.
-/
def sourceOf (uses : List (Use command)) (environment : Environment) : Path :=
  .ofText ((firstGiven? [Use.last? .sourceDirectory uses,
    environment.lookup (Text.ofString "MSGCODEGEN_SOURCE_DIR")]).getD "src")

/--
The directory of the modules: what the last option for it or the environment says, or that
of the tables.
-/
def outputOf (uses : List (Use command)) (environment : Environment) : Path :=
  match firstGiven? [Use.last? .outputDirectory uses,
    environment.lookup (Text.ofString "MSGCODEGEN_OUTPUT_DIR")] with
  | some directory => .ofText directory
  | none => sourceOf uses environment

/-- What a command does with two directories: the exit status. -/
def work (command : Command) (policy : Policy) (source output : Path) : Action Nat :=
  match command with
  | .generate => runGenerate policy source output
  | .clean => runClean source output
  | .list => runList source output

theorem firstGiven?_pair (first second : Option Text) :
    firstGiven? [first, second] =
      (first.filter (· ≠ Text.ofString "")).or (second.filter (· ≠ Text.ofString "")) := by
  rw [firstGiven?, List.findSome?_cons]
  cases first.filter (· ≠ Text.ofString "") with
  | some text => rfl
  | none =>
      rw [List.findSome?_cons]
      cases second.filter (· ≠ Text.ofString "") <;> rfl

theorem setting?_eq {name held : Text} (environment : Environment)
    (named : Environment.variableBeginning ++ Text.upper name = held) :
    environment.setting? name = (environment.lookup held).filter (· ≠ Text.ofString "") := by
  rw [Environment.setting?, named]

theorem source_settingsOf (uses : List (Use command)) (environment : Environment) :
    (settingsOf uses).source environment = sourceOf uses environment := by
  rw [Settings.source, sourceOf, firstGiven?_pair,
    setting?_eq environment (show _ = Text.ofString "MSGCODEGEN_SOURCE_DIR" by decide +kernel)]
  rfl

theorem output_settingsOf (uses : List (Use command)) (environment : Environment) :
    (settingsOf uses).output environment = outputOf uses environment := by
  rw [Settings.output, outputOf, firstGiven?_pair, source_settingsOf,
    setting?_eq environment (show _ = Text.ofString "MSGCODEGEN_OUTPUT_DIR" by decide +kernel)]
  rfl

/-! ## Runs -/

theorem wordsOf_append (before after : List (Use command)) :
    wordsOf (before ++ after) = wordsOf before ++ wordsOf after :=
  List.flatMap_append

theorem run_congr {words others : List Text} (same : parse words = parse others)
    (environment : Environment) (session : Session) :
    run words environment session = run others environment session := by
  rw [run, run, same]

end CommandLine

end MessageTables
