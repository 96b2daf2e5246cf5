import MessageTables.Proofs.FileSystem.Resolution
import MessageTables.Proofs.Glob.Sightings
import MessageTables.Proofs.Text.Spelling

/-!
# Which tables are found

Whatever a search goes through, a path that it finds was found by its last
pattern part, in some directory. So the tables that are found lead to files, are
below the directory that was searched and have names that end as tables do.

A suffix without wildcards and slashes is searched for as it is written: the star
before it is the only part of the pattern that stands for anything else.
-/

namespace MessageTables

namespace Wildcard

theorem describes_literals {literals text : List Symbol} :
    describes (literals.map .literal) text = true ↔ text = literals := by
  induction literals generalizing text with
  | nil => simp [describes]
  | cons literal literals ih =>
      cases text with
      | nil => simp [describes]
      | cons character rest =>
          rw [List.map_cons, describes, Bool.and_eq_true, ih]
          · simp [WildcardPiece.accepts]
          · intro isStar
            cases isStar

theorem someEnd_eq_true_iff {condition : List Symbol → Bool} {text : List Symbol} :
    someEnd condition text = true ↔ ∃ rest, rest <:+ text ∧ condition rest = true := by
  induction text with
  | nil => simp [someEnd]
  | cons character text ih =>
      rw [someEnd, Bool.or_eq_true, ih]
      constructor
      · rintro (whole | ⟨rest, within, holds⟩)
        · exact ⟨_, List.suffix_refl _, whole⟩
        · exact ⟨rest, within.trans (List.suffix_cons character text), holds⟩
      · rintro ⟨rest, within, holds⟩
        rcases List.suffix_cons_iff.mp within with rfl | further
        · exact Or.inl holds
        · exact Or.inr ⟨rest, further, holds⟩

/-- A star before literals stands for the texts that end in them. -/
theorem accepts_star_literals {literals text : List Symbol} :
    accepts (.star :: literals.map .literal) text = true ↔ literals <:+ text := by
  rw [accepts_eq_describes, describes, someEnd_eq_true_iff]
  constructor
  · rintro ⟨rest, within, holds⟩
    rwa [describes_literals.mp holds] at within
  · intro within
    exact ⟨literals, within, describes_literals.mpr rfl⟩

end Wildcard

namespace Pattern

/-- Whether every character of a text stands for itself in a part of a pattern. -/
def IsLiteral (text : Text) : Prop :=
  ∀ character ∈ text.toList,
    character ≠ '*' ∧ character ≠ '?' ∧ character ≠ '[' ∧ character ≠ '/'

instance (text : Text) : Decidable (IsLiteral text) :=
  List.decidableBAll _ text.toList

theorem isLiteral_csv : IsLiteral ".csv" := by
  decide

end Pattern

namespace Wildcard

theorem read_literals {text : List Symbol} {steps : Nat} (enough : text.length ≤ steps)
    (literal : ∀ character ∈ text, character ≠ '*' ∧ character ≠ '?' ∧ character ≠ '[') :
    read steps text = text.map .literal := by
  induction text generalizing steps with
  | nil => cases steps <;> rfl
  | cons character rest ih =>
      rcases literal character List.mem_cons_self with ⟨noStar, noMark, noBracket⟩
      obtain ⟨steps, rfl⟩ : ∃ fewer, steps = fewer + 1 :=
        Nat.exists_eq_add_one_of_ne_zero (Nat.ne_zero_of_lt enough)
      have further := ih (Nat.le_of_succ_le_succ enough) fun other inside =>
        literal other (List.mem_cons_of_mem character inside)
      rw [List.map_cons, ← further, read]
      · exact fun same => noStar same
      · exact fun same => noMark same
      · exact fun same => noBracket same

theorem ofText_star {suffix : String} (literal : Pattern.IsLiteral suffix) :
    ofText ("*" ++ suffix) = .star :: (suffix : Text).toList.map .literal := by
  have shape : ("*" ++ (suffix : Text)).toList = Symbol.char '*' :: (suffix : Text).toList :=
    Text.toList_append "*" suffix
  rw [ofText, shape, List.length_cons, read, read_literals (Nat.le_refl _)]
  intro character inside
  rcases literal character inside with ⟨noStar, noMark, noBracket, _⟩
  exact ⟨noStar, noMark, noBracket⟩

end Wildcard

/-- One star before a literal text is a wildcard; it takes two for any depth. -/
theorem PatternPart.ofPart_star {suffix : String} (literal : Pattern.IsLiteral suffix)
    (isPart : IsPart ("*" ++ suffix)) :
    ofPart ⟨"*" ++ suffix, isPart⟩ =
      .ok (.wildcard (.star :: (suffix : Text).toList.map .literal)) := by
  have noStar : Symbol.char '*' ∉ (suffix : Text).toList := fun inside => (literal '*' inside).1 rfl
  have shape : ("*" ++ (suffix : Text)).toList = Symbol.char '*' :: (suffix : Text).toList :=
    Text.toList_append "*" suffix
  have noDepth : Text.ofString "*" ++ suffix ≠ "**" := by
    intro same
    have characters := congrArg Text.toList same
    rw [shape] at characters
    rw [(List.cons.inj characters).right] at noStar
    exact noStar List.mem_cons_self
  have noPair :
      ¬ Wildcard.someEnd (Text.toList "**").isPrefixOf ("*" ++ (suffix : Text)).toList = true := by
    intro pair
    rcases Wildcard.someEnd_eq_true_iff.mp pair with ⟨rest, within, begins⟩
    rcases List.isPrefixOf_iff_prefix.mp begins with ⟨others, rfl⟩
    rw [shape] at within
    rcases List.suffix_cons_iff.mp within with whole | behind
    · rw [← (List.cons.inj whole).right] at noStar
      exact noStar List.mem_cons_self
    · exact noStar (behind.subset List.mem_cons_self)
  have wild : Wildcard.isWildcard ("*" ++ suffix) = true := by
    rw [Wildcard.isWildcard, shape]
    rfl
  rw [ofPart, if_neg noDepth, if_neg noPair, if_pos wild, Wildcard.ofText_star literal]

/-- A star before a literal text is a pattern of one part, for the names that end in the text. -/
theorem Pattern.ofText_star {suffix : String} (literal : IsLiteral suffix) :
    ofText ("*" ++ suffix) = .ok [.wildcard (.star :: (suffix : Text).toList.map .literal)] := by
  have noSlash : Symbol.char '/' ∉ (suffix : Text).toList :=
    fun inside => (literal '/' inside).2.2.2 rfl
  have shape : ("*" ++ (suffix : Text)).toList = Symbol.char '*' :: (suffix : Text).toList :=
    Text.toList_append "*" suffix
  have isPart : IsPart ("*" ++ suffix) := by
    refine ⟨?_, ?_, ?_, (Text.isDecoded_ofString suffix).ofString_append "*"⟩
    · intro same
      rw [same] at shape
      cases shape
    · intro same
      rw [same] at shape
      cases shape
    · rw [shape]
      simpa using noSlash
  have parts : Path.partsOf ("*" ++ suffix) = [⟨"*" ++ suffix, isPart⟩] :=
    congrArg Path.parts (Path.ofText_part isPart)
  have last : ("*" ++ (suffix : Text)).toList.getLast? ≠ some (Symbol.char '/') := fun slash =>
    isPart.2.2.1 (List.mem_of_getLast? slash)
  rw [ofText, parts]
  simp only [List.mapM_cons, List.mapM_nil, PatternPart.ofPart_star literal, last]
  rfl

namespace Tree

variable {tree : Tree} {links : LinkRule} {path directory : Path} {paths : List Path}
  {suffix : String}

theorem exists_of_mem_gather {α : Type} {find : α → Except Failure (Option (List Path))}
    {elements : List α} (gathered : gather find elements = .ok paths) (inside : path ∈ paths) :
    ∃ element found, find element = .ok (some found) ∧ path ∈ found := by
  induction elements generalizing paths with
  | nil =>
      cases gathered
      cases inside
  | cons element rest ih =>
      rw [gather] at gathered
      rcases bind_eq_ok_iff.mp gathered with ⟨outcome, answered, gathered⟩
      cases outcome with
      | none =>
          cases gathered
          cases inside
      | some found =>
          rcases bind_eq_ok_iff.mp gathered with ⟨others, further, gathered⟩
          cases gathered
          rcases List.mem_append.mp inside with here | later
          · exact ⟨element, found, answered, here⟩
          · exact ih further later

theorem exists_of_mem_explore {find : Path → Except Failure (List Path)}
    {givenUp : Option Location} {sightings : List Sighting}
    (explored : tree.explore links directory find givenUp sightings = .ok paths)
    (inside : path ∈ paths) :
    ∃ sighting ∈ sightings, ∃ found,
      find (sighting.path directory) = .ok found ∧ path ∈ found := by
  induction sightings generalizing givenUp paths with
  | nil =>
      cases explored
      cases inside
  | cons sighting rest ih =>
      have behind {found : List Path} {given : Option Location}
          (further : tree.explore links directory find given rest = .ok found)
          (later : path ∈ found) :
          ∃ other ∈ sighting :: rest, ∃ found,
            find (other.path directory) = .ok found ∧ path ∈ found := by
        rcases ih further later with ⟨other, among, answer⟩
        exact ⟨other, List.mem_cons_of_mem sighting among, answer⟩
      rw [explore] at explored
      split at explored
      · exact behind explored inside
      · rcases bind_eq_ok_iff.mp explored with ⟨checked, _, explored⟩
        cases checked with
        | none => exact behind explored inside
        | some entered =>
            simp only at explored
            split at explored
            · rcases bind_eq_ok_iff.mp explored with ⟨found, answered, explored⟩
              rcases bind_eq_ok_iff.mp explored with ⟨others, further, explored⟩
              cases explored
              rcases List.mem_append.mp inside with here | later
              · exact ⟨sighting, List.mem_cons_self, found, answered, here⟩
              · exact behind further later
            · exact behind explored inside

theorem answer_eq_ok_iff {α : Type} {answered : Except AccessError α} {value : α} :
    answer path answered = .ok value ↔ answered = .ok value := by
  cases answered <;> simp [answer]

theorem test_of_mem_keepFile (kept : tree.keepFile directory = .ok paths)
    (inside : path ∈ paths) :
    path = directory ∧ tree.test Node.isFile directory = .ok true := by
  rcases bind_eq_ok_iff.mp kept with ⟨isFile, asked, kept⟩
  cases isFile with
  | false =>
      cases kept
      cases inside
  | true =>
      cases kept
      exact ⟨List.mem_singleton.mp inside, answer_eq_ok_iff.mp asked⟩

theorem answerIfGranted_eq_ok_some_iff {α : Type} {answered : Except AccessError α} {value : α} :
    answerIfGranted path answered = .ok (some value) ↔ answered = .ok value := by
  unfold answerIfGranted
  split <;> simp

theorem exists_name_of_mem_select {wildcard : Wildcard}
    (selected : tree.select links [.wildcard wildcard] directory = .ok paths)
    (inside : path ∈ paths) :
    (∃ location, tree.directoryAt directory = .ok location) ∧
      ∃ name : Name, path = directory.child name.part ∧
        wildcard.accepts name.text.toList = true ∧ tree.test Node.isFile path = .ok true := by
  rw [select] at selected
  rcases bind_eq_ok_iff.mp selected with ⟨location, granted, selected⟩
  cases location with
  | none =>
      cases selected
      cases inside
  | some location =>
      refine ⟨⟨location, answerIfGranted_eq_ok_some_iff.mp granted⟩, ?_⟩
      rcases exists_of_mem_gather selected inside with ⟨entry, found, answered, within⟩
      rcases bind_eq_ok_iff.mp answered with ⟨enter, _, answered⟩
      cases enter with
      | none => cases answered
      | some enter =>
          simp only at answered
          split at answered
          · rename_i accepted
            rcases bind_eq_ok_iff.mp answered with ⟨kept, keeps, answered⟩
            cases answered
            rw [select] at keeps
            rcases test_of_mem_keepFile keeps within with ⟨rfl, tested⟩
            exact ⟨entry.1, rfl, (Bool.and_eq_true_iff.mp accepted).2, tested⟩
          · cases answered
            cases within

theorem pattern_csv :
    Pattern.ofText ("*" ++ ".csv") =
      .ok [.wildcard (.star :: (".csv" : Text).toList.map .literal)] :=
  Pattern.ofText_star Pattern.isLiteral_csv

theorem findTables_eq_ok_iff (literal : Pattern.IsLiteral suffix) :
    tree.findTables links directory suffix = .ok paths ↔
      tree.test Node.isDirectory directory = .ok false ∧ paths = [] ∨
        tree.test Node.isDirectory directory = .ok true ∧ ∃ files,
          tree.select links [.anyDepth, .wildcard (.star :: (suffix : Text).toList.map .literal)]
              directory = .ok files ∧
            paths = Path.sorted files := by
  rw [findTables, Pattern.ofText_star literal]
  constructor
  · intro found
    rcases bind_eq_ok_iff.mp found with ⟨isDirectory, asked, found⟩
    rw [answer_eq_ok_iff] at asked
    cases isDirectory with
    | false =>
        cases found
        exact Or.inl ⟨asked, rfl⟩
    | true =>
        rcases bind_eq_ok_iff.mp found with ⟨pattern, read, found⟩
        cases read
        rcases bind_eq_ok_iff.mp found with ⟨files, selected, found⟩
        cases found
        exact Or.inr ⟨asked, files, selected, rfl⟩
  · rintro (⟨asked, rfl⟩ | ⟨asked, files, selected, rfl⟩)
    · exact bind_eq_ok_iff.mpr ⟨false, answer_eq_ok_iff.mpr asked, rfl⟩
    · refine bind_eq_ok_iff.mpr ⟨true, answer_eq_ok_iff.mpr asked, ?_⟩
      exact bind_eq_ok_iff.mpr ⟨_, rfl, bind_eq_ok_iff.mpr ⟨files, selected, rfl⟩⟩

theorem findTables_csv_eq_ok_iff :
    tree.findTables links directory ".csv" = .ok paths ↔
      tree.test Node.isDirectory directory = .ok false ∧ paths = [] ∨
        tree.test Node.isDirectory directory = .ok true ∧ ∃ files,
          tree.select links [.anyDepth, .wildcard (.star :: (".csv" : Text).toList.map .literal)]
              directory = .ok files ∧
            paths = Path.sorted files :=
  findTables_eq_ok_iff Pattern.isLiteral_csv

/-- What is selected in order is what is found. -/
theorem findTables_of_select (literal : Pattern.IsLiteral suffix)
    (isDirectory : tree.test Node.isDirectory directory = .ok true)
    (selected : tree.select links
      [.anyDepth, .wildcard (.star :: (suffix : Text).toList.map .literal)] directory = .ok paths)
    (ordered : Path.sorted paths = paths) : tree.findTables links directory suffix = .ok paths :=
  (findTables_eq_ok_iff literal).mpr (Or.inr ⟨isDirectory, paths, selected, ordered.symm⟩)

theorem findTables_csv_of_select
    (isDirectory : tree.test Node.isDirectory directory = .ok true)
    (selected : tree.select links
      [.anyDepth, .wildcard (.star :: (".csv" : Text).toList.map .literal)] directory = .ok paths)
    (ordered : Path.sorted paths = paths) : tree.findTables links directory ".csv" = .ok paths :=
  findTables_of_select Pattern.isLiteral_csv isDirectory selected ordered

/-- Every table that is found leads to a file below and has a name that ends in the suffix. -/
theorem exists_below_of_mem_findTables (literal : Pattern.IsLiteral suffix)
    (found : tree.findTables links directory suffix = .ok paths) (inside : path ∈ paths) :
    ∃ names, ∃ name : Name, path = (directory.below names).child name.part ∧
      (suffix : Text).toList <:+ name.text.toList ∧ tree.test Node.isFile path = .ok true := by
  rcases (findTables_eq_ok_iff literal).mp found with ⟨_, rfl⟩ | ⟨_, files, selected, rfl⟩
  · cases inside
  · have listed := Path.mem_sorted.mp inside
    rw [select] at selected
    rcases bind_eq_ok_iff.mp selected with ⟨root, _, selected⟩
    cases root with
    | none =>
        cases selected
        cases listed
    | some root =>
        rcases exists_of_mem_explore selected listed with ⟨sighting, among, found, answered, within⟩
        rcases mem_sightings.mp among with ⟨names, node, rfl, _⟩
        rcases exists_name_of_mem_select answered within with
          ⟨_, name, same, accepted, tested⟩
        exact ⟨names, name, same, Wildcard.accepts_star_literals.mp accepted, tested⟩

theorem exists_name_of_mem_findTables (found : tree.findTables links directory ".csv" = .ok paths)
    (inside : path ∈ paths) :
    ∃ names, ∃ name : Name, path = (directory.below names).child name.part ∧
      (".csv" : Text).toList <:+ name.text.toList ∧ tree.test Node.isFile path = .ok true :=
  exists_below_of_mem_findTables Pattern.isLiteral_csv found inside

theorem suffix_name_of_mem_findTables (found : tree.findTables links directory ".csv" = .ok paths)
    (inside : path ∈ paths) : (".csv" : Text).toList <:+ path.name.toList := by
  rcases exists_name_of_mem_findTables found inside with ⟨names, name, rfl, ending, _⟩
  rw [Path.name_child]
  exact ending

end Tree

end MessageTables
