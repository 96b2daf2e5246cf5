import MessageTables.Proofs.FileSystem.Chains
import MessageTables.Proofs.FileSystem.Descents
import MessageTables.Proofs.FileSystem.Replacement
import MessageTables.Proofs.Text.Spelling

/-!
# Temporary names

Different tokens, of which there are finitely many, give different names. The name of
a temporary file takes fourteen bytes more than the output's, whatever the token is.
So what is said of a path with one token, but for what stands there, holds for all:
whether it is too long, whether it has a null character, and whether its last part is
a name.
-/

namespace MessageTables

namespace Token

theorem forall_mem_text {token : Token} {property : Symbol → Prop}
    (holds : ∀ character ∈ alphabet, property (.char character)) :
    ∀ symbol ∈ token.text.toList, property symbol := by
  intro symbol inside
  obtain ⟨character, among, rfl⟩ := List.mem_map.mp inside
  exact holds character (token.isToken.2 character among)

theorem byteSize_text (token : Token) : token.text.byteSize = 8 := by
  have ascii : (alphabet.all fun character => character.utf8Size = 1) = true := by decide
  have one : ∀ symbol ∈ token.text.toList, symbol.byteSize = 1 :=
    forall_mem_text fun character among =>
      of_decide_eq_true (List.all_eq_true.mp ascii character among)
  rw [Text.byteSize_eq_length one, Text.length, text, Text.toList_ofList, List.length_map,
    token.isToken.1]
  rfl

/-- The first token in the order of the alphabet. -/
def first : Token :=
  ⟨List.replicate length 'a', List.length_replicate, fun other among => by
    rw [List.eq_of_mem_replicate among]
    decide⟩

/-- There are only so many tokens. -/
instance : Finite Token := by
  have characters : Finite Char := Finite.of_injective Char.val fun _ _ => Char.ext
  have rows : Finite ↑{characters : List Char | characters.length = length} :=
    (List.finite_length_eq Char length).to_subtype
  refine Finite.of_injective (fun token : Token =>
    (⟨token.characters, token.isToken.1⟩ :
      ↑{characters : List Char | characters.length = length})) fun one other same => ?_
  cases one
  cases other
  cases same
  rfl

/-- All tokens but one can be listed. -/
theorem exists_others (one : Token) :
    ∃ others : List Token, ∀ token, token ∈ others ↔ token ≠ one := by
  refine ⟨(Set.toFinite {token | token ≠ one}).toFinset.toList, fun token => ?_⟩
  rw [Finset.mem_toList, Set.Finite.mem_toFinset]
  rfl

theorem text_inj {one other : Token} : one.text = other.text ↔ one = other := by
  refine ⟨fun same => ?_, congrArg text⟩
  have characters : one.characters = other.characters :=
    List.map_inj_right (fun _ _ => Symbol.char.inj) |>.mp (congrArg Text.toList same)
  cases one
  cases other
  cases characters
  rfl

end Token

namespace Path

/-- The parts of a path that leads down are those of its absolute one. -/
theorem Descends.absolute_eq {path : Path} (descends : path.Descends) :
    path.absolute = ⟨path.anchor.absolute, path.parts⟩ := by
  have collected (rest parts : List Part) (free : Part.up ∉ rest) :
      rest.foldl (fun parts part => if part = Part.up then parts.tail else part :: parts) parts =
        rest.reverse ++ parts := by
    induction rest generalizing parts with
    | nil => rfl
    | cons part rest ih =>
        have differs : part ≠ Part.up := by
          rintro rfl
          exact free List.mem_cons_self
        rw [List.foldl_cons, if_neg differs,
          ih _ fun among => free (List.mem_cons_of_mem part among)]
        simp
  simp only [absolute, collected path.parts [] descends, List.append_nil, List.reverse_reverse]

theorem descends_plain (anchor : Anchor) (location : Location) :
    (plain anchor location).Descends := by
  intro among
  rcases List.mem_map.mp (List.mem_reverse.mp among) with ⟨name, _, same⟩
  exact name.part_ne_up same

/-! ## Texts of temporary names -/

theorem byteSize_temporaryText (name : Text) (token : Token) :
    (temporaryText name token).byteSize = name.byteSize + 14 := by
  have dot : ("." : Text).byteSize = 1 := rfl
  have ending : (".tmp" : Text).byteSize = 4 := rfl
  simp only [temporaryText, Text.byteSize_append, Token.byteSize_text, dot, ending]
  omega

/-- Different tokens give different names. -/
theorem temporaryText_inj {name : Text} {one other : Token} :
    temporaryText name one = temporaryText name other ↔ one = other := by
  rw [← Token.text_inj, temporaryText, temporaryText, ← Text.toList_inj, ← Text.toList_inj]
  simp only [Text.toList_append, List.append_left_inj, List.append_right_inj]

theorem not_mem_temporaryText {character : Char} {name : Text} (token : Token)
    (outside : Symbol.char character ∉ name.toList)
    (other : character ∉ '.' :: Token.alphabet) :
    Symbol.char character ∉ (temporaryText name token).toList := by
  have fixed : (".tmp".toList.all (· ∈ '.' :: Token.alphabet)) = true := by decide
  have noEnding : Symbol.char character ∉ (".tmp" : Text).toList := by
    intro inside
    rcases List.mem_map.mp inside with ⟨one, among, same⟩
    exact other (Symbol.char.inj same ▸ of_decide_eq_true (List.all_eq_true.mp fixed one among))
  have noDot : Symbol.char character ∉ ("." : Text).toList := by
    intro inside
    exact noEnding (List.mem_append_left _ inside)
  have noToken : Symbol.char character ∉ token.text.toList := by
    have differs : ∀ symbol ∈ token.text.toList, symbol ≠ .char character :=
      Token.forall_mem_text fun one among same =>
        other (List.mem_cons_of_mem _ (Symbol.char.inj same ▸ among))
    exact fun inside => differs _ inside rfl
  simp only [temporaryText, Text.toList_append, List.mem_append, noDot, outside, noToken,
    noEnding, or_self, not_false_eq_true]

theorem null_mem_temporaryText_iff (name : Text) (token : Token) :
    Symbol.char '\x00' ∈ (temporaryText name token).toList ↔
      Symbol.char '\x00' ∈ name.toList := by
  constructor
  · intro inside
    by_contra outside
    exact not_mem_temporaryText token outside (by decide) inside
  · intro inside
    simp only [temporaryText, Text.toList_append, List.mem_append]
    exact Or.inl (Or.inl (Or.inl (Or.inr inside)))

theorem temporaryText_ne (name : Text) (token : Token) {text : Text}
    (short : text.byteSize < 14) : temporaryText name token ≠ text := by
  intro same
  have size := byteSize_temporaryText name token
  rw [same] at size
  omega

theorem isDecoded_temporaryText {name : Text} (decoded : name.IsDecoded) (token : Token) :
    (temporaryText name token).IsDecoded := by
  have characters : "." ++ token.text ++ ".tmp" =
      Text.ofString ("." ++ String.ofList token.characters ++ ".tmp") := by
    apply Text.ext
    simp [Token.text]
  have shape : temporaryText name token =
      "." ++ (name ++ Text.ofString ("." ++ String.ofList token.characters ++ ".tmp")) := by
    rw [← characters]
    simp only [temporaryText, Text.append_assoc]
  rw [shape]
  exact (decoded.append_ofString _).ofString_append "."

theorem isPart_temporaryText {name : Text} (noSlash : Symbol.char '/' ∉ name.toList)
    (decoded : name.IsDecoded) (token : Token) : IsPart (temporaryText name token) :=
  ⟨temporaryText_ne _ _ (by decide), temporaryText_ne _ _ (by decide),
    not_mem_temporaryText token noSlash (by decide), isDecoded_temporaryText decoded token⟩

/-! ## Temporary names as parts and names -/

/-- The name of a temporary file, as a part of a path. -/
def temporaryPart (part : Part) (token : Token) : Part :=
  ⟨temporaryText part.text token, isPart_temporaryText part.isPart.2.2.1 part.isPart.2.2.2 token⟩

theorem temporaryPart_ne_up (part : Part) (token : Token) : temporaryPart part token ≠ Part.up :=
  fun same => temporaryText_ne part.text token (by decide) (congrArg Part.text same)

theorem isDecoded_name (path : Path) : path.name.IsDecoded := by
  rw [name]
  split
  · decide
  · next part last => exact part.isPart.2.2.2

/-- The temporary file goes where the output goes, whatever leads there. -/
theorem temporary_eq_child (output : Path) (token : Token) :
    output.temporary token = output.parent.absolute.child
      ⟨temporaryText output.name token,
        isPart_temporaryText output.slash_not_mem_name output.isDecoded_name token⟩ := by
  rw [temporary, ofText_part (isPart_temporaryText output.slash_not_mem_name
    output.isDecoded_name token)]
  rfl

theorem temporary_parts {part : Part} {above : List Part} (descends : Part.up ∉ above)
    (anchor : Anchor) (token : Token) :
    (TreeAction.directoryPath anchor (part :: above)).temporary token =
      TreeAction.directoryPath anchor.absolute (temporaryPart part token :: above) := by
  have upward : (TreeAction.directoryPath anchor above).Descends := fun among =>
    descends (List.mem_reverse.mp among)
  rw [temporary_eq_child, TreeAction.directoryPath_cons, TreeAction.directoryPath_cons,
    parent_child, upward.absolute_eq]
  exact congrArg _ (Part.ext (congrArg (temporaryText · token) (name_child _ part)))

theorem temporary_plain (anchor : Anchor) (name : Name) (above : Location) (token : Token) :
    (plain anchor (name :: above)).temporary token =
      (plain anchor.absolute above).child (temporaryPart name.part token) := by
  rw [temporary_eq_child, parent_plain, (descends_plain anchor _).absolute_eq]
  exact congrArg _ (Part.ext (congrArg (temporaryText · token) (name_plain anchor name above)))

theorem size_text_temporary_le (anchor : Anchor) (name : Name) (above : Location)
    (token : Token) :
    ((plain anchor (name :: above)).temporary token).text.byteSize ≤
      (plain anchor (name :: above)).text.byteSize + 15 := by
  have starts : anchor.absolute.text.byteSize ≤ anchor.text.byteSize + 1 := by
    cases anchor <;> decide
  rw [temporary_plain, plain, child, ← List.reverse_cons, size_text, size_text_plain,
    List.map_map]
  simp only [temporaryPart, byteSize_temporaryText]
  change _ + _ + (name.text.byteSize + 14) ≤ _
  have same : (above.map ((fun other : Part => other.text.byteSize + 1) ∘ Name.part)).sum =
      (above.map fun other => other.text.byteSize + 1).sum := rfl
  omega

section Names

variable {name : Name} (short : name.text.byteSize ≤ 241)

include short in
theorem isName_temporaryText (token : Token) : IsName (temporaryText name.text token) := by
  refine ⟨(temporaryPart name.part token).isPart, temporaryText_ne _ _ (by decide),
    not_mem_temporaryText token name.isName.2.2.1 (by decide), ?_⟩
  rw [byteSize_temporaryText]
  omega

/-- The name of a temporary file for an output whose name leaves room for it. -/
def temporaryName (token : Token) : Name :=
  ⟨temporaryText name.text token, isName_temporaryText short token⟩

theorem temporaryName_inj {one other : Token} :
    temporaryName short one = temporaryName short other ↔ one = other := by
  rw [temporaryName, temporaryName, Name.mk.injEq, temporaryText_inj]

theorem byteSize_temporaryName (token : Token) :
    (temporaryName short token).text.byteSize = name.text.byteSize + 14 :=
  byteSize_temporaryText name.text token

theorem temporary_eq (anchor : Anchor) (above : Location) (token : Token) :
    (plain anchor (name :: above)).temporary token =
      .plain anchor.absolute (temporaryName short token :: above) := by
  rw [temporary_plain, plain_cons]
  rfl

end Names

/-- A temporary name that is one leaves room for it in the name of its output. -/
theorem isName_of_temporaryText {part : Part} {token : Token} (descends : part ≠ Part.up)
    (isName : IsName (temporaryText part.text token)) :
    IsName part.text ∧ part.text.byteSize ≤ 241 := by
  have size := byteSize_temporaryText part.text token
  rcases isName with ⟨_, _, nullFree, long⟩
  rw [null_mem_temporaryText_iff] at nullFree
  refine ⟨⟨part.isPart, fun same => descends (Part.ext same), nullFree, ?_⟩, ?_⟩
  · omega
  · omega

/-- The check of a temporary path does not see its token. -/
theorem checkPath_temporary_eq {anchor : Anchor} {part : Part} {above : List Part}
    (descends : Part.up ∉ above) (token other : Token) :
    Tree.checkPath ((TreeAction.directoryPath anchor (part :: above)).temporary token) =
      Tree.checkPath ((TreeAction.directoryPath anchor (part :: above)).temporary other) := by
  rw [temporary_parts descends, temporary_parts descends]
  apply checkPath_congr
  · simp only [NullFree, TreeAction.directoryPath, List.mem_reverse, List.forall_mem_cons,
      temporaryPart, null_mem_temporaryText_iff]
  · simp only [TreeAction.directoryPath, size_text, temporaryPart, byteSize_temporaryText]

end Path

end MessageTables
