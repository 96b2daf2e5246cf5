import MessageTables.Proofs.Freshness

/-!
# What puts a file out of date

A file is out of date when it is missing, or when one of the files it directly
depends on is there and changed later. Nothing else counts: not the order of the
dependencies, not how often one is listed, not what they depend on themselves.

This holds as long as every question for a time is answered. One that is not ends
the search for a newer file where it stands, so the order would matter.
-/

namespace MessageTables

namespace Tree

/--
Whether the question for the time of a path is answered: with a time, or with nothing being
there.
-/
def Dates (tree : Tree) (path : Path) : Prop :=
  (∃ time, tree.changeTime path = .ok time) ∨ tree.changeTime path = .error (.code .noEntry)

variable {tree : Tree} {path source middle target : Path} {time other : Timestamp}
  {below dependencies : List Dependency}

theorem Dates.changeTime?_cases (dated : tree.Dates path) :
    (∃ time, tree.changeTime path = .ok time ∧ tree.changeTime? path = .ok (some time)) ∨
      tree.changeTime path = .error (.code .noEntry) ∧ tree.changeTime? path = .ok none := by
  rcases dated with ⟨time, asked⟩ | asked
  · exact Or.inl ⟨time, asked, changeTime?_eq_ok_some_iff.mpr asked⟩
  · exact Or.inr ⟨asked, changeTime?_eq_ok_none_iff.mpr asked⟩

theorem someIsLater_of_missing (asked : tree.changeTime? path = .ok none) :
    tree.someIsLater time (.file path below :: dependencies) =
      tree.someIsLater time dependencies := by
  rw [someIsLater, asked]
  rfl

theorem someIsLater_of_later (asked : tree.changeTime? path = .ok (some other))
    (later : other.isLater time = true) :
    tree.someIsLater time (.file path below :: dependencies) = .ok true := by
  rw [someIsLater, asked]
  exact if_pos later

theorem someIsLater_of_not_later (asked : tree.changeTime? path = .ok (some other))
    (notLater : ¬ other.isLater time = true) :
    tree.someIsLater time (.file path below :: dependencies) =
      tree.someIsLater time dependencies := by
  rw [someIsLater, asked]
  exact if_neg notLater

theorem isStale_eq_ok_false_iff :
    tree.isStale source target = .ok false ↔
      ∃ time, tree.changeTime target = .ok time ∧ tree.Dates source ∧
        ∀ other, tree.changeTime source = .ok other → other.value ≤ time.value := by
  rw [isStale_eq]
  constructor
  · intro fresh
    split at fresh
    · cases fresh
    · cases fresh
    · rename_i time asked
      have there := changeTime?_eq_ok_some_iff.mp asked
      split at fresh
      · cases fresh
      · rename_i asked
        have gone := changeTime?_eq_ok_none_iff.mp asked
        refine ⟨time, there, Or.inr gone, fun other found => ?_⟩
        rw [gone] at found
        cases found
      · rename_i other asked
        have found := changeTime?_eq_ok_some_iff.mp asked
        refine ⟨time, there, Or.inl ⟨other, found⟩, fun another same => ?_⟩
        cases found.symm.trans same
        exact not_lt.mp (of_decide_eq_false (Except.ok.inj fresh))
  · rintro ⟨time, there, dated, notLater⟩
    rw [changeTime?_eq_ok_some_iff.mpr there]
    rcases dated.changeTime?_cases with ⟨other, found, asked⟩ | ⟨gone, asked⟩
    · rw [asked]
      exact congrArg Except.ok (decide_eq_false (not_lt.mpr (notLater other found)))
    · rw [asked]

theorem isStale_of_not_later (found : tree.changeTime source = .ok other)
    (there : tree.changeTime target = .ok time) (notLater : other.value ≤ time.value) :
    tree.isStale source target = .ok false := by
  refine isStale_eq_ok_false_iff.mpr ⟨time, there, Or.inl ⟨other, found⟩, fun another same => ?_⟩
  cases found.symm.trans same
  exact notLater

/--
What is not stale against a file that is not stale against a source is not stale against the
source.
-/
theorem isStale_trans (first : tree.isStale source middle = .ok false)
    (second : tree.isStale middle target = .ok false) :
    tree.isStale source target = .ok false := by
  rcases isStale_eq_ok_false_iff.mp first with ⟨middleTime, middleThere, dated, notLater⟩
  rcases isStale_eq_ok_false_iff.mp second with ⟨time, there, _, middleNotLater⟩
  refine isStale_eq_ok_false_iff.mpr ⟨time, there, dated, fun other found => ?_⟩
  exact (notLater other found).trans (middleNotLater middleTime middleThere)

end Tree

namespace Dependency

/-- Whether a dependency is no file, or one for whose time the tree has an answer. -/
def IsDated (tree : Tree) : Dependency → Prop
  | abstract _ => True
  | file path _ => tree.Dates path

/-- Whether a dependency is a file that is there and changed later than a time. -/
def IsNewer (tree : Tree) (time : Timestamp) : Dependency → Prop
  | abstract _ => False
  | file path _ => ∃ other, tree.changeTime path = .ok other ∧ time.value < other.value

/-- What puts a file out of date. -/
inductive Outdated (tree : Tree) (path : Path) (dependencies : List Dependency) : Prop where
  | missing (gone : tree.changeTime path = .error (.code .noEntry))
  | older {time : Timestamp} {dependency : Dependency} (there : tree.changeTime path = .ok time)
      (inside : dependency ∈ dependencies) (newer : dependency.IsNewer tree time)

/--
Lists of dependencies that differ in nothing that counts, with one constructor for each
thing that does not.
-/
inductive Rearranged (tree : Tree) : List Dependency → List Dependency → Prop where
  | reordered {before after : List Dependency} (order : before.Perm after) :
      Rearranged tree before after
  | repeated {dependency : Dependency} {dependencies : List Dependency}
      (inside : dependency ∈ dependencies) :
      Rearranged tree dependencies (dependency :: dependencies)
  | abstract (below dependencies : List Dependency) :
      Rearranged tree dependencies (.abstract below :: dependencies)
  | missing {path : Path} (gone : tree.changeTime path = .error (.code .noEntry))
      (below dependencies : List Dependency) :
      Rearranged tree dependencies (.file path below :: dependencies)
  | deeper (path : Path) (below beneath dependencies : List Dependency) :
      Rearranged tree (.file path below :: dependencies) (.file path beneath :: dependencies)
  | symm {before after : List Dependency} (same : Rearranged tree before after) :
      Rearranged tree after before
  | trans {before between after : List Dependency} (first : Rearranged tree before between)
      (second : Rearranged tree between after) : Rearranged tree before after

variable {tree : Tree} {path : Path} {time : Timestamp}
  {below dependencies others : List Dependency}

/-! ## The search for a newer file -/

theorem not_isNewer_abstract : ¬ (abstract below).IsNewer tree time :=
  not_false

theorem not_isNewer_of_missing (gone : tree.changeTime path = .error (.code .noEntry)) :
    ¬ (file path below).IsNewer tree time := by
  rintro ⟨other, there, later⟩
  rw [gone] at there
  cases there

theorem exists_someIsLater (dated : ∀ dependency ∈ dependencies, dependency.IsDated tree)
    (time : Timestamp) :
    ∃ answer, tree.someIsLater time dependencies = .ok answer ∧
      (answer = true ↔ ∃ dependency ∈ dependencies, dependency.IsNewer tree time) := by
  induction dependencies with
  | nil => exact ⟨false, rfl, by simp⟩
  | cons dependency dependencies ih =>
      rcases List.forall_mem_cons.mp dated with ⟨isDated, rest⟩
      rcases ih rest with ⟨answer, searched, answers⟩
      simp only [List.exists_mem_cons_iff]
      cases dependency with
      | abstract below =>
          refine ⟨answer, searched, ?_⟩
          rw [answers, or_iff_right not_isNewer_abstract]
      | file path below =>
          rcases isDated.changeTime?_cases with ⟨other, there, asked⟩ | ⟨gone, asked⟩
          · by_cases later : other.isLater time = true
            · refine ⟨true, Tree.someIsLater_of_later asked later, ?_⟩
              have newer : (file path below).IsNewer tree time :=
                ⟨other, there, of_decide_eq_true later⟩
              exact iff_of_true rfl (Or.inl newer)
            · refine ⟨answer, (Tree.someIsLater_of_not_later asked later).trans searched, ?_⟩
              have notNewer : ¬ (file path below).IsNewer tree time := by
                rintro ⟨_, found, newer⟩
                cases there.symm.trans found
                exact later (decide_eq_true newer)
              rw [answers, or_iff_right notNewer]
          · refine ⟨answer, (Tree.someIsLater_of_missing asked).trans searched, ?_⟩
            rw [answers, or_iff_right (not_isNewer_of_missing gone)]

theorem status_of_missing (asked : tree.changeTime? path = .ok none) :
    status tree (.file path dependencies) = .ok .outOfDate := by
  rw [status, asked]
  rfl

theorem status_of_searched {answer : Bool} (asked : tree.changeTime? path = .ok (some time))
    (searched : tree.someIsLater time dependencies = .ok answer) :
    status tree (.file path dependencies) = .ok (if answer then .outOfDate else .upToDate) := by
  rw [status, asked]
  simp only [bind, Except.bind, searched]
  cases answer with
  | true => rfl
  | false => rfl

theorem exists_status (dated : tree.Dates path)
    (allDated : ∀ dependency ∈ dependencies, dependency.IsDated tree) :
    status tree (.file path dependencies) = .ok .outOfDate ∧ Outdated tree path dependencies ∨
      status tree (.file path dependencies) = .ok .upToDate ∧
        ¬ Outdated tree path dependencies := by
  rcases dated.changeTime?_cases with ⟨time, there, asked⟩ | ⟨gone, asked⟩
  · rcases exists_someIsLater allDated time with ⟨answer, searched, answers⟩
    rw [status_of_searched asked searched]
    cases answer with
    | true =>
        rcases answers.mp rfl with ⟨dependency, inside, newer⟩
        exact Or.inl ⟨rfl, .older there inside newer⟩
    | false =>
        refine Or.inr ⟨rfl, fun outdated => ?_⟩
        cases outdated with
        | missing gone =>
            rw [there] at gone
            cases gone
        | older found inside newer =>
            cases there.symm.trans found
            exact absurd (answers.mpr ⟨_, inside, newer⟩) (by decide)
  · exact Or.inl ⟨status_of_missing asked, .missing gone⟩

theorem status_eq_outOfDate_iff (dated : tree.Dates path)
    (allDated : ∀ dependency ∈ dependencies, dependency.IsDated tree) :
    status tree (.file path dependencies) = .ok .outOfDate ↔
      Outdated tree path dependencies := by
  rcases exists_status dated allDated with ⟨told, outdated⟩ | ⟨told, current⟩
  · exact iff_of_true told outdated
  · rw [told]
    exact iff_of_false (by simp) current

theorem status_eq_upToDate_iff (dated : tree.Dates path)
    (allDated : ∀ dependency ∈ dependencies, dependency.IsDated tree) :
    status tree (.file path dependencies) = .ok .upToDate ↔
      ¬ Outdated tree path dependencies := by
  rcases exists_status dated allDated with ⟨told, outdated⟩ | ⟨told, current⟩
  · rw [told]
    exact iff_of_false (by simp) (not_not_intro outdated)
  · exact iff_of_true told current

/-! ## What does not count -/

theorem Rearranged.isDated_iff (same : Rearranged tree dependencies others) :
    (∀ dependency ∈ dependencies, dependency.IsDated tree) ↔
      ∀ dependency ∈ others, dependency.IsDated tree := by
  induction same with
  | reordered order => simp only [order.mem_iff]
  | repeated inside =>
      rw [List.forall_mem_cons]
      exact (and_iff_right_of_imp fun dated => dated _ inside).symm
  | abstract below dependencies =>
      rw [List.forall_mem_cons]
      exact (and_iff_right trivial).symm
  | missing gone below dependencies =>
      rw [List.forall_mem_cons]
      exact (and_iff_right (Or.inr gone)).symm
  | deeper path below beneath dependencies => simp only [List.forall_mem_cons, IsDated]
  | symm same ih => exact ih.symm
  | trans first second ihFirst ihSecond => exact ihFirst.trans ihSecond

theorem Rearranged.exists_isNewer_iff (same : Rearranged tree dependencies others) :
    (∃ dependency ∈ dependencies, dependency.IsNewer tree time) ↔
      ∃ dependency ∈ others, dependency.IsNewer tree time := by
  induction same with
  | reordered order => simp only [order.mem_iff]
  | repeated inside =>
      rw [List.exists_mem_cons_iff]
      exact (or_iff_right_of_imp fun newer => ⟨_, inside, newer⟩).symm
  | abstract below dependencies =>
      rw [List.exists_mem_cons_iff]
      exact (or_iff_right not_isNewer_abstract).symm
  | missing gone below dependencies =>
      rw [List.exists_mem_cons_iff]
      exact (or_iff_right (not_isNewer_of_missing gone)).symm
  | deeper path below beneath dependencies =>
      simp only [List.exists_mem_cons_iff, IsNewer]
  | symm same ih => exact ih.symm
  | trans first second ihFirst ihSecond => exact ihFirst.trans ihSecond

theorem Outdated.rearranged (outdated : Outdated tree path dependencies)
    (same : Rearranged tree dependencies others) : Outdated tree path others := by
  cases outdated with
  | missing gone => exact .missing gone
  | older there inside newer =>
      rcases same.exists_isNewer_iff.mp ⟨_, inside, newer⟩ with ⟨dependency, among, stillNewer⟩
      exact .older there among stillNewer

theorem Outdated.mono (outdated : Outdated tree path dependencies)
    (more : dependencies ⊆ others) : Outdated tree path others := by
  cases outdated with
  | missing gone => exact .missing gone
  | older there inside newer => exact .older there (more inside) newer

theorem status_eq_of_rearranged (same : Rearranged tree dependencies others)
    (dated : tree.Dates path) (allDated : ∀ dependency ∈ dependencies, dependency.IsDated tree) :
    status tree (.file path others) = status tree (.file path dependencies) := by
  rcases exists_status dated allDated with ⟨told, outdated⟩ | ⟨told, current⟩
  · rw [told]
    apply (status_eq_outOfDate_iff dated (same.isDated_iff.mp allDated)).mpr
    exact outdated.rearranged same
  · rw [told]
    apply (status_eq_upToDate_iff dated (same.isDated_iff.mp allDated)).mpr
    exact fun outdated => current (outdated.rearranged same.symm)

/--
While every question for a time is answered, a file is out of date exactly when it is
missing or a file it directly depends on is there and newer, and up to date otherwise.
So nothing else counts, more dependencies bring no file up to date, and what is fresh
against something fresh is fresh.
-/
theorem status_iff_outdated (dated : tree.Dates path)
    (allDated : ∀ dependency ∈ dependencies, dependency.IsDated tree) :
    (status tree (.file path dependencies) = .ok .outOfDate ↔
      Outdated tree path dependencies) ∧
    (status tree (.file path dependencies) = .ok .upToDate ↔
      ¬ Outdated tree path dependencies) ∧
    (∀ others, Rearranged tree dependencies others →
      status tree (.file path others) = status tree (.file path dependencies)) ∧
    (∀ others, dependencies ⊆ others → (∀ dependency ∈ others, dependency.IsDated tree) →
      status tree (.file path dependencies) = .ok .outOfDate →
        status tree (.file path others) = .ok .outOfDate) ∧
    ∀ source middle target, tree.isStale source middle = .ok false →
      tree.isStale middle target = .ok false → tree.isStale source target = .ok false := by
  refine ⟨status_eq_outOfDate_iff dated allDated, status_eq_upToDate_iff dated allDated,
    fun others same => status_eq_of_rearranged same dated allDated, ?_,
    fun source middle target first second => Tree.isStale_trans first second⟩
  intro others more othersDated told
  apply (status_eq_outOfDate_iff dated othersDated).mpr
  exact ((status_eq_outOfDate_iff dated allDated).mp told).mono more

/-- A tree with a file between two others in time. -/
def earlyAndLate : Tree :=
  (((Tree.empty 0o700 ⟨0, 0⟩).addEntry [⟨"early.csv", by decide⟩]
    (.file .empty 0o644 ⟨3, 0⟩) ⟨0, 0⟩).addEntry [⟨"made.py", by decide⟩]
    (.file .empty 0o644 ⟨5, 0⟩) ⟨0, 0⟩).addEntry [⟨"late.csv", by decide⟩]
    (.file .empty 0o644 ⟨7, 0⟩) ⟨0, 0⟩

theorem changeTime_earlyAndLate :
    earlyAndLate.changeTime (.ofText "early.csv") = .ok ⟨3, 0⟩ ∧
      earlyAndLate.changeTime (.ofText "made.py") = .ok ⟨5, 0⟩ ∧
      earlyAndLate.changeTime (.ofText "late.csv") = .ok ⟨7, 0⟩ ∧
      earlyAndLate.changeTime (.ofText "gone.csv") = .error (.code .noEntry) :=
  ⟨by cbv, by cbv, by cbv, by cbv⟩

/-- What the middle file depends on: something that is no file, a missing file and the late one. -/
def gapAndLate : List Dependency :=
  [.abstract [], .file (.ofText "gone.csv") [],
    .file (.ofText "late.csv") [.file (.ofText "early.csv") []]]

theorem isDated_gapAndLate : ∀ dependency ∈ gapAndLate, dependency.IsDated earlyAndLate := by
  rcases changeTime_earlyAndLate with ⟨_, _, late, gone⟩
  simp only [gapAndLate, List.forall_mem_cons]
  exact ⟨trivial, Or.inr gone, Or.inl ⟨_, late⟩, List.forall_mem_nil _⟩

theorem rearranged_gapAndLate :
    Rearranged earlyAndLate gapAndLate [.file (.ofText "late.csv") []] := by
  rcases changeTime_earlyAndLate with ⟨_, _, _, gone⟩
  apply Rearranged.symm
  exact (Rearranged.deeper _ _ _ _).trans ((Rearranged.missing gone _ _).trans (.abstract _ _))

theorem status_iff_outdated_gapAndLate :
    Outdated earlyAndLate (.ofText "made.py") gapAndLate ∧
      status earlyAndLate (.file (.ofText "made.py") gapAndLate) = .ok .outOfDate ∧
      status earlyAndLate (.file (.ofText "made.py") [.file (.ofText "late.csv") []]) =
        .ok .outOfDate ∧
      status earlyAndLate (.file (.ofText "made.py")
        (.file (.ofText "early.csv") [] :: gapAndLate)) = .ok .outOfDate ∧
      earlyAndLate.isStale (.ofText "early.csv") (.ofText "late.csv") = .ok false := by
  rcases changeTime_earlyAndLate with ⟨early, made, late, _⟩
  rcases status_iff_outdated (Or.inl ⟨_, made⟩) isDated_gapAndLate with
    ⟨outdatedIff, _, rearranges, grows, composes⟩
  have inside : .file (.ofText "late.csv") [.file (.ofText "early.csv") []] ∈ gapAndLate := by
    simp [gapAndLate]
  have outdated : Outdated earlyAndLate (.ofText "made.py") gapAndLate :=
    .older made inside ⟨_, late, by decide⟩
  have told := outdatedIff.mpr outdated
  refine ⟨outdated, told, (rearranges _ rearranged_gapAndLate).trans told, ?_, ?_⟩
  · apply grows _ (List.subset_cons_self _ _) _ told
    exact List.forall_mem_cons.mpr ⟨Or.inl ⟨_, early⟩, isDated_gapAndLate⟩
  · apply composes _ (.ofText "made.py")
    · exact Tree.isStale_of_not_later early made (by decide)
    · exact Tree.isStale_of_not_later made late (by decide)

end Dependency

end MessageTables
