import MessageTables.Proofs.Batch.Effects

/-!
# What a report tells of the modules

A run asks for the state of a module when the turn of its table comes, in a tree
that the turns before have changed. The answer is the one that the tree before
the run gives, since the work on other tables leaves a module as fresh as it was;
for the same reason a module is in the end as its turn has left it. So every
outcome tells of its table the state of the module before the run and after it.
-/

namespace MessageTables

namespace Tree

/-- Whether the module of a table is there and no older than the table. -/
def IsFresh (tree : Tree) (directory table : Path) : Prop :=
  tree.isStale table (Generator.messageCodes.output table directory) = .ok false

end Tree

theorem Report.mem_map_failed_iff {outcomes : List Outcome} {table : Path} :
    table ∈ (ofOutcomes outcomes).failed.map Prod.fst ↔
      ∃ error, .failed table error ∈ outcomes := by
  constructor
  · intro inside
    rcases List.mem_map.mp inside with ⟨⟨_, error⟩, listed, rfl⟩
    exact ⟨error, mem_failed_iff.mp listed⟩
  · rintro ⟨error, inside⟩
    exact List.mem_map.mpr ⟨(table, error), mem_failed_iff.mpr inside, rfl⟩

/-- Whether an outcome is about a table, whose module goes into a directory. -/
def Outcome.IsAbout (directory table : Path) (outcome : Outcome) : Prop :=
  outcome = .generated (Generator.messageCodes.output table directory) ∨
    outcome = .skipped (Generator.messageCodes.output table directory) ∨
      ∃ error, outcome = .failed table error

theorem Outcome.IsAbout.moduleFile_eq {directory table other : Path} {outcome : Outcome}
    (one : outcome.IsAbout directory table) (two : outcome.IsAbout directory other) :
    Generator.moduleFile table = Generator.moduleFile other := by
  rcases one with rfl | rfl | ⟨error, rfl⟩
  · rcases two with same | same | ⟨_, same⟩
    · exact Generator.output_eq_output_iff.mp (Outcome.generated.inj same)
    · cases same
    · cases same
  · rcases two with same | same | ⟨_, same⟩
    · cases same
    · exact Generator.output_eq_output_iff.mp (Outcome.skipped.inj same)
    · cases same
  · rcases two with same | same | ⟨_, same⟩
    · cases same
    · cases same
    · rw [(Outcome.failed.inj same).1]

namespace Batch

variable {initial : Tree} {directory table : Path} {session after : Session} {outcome : Outcome}
  {tables earlier : List Path} {outcomes : List Outcome}

/-- Whether a time is not later than what the clock says between two moments. -/
def NotAhead (session after : Session) (time : Timestamp) : Prop :=
  ∀ reading, session.readings ≤ reading → reading < after.readings →
    time.isLater (session.clock reading) = false

theorem NotAhead.narrow {first last : Session} {time : Timestamp}
    (notAhead : NotAhead session after time) (begun : session.Continues first)
    (ended : last.Continues after) : NotAhead first last time := by
  intro reading lower upper
  rw [begun.clock]
  exact notAhead reading (begun.readings.trans lower) (upper.trans_le ended.readings)

/-- While the clock stands still, nothing that changed when it stood so is ahead of it. -/
theorem notAhead_of_still {moment : Timestamp} (still : ∀ reading, session.clock reading = moment)
    (timed : ∀ table ∈ tables, session.tree.changeTime? table = .ok (some moment)) :
    ∀ table ∈ tables, ∀ time, session.tree.changeTime? table = .ok (some time) →
      NotAhead session after time := by
  intro table inside time asked
  rw [timed table inside] at asked
  cases asked
  intro reading _ _
  rw [still, Timestamp.isLater, decide_eq_false_iff_not]
  exact lt_irrefl _

/-- Whether a tree holds a table that is not ahead of the clock between two moments. -/
def HoldsTimely (tree : Tree) (session after : Session) (table : Path) : Prop :=
  ∃ location node, tree.HoldsTable table location node ∧
    ∀ time, node.time? = some time → NotAhead session after time

/-- The work on tables keeps them, and of a shorter time the same can be said. -/
theorem HoldsTimely.later {before middle : Tree} {first last : Session}
    (holds : HoldsTimely before session after table) (linkFree : before.LinkFree)
    (effect : before.Effect middle directory earlier) (begun : session.Continues first)
    (ended : last.Continues after) : HoldsTimely middle first last table := by
  rcases holds with ⟨location, node, held, timely⟩
  exact ⟨location, node, effect.holdsTable linkFree held, fun time timed =>
    (timely time timed).narrow begun ended⟩

theorem holdsTimely_of_found {source : Path} (linkFree : session.tree.LinkFree)
    (found : session.findTables source ".csv" = .ok tables)
    (timely : ∀ table ∈ tables, ∀ time, session.tree.changeTime? table = .ok (some time) →
      NotAhead session after time) (inside : table ∈ tables) :
    HoldsTimely session.tree session after table := by
  rcases Tree.exists_holdsTable linkFree found inside with ⟨location, node, holds⟩
  rcases holds.exists_changeTime? linkFree with ⟨time, timed, asked⟩
  refine ⟨location, node, holds, fun other otherTimed => ?_⟩
  rw [timed] at otherTimed
  cases otherTimed
  exact timely table inside time asked

/--
What an outcome tells of its table: whether the module was fresh before, and whether it is
now.
-/
structure Tells (before after : Tree) (directory table : Path) (outcome : Outcome) : Prop where
  about : outcome.IsAbout directory table
  early : before.IsFresh directory table ↔
    outcome = .skipped (Generator.messageCodes.output table directory)
  late : after.IsFresh directory table ↔ ∀ error, outcome ≠ .failed table error

/-- A module that was generated is fresh for every table that it belongs to. -/
theorem isFresh_of_generate {other : Path} (linkFree : session.tree.LinkFree)
    (same : Generator.moduleFile other = Generator.moduleFile table)
    (holds : HoldsTimely session.tree session after other)
    (done : Generator.messageCodes.generate table
      (Generator.messageCodes.output table directory) session = .ok () after) :
    after.tree.IsFresh directory other := by
  rcases holds with ⟨location, node, held, timely⟩
  rcases Generator.carries_of_generate linkFree done with
    ⟨target, _, _, carries, found, _, _, there⟩
  rcases (held.later linkFree carries).exists_changeTime? carries.linkFree with
    ⟨time, timed, asked⟩
  rw [← Generator.output_eq_output_iff.mpr same] at found
  have written := Tree.nodeAt_of_entryLocation? carries.linkFree found there
  rcases Tree.nodeAt_eq_ok_iff.mp written with ⟨place, located, held⟩
  have changed := Tree.changeTime?_eq_some_iff.mpr ⟨place, _, located, held, rfl⟩
  exact (Tree.isStale_eq_false_iff asked).mpr ⟨_, changed,
    timely time timed _ (Nat.le_refl _) (Generator.continues_of_generate done).2⟩

theorem not_isFresh_of_isDue
    (due : IsDue false session.tree table (Generator.messageCodes.output table directory)) :
    ¬ session.tree.IsFresh directory table := by
  intro fresh
  rcases due with impossible | stale
  · cases impossible
  · rw [Tree.IsFresh, stale] at fresh
    cases fresh

theorem Turn.tells
    (turn : Turn .messageCodes ⟨false, true⟩ directory table session (.ok outcome after))
    (linkFree : session.tree.LinkFree) (descends : directory.Descends)
    (holds : HoldsTimely session.tree session after table) :
    Tells session.tree after.tree directory table outcome := by
  cases turn with
  | skipped lazy fresh =>
      exact ⟨Or.inr (Or.inl rfl), ⟨fun _ => rfl, fun _ => fresh⟩,
        ⟨fun _ _ => nofun, fun _ => fresh⟩⟩
  | generated due done =>
      have stale := not_isFresh_of_isDue due
      have fresh := isFresh_of_generate linkFree rfl holds done
      exact ⟨Or.inl rfl, ⟨fun fresh => absurd fresh stale, nofun⟩,
        ⟨fun _ _ => nofun, fun _ => fresh⟩⟩
  | @failed error stopped due refused lenient =>
      rcases holds with ⟨location, node, held, _⟩
      have stale := not_isFresh_of_isDue due
      have effect := Generator.effect_of_generate_error linkFree refused
      have still : ¬ stopped.tree.IsFresh directory table := by
        rwa [Tree.IsFresh, effect.isStale_eq_false_iff linkFree descends held (by simp)]
      exact ⟨Or.inr (Or.inr ⟨error, rfl⟩), ⟨fun fresh => absurd fresh stale, nofun⟩,
        ⟨fun fresh => absurd fresh still, fun differs => absurd rfl (differs error)⟩⟩

theorem Accounts.tells
    (accounts : Accounts .messageCodes ⟨false, true⟩ directory session tables outcomes after)
    (linkFree : initial.LinkFree) (descends : directory.Descends)
    (effect : initial.Effect session.tree directory earlier)
    (distinct : ((earlier ++ tables).map Generator.moduleFile).Nodup)
    (holds : ∀ table ∈ tables, HoldsTimely initial session after table) :
    List.Forall₂ (Tells initial after.tree directory) tables outcomes := by
  induction accounts generalizing earlier with
  | nil session => exact .nil
  | @cons table tables outcome others session middle after turn rest ih =>
      have own := holds table List.mem_cons_self
      have sessionFree := effect.carries.linkFree
      have step := turn.effect sessionFree descends
      have regrouped : earlier ++ table :: tables = (earlier ++ [table]) ++ tables := by
        rw [List.append_assoc, List.singleton_append]
      rcases Tree.apart_of_nodup distinct with ⟨before, behind⟩
      refine .cons ?_ ?_
      · have told := turn.tells sessionFree descends
          (own.later linkFree effect (.refl session) rest.continues)
        rcases own with ⟨location, node, held, _⟩
        have onward := (rest.effect step.carries.linkFree descends).isStale_eq_false_iff
          step.carries.linkFree descends
          (step.holdsTable sessionFree (effect.holdsTable linkFree held)) behind
        exact ⟨told.about,
          (effect.isStale_eq_false_iff linkFree descends held before).symm.trans told.early,
          onward.trans told.late⟩
      · rw [regrouped] at distinct
        apply ih (effect.trans (step.weaken (outcome.written_subset table))) distinct
        intro other inside
        exact (holds other (List.mem_cons_of_mem table inside)).later linkFree
          (Tree.Effect.refl linkFree directory []) turn.continues (.refl after)

/-- A run whose tables are not ahead of the clock tells the state of every module. -/
theorem tells_of_outcomesOf {source : Path} (linkFree : session.tree.LinkFree)
    (descends : directory.Descends)
    (found : session.findTables source ".csv" = .ok tables)
    (distinct : (tables.map Path.name).Nodup)
    (timely : ∀ table ∈ tables, ∀ time, session.tree.changeTime? table = .ok (some time) →
      NotAhead session after time)
    (run : outcomesOf .messageCodes ⟨false, true⟩ directory tables session =
      .ok outcomes after) :
    List.Forall₂ (Tells session.tree after.tree directory) tables outcomes :=
  (accounts_of_outcomesOf run).tells linkFree descends (Tree.Effect.refl linkFree directory [])
    (Tree.nodup_moduleFile found distinct) fun _ => holdsTimely_of_found linkFree found timely

theorem exists_of_mem {before after : Tree}
    (told : List.Forall₂ (Tells before after directory) tables outcomes)
    (inside : outcome ∈ outcomes) :
    ∃ table ∈ tables, Tells before after directory table outcome := by
  induction told with
  | nil => cases inside
  | @cons table first tables others tells rest ih =>
      rcases List.mem_cons.mp inside with rfl | later
      · exact ⟨table, List.mem_cons_self, tells⟩
      · rcases ih later with ⟨other, among, told⟩
        exact ⟨other, List.mem_cons_of_mem table among, told⟩

theorem mem_tables_of_failed {before after : Tree}
    (told : List.Forall₂ (Tells before after directory) tables outcomes)
    (failed : table ∈ (Report.ofOutcomes outcomes).failed.map Prod.fst) : table ∈ tables := by
  rcases Report.mem_map_failed_iff.mp failed with ⟨error, inside⟩
  rcases exists_of_mem told inside with ⟨other, among, tells⟩
  rcases tells.about with same | same | ⟨_, same⟩
  · cases same
  · cases same
  · rw [(Outcome.failed.inj same).1]
    exact among

/-- There is one outcome about every table. -/
theorem exists_outcome {before after : Tree}
    (told : List.Forall₂ (Tells before after directory) tables outcomes)
    (distinct : (tables.map Generator.moduleFile).Nodup) (inside : table ∈ tables) :
    ∃ own, Tells before after directory table own ∧
      ∀ outcome : Outcome, outcome.IsAbout directory table →
        (outcome ∈ outcomes ↔ outcome = own) := by
  induction told with
  | nil => cases inside
  | @cons first outcome tables others tells rest ih =>
      rw [List.map_cons, List.nodup_cons] at distinct
      rcases List.mem_cons.mp inside with rfl | later
      · refine ⟨outcome, tells, fun other about => ?_⟩
        rw [List.mem_cons, or_iff_left]
        intro inside
        rcases exists_of_mem rest inside with ⟨another, among, told⟩
        rw [about.moduleFile_eq told.about] at distinct
        exact distinct.1 (List.mem_map_of_mem among)
      · rcases ih distinct.2 later with ⟨own, toldOwn, only⟩
        refine ⟨own, toldOwn, fun other about => ?_⟩
        rw [List.mem_cons, only other about, or_iff_right]
        rintro rfl
        rw [tells.about.moduleFile_eq about] at distinct
        exact distinct.1 (List.mem_map_of_mem later)

section States

variable {before after : Tree}
  (told : List.Forall₂ (Tells before after directory) tables outcomes)
  (distinct : (tables.map Generator.moduleFile).Nodup) (inside : table ∈ tables)

include told distinct inside

/-- The modules that were fresh are the ones that were skipped. -/
theorem isFresh_before_iff : before.IsFresh directory table ↔
    Generator.messageCodes.output table directory ∈ (Report.ofOutcomes outcomes).skipped := by
  rcases exists_outcome told distinct inside with ⟨own, tells, only⟩
  rw [tells.early, Report.mem_skipped_iff, only _ (Or.inr (Or.inl rfl)), eq_comm]

/-- The modules that were not fresh are the ones that were generated or failed. -/
theorem not_isFresh_before_iff : ¬ before.IsFresh directory table ↔
    Generator.messageCodes.output table directory ∈ (Report.ofOutcomes outcomes).generated ∨
      table ∈ (Report.ofOutcomes outcomes).failed.map Prod.fst := by
  rcases exists_outcome told distinct inside with ⟨own, tells, only⟩
  rw [tells.early, Report.mem_generated_iff, Report.mem_map_failed_iff, only _ (Or.inl rfl)]
  constructor
  · intro differs
    rcases tells.about with generated | skipped | ⟨error, failed⟩
    · exact Or.inl generated.symm
    · exact absurd skipped differs
    · exact Or.inr ⟨error, (only _ (Or.inr (Or.inr ⟨error, rfl⟩))).mpr failed.symm⟩
  · rintro (generated | ⟨error, failed⟩)
    · rw [← generated]
      nofun
    · rw [← (only _ (Or.inr (Or.inr ⟨error, rfl⟩))).mp failed]
      nofun

/-- The modules that are not fresh afterwards are those of the tables that failed. -/
theorem not_isFresh_after_iff :
    ¬ after.IsFresh directory table ↔ table ∈ (Report.ofOutcomes outcomes).failed.map Prod.fst := by
  rcases exists_outcome told distinct inside with ⟨own, tells, only⟩
  rw [tells.late, Report.mem_map_failed_iff, not_forall]
  apply exists_congr
  intro error
  rw [not_ne_iff, only _ (Or.inr (Or.inr ⟨error, rfl⟩)), eq_comm]

end States

end Batch

end MessageTables
