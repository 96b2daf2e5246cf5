import MessageTables.Proofs.Batch.Installation
import MessageTables.Proofs.Batch.States

/-!
# Generating again

A run without failures leaves every module fresh: it was fresh when the turn of its
table had come, and what the later turns do keeps it so. They may write the module
again, for a table that shares it, but then it is new, and otherwise they leave it
alone. So a run that follows finds the same tables and has nothing to do.

The invariant is that the modules of the tables whose turns have come are fresh. It
rests on the clock alone: no table is later than a moment at which a module is
written.
-/

namespace MessageTables

namespace Batch

variable {policy : Policy} {directory source table other : Path} {tables : List Path}
  {session after : Session} {outcome : Outcome} {outcomes : List Outcome} {report : Report}

/-! ## Modules stay fresh -/

/-- The turn of a table keeps every module fresh, those that the table shares with others too. -/
theorem Turn.keeps_fresh
    (turn : Turn .messageCodes policy directory table session (.ok outcome after))
    (linkFree : session.tree.LinkFree) (descends : directory.Descends)
    (holds : HoldsTimely session.tree session after other)
    (fresh : session.tree.IsFresh directory other) : after.tree.IsFresh directory other := by
  cases turn with
  | skipped lazy own => exact fresh
  | generated due done =>
      -- a shared module is new now, any other is left alone
      by_cases same : Generator.moduleFile other = Generator.moduleFile table
      · exact isFresh_of_generate linkFree same holds done
      · rcases holds with ⟨location, node, held, _⟩
        have effect := Generator.effect_of_generate linkFree descends done
        refine (effect.isStale_eq_false_iff linkFree descends held ?_).mpr fresh
        intro written inside
        rw [List.mem_singleton.mp inside]
        exact Ne.symm same
  | @failed error stopped due refused lenient =>
      rcases holds with ⟨location, node, held, _⟩
      have effect := Generator.effect_of_generate_error linkFree refused
      have still : stopped.tree.IsFresh directory other :=
        (effect.isStale_eq_false_iff linkFree descends held (by simp)).mpr fresh
      exact still

theorem Turn.leaves_fresh
    (turn : Turn .messageCodes policy directory table session (.ok outcome after))
    (succeeded : ∀ failed error, outcome ≠ .failed failed error)
    (linkFree : session.tree.LinkFree) (holds : HoldsTimely session.tree session after table) :
    after.tree.IsFresh directory table := by
  cases turn with
  | skipped lazy fresh => exact fresh
  | generated due done => exact isFresh_of_generate linkFree rfl holds done
  | failed due refused lenient => exact absurd rfl (succeeded _ _)

theorem Accounts.keeps_fresh
    (accounts : Accounts .messageCodes policy directory session tables outcomes after)
    (linkFree : session.tree.LinkFree) (descends : directory.Descends)
    (holds : HoldsTimely session.tree session after other)
    (fresh : session.tree.IsFresh directory other) : after.tree.IsFresh directory other := by
  induction accounts with
  | nil session => exact fresh
  | @cons table tables outcome others session middle after turn rest ih =>
      have effect := turn.effect linkFree descends
      apply ih effect.carries.linkFree
      · exact holds.later linkFree effect turn.continues (.refl after)
      · exact turn.keeps_fresh linkFree descends
          (holds.later linkFree (.refl linkFree directory []) (.refl session) rest.continues) fresh

/-- After a run without failures all modules are fresh, the shared ones for each of their tables. -/
theorem Accounts.leaves_fresh
    (accounts : Accounts .messageCodes policy directory session tables outcomes after)
    (succeeded : (Report.ofOutcomes outcomes).isOk = true) (linkFree : session.tree.LinkFree)
    (descends : directory.Descends)
    (holds : ∀ table ∈ tables, HoldsTimely session.tree session after table) :
    ∀ table ∈ tables, after.tree.IsFresh directory table := by
  induction accounts with
  | nil session => exact fun _ inside => absurd inside List.not_mem_nil
  | @cons table tables outcome others session middle after turn rest ih =>
      rcases Report.isOk_ofOutcomes_cons_iff.mp succeeded with ⟨own, further⟩
      have effect := turn.effect linkFree descends
      have onward : ∀ other ∈ table :: tables, HoldsTimely middle.tree middle after other :=
        fun other inside => (holds other inside).later linkFree effect turn.continues (.refl after)
      have middleFree := effect.carries.linkFree
      intro other inside
      rcases List.mem_cons.mp inside with rfl | among
      · apply rest.keeps_fresh middleFree descends (onward other inside)
        exact turn.leaves_fresh own linkFree ((holds other inside).later linkFree
          (.refl linkFree directory []) (.refl session) rest.continues)
      · exact ih further middleFree
          (fun last listed => onward last (List.mem_cons_of_mem table listed)) other among

/-! ## Nothing is left to do -/

theorem outcomesOf_of_fresh (generator : Generator) (policy : Policy)
    (lazy : policy.force = false)
    (fresh : ∀ table ∈ tables,
      session.tree.isStale table (generator.output table directory) = .ok false) :
    ∃ after, outcomesOf generator policy directory tables session =
        .ok ((tables.map (generator.output · directory)).map .skipped) after ∧
      after.tree = session.tree := by
  induction tables generalizing session with
  | nil => exact ⟨session, rfl, rfl⟩
  | cons table tables ih =>
      have one := generateOne_of_fresh policy lazy (fresh table List.mem_cons_self)
      -- skipping a module only adds to the log, so the others are as fresh as before
      have others : ∀ other ∈ tables,
          (session.logged (upToDateEntry (generator.output table directory))).tree.isStale other
            (generator.output other directory) = .ok false :=
        fun other inside => fresh other (List.mem_cons_of_mem table inside)
      rcases ih others with ⟨after, rest, same⟩
      refine ⟨after, ?_, same⟩
      rw [outcomesOf_cons_of_ok one, bind_of_ok rest]
      rfl

/-- If there is a module, then its directory was there before or a module was written into it. -/
theorem isDirectory_or_written_of_fresh {before later : Tree} {written : List Path}
    {location : Location} {node : Node} (installs : before.Installs later directory written)
    (descends : directory.Descends) (holds : later.HoldsTable table location node)
    (fresh : later.IsFresh directory table) :
    before.isDirectory directory.destination = true ∨ written ≠ [] := by
  have laterFree := installs.carries.linkFree
  rcases holds.exists_changeTime? laterFree with ⟨_, _, asked⟩
  rcases (Tree.isStale_eq_false_iff asked).mp fresh with ⟨time, changed, _⟩
  rcases Tree.changeTime?_eq_some_iff.mp changed with ⟨place, module, located, there, _⟩
  have plain := Tree.plain_of_locate laterFree (Tree.descends_output descends table) located
  rw [Generator.output_eq_child] at plain
  rcases Path.exists_of_child_eq_plain plain with ⟨name, above, rfl, _, named⟩
  rw [named, Path.destination_plain]
  cases held : before.node? (name :: above) with
  | some old =>
      exact Or.inl (Tree.isDirectory_of_node? (by rw [held]; rfl))
  | none =>
      -- the module itself is new, and no directory on the way
      refine Or.inr ?_
      rintro rfl
      rcases installs.added _ held (by rw [there]; rfl) with output | ⟨_, within⟩
      · exact List.not_mem_nil output
      · rw [named, Path.destination_plain] at within
        exact Tree.not_cons_suffix name above within

/-- A search that follows a run finds the same tables if the run has left all modules fresh. -/
theorem findTables_of_fresh (linkFree : session.tree.LinkFree)
    (sourceDescends : source.Descends) (descends : directory.Descends)
    (found : session.findTables source ".csv" = .ok tables)
    (run : outcomesOf .messageCodes policy directory tables session = .ok outcomes after)
    (fresh : ∀ table ∈ tables, after.tree.IsFresh directory table) :
    after.findTables source ".csv" = .ok tables := by
  rcases installs_of_outcomesOf policy tables linkFree descends with ⟨written, _, installs⟩
  rw [run] at installs
  cases tables with
  | nil =>
      cases run
      exact found
  | cons table tables =>
      rcases Tree.exists_holdsTable linkFree found List.mem_cons_self with ⟨location, node, held⟩
      have effect := (accounts_of_outcomesOf run).effect linkFree descends
      have way := isDirectory_or_written_of_fresh installs descends
        (effect.holdsTable linkFree held) (fresh table List.mem_cons_self)
      exact installs.findTables_again linkFree descends sourceDescends found
        (List.cons_ne_nil table tables) way

/-- What is generated without failures is found up to date by a run that follows. -/
theorem generateAll_again (linkFree : session.tree.LinkFree) (sourceDescends : source.Descends)
    (descends : directory.Descends)
    (found : session.findTables source ".csv" = .ok tables)
    (done : generateAll .messageCodes policy source directory session = .ok report after)
    (succeeded : report.isOk = true)
    (timely : ∀ table ∈ tables, ∀ time, session.tree.changeTime? table = .ok (some time) →
      NotAhead session after time) (keepGoing : Bool) :
    after.findTables source ".csv" = .ok tables ∧
      ∃ again last, generateAll .messageCodes ⟨false, keepGoing⟩ source directory after =
          .ok again last ∧
        again.generated = [] ∧ again.failed = [] ∧
        again.skipped = tables.map (Generator.messageCodes.output · directory) ∧
        last.tree = after.tree := by
  rcases generateAll_eq_ok_iff.mp done with ⟨_, outcomes, searched, run, rfl⟩
  cases found.symm.trans searched
  have fresh := (accounts_of_outcomesOf run).leaves_fresh succeeded linkFree descends
    fun table => holdsTimely_of_found linkFree found timely
  have again := findTables_of_fresh linkFree sourceDescends descends found run fresh
  rcases outcomesOf_of_fresh .messageCodes ⟨false, keepGoing⟩ rfl fresh with ⟨last, rerun, same⟩
  have report := Report.ofOutcomes_map_skipped
    (tables.map (Generator.messageCodes.output · directory))
  exact ⟨again, _, last, generateAll_eq_ok_iff.mpr ⟨tables, _, again, rerun, rfl⟩,
    congrArg Report.generated report, congrArg Report.failed report,
    congrArg Report.skipped report, same⟩

/-- The module that two tables share is listed once for each of them. -/
theorem generateAll_again_twins :
    ∃ report after again last,
      generateAll .messageCodes ⟨true, false⟩ (.ofText ".") (.ofText "o") twins =
          .ok report after ∧
        generateAll .messageCodes ⟨false, false⟩ (.ofText ".") (.ofText "o") after =
          .ok again last ∧
        again.generated = [] ∧ again.failed = [] ∧
        again.skipped = [.ofText "o/x.py", .ofText "o/x.py"] ∧ last.tree = after.tree := by
  rcases generateAll_twins with ⟨report, after, done, succeeded⟩
  have linkFree : twins.tree.LinkFree := by decide +kernel
  have outputs : [Path.ofText "a/x.csv", .ofText "b/x.csv"].map
      (Generator.messageCodes.output · (.ofText "o")) =
        [.ofText "o/x.py", .ofText "o/x.py"] := by decide +kernel
  have timed : ∀ table ∈ [Path.ofText "a/x.csv", .ofText "b/x.csv"],
      twins.tree.changeTime? table = .ok (some ⟨0, 0⟩) :=
    List.forall_mem_cons.mpr ⟨by cbv, List.forall_mem_singleton.mpr (by cbv)⟩
  rcases generateAll_again linkFree (by decide) (by decide) findTables_twins done succeeded
    (notAhead_of_still (fun _ => rfl) timed) false with
    ⟨_, again, last, rerun, none, sound, skipped, same⟩
  exact ⟨report, after, again, last, done, rerun, none, sound, skipped.trans outputs, same⟩

end Batch

end MessageTables
