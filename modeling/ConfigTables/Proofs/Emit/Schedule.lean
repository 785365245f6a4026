import ConfigTables.Proofs.Emit.Run
import ConfigTables.Proofs.Workers

/-!
    The schedule of a run does not matter. A run starts a worker for each unit and then joins the
    workers in the order of the units; they finish in any order, some even before others start. Only
    when all are joined does the run look at what they came to, and only when all of it is good does
    it write. So it ends in every schedule as it does without workers. -/

namespace ConfigTables.Target

/-- A run on its way: its workers, the manifest that it writes to and the answer. -/
abbrev RunState := ForkJoin Outcome Manifest (Except RunError Unit)

/-- The files of a run are written when all of them are good, and none otherwise. -/
def conclusion (m : Manifest) : Except RunError (List OutputFile) → Manifest × Except RunError Unit
  | .ok files => ({ m with files := m.files ++ files }, .ok ())
  | .error e => (m, .error e)

/-- The end of a run: first all outcomes give their files and the paths are compared, then the files
are written. -/
def ending (target : Target) (ctx : Context) (outcomes : List Outcome) (m : Manifest) :
    Manifest × Except RunError Unit :=
  let files := ((units ctx).zip outcomes).mapM fun p => target.outcomeFile ctx p.1 p.2
  conclusion m (files >>= distinctFiles (units ctx))

/-- One step of a run or of one of its workers. -/
def Step (target : Target) (ctx : Context) : RunState → RunState → Prop :=
  ForkJoin.Step ((units ctx).map (target.unitBody ctx)) (target.ending ctx)

/-- Some steps of a run and its workers, one after the other. -/
def Steps (target : Target) (ctx : Context) : RunState → RunState → Prop :=
  Relation.ReflTransGen (target.Step ctx)

section Schedules
variable {target : Target} {ctx : Context} {m : Manifest} {s : RunState}

/-- For every order of the units there is a schedule in which their workers finish in that order. -/
theorem exists_schedule (target : Target) (ctx : Context) (m : Manifest) {order : List Nat}
    (horder : order.Perm (List.range (units ctx).length)) :
    ∃ s, target.Steps ctx (.initial m) s ∧ s.workers.finishers = order ∧ s.answer.isSome := by
  rw [← List.length_map (f := target.unitBody ctx)] at horder
  exact ForkJoin.exists_schedule _ m horder

/-- The end of a run sees the files that a run without workers sees. -/
theorem ending_eq (target : Target) (ctx : Context) (m : Manifest) :
    target.ending ctx ((units ctx).map (target.unitBody ctx)) m =
      conclusion m (target.run ctx) := by
  rw [ending, ← List.map_prod_left_eq_zip, List.mapM_map]
  rfl

/-- The answer is that of a run without workers, and a failure leaves the manifest as it was. -/
theorem runInto_eq (h : target.Steps ctx (.initial m) s) {r : Except RunError Unit}
    (hr : s.answer = some r) :
    target.runInto ctx m = r.map (fun _ => s.state) ∧ ∀ e, r = .error e → s.state = m := by
  have hending := (ForkJoin.Steps.reached h).answered r hr
  rw [ending_eq] at hending
  rw [runInto]
  cases hrun : target.run ctx with
  | ok files =>
    rw [hrun, conclusion, Prod.mk.injEq] at hending
    obtain ⟨hstate, rfl⟩ := hending
    refine ⟨congrArg Except.ok hstate, ?_⟩
    rintro _ ⟨⟩
  | error e =>
    rw [hrun, conclusion, Prod.mk.injEq] at hending
    obtain ⟨hstate, rfl⟩ := hending
    exact ⟨rfl, fun _ _ => hstate.symm⟩

end Schedules

/-- A run is all or nothing, in every schedule. Every schedule ends, none is stuck before there is an
answer, and until then the manifest is as before; the workers may finish in any order. The answer is
that of a run without workers. When each unit gives a file and all paths are different, the files are
written behind those of the manifest, in order; otherwise nothing is written, and the failure is that
of the first unit that gives no file or else the clash of the first path that comes again. -/
theorem run_all_or_nothing (target : Target) (ctx : Context) (m : Manifest) :
    (WellFounded fun s' s => target.Step ctx s s') ∧
    (∀ order, order.Perm (List.range (units ctx).length) →
      ∃ s, target.Steps ctx (.initial m) s ∧ s.workers.finishers = order ∧ s.answer.isSome) ∧
    ∀ s, target.Steps ctx (.initial m) s →
      (s.answer = none → s.state = m ∧ ∃ s', target.Step ctx s s') ∧
      ∀ r, s.answer = some r →
        target.runInto ctx m = r.map (fun _ => s.state) ∧
        (target.Complete ctx → r = .ok () ∧ ∃ files,
          List.Forall₂ (target.Gives ctx) (.manifest :: ctx.exportTables.map .table) files ∧
          s.state = { m with files := m.files ++ files }) ∧
        (¬target.Complete ctx → s.state = m ∧ ∃ e, r = .error e ∧ target.Failure ctx e) := by
  refine ⟨ForkJoin.wellFounded_step _ _, fun order => exists_schedule target ctx m, fun s hs => ?_⟩
  have h := ForkJoin.Steps.reached hs
  refine ⟨fun hnone => ⟨h.waiting hnone, h.exists_step hnone⟩, fun r hr => ?_⟩
  obtain ⟨hinto, hfailed⟩ := runInto_eq hs hr
  refine ⟨hinto, fun hcomplete => ?_, fun hincomplete => ?_⟩
  · obtain ⟨files, hrun⟩ := exists_run hcomplete
    rw [runInto, hrun] at hinto
    cases r with
    | ok _ => exact ⟨rfl, files, (run_eq_ok_iff.1 hrun).2, (Except.ok.inj hinto).symm⟩
    | error e => cases hinto
  · cases r with
    | ok _ =>
      obtain ⟨files, hrun, _⟩ := bind_eq_ok_iff.1 hinto
      exact absurd (run_eq_ok_iff.1 hrun).1 hincomplete
    | error e =>
      exact ⟨hfailed e rfl, e, rfl, run_eq_error_iff.1 (runInto_eq_error_iff.1 hinto)⟩

namespace Texts

/-- A table. -/
def table : TableDef := ⟨"", "TbItem", "Item", none, .list, [], none, none⟩

/-- A target of short texts; the text of a table may panic. -/
def target (panics : Bool) : Target where
  name := "text"
  header := "# "
  suffix := "txt"
  directoryKey := Options.codeDirectory
  fileName fullName := fullName ++ ".txt"
  manifestBody _ := .text "all"
  tableBody _ t := if panics then .panicked else .text t.fullName

/-- A context that exports the table. -/
def context : Context :=
  ⟨⟨[], rfl⟩, ⟨"client", "Tables", "", []⟩, [], .ofList [], [table], .empty, .empty []⟩

/-- A manifest with a file. -/
def before : Manifest := ⟨"text", [⟨"old", ""⟩]⟩

/-- The text of the table is there first, and still stands behind that of all tables; when it panics,
neither is written. -/
theorem table_first :
    (∃ s, (target false).Steps context (.initial before) s ∧ s.workers.finishers = [1, 0] ∧
      s.state.files = [⟨"old", ""⟩, ⟨"Tables.txt", "# all"⟩, ⟨"TbItem.txt", "# TbItem"⟩]) ∧
    ∃ s, (target true).Steps context (.initial before) s ∧ s.workers.finishers = [1, 0] ∧
      s.state = before ∧ s.answer = some (.error (.unitPanicked "TbItem")) := by
  obtain ⟨_, horders, hruns⟩ := run_all_or_nothing (target false) context before
  obtain ⟨_, horders', hruns'⟩ := run_all_or_nothing (target true) context before
  constructor
  · obtain ⟨s, hs, horder, hsome⟩ := horders [1, 0] (by decide)
    obtain ⟨r, hr⟩ := Option.isSome_iff_exists.1 hsome
    have hinto := ((hruns s hs).2 r hr).1
    cases r with
    | ok _ => exact ⟨s, hs, horder, congrArg Manifest.files (Except.ok.inj hinto).symm⟩
    | error e => cases hinto
  · obtain ⟨s, hs, horder, hsome⟩ := horders' [1, 0] (by decide)
    obtain ⟨r, hr⟩ := Option.isSome_iff_exists.1 hsome
    obtain ⟨hinto, _, hincomplete⟩ := (hruns' s hs).2 r hr
    have hpanics : ¬(target true).Complete context := fun h => by
      obtain ⟨f, body, hbody, _⟩ := h.files (.table table) (by decide)
      cases hbody
    cases r with
    | ok _ => cases hinto
    | error e =>
      cases hinto
      exact ⟨s, hs, horder, (hincomplete hpanics).1, hr⟩

end Texts

end ConfigTables.Target
