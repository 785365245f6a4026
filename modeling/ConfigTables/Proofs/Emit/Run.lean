import ConfigTables.Emit.Target
import ConfigTables.Proofs.Result
import Mathlib.Data.List.Induction

/-!
    What a run comes to. It gives its files exactly when each unit gives a text and no two files have
    one path; otherwise it fails, and `Failure` says how: with the first unit that gives no text, or,
    when all of them do, with the first path that comes a second time. -/

namespace ConfigTables.Target

/-! ### Clashes -/

section Clashes
variable {α β : Type} {label path : α → String} {l : List α} {e : RunError}

/-- The clash of the first path that comes twice in a list. Those before it are different, so only one
of them is that path, and the clash names its label first. -/
def Clash (label path : α → String) (l : List α) (e : RunError) : Prop :=
  ∃ done first between x after, l = done ++ first :: between ++ x :: after ∧
    ((done ++ first :: between).map path).Nodup ∧ path first = path x ∧
    e = .duplicatePath (path x) (label first) (label x)

/-- Where paths are not all different, there is a clash. -/
theorem nodup_or_clash (label path : α → String) (l : List α) :
    (l.map path).Nodup ∨ ∃ e, Clash label path l e := by
  induction l using List.reverseRecOn with
  | nil => exact .inl List.nodup_nil
  | append_singleton l x ih =>
    rcases ih with hnodup | ⟨e, done, first, between, y, after, rfl, hnodup, hpath, he⟩
    · by_cases hmem : path x ∈ l.map path
      · obtain ⟨first, hfirst, hpath⟩ := List.mem_map.1 hmem
        obtain ⟨done, between, rfl⟩ := List.append_of_mem hfirst
        exact .inr ⟨_, done, first, between, x, [], rfl, hnodup, hpath, rfl⟩
      · exact .inl (nodup_map_concat.2 ⟨hnodup, hmem⟩)
    · exact .inr ⟨e, done, first, between, y, after ++ [x], by simp, hnodup, hpath, he⟩

theorem clash_map {g : β → α} {l : List β} :
    Clash label path (l.map g) e ↔ Clash (label ∘ g) (path ∘ g) l e := by
  constructor
  · rintro ⟨done, first, between, x, after, hl, hnodup, hpath, rfl⟩
    obtain ⟨l₁, l₂, rfl, h₁, h₂⟩ := List.map_eq_append_iff.1 hl
    obtain ⟨y, rest, rfl, rfl, rfl⟩ := List.map_eq_cons_iff.1 h₂
    obtain ⟨l₃, l₄, rfl, rfl, h₄⟩ := List.map_eq_append_iff.1 h₁
    obtain ⟨z, inner, rfl, rfl, rfl⟩ := List.map_eq_cons_iff.1 h₄
    refine ⟨l₃, z, inner, y, rest, rfl, ?_, hpath, rfl⟩
    rwa [← List.map_map, List.map_append, List.map_cons]
  · rintro ⟨done, first, between, x, after, rfl, hnodup, hpath, rfl⟩
    refine ⟨done.map g, g first, between.map g, g x, after.map g, by simp, ?_, hpath, rfl⟩
    rwa [← List.map_cons, ← List.map_append, List.map_map]

end Clashes

section Files
variable {before l : List (GenUnit × OutputFile)} {e : RunError}

/-- As long as no path comes twice, the search goes on with what is behind. -/
theorem pathClash?_append (before l' : List (GenUnit × OutputFile))
    (h : ((before ++ l).map (·.2.path)).Nodup) :
    pathClash? before (l ++ l') = pathClash? (before ++ l) l' := by
  induction l generalizing before with
  | nil => rw [List.nil_append, List.append_nil]
  | cons p l ih =>
    rw [List.append_cons] at h
    have hnew : p.2.path ∉ before.map (·.2.path) := by
      rw [List.map_append] at h
      exact (nodup_map_concat.1 (List.nodup_append.1 h).1).2
    have hfind : before.find? (·.2.path = p.2.path) = none := by
      rw [List.find?_eq_none]
      intro q hq hpath
      exact hnew (List.mem_map.2 ⟨q, hq, by simpa using hpath⟩)
    have hnext := ih _ h
    rw [List.append_assoc, List.singleton_append] at hnext
    rwa [List.cons_append, pathClash?, hfind]

theorem pathClash?_of_nodup (h : (l.map (·.2.path)).Nodup) : pathClash? [] l = none := by
  have happend := pathClash?_append [] [] h
  rwa [List.append_nil] at happend

theorem pathClash?_of_clash (h : Clash (·.1.label) (·.2.path) l e) : pathClash? [] l = some e := by
  obtain ⟨done, first, between, p, after, rfl, hnodup, hpath, rfl⟩ := h
  have hfind : (done ++ first :: between).find? (·.2.path = p.2.path) = some first := by
    rw [List.find?_eq_some_iff_append]
    refine ⟨by simpa using hpath, done, between, rfl, fun q hq => ?_⟩
    rw [List.map_append] at hnodup
    have hne := (List.nodup_append.1 hnodup).2.2 _ (List.mem_map_of_mem hq) first.2.path
      (List.mem_map_of_mem List.mem_cons_self)
    simpa [hpath] using hne
  rw [pathClash?_append [] (p :: after) (l := done ++ first :: between) hnodup, List.nil_append,
    pathClash?, hfind]

theorem pathClash?_eq_none_iff : pathClash? [] l = none ↔ (l.map (·.2.path)).Nodup := by
  refine ⟨fun h => (nodup_or_clash (·.1.label) (·.2.path) l).resolve_right ?_, pathClash?_of_nodup⟩
  rintro ⟨e, he⟩
  cases h.symm.trans (pathClash?_of_clash he)

theorem pathClash?_eq_some_iff :
    pathClash? [] l = some e ↔ Clash (·.1.label) (·.2.path) l e := by
  refine ⟨fun h => ?_, pathClash?_of_clash⟩
  rcases nodup_or_clash (·.1.label) (·.2.path) l with hnodup | ⟨e', he'⟩
  · cases h.symm.trans (pathClash?_of_nodup hnodup)
  · cases h.symm.trans (pathClash?_of_clash he')
    exact he'

end Files

/-! ### Outcomes -/

/-- The file that a unit gives: at its path, the header and the text that the unit comes to. -/
def Gives (target : Target) (ctx : Context) (u : GenUnit) (f : OutputFile) : Prop :=
  ∃ body, target.unitBody ctx u = .text body ∧ f = ⟨target.unitPath ctx u, target.header ++ body⟩

/-- All units of a run give files, and their paths are different. -/
structure Complete (target : Target) (ctx : Context) : Prop where
  files : ∀ u ∈ units ctx, ∃ f, target.Gives ctx u f
  paths : ((units ctx).map (target.unitPath ctx)).Nodup

/-- How a run fails: with the first unit in order that gives no file, or else with the first one whose
path an earlier one has. -/
inductive Failure (target : Target) (ctx : Context) : RunError → Prop
  | failed {before after : List GenUnit} {u : GenUnit} {cause : RunError} :
      units ctx = before ++ u :: after → (∀ v ∈ before, ∃ f, target.Gives ctx v f) →
      target.unitBody ctx u = .failed cause → Failure target ctx (.unitFailed u.label cause)
  | panicked {before after : List GenUnit} {u : GenUnit} :
      units ctx = before ++ u :: after → (∀ v ∈ before, ∃ f, target.Gives ctx v f) →
      target.unitBody ctx u = .panicked → Failure target ctx (.unitPanicked u.label)
  | clash {e : RunError} : (∀ v ∈ units ctx, ∃ f, target.Gives ctx v f) →
      Clash GenUnit.label (target.unitPath ctx) (units ctx) e → Failure target ctx e

section Outcomes
variable {target : Target} {ctx : Context} {u : GenUnit} {us : List GenUnit} {f : OutputFile}
  {files : List OutputFile} {e : RunError}

theorem ofExcept_eq_text {x : Except RunError String} {body : String}
    (h : Outcome.ofExcept x = .text body) : x = .ok body := by
  cases x with
  | ok _ => cases h; rfl
  | error _ => cases h

theorem unitFile_eq_ok_iff : target.unitFile ctx u = .ok f ↔ target.Gives ctx u f := by
  unfold unitFile Gives
  cases target.unitBody ctx u <;> simp [outcomeFile, eq_comm]

theorem mapM_unitFile_eq_ok_iff :
    us.mapM (target.unitFile ctx) = .ok files ↔ List.Forall₂ (target.Gives ctx) us files := by
  rw [mapM_eq_ok_iff]
  simp only [unitFile_eq_ok_iff]

theorem exists_files (h : ∀ u ∈ us, ∃ f, target.Gives ctx u f) :
    ∃ files, List.Forall₂ (target.Gives ctx) us files := by
  obtain ⟨files, hfiles⟩ := exists_mapM (f := target.unitFile ctx) fun u hu =>
    (h u hu).imp fun _ => unitFile_eq_ok_iff.2
  exact ⟨files, mapM_unitFile_eq_ok_iff.1 hfiles⟩

theorem exists_file_of_mem (h : List.Forall₂ (target.Gives ctx) us files) :
    ∀ u ∈ us, ∃ f, target.Gives ctx u f := by
  induction h with
  | nil => simp
  | cons hu _ ih => exact List.forall_mem_cons.2 ⟨⟨_, hu⟩, ih⟩

/-- Units with their files have the labels and the paths of the units alone. -/
theorem map_zip (h : List.Forall₂ (target.Gives ctx) us files) :
    (us.zip files).map (fun p => (p.1.label, p.2.path)) =
      us.map fun u => (u.label, target.unitPath ctx u) := by
  induction h with
  | nil => rfl
  | cons hu _ ih =>
    obtain ⟨_, _, rfl⟩ := hu
    rw [List.zip_cons_cons, List.map_cons, List.map_cons, ih]

theorem paths_zip (h : List.Forall₂ (target.Gives ctx) us files) :
    (us.zip files).map (·.2.path) = us.map (target.unitPath ctx) := by
  have hsnd := congrArg (List.map (·.2)) (map_zip h)
  rwa [List.map_map, List.map_map] at hsnd

theorem clash_zip_iff (h : List.Forall₂ (target.Gives ctx) us files) :
    Clash (·.1.label) (·.2.path) (us.zip files) e ↔
      Clash GenUnit.label (target.unitPath ctx) us e := by
  have hfiles : Clash (·.1) (·.2) ((us.zip files).map fun p => (p.1.label, p.2.path)) e ↔ _ :=
    clash_map
  have hunits : Clash (·.1) (·.2) (us.map fun u => (u.label, target.unitPath ctx u)) e ↔ _ :=
    clash_map
  rw [map_zip h] at hfiles
  exact hfiles.symm.trans hunits

theorem distinctFiles_eq_ok_iff (h : List.Forall₂ (target.Gives ctx) us files)
    {files' : List OutputFile} : distinctFiles us files = .ok files' ↔
      (us.map (target.unitPath ctx)).Nodup ∧ files' = files := by
  rw [distinctFiles, ← paths_zip h, ← pathClash?_eq_none_iff]
  cases pathClash? [] (us.zip files) <;> simp [eq_comm]

theorem distinctFiles_eq_error_iff (h : List.Forall₂ (target.Gives ctx) us files) :
    distinctFiles us files = .error e ↔ Clash GenUnit.label (target.unitPath ctx) us e := by
  rw [distinctFiles, ← clash_zip_iff h, ← pathClash?_eq_some_iff]
  cases pathClash? [] (us.zip files) <;> simp

/-- A run gives files exactly when it is complete, and then those of its units in order. -/
theorem run_eq_ok_iff : target.run ctx = .ok files ↔
    target.Complete ctx ∧ List.Forall₂ (target.Gives ctx) (units ctx) files := by
  rw [run, bind_eq_ok_iff]
  simp only [mapM_unitFile_eq_ok_iff]
  constructor
  · rintro ⟨_, hgives, h⟩
    obtain ⟨hnodup, rfl⟩ := (distinctFiles_eq_ok_iff hgives).1 h
    exact ⟨⟨exists_file_of_mem hgives, hnodup⟩, hgives⟩
  · rintro ⟨hcomplete, hgives⟩
    exact ⟨files, hgives, (distinctFiles_eq_ok_iff hgives).2 ⟨hcomplete.paths, rfl⟩⟩

theorem exists_run (h : target.Complete ctx) : ∃ files, target.run ctx = .ok files := by
  obtain ⟨files, hfiles⟩ := exists_files h.files
  exact ⟨files, run_eq_ok_iff.2 ⟨h, hfiles⟩⟩

/-- A run into an empty manifest gives the file about all tables and one for each table. -/
theorem files_of_runInto {name : String} {m : Manifest}
    (h : target.runInto ctx ⟨name, []⟩ = .ok m) : ∃ first rest, m.files = first :: rest ∧
      target.Complete ctx ∧ target.Gives ctx .manifest first ∧
      List.Forall₂ (fun t f => target.Gives ctx (.table t) f) ctx.exportTables rest := by
  obtain ⟨files, hfiles, h⟩ := bind_eq_ok_iff.1 h
  cases h
  obtain ⟨hcomplete, hgives⟩ := run_eq_ok_iff.1 hfiles
  obtain ⟨first, rest, hfirst, hrest, rfl⟩ := List.forall₂_cons_left_iff.1 hgives
  exact ⟨first, rest, rfl, hcomplete, hfirst, List.forall₂_map_left_iff.1 hrest⟩

/-- The first unit that gives no file is the failure of the run. -/
theorem failure_of_unitFile_eq_error {before after : List GenUnit}
    (hunits : units ctx = before ++ u :: after) (hbefore : ∀ v ∈ before, ∃ f, target.Gives ctx v f)
    (h : target.unitFile ctx u = .error e) : target.Failure ctx e := by
  unfold unitFile at h
  cases hbody : target.unitBody ctx u with
  | text body =>
    rw [hbody] at h
    cases h
  | failed cause =>
    rw [hbody] at h
    cases h
    exact .failed hunits hbefore hbody
  | panicked =>
    rw [hbody] at h
    cases h
    exact .panicked hunits hbefore hbody

theorem run_eq_error_of_unit {before after : List GenUnit}
    (hunits : units ctx = before ++ u :: after) (hbefore : ∀ v ∈ before, ∃ f, target.Gives ctx v f)
    (h : target.unitFile ctx u = .error e) : target.run ctx = .error e := by
  refine bind_eq_error_iff.2 (.inl (mapM_eq_error_iff.2 ⟨before, u, after, hunits, ?_, h⟩))
  exact fun v hv => (hbefore v hv).imp fun _ => unitFile_eq_ok_iff.2

/-- A run fails exactly as `Failure` says, so there is only one way in which it can. -/
theorem run_eq_error_iff : target.run ctx = .error e ↔ target.Failure ctx e := by
  constructor
  · intro h
    rcases bind_eq_error_iff.1 h with h | ⟨files, hfiles, h⟩
    · obtain ⟨before, u, after, hunits, hbefore, hu⟩ := mapM_eq_error_iff.1 h
      refine failure_of_unitFile_eq_error hunits (fun v hv => ?_) hu
      exact (hbefore v hv).imp fun _ => unitFile_eq_ok_iff.1
    · rw [mapM_unitFile_eq_ok_iff] at hfiles
      exact .clash (exists_file_of_mem hfiles) ((distinctFiles_eq_error_iff hfiles).1 h)
  · intro h
    cases h with
    | failed hunits hbefore hbody =>
      exact run_eq_error_of_unit hunits hbefore (by rw [unitFile, hbody, outcomeFile])
    | panicked hunits hbefore hbody =>
      exact run_eq_error_of_unit hunits hbefore (by rw [unitFile, hbody, outcomeFile])
    | clash hfiles hclash =>
      obtain ⟨files, hgives⟩ := exists_files hfiles
      refine bind_eq_error_iff.2 (.inr ⟨files, mapM_unitFile_eq_ok_iff.2 hgives, ?_⟩)
      exact (distinctFiles_eq_error_iff hgives).2 hclash

theorem runInto_eq_error_iff {m : Manifest} :
    target.runInto ctx m = .error e ↔ target.run ctx = .error e := by
  rw [runInto, bind_eq_error_iff]
  exact or_iff_left (by rintro ⟨_, _, ⟨⟩⟩)

/-- The file about all tables comes first, so its failure is that of the run. -/
theorem run_of_manifest_failed {cause : RunError} (h : target.manifestBody ctx = .failed cause) :
    target.run ctx = .error (.unitFailed GenUnit.manifest.label cause) :=
  run_eq_error_iff.2 (.failed (List.nil_append _).symm (by simp) h)

/-- When every unit comes to a text, only a clash of paths is left to fail with. -/
theorem duplicatePath_of_texts (htexts : ∀ u ∈ units ctx, ∃ body, target.unitBody ctx u = .text body)
    (h : target.run ctx = .error e) : ∃ path first second, e = .duplicatePath path first second := by
  cases run_eq_error_iff.1 h with
  | @failed _ _ u _ hunits _ hbody =>
    obtain ⟨body, htext⟩ := htexts u (hunits ▸ by simp)
    cases hbody.symm.trans htext
  | @panicked _ _ u hunits _ hbody =>
    obtain ⟨body, htext⟩ := htexts u (hunits ▸ by simp)
    cases hbody.symm.trans htext
  | clash _ hclash =>
    obtain ⟨_, first, _, x, _, _, _, _, rfl⟩ := hclash
    exact ⟨_, _, _, rfl⟩

end Outcomes

end ConfigTables.Target
