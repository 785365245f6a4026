import ConfigTables.Proofs.Files.Writing

/-!
    What is left of a manifest with a path that is refused. A path is looked at when it is the turn
    of its file, after the files before it are written. So the files from the first refused path on
    are not written, but those before it are, and they stay. -/

namespace ConfigTables
variable {t : FileTree} {directory : String} {bad : OutputFile} {before files : List OutputFile}

/-- The files from the first refused one on change nothing, and only the error is theirs. -/
theorem run_writeManifest_of_first_refused (directory : String) (t : FileTree)
    (after : List OutputFile) (hbefore : ∀ f ∈ before, Path.isInside f.path = true)
    (hbad : Path.isInside bad.path = false) :
    (writeManifest directory (before ++ bad :: after)).run.run t =
      (((writeManifest directory before).run.run t).1.bind fun _ => .error (.invalidPath bad.path),
        ((writeManifest directory before).run.run t).2) := by
  -- Each file is written to what those before it leave, whatever stands behind it in the list.
  induction before generalizing t with
  | nil => exact run_writeManifest_of_refused hbad
  | cons f before ih =>
    obtain ⟨hinside, hbefore⟩ := List.forall_mem_cons.1 hbefore
    rcases hwrite : (writeBytes (Path.join directory f.path) f.content.toUTF8).run.run t with
      ⟨result, t'⟩
    cases result with
    | error e =>
      rw [List.cons_append, run_writeManifest_of_failed hinside hwrite,
        run_writeManifest_of_failed hinside hwrite]
      rfl
    | ok _ =>
      rw [List.cons_append, run_writeManifest_of_written hinside hwrite,
        run_writeManifest_of_written hinside hwrite, ih t' hbefore]
      cases ((writeManifest directory before).run.run t').1 <;> rfl

theorem exists_first_refused (h : ∃ f ∈ files, Path.isInside f.path = false) :
    ∃ before bad after, files = before ++ bad :: after ∧
      (∀ f ∈ before, Path.isInside f.path = true) ∧ Path.isInside bad.path = false := by
  have hfound : (files.find? fun f => !Path.isInside f.path).isSome := by
    simpa [List.find?_isSome] using h
  obtain ⟨bad, hbad⟩ := Option.isSome_iff_exists.1 hfound
  obtain ⟨hbad, before, after, hsplit, hbefore⟩ := List.find?_eq_some_iff_append.1 hbad
  exact ⟨before, bad, after, hsplit, by simpa using hbefore, by simpa using hbad⟩

/-- A manifest with a path that is refused comes to an error: the one of the first such path, unless
a file before it cannot be written. The files are then as the files before it leave them: no file
changes but at their places and those of their temporary files, and when all of them are written,
they stay. -/
theorem refused_manifest_run (t : FileTree) (directory : String) (files : List OutputFile)
    (h : ∃ f ∈ files, Path.isInside f.path = false) :
    ∃ before bad after, files = before ++ bad :: after ∧
      (∀ f ∈ before, Path.isInside f.path = true) ∧ Path.isInside bad.path = false ∧
      (writeManifest directory files).run.run t =
        (((writeManifest directory before).run.run t).1.bind fun _ =>
            .error (.invalidPath bad.path),
          ((writeManifest directory before).run.run t).2) ∧
      (∀ place, (∀ f ∈ before, ¬f.Touches t directory place) →
        ((writeManifest directory files).run.run t).2.fileAt? place = t.fileAt? place) ∧
      ∀ paths, ((writeManifest directory before).run.run t).1 = .ok paths → ∀ place bytes,
        (((writeManifest directory files).run.run t).2.fileAt? place = some bytes ↔
          LastAt t directory before place bytes ∨
            (t.fileAt? place = some bytes ∧ ∀ f ∈ before, ¬f.Touches t directory place)) := by
  obtain ⟨before, bad, after, rfl, hbefore, hbad⟩ := exists_first_refused h
  have hrun := run_writeManifest_of_first_refused directory t after hbefore hbad
  have hleft := manifestRun_writeManifest directory before t
  refine ⟨before, bad, after, rfl, hbefore, hbad, hrun, ?_, ?_⟩
  · intro place hother
    rw [hrun]
    exact hleft.fileAt?_eq hother
  · intro paths hpaths place bytes
    rw [hpaths] at hleft
    rw [hrun]
    exact hleft.fileAt?_eq_some_iff

/-- When the first path is refused, all files are as they were. -/
theorem first_path_refused :
    (writeManifest "out" [⟨"../b.json", "2"⟩, ⟨"a.json", "1"⟩]).run.run (.empty []) =
      (.error (.invalidPath "../b.json"), .empty []) := by
  obtain ⟨before, bad, after, hsplit, hbefore, -, hrun, -⟩ := refused_manifest_run (.empty []) "out"
    [⟨"../b.json", "2"⟩, ⟨"a.json", "1"⟩] ⟨_, List.mem_cons_self, by decide +kernel⟩
  cases before with
  | nil =>
    cases hsplit
    exact hrun
  | cons f before =>
    obtain ⟨rfl, -⟩ := List.cons.inj hsplit
    exact absurd (hbefore _ List.mem_cons_self) (by decide +kernel)

/-- When a later path is refused, the files before it are there. -/
theorem later_path_refused : ¬∀ (t : FileTree) (directory : String) (files : List OutputFile),
    (∃ f ∈ files, Path.isInside f.path = false) →
    ∃ f ∈ files, (writeManifest directory files).run.run t = (.error (.invalidPath f.path), t) := by
  intro h
  obtain ⟨f, -, hrun⟩ := h (.empty []) "out" [⟨"a.json", "1"⟩, ⟨"../b.json", "2"⟩]
    ⟨⟨"../b.json", "2"⟩, by simp, by decide +kernel⟩
  have hleft : ((writeManifest "out" [⟨"a.json", "1"⟩, ⟨"../b.json", "2"⟩]).run.run
      (.empty [])).2.isFile "out/a.json" = true := by decide +kernel
  have hnone : (FileTree.empty []).isFile "out/a.json" = false := by decide +kernel
  rw [hrun] at hleft
  cases hnone.symm.trans hleft

end ConfigTables
