import ConfigTables.Proofs.Files.Writing

/-!
    Which files of a manifest can be read after it is written. A file is lost when a later file
    comes to its place, since slashes may be repeated in a path, or writes its temporary file there,
    since the name of a file may be that of another one with `.tmp` behind. There is no other way: a
    file is read as it is exactly when the last file at its place has its text and no file after
    that has its temporary file there. -/

namespace ConfigTables
variable {t t' : FileTree} {directory path text : String} {f g : OutputFile}
  {files : List OutputFile} {place : Place}

/-- Two files of a manifest that come to one place: their paths have the same steps. -/
def OutputFile.SamePlace (f g : OutputFile) : Prop :=
  Path.components f.path = Path.components g.path

/-- A file whose temporary file comes to the place of another one. -/
def OutputFile.Displaces (f g : OutputFile) : Prop :=
  ∃ steps n, Path.components f.path = steps ++ [.name n] ∧
    Path.components g.path = steps ++ [.name (n ++ ".tmp")]

/-! ### Reading -/

theorem fromUTF8?_eq_some_iff {content : ByteArray} :
    String.fromUTF8? content = some text ↔ content = text.toUTF8 := by
  unfold String.fromUTF8?
  constructor
  · intro h
    split at h
    · cases h
      rfl
    · cases h
  · rintro rfl
    rw [String.toUTF8_eq_toByteArray, dif_pos text.isValidUTF8]
    rfl

/-- A path that leads to a place and does not mean a directory reads the file there. -/
theorem FileTree.readText?_eq_some_iff (hplace : t.place? path = some place)
    (hplain : Path.endsInDirectory path = false) :
    t.readText? path = some text ↔ t.fileAt? place = some text.toUTF8 := by
  have hnode : t.node? path = t.root.get? place := by
    rw [node?, hplace, hplain]
    cases h : t.root.get? place <;> simp [h]
  rw [fileAt?_eq_some_iff, at?, Node.at?, readText?, hnode]
  cases t.root.get? place with
  | none => simp
  | some n => cases n <;> simp [Node.standing, fromUTF8?_eq_some_iff]

/-! ### Places in one manifest -/

/-- Two files come to one place below a directory when their paths have the same steps. -/
theorem placeOf_eq_iff (hf : Path.isInside f.path = true) (hg : Path.isInside g.path = true) :
    t.placeOf (Path.join directory f.path) = t.placeOf (Path.join directory g.path) ↔
      f.SamePlace g := by
  obtain ⟨names, hnames⟩ := Path.isInside_iff.1 hf
  obtain ⟨names', hnames'⟩ := Path.isInside_iff.1 hg
  rw [t.placeOf_join directory hnames, t.placeOf_join directory hnames', List.append_cancel_left_eq,
    OutputFile.SamePlace, hnames, hnames', List.map_inj_right Path.name_injective]

/-- A file has to do with the place of another one when they come to one place, or when its
temporary file comes there. -/
theorem touches_iff (hf : Path.isInside f.path = true) (hne : f.path ≠ "")
    (hg : Path.isInside g.path = true) :
    f.Touches t directory (t.placeOf (Path.join directory g.path)) ↔
      f.SamePlace g ∨ f.Displaces g := by
  obtain ⟨names, n, hnames⟩ := Path.exists_names hf hne
  obtain ⟨names', hnames'⟩ := Path.isInside_iff.1 hg
  have hsame : f.SamePlace g ↔ names' = names ++ [n] := by
    rw [OutputFile.SamePlace, hnames, hnames', List.map_inj_right Path.name_injective, eq_comm]
  have hdisplaces : f.Displaces g ↔ names' = names ++ [n ++ ".tmp"] := by
    rw [OutputFile.Displaces, hnames, hnames']
    constructor
    · rintro ⟨steps, n', hsteps, hsteps'⟩
      rw [List.map_append, List.map_singleton] at hsteps
      obtain ⟨rfl, hn⟩ := List.append_inj' hsteps rfl
      cases hn
      rw [← List.map_singleton, ← List.map_append] at hsteps'
      exact Path.name_injective.list_map hsteps'
    · rintro rfl
      exact ⟨names.map .name, n, by simp, by simp⟩
  rw [OutputFile.touches_iff_of_names hnames, t.placeOf_join directory hnames',
    List.append_cancel_left_eq, List.append_cancel_left_eq, hsame, hdisplaces]

namespace ManifestRun
variable {paths : List String}

theorem touches_iff (h : ManifestRun directory t files (.ok paths) t') (hf : f ∈ files)
    (hg : g ∈ files) : f.Touches t directory (t.placeOf (Path.join directory g.path)) ↔
      f.SamePlace g ∨ f.Displaces g :=
  ConfigTables.touches_iff (h.of_mem hf).1 (h.of_mem hf).2.1 (h.of_mem hg).1

/-- The last file at the place of a file has its text when no later one displaces it. -/
theorem lastAt_iff (h : ManifestRun directory t files (.ok paths) t') (hf : f ∈ files) :
    LastAt t directory files (t.placeOf (Path.join directory f.path)) f.content.toUTF8 ↔
      ∃ before g after, files = before ++ g :: after ∧ g.SamePlace f ∧ g.content = f.content ∧
        ∀ k ∈ after, ¬k.SamePlace f ∧ ¬k.Displaces f := by
  refine exists_congr fun before => exists_congr fun g => exists_congr fun after =>
    and_congr_right fun hsplit => ?_
  have hg : g ∈ files := by simp [hsplit]
  rw [eq_comm, placeOf_eq_iff (h.of_mem hg).1 (h.of_mem hf).1, String.toUTF8_eq_toByteArray,
    String.toUTF8_eq_toByteArray, String.toByteArray_inj]
  refine and_congr_right fun _ => and_congr_right fun _ => forall₂_congr fun k hk => ?_
  have hk : k ∈ files := by simp [hsplit, hk]
  rw [h.touches_iff hk hf, not_or]

/-- After all files are written, a file is read as the last one at its place. -/
theorem readText?_iff (h : ManifestRun directory t files (.ok paths) t') (hf : f ∈ files) :
    t'.readText? (Path.join directory f.path) = some f.content ↔
      LastAt t directory files (t.placeOf (Path.join directory f.path)) f.content.toUTF8 := by
  obtain ⟨-, -, hplace, hplain⟩ := h.of_mem hf
  rw [FileTree.readText?_eq_some_iff hplace hplain, h.fileAt?_eq_some_iff]
  exact or_iff_left fun ⟨_, hnone⟩ => hnone f hf (.inl rfl)

end ManifestRun

/-- A file of a manifest that is written is read as it is exactly when the last file that comes to
its place has its text, and the temporary file of no later one comes there. So all files are read as
they are when no later file comes to the place of an earlier one, nor its temporary file. -/
theorem written_file_read_iff (t t' : FileTree) (directory : String) (files : List OutputFile)
    (paths : List String) (h : (writeManifest directory files).run.run t = (.ok paths, t')) :
    (∀ f ∈ files, t'.readText? (Path.join directory f.path) = some f.content ↔
      ∃ before g after, files = before ++ g :: after ∧ g.SamePlace f ∧ g.content = f.content ∧
        ∀ k ∈ after, ¬k.SamePlace f ∧ ¬k.Displaces f) ∧
    (files.Pairwise (fun f k => ¬k.SamePlace f ∧ ¬k.Displaces f) →
      ∀ f ∈ files, t'.readText? (Path.join directory f.path) = some f.content) := by
  have hrun := manifestRun_writeManifest directory files t
  rw [h] at hrun
  have hread : ∀ f ∈ files, t'.readText? (Path.join directory f.path) = some f.content ↔
      ∃ before g after, files = before ++ g :: after ∧ g.SamePlace f ∧ g.content = f.content ∧
        ∀ k ∈ after, ¬k.SamePlace f ∧ ¬k.Displaces f :=
    fun f hf => (hrun.readText?_iff hf).trans (hrun.lastAt_iff hf)
  refine ⟨hread, fun hapart f hf => (hread f hf).2 ?_⟩
  obtain ⟨before, after, rfl⟩ := List.append_of_mem hf
  have hafter := (List.pairwise_append.1 hapart).2.1
  exact ⟨before, f, after, rfl, rfl, rfl, (List.pairwise_cons.1 hafter).1⟩

namespace Drafts

/-- A draft and a final form, the names of which differ in the end only. -/
def draft : OutputFile := ⟨"a.tmp", "draft"⟩

def final : OutputFile := ⟨"a", "final"⟩

theorem final_draft_written : ((writeManifest "out" [final, draft]).run.run (.empty [])).1 =
    .ok ["out/a", "out/a.tmp"] := by decide +kernel

theorem draft_final_written : ((writeManifest "out" [draft, final]).run.run (.empty [])).1 =
    .ok ["out/a.tmp", "out/a"] := by decide +kernel

/-- The temporary file of the draft is not the final form, though that of the final form is the
draft. -/
theorem not_displaces_final : ¬draft.Displaces final := by
  rintro ⟨steps, n, hdraft, hfinal⟩
  have hsteps : Path.components draft.path = [] ++ [.name "a.tmp"] := by decide +kernel
  obtain ⟨rfl, hn⟩ := List.append_inj' (hdraft.symm.trans hsteps) rfl
  cases hn
  revert hfinal
  decide +kernel

/-- A draft that is written after the final form is kept, and so is the final form. -/
theorem final_draft_read : ∃ paths t', (writeManifest "out" [final, draft]).run.run (.empty []) =
      (.ok paths, t') ∧
    ∀ f ∈ [final, draft], t'.readText? (Path.join "out" f.path) = some f.content := by
  refine ⟨_, _, run_eq_of_fst final_draft_written, ?_⟩
  refine (written_file_read_iff _ _ _ _ _ (run_eq_of_fst final_draft_written)).2 ?_
  refine List.pairwise_cons.2 ⟨fun k hk => ?_, List.pairwise_singleton _ _⟩
  rw [List.mem_singleton.1 hk]
  exact ⟨by unfold OutputFile.SamePlace; decide +kernel, not_displaces_final⟩

/-- A draft that is written first is lost, though both files are said to be written. -/
theorem draft_final_lost : ¬∀ (t t' : FileTree) (directory : String) (files : List OutputFile)
    (paths : List String), (files.map (·.path)).Nodup →
    (writeManifest directory files).run.run t = (.ok paths, t') →
    ∀ f ∈ files, t'.readText? (Path.join directory f.path) = some f.content := by
  intro h
  have hread := h (.empty []) _ "out" [draft, final] _ (by decide)
    (run_eq_of_fst draft_final_written) draft List.mem_cons_self
  have hnone : ((writeManifest "out" [draft, final]).run.run (.empty [])).2.readText?
      (Path.join "out" draft.path) = none := by decide +kernel
  cases hnone.symm.trans hread

end Drafts

end ConfigTables
