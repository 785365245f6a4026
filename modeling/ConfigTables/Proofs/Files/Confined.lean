import ConfigTables.Proofs.Files.Writing

/-!
    Where the files of a manifest are written. A path of names stays below the directory that it is
    taken from, and so does its temporary file; a path with any other step is refused. But the empty
    path has no step, so nothing is wrong with its steps: it leads to the directory itself, and its
    temporary file comes beside the directory and is left there. -/

namespace ConfigTables
variable {t t' : FileTree} {directory temporary : String} {f : OutputFile} {files : List OutputFile}
  {place : Place} {result : Except OutputError (List String)}

/-- A place that is strictly below another one. -/
def Place.Below (above place : Place) : Prop := ∃ names, names ≠ [] ∧ place = above ++ names

/-- The place of a temporary file beside another place. -/
def Place.Beside (of place : Place) : Prop :=
  ∃ above n, of = above ++ [n] ∧ place = above ++ [n ++ ".tmp"]

/-- A file that is written below a directory only: its place and that of its temporary file are. -/
def OutputFile.StaysBelow (f : OutputFile) (t : FileTree) (directory : String) : Prop :=
  ∀ place, f.Touches t directory place → Place.Below (t.placeOf directory) place

theorem not_below_self (place : Place) : ¬Place.Below place place := by
  rintro ⟨names, hne, h⟩
  exact hne (List.self_eq_append_right.1 h)

/-! ### One file -/

theorem below_of_touches (hinside : Path.isInside f.path = true) (hne : f.path ≠ "")
    (h : f.Touches t directory place) : Place.Below (t.placeOf directory) place := by
  obtain ⟨names, n, hnames⟩ := Path.exists_names hinside hne
  rcases (OutputFile.touches_iff_of_names hnames).1 h with rfl | rfl
  · exact ⟨names ++ [n], by simp, rfl⟩
  · exact ⟨names ++ [n ++ ".tmp"], by simp, rfl⟩

/-- A path of names stays below the directory, with its temporary file, unless it is empty. -/
theorem staysBelow_iff (hinside : Path.isInside f.path = true) :
    f.StaysBelow t directory ↔ f.path ≠ "" := by
  refine ⟨fun h hempty => ?_, fun hne _ => below_of_touches hinside hne⟩
  have hplace : t.placeOf (Path.join directory f.path) = t.placeOf directory := by
    have hnames : Path.components f.path = ([] : List String).map .name := by rw [hempty]; rfl
    rw [t.placeOf_join directory hnames, List.append_nil]
  exact not_below_self _ (hplace ▸ h _ (.inl rfl))

theorem beside_of_empty (h : Path.beside? (Path.join directory "") ".tmp" = some temporary) :
    Place.Beside (t.placeOf directory) (t.placeOf temporary) := by
  obtain ⟨steps, n, hsteps, htemporary⟩ := Path.beside?_eq_some h
  have hdirectory : Path.components directory = steps ++ [.name n] := by
    rw [← hsteps, Path.components_join rfl]
    exact (List.append_nil _).symm
  exact ⟨_, n, t.placeOf_concat hdirectory, t.placeOf_concat htemporary⟩

/-- A write to the empty path fails, and changes at most the file beside the directory. -/
theorem Written.of_empty {content : ByteArray} {e : OutputError}
    (h : Written (Path.join directory "") content t (.error e) t') :
    t'.fileAt? place = t.fileAt? place ∨ (Place.Beside (t.placeOf directory) place ∧
      t'.fileAt? place = some content ∧ e = .io (Path.join directory "")) := by
  cases h with
  | nothing hsame => exact .inl (by rw [hsame.fileAt?])
  | leftBeside hbeside _ hfiles =>
    rw [hfiles, Function.update_apply]
    split
    · rename_i hplace
      exact .inr ⟨hplace ▸ beside_of_empty hbeside, rfl, rfl⟩
    · exact .inl rfl

/-! ### The files of a manifest -/

/-- The writing of some files changes no file outside the directory, unless it ends at an empty
path. -/
theorem ManifestRun.fileAt?_outside (h : ManifestRun directory t files result t')
    (hplace : ¬Place.Below (t.placeOf directory) place) : t'.fileAt? place = t.fileAt? place ∨
      (Place.Beside (t.placeOf directory) place ∧ ∃ f ∈ files, f.path = "" ∧
        t'.fileAt? place = some f.content.toUTF8 ∧
        result = .error (.io (Path.join directory ""))) := by
  induction h with
  | nil => exact .inl rfl
  | refused _ => exact .inl rfl
  | @failed t t' f rest e hinside hwritten =>
    by_cases hempty : f.path = ""
    · rw [hempty] at hwritten
      refine hwritten.of_empty.imp_right fun ⟨hbeside, hcontent, he⟩ => ?_
      exact ⟨hbeside, f, List.mem_cons_self, hempty, hcontent, by rw [he]⟩
    · have houtside : ¬f.Touches t directory place := fun h =>
        hplace (below_of_touches hinside hempty h)
      exact .inl (hwritten.fileAt?_eq houtside)
  | @next t t' t'' f rest result hinside hwritten _ ih =>
    -- The write succeeded, so its path is not the empty one.
    have houtside : ¬f.Touches t directory place := fun h =>
      hplace (below_of_touches hinside hwritten.ne_empty h)
    rw [← hwritten.fileAt?_eq houtside, ← hwritten.later.placeOf]
    rw [← hwritten.later.placeOf] at hplace
    refine (ih hplace).imp_right fun ⟨hbeside, g, hg, hempty, hcontent, hresult⟩ => ?_
    exact ⟨hbeside, g, List.mem_cons_of_mem _ hg, hempty, hcontent, by rw [hresult]; rfl⟩

/-- A file with a path of names stays below the directory, with its temporary file, exactly when the
path is not empty. And whatever the writing of some files comes to, all files that are not below the
directory are as they were, but for the file beside the directory: there, the text of a file with an
empty path is left, and the writing fails. -/
theorem written_below (t : FileTree) (directory : String) (files : List OutputFile) :
    (∀ f ∈ files, Path.isInside f.path = true → (f.StaysBelow t directory ↔ f.path ≠ "")) ∧
    ∀ place, ¬Place.Below (t.placeOf directory) place →
      ((writeManifest directory files).run.run t).2.fileAt? place = t.fileAt? place ∨
      (Place.Beside (t.placeOf directory) place ∧ ∃ f ∈ files, f.path = "" ∧
        ((writeManifest directory files).run.run t).2.fileAt? place = some f.content.toUTF8 ∧
        ((writeManifest directory files).run.run t).1 = .error (.io (Path.join directory ""))) :=
  ⟨fun _ _ hinside => staysBelow_iff hinside,
    fun _ hplace => (manifestRun_writeManifest directory files t).fileAt?_outside hplace⟩

theorem not_below_out : ¬Place.Below ((FileTree.empty []).placeOf "out") ["out.tmp"] := by
  rintro ⟨names, -, hnames⟩
  have hdirectory : (FileTree.empty []).placeOf "out" = ["out"] := by decide +kernel
  rw [hdirectory] at hnames
  exact absurd (List.cons.inj hnames).1 (by decide)

/-- A path that would leave the directory leaves nothing beside it. -/
theorem nothing_left_beside : ((writeManifest "out" [⟨"a.json", "1"⟩, ⟨"../b.json", "2"⟩]).run.run
    (.empty [])).2.fileAt? ["out.tmp"] = none := by
  rcases (written_below (.empty []) "out" [⟨"a.json", "1"⟩, ⟨"../b.json", "2"⟩]).2 ["out.tmp"]
    not_below_out with hsame | ⟨-, f, hf, hempty, -⟩
  · exact hsame
  · have hne : ∀ f ∈ [(⟨"a.json", "1"⟩ : OutputFile), ⟨"../b.json", "2"⟩], f.path ≠ "" := by decide
    exact absurd hempty (hne f hf)

/-- An empty path leaves a file beside the directory. -/
theorem empty_path_left_beside : ¬∀ (t : FileTree) (directory : String) (files : List OutputFile)
    (place : Place), Path.isInside directory = true → directory ≠ "" →
    ¬Place.Below (t.placeOf directory) place →
    ((writeManifest directory files).run.run t).2.fileAt? place = t.fileAt? place := by
  intro h
  have hsame := h (.empty []) "out" [⟨"", "x"⟩] ["out.tmp"] (by decide +kernel) (by decide)
    not_below_out
  have hleft : (((writeManifest "out" [⟨"", "x"⟩]).run.run (.empty [])).2.fileAt?
      ["out.tmp"]).isSome = true := by decide +kernel
  rw [hsame] at hleft
  cases hleft

end ConfigTables
