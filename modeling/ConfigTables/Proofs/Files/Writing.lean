import ConfigTables.Proofs.Files.Standing
import ConfigTables.Proofs.Files.Steps

/-!
    What the writing of files comes to. A file that is written has its bytes at its place, and
    nothing is left beside it; a write that fails leaves all files as they were, or a temporary file
    more (`Written`). The files of a manifest are written one after another until a path is refused
    or a write fails (`ManifestRun`), and no file changes but those at the places of the files and
    of their temporary files (`Touches`). -/

namespace ConfigTables
variable {t t' t'' : FileTree} {path directory temporary : String} {content : ByteArray}
  {f : OutputFile} {files rest : List OutputFile} {e : OutputError} {place : Place}

/-! ### Work on files -/

section Work
variable {ε α β : Type}

theorem run_bind_of_ok {x : FileWork ε α} {k : α → FileWork ε β} {a : α}
    (h : x.run.run t = (.ok a, t')) : (x >>= k).run.run t = (k a).run.run t' := by
  rw [ExceptT.run_bind, StateT.run_bind, h]
  rfl

theorem run_bind_of_error {x : FileWork ε α} {k : α → FileWork ε β} {e : ε}
    (h : x.run.run t = (.error e, t')) : (x >>= k).run.run t = (.error e, t') := by
  rw [ExceptT.run_bind, StateT.run_bind, h]
  rfl

/-- Work in two steps only succeeds when both steps do. -/
theorem exists_of_run_bind {x : FileWork ε α} {k : α → FileWork ε β} {b : β}
    (h : (x >>= k).run.run t = (.ok b, t'')) :
    ∃ a t', x.run.run t = (.ok a, t') ∧ (k a).run.run t' = (.ok b, t'') := by
  rcases hx : x.run.run t with ⟨result, t'⟩
  cases result with
  | error e =>
    rw [run_bind_of_error hx] at h
    cases h
  | ok a =>
    rw [run_bind_of_ok hx] at h
    exact ⟨a, t', rfl, h⟩

theorem run_eq_of_fst {x : FileWork ε α} {result : Except ε α} (h : (x.run.run t).1 = result) :
    x.run.run t = (result, (x.run.run t).2) := Prod.ext h rfl

end Work

theorem run_get {ε : Type} (t : FileTree) :
    (get : FileWork ε FileTree).run.run t = (.ok t, t) := rfl

theorem run_changeDirectories (path : String) (make : FileTree → FileTree × Bool) (t : FileTree) :
    (changeDirectories path make).run.run t =
      (if (make t).2 then .ok () else .error (.io path), (make t).1) := by
  rw [changeDirectories]
  refine (run_bind_of_ok (run_get t)).trans ?_
  cases hdone : (make t).2 <;> simp only [hdone] <;> rfl

theorem run_changeFiles (path : String) (change : FileTree → Option FileTree) (t : FileTree) :
    (changeFiles path change).run.run t =
      match change t with
      | some t' => (.ok (), t')
      | none => (.error (.io path), t) := by
  rw [changeFiles]
  refine (run_bind_of_ok (run_get t)).trans ?_
  cases change t <;> rfl

/-! ### One file -/

/-- What the writing of a file can come to. -/
inductive Written (path : String) (content : ByteArray) (t : FileTree) :
    Except OutputError Unit → FileTree → Prop
  | nothing {e : OutputError} {t' : FileTree} : t.SameFiles t' →
      Written path content t (.error e) t'
  | leftBeside {temporary : String} {t' : FileTree} : Path.beside? path ".tmp" = some temporary →
      t.Later t' →
      t'.fileAt? = Function.update t.fileAt? (t.placeOf temporary) (some content) →
      Written path content t (.error (.io path)) t'
  | done {temporary : String} {t' : FileTree} : Path.beside? path ".tmp" = some temporary →
      t.Later t' → t'.place? path = some (t.placeOf path) → Path.endsInDirectory path = false →
      t'.fileAt? = Function.update (Function.update t.fileAt? (t.placeOf temporary) none)
        (t.placeOf path) (some content) →
      Written path content t (.ok ()) t'

theorem placeOf_ne_nil (h : Path.beside? path ".tmp" = some temporary) :
    t.placeOf temporary ≠ [] := by
  obtain ⟨steps, n, -, htemporary⟩ := Path.beside?_eq_some h
  rw [t.placeOf_concat htemporary]
  exact List.concat_ne_nil _ _

/-- The temporary file has the bytes of the file, and the move brings them to its place. -/
theorem written_of_changes {t₁ t₂ : FileTree} (hbeside : Path.beside? path ".tmp" = some temporary)
    (hroom : t.SameFiles t₁) (hwrite : t₁.writeFile? temporary content = some t₂) :
    t.Later t₂ ∧
      t₂.fileAt? = Function.update t.fileAt? (t.placeOf temporary) (some content) ∧
      (∀ t', t₂.moveFile? temporary path = some t' → Written path content t (.ok ()) t') := by
  obtain ⟨hnot, hchange⟩ := FileTree.writeFile?_eq_some hwrite
  have hlater : t₁.Later t₂ := hchange.later hnot
  have hfiles := FileTree.fileAt?_update hchange.at?
  rw [hroom.fileAt?, hroom.toLater.placeOf] at hfiles
  refine ⟨hroom.toLater.trans hlater, hfiles, fun t' hmove => ?_⟩
  have hlater₂ := hroom.toLater.trans hlater
  have hat : t₂.at? (t₂.placeOf temporary) = some (.file content) := by
    rw [hlater.placeOf, hchange.at?, Function.update_self]
  obtain ⟨hplace, hplain, hnot', removed, hremoved, hmoved⟩ :=
    FileTree.moveFile?_eq_some hmove hat (placeOf_ne_nil hbeside)
  have hlater₃ : t₂.Later removed := hremoved.later (by simp [hat])
  -- The file that is moved was no directory, so its target is none after it is taken away either.
  have hnot'' : removed.at? (t₂.placeOf path) ≠ some .directory := by
    rw [hremoved.at?, Function.update_apply]
    split
    · exact nofun
    · exact hnot'
  have hlater₄ := hlater₃.trans (hmoved.later hnot'')
  refine .done hbeside (hlater₂.trans hlater₄) ?_ hplain ?_
  · rw [← hlater₂.placeOf]
    exact hlater₄.place? hplace
  · rw [FileTree.fileAt?_update hmoved.at?, FileTree.fileAt?_update hremoved.at?, hfiles,
      hlater₂.placeOf, hlater₂.placeOf, Option.bind_none, Function.update_idem]
    rfl

theorem written_writeBytes (path : String) (content : ByteArray) (t : FileTree) :
    Written path content t ((writeBytes path content).run.run t).1
      ((writeBytes path content).run.run t).2 := by
  have hroom := FileTree.sameFiles_makeRoom t path
  have hmake := run_changeDirectories path (·.makeRoom path) t
  rw [writeBytes]
  split at hmake
  · rw [run_bind_of_ok hmake]
    cases hbeside : Path.beside? path ".tmp" with
    | none => exact .nothing hroom
    | some temporary =>
      have hwrite := run_changeFiles path (·.writeFile? temporary content) (t.makeRoom path).1
      cases hwritten : (t.makeRoom path).1.writeFile? temporary content with
      | none =>
        simp only [hwritten] at hwrite
        simp only [run_bind_of_error hwrite]
        exact .nothing hroom
      | some t₂ =>
        obtain ⟨hlater, hfiles, hmoved⟩ := written_of_changes hbeside hroom hwritten
        simp only [hwritten] at hwrite
        simp only [run_bind_of_ok hwrite, run_changeFiles]
        cases hmove : t₂.moveFile? temporary path with
        | none => exact .leftBeside hbeside hlater hfiles
        | some t' => exact hmoved t' hmove
  · rw [run_bind_of_error hmake]
    exact .nothing hroom

/-! ### The files of a manifest -/

theorem run_writeManifest_of_refused (h : Path.isInside f.path = false) :
    (writeManifest directory (f :: rest)).run.run t = (.error (.invalidPath f.path), t) := by
  rw [writeManifest, if_neg (by simp [h])]
  rfl

theorem run_writeManifest_of_failed (h : Path.isInside f.path = true)
    (hwrite : (writeBytes (Path.join directory f.path) f.content.toUTF8).run.run t =
      (.error e, t')) :
    (writeManifest directory (f :: rest)).run.run t = (.error e, t') := by
  rw [writeManifest, if_pos h]
  exact run_bind_of_error hwrite

/-- After a file is written, the rest is written to the files there are then. -/
theorem run_writeManifest_of_written (h : Path.isInside f.path = true)
    (hwrite : (writeBytes (Path.join directory f.path) f.content.toUTF8).run.run t = (.ok (), t')) :
    (writeManifest directory (f :: rest)).run.run t =
      (((writeManifest directory rest).run.run t').1.map (Path.join directory f.path :: ·),
        ((writeManifest directory rest).run.run t').2) := by
  rw [writeManifest, if_pos h]
  refine (run_bind_of_ok hwrite).trans ?_
  rcases hrest : (writeManifest directory rest).run.run t' with ⟨result, left⟩
  cases result with
  | error e => exact run_bind_of_error hrest
  | ok paths => exact run_bind_of_ok hrest

/-- What the writing of some files can come to. -/
inductive ManifestRun (directory : String) :
    FileTree → List OutputFile → Except OutputError (List String) → FileTree → Prop
  | nil {t : FileTree} : ManifestRun directory t [] (.ok []) t
  | refused {t : FileTree} {f : OutputFile} {rest : List OutputFile} :
      Path.isInside f.path = false →
      ManifestRun directory t (f :: rest) (.error (.invalidPath f.path)) t
  | failed {t t' : FileTree} {f : OutputFile} {rest : List OutputFile} {e : OutputError} :
      Path.isInside f.path = true →
      Written (Path.join directory f.path) f.content.toUTF8 t (.error e) t' →
      ManifestRun directory t (f :: rest) (.error e) t'
  | next {t t' t'' : FileTree} {f : OutputFile} {rest : List OutputFile}
      {result : Except OutputError (List String)} :
      Path.isInside f.path = true →
      Written (Path.join directory f.path) f.content.toUTF8 t (.ok ()) t' →
      ManifestRun directory t' rest result t'' →
      ManifestRun directory t (f :: rest) (result.map (Path.join directory f.path :: ·)) t''

theorem manifestRun_writeManifest (directory : String) (files : List OutputFile) (t : FileTree) :
    ManifestRun directory t files ((writeManifest directory files).run.run t).1
      ((writeManifest directory files).run.run t).2 := by
  induction files generalizing t with
  | nil => exact .nil
  | cons f rest ih =>
    cases hinside : Path.isInside f.path with
    | false =>
      rw [run_writeManifest_of_refused hinside]
      exact .refused hinside
    | true =>
      have hwritten := written_writeBytes (Path.join directory f.path) f.content.toUTF8 t
      rcases hwrite : (writeBytes (Path.join directory f.path) f.content.toUTF8).run.run t with
        ⟨result, t'⟩
      rw [hwrite] at hwritten
      cases result with
      | error e =>
        rw [run_writeManifest_of_failed hinside hwrite]
        exact .failed hinside hwritten
      | ok _ =>
        rw [run_writeManifest_of_written hinside hwrite]
        exact .next hinside hwritten (ih t')

/-! ### The places that are written -/

theorem Written.later {result : Except OutputError Unit} (h : Written path content t result t') :
    t.Later t' := by
  cases h with
  | nothing hsame => exact hsame.toLater
  | leftBeside _ hlater _ => exact hlater
  | done _ hlater _ _ _ => exact hlater

/-- The places that the writing of a file of a manifest has to do with: its own, and that of the
temporary file beside it. -/
def OutputFile.Touches (f : OutputFile) (t : FileTree) (directory : String) (place : Place) :
    Prop :=
  place = t.placeOf (Path.join directory f.path) ∨
    ∃ temporary, Path.beside? (Path.join directory f.path) ".tmp" = some temporary ∧
      place = t.placeOf temporary

theorem FileTree.Later.touches_iff (h : t.Later t') :
    f.Touches t' directory place ↔ f.Touches t directory place := by
  simp only [OutputFile.Touches, h.placeOf]

theorem OutputFile.not_touches_iff : ¬f.Touches t directory place ↔
    place ≠ t.placeOf (Path.join directory f.path) ∧
      ∀ temporary, Path.beside? (Path.join directory f.path) ".tmp" = some temporary →
        place ≠ t.placeOf temporary := by
  simp [OutputFile.Touches]

/-- A write changes no file but that of the path and the temporary one beside it. -/
theorem Written.fileAt?_eq {result : Except OutputError Unit}
    (h : Written (Path.join directory f.path) content t result t')
    (hother : ¬f.Touches t directory place) : t'.fileAt? place = t.fileAt? place := by
  obtain ⟨hplace, hbeside⟩ := OutputFile.not_touches_iff.1 hother
  cases h with
  | nothing hsame => rw [hsame.fileAt?]
  | leftBeside htemporary _ hfiles =>
    rw [hfiles, Function.update_of_ne (hbeside _ htemporary)]
  | done htemporary _ _ _ hfiles =>
    rw [hfiles, Function.update_of_ne hplace, Function.update_of_ne (hbeside _ htemporary)]

/-- The file at a place after a write is the written one, or one from before that the write leaves
alone. -/
theorem Written.fileAt?_eq_some_iff {bytes : ByteArray}
    (h : Written (Path.join directory f.path) content t (.ok ()) t') :
    t'.fileAt? place = some bytes ↔
      (place = t.placeOf (Path.join directory f.path) ∧ content = bytes) ∨
        (t.fileAt? place = some bytes ∧ ¬f.Touches t directory place) := by
  by_cases hother : f.Touches t directory place
  · cases h with
    | @done temporary _ htemporary _ _ _ hfiles =>
      rw [hfiles, Function.update_apply, Function.update_apply]
      by_cases hplace : place = t.placeOf (Path.join directory f.path)
      · simp [hplace, hplace ▸ hother]
      · obtain ⟨temporary', htemporary', hbeside⟩ := hother.resolve_left hplace
        cases htemporary.symm.trans htemporary'
        simp [hbeside, hbeside ▸ hother]
  · have hplace := (OutputFile.not_touches_iff.1 hother).1
    simp [h.fileAt?_eq hother, hother, hplace]

/-- Of some files, the last one that came to a place has these bytes, and no file after it has to do
with the place. -/
def LastAt (t : FileTree) (directory : String) (files : List OutputFile) (place : Place)
    (bytes : ByteArray) : Prop :=
  ∃ before f after, files = before ++ f :: after ∧
    place = t.placeOf (Path.join directory f.path) ∧ f.content.toUTF8 = bytes ∧
    ∀ k ∈ after, ¬k.Touches t directory place

theorem lastAt_cons_iff {bytes : ByteArray} : LastAt t directory (f :: rest) place bytes ↔
    (place = t.placeOf (Path.join directory f.path) ∧ f.content.toUTF8 = bytes ∧
      ∀ k ∈ rest, ¬k.Touches t directory place) ∨ LastAt t directory rest place bytes := by
  constructor
  · rintro ⟨_ | ⟨first, before⟩, g, after, hsplit, hplace, hcontent, hafter⟩
    · cases hsplit
      exact .inl ⟨hplace, hcontent, hafter⟩
    · cases hsplit
      exact .inr ⟨before, g, after, rfl, hplace, hcontent, hafter⟩
  · rintro (⟨hplace, hcontent, hrest⟩ | ⟨before, g, after, rfl, hplace, hcontent, hafter⟩)
    · exact ⟨[], f, rest, rfl, hplace, hcontent, hrest⟩
    · exact ⟨f :: before, g, after, rfl, hplace, hcontent, hafter⟩

theorem FileTree.Later.lastAt_iff {bytes : ByteArray} (h : t.Later t') :
    LastAt t' directory files place bytes ↔ LastAt t directory files place bytes := by
  simp only [LastAt, h.placeOf, h.touches_iff]

/-- The empty path is never written to: with a directory before it, it can only mean the directory.
-/
theorem Written.ne_empty (h : Written (Path.join directory path) content t (.ok ()) t') :
    path ≠ "" := by
  rintro rfl
  cases h with
  | done htemporary _ _ hplain _ =>
    by_cases hdirectory : directory = ""
    · rw [hdirectory] at htemporary
      cases htemporary
    · rw [Path.endsInDirectory_join_empty hdirectory] at hplain
      cases hplain

namespace ManifestRun
variable {result : Except OutputError (List String)}

theorem later (h : ManifestRun directory t files result t') : t.Later t' := by
  induction h with
  | nil => exact .refl _
  | refused _ => exact .refl _
  | failed _ hwritten => exact hwritten.later
  | next _ hwritten _ ih => exact hwritten.later.trans ih

/-- The writing of some files leaves the files at all other places alone, whatever it comes to. -/
theorem fileAt?_eq (h : ManifestRun directory t files result t')
    (hother : ∀ f ∈ files, ¬f.Touches t directory place) :
    t'.fileAt? place = t.fileAt? place := by
  induction h with
  | nil => rfl
  | refused _ => rfl
  | failed _ hwritten => exact hwritten.fileAt?_eq (hother _ List.mem_cons_self)
  | next _ hwritten _ ih =>
    obtain ⟨hfirst, hrest⟩ := List.forall_mem_cons.1 hother
    rw [ih fun f hf => mt hwritten.later.touches_iff.1 (hrest f hf)]
    exact hwritten.fileAt?_eq hfirst

/-- The file at a place after all files are written is that of the last file that came to the place,
or one from before that none of them has to do with. -/
theorem fileAt?_eq_some_iff {bytes : ByteArray} {paths : List String}
    (h : ManifestRun directory t files (.ok paths) t') :
    t'.fileAt? place = some bytes ↔ LastAt t directory files place bytes ∨
      (t.fileAt? place = some bytes ∧ ∀ k ∈ files, ¬k.Touches t directory place) := by
  generalize hresult : Except.ok paths = result at h
  induction h generalizing paths with
  | nil => simp [LastAt]
  | refused _ => cases hresult
  | failed _ _ => cases hresult
  | next _ hwritten _ ih =>
    obtain ⟨others, hothers, -⟩ := map_eq_ok_iff.1 hresult.symm
    -- The rest is written in another tree, but the paths lead to the same places there.
    have hlater := hwritten.later
    rw [ih hothers.symm, hwritten.fileAt?_eq_some_iff, hlater.lastAt_iff, lastAt_cons_iff,
      List.forall_mem_cons]
    simp only [hlater.touches_iff, or_and_right, and_assoc, or_assoc]
    exact or_left_comm

/-- Every file of a manifest that is written has a path of names, one or more, which leads to it. -/
theorem of_mem {paths : List String} (h : ManifestRun directory t files (.ok paths) t')
    (hf : f ∈ files) : Path.isInside f.path = true ∧ f.path ≠ "" ∧
      t'.place? (Path.join directory f.path) = some (t.placeOf (Path.join directory f.path)) ∧
      Path.endsInDirectory (Path.join directory f.path) = false := by
  generalize hresult : Except.ok paths = result at h
  induction h generalizing paths with
  | nil => cases hf
  | refused _ => cases hresult
  | failed _ _ => cases hresult
  | @next t t' t'' g rest result hinside hwritten hrun ih =>
    obtain ⟨others, hothers, -⟩ := map_eq_ok_iff.1 hresult.symm
    rcases List.mem_cons.1 hf with rfl | hf
    · have hne := hwritten.ne_empty
      cases hwritten with
      | done _ _ hplace hplain _ => exact ⟨hinside, hne, hrun.later.place? hplace, hplain⟩
    · rw [← hwritten.later.placeOf]
      exact ih hf hothers.symm

end ManifestRun

/-! ### The places of a file -/

/-- Names from a directory lead to a place below that of the directory. -/
theorem FileTree.placeOf_join (t : FileTree) (directory : String) {names : List String}
    (h : Path.components path = names.map .name) :
    t.placeOf (Path.join directory path) = t.placeOf directory ++ names := by
  rw [placeOf, Path.components_join (Path.isInside_iff.2 ⟨names, h⟩), h, List.foldl_append,
    foldl_placeBehind_names]
  rfl

/-- A file is written where its last name leads, and its temporary file where that name with `.tmp`
behind does. -/
theorem OutputFile.touches_iff_of_components {steps : List Path.Component} {n : String}
    (h : Path.components (Path.join directory f.path) = steps ++ [.name n]) :
    f.Touches t directory place ↔
      place = steps.foldl FileTree.placeBehind t.workingDirectory ++ [n] ∨
        place = steps.foldl FileTree.placeBehind t.workingDirectory ++ [n ++ ".tmp"] := by
  obtain ⟨temporary, hbeside, htemporary⟩ := Path.exists_beside h
  rw [Touches, t.placeOf_concat h, hbeside, ← t.placeOf_concat htemporary]
  refine or_congr_right ⟨?_, fun hplace => ⟨temporary, rfl, hplace⟩⟩
  rintro ⟨_, ⟨⟩, hplace⟩
  exact hplace

theorem OutputFile.touches_iff_of_names {names : List String} {n : String}
    (h : Path.components f.path = (names ++ [n]).map .name) :
    f.Touches t directory place ↔ place = t.placeOf directory ++ (names ++ [n]) ∨
      place = t.placeOf directory ++ (names ++ [n ++ ".tmp"]) := by
  have hsteps : Path.components (Path.join directory f.path) =
      (Path.components directory ++ names.map .name) ++ [.name n] := by
    rw [Path.components_join (Path.isInside_iff.2 ⟨_, h⟩), h, List.map_append, List.append_assoc]
    rfl
  rw [touches_iff_of_components hsteps, List.foldl_append, FileTree.foldl_placeBehind_names,
    List.append_assoc, List.append_assoc]
  rfl

end ConfigTables
