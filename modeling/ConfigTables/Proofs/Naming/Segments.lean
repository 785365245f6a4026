import ConfigTables.Emit.Wrapper.Names
import ConfigTables.Proofs.Files.Steps
import ConfigTables.Proofs.Naming.Spelling
import Mathlib.Data.List.Infix

/-!
    Full names in snake case, segment by segment. A segment has single underscores only and none at
    its end, so two underscores in a row show where it ends, as a slash does. Two full names have one
    module exactly when they have one path, and exactly when their segments are the same. -/

namespace ConfigTables

/-- Texts that two underscores can separate: without two in a row, and without one at the end. -/
structure Parted (text : List Char) : Prop where
  single : ¬['_', '_'] <:+: text
  last : text.getLast? ≠ some '_'

/-! ### Words of a segment -/

/-- An underscore behind a word and before something else stands alone. -/
theorem not_infix_append {w rest : List Char} (hw : '_' ∉ w) (hhead : rest.head? ≠ some '_')
    (hrest : ¬['_', '_'] <:+: rest) : ¬['_', '_'] <:+: w ++ '_' :: rest := by
  induction w with
  | nil =>
    rw [List.nil_append, List.infix_cons_iff, List.cons_prefix_cons, not_or]
    refine ⟨?_, hrest⟩
    rintro ⟨_, others, rfl⟩
    exact hhead rfl
  | cons c w ih =>
    rw [List.mem_cons, not_or] at hw
    rw [List.cons_append, List.infix_cons_iff, List.cons_prefix_cons, not_or]
    exact ⟨fun hbegin => hw.1 hbegin.1, ih hw.2⟩

section
variable {words : List (List Char)}

/-- Separated words do not begin with an underscore. -/
theorem Separable.head?_intercalate (h : Separable words) :
    (['_'].intercalate words).head? ≠ some '_' := by
  cases words with
  | nil => simp
  | cons w rest =>
    obtain ⟨hne, hw⟩ := h w List.mem_cons_self
    obtain ⟨c, w, rfl⟩ := List.exists_cons_of_ne_nil hne
    have hhead : (['_'].intercalate ((c :: w) :: rest)).head? = some c := by
      cases rest with
      | nil => rw [List.intercalate_singleton]; rfl
      | cons next rest => rw [List.intercalate_cons_cons]; rfl
    rw [hhead]
    rintro ⟨⟩
    exact hw List.mem_cons_self

/-- Separated words stand single underscores apart. -/
theorem Separable.parted (h : Separable words) : Parted (['_'].intercalate words) := by
  refine ⟨?_, h.getLast?_intercalate⟩
  induction words with
  | nil => simp
  | cons w rest ih =>
    obtain ⟨⟨_, hw⟩, hrest⟩ := List.forall_mem_cons.1 h
    cases rest with
    | nil =>
      rw [List.intercalate_singleton]
      exact fun hpair => hw (hpair.subset List.mem_cons_self)
    | cons next rest =>
      rw [List.intercalate_cons_cons, List.append_assoc, List.singleton_append]
      exact not_infix_append hw (Separable.head?_intercalate hrest) (ih hrest)

end

/-! ### Segments of a text -/

namespace Parted
variable {w w' R R' : List Char} {l l' : List (List Char)}

/-- The first two underscores in a row show where a parted text ends. -/
theorem append_inj (hw : Parted w) (hw' : Parted w')
    (h : w ++ ('_' :: '_' :: R) = w' ++ ('_' :: '_' :: R')) : w = w' ∧ R = R' := by
  -- What a text has more than the other one would begin with an underscore.
  have hcut : ∀ {more S S' : List Char} {v : List Char}, Parted (v ++ more) →
      '_' :: '_' :: S = more ++ '_' :: '_' :: S' → more = [] := by
    intro more S S' v hparted heq
    rcases more with _ | ⟨c, _ | ⟨d, more⟩⟩
    · rfl
    · cases heq
      exact absurd List.getLast?_concat hparted.last
    · cases heq
      exact absurd ⟨v, more, by simp⟩ hparted.single
  have hsame : w = w' := by
    rcases List.append_eq_append_iff.1 h with ⟨more, rfl, hmore⟩ | ⟨more, rfl, hmore⟩
    · rw [hcut hw' hmore, List.append_nil]
    · rw [hcut hw hmore, List.append_nil]
  subst hsame
  cases List.append_cancel_left h
  exact ⟨rfl, rfl⟩

theorem ne_append (hw : Parted w) : w ≠ w' ++ ('_' :: '_' :: R) := by
  rintro rfl
  exact hw.single ⟨w', R, by simp⟩

/-- Parted texts with two underscores between them can be told from each other. -/
theorem intercalate_eq_iff (hl : ∀ w ∈ l, Parted w) (hl' : ∀ w ∈ l', Parted w) (hne : l ≠ [])
    (hne' : l' ≠ []) : ['_', '_'].intercalate l = ['_', '_'].intercalate l' ↔ l = l' := by
  refine ⟨fun h => ?_, fun h => by rw [h]⟩
  induction l generalizing l' with
  | nil => exact absurd rfl hne
  | cons w rest ih =>
    obtain ⟨w', rest', rfl⟩ := List.exists_cons_of_ne_nil hne'
    obtain ⟨hw, hrest⟩ := List.forall_mem_cons.1 hl
    obtain ⟨hw', hrest'⟩ := List.forall_mem_cons.1 hl'
    cases rest with
    | nil =>
      cases rest' with
      | nil => simpa using h
      | cons next' rest' =>
        rw [List.intercalate_singleton, List.intercalate_cons_cons, List.append_assoc] at h
        exact absurd h hw.ne_append
    | cons next rest =>
      cases rest' with
      | nil =>
        rw [List.intercalate_singleton, List.intercalate_cons_cons, List.append_assoc] at h
        exact absurd h.symm hw'.ne_append
      | cons next' rest' =>
        rw [List.intercalate_cons_cons, List.intercalate_cons_cons, List.append_assoc,
          List.append_assoc] at h
        obtain ⟨rfl, htail⟩ := hw.append_inj hw' h
        rw [ih hrest hrest' (List.cons_ne_nil _ _) (List.cons_ne_nil _ _) htail]

end Parted

/-! ### Full names -/

/-- The segments of a full name in snake case. -/
def snakeSegments (fullName : String) : List String :=
  (dotted fullName).map Convention.snake.apply

section
variable {fullName a b : String}

theorem dotted_ne_nil (fullName : String) : dotted fullName ≠ [] :=
  mt List.map_eq_nil_iff.1 (List.splitOn_ne_nil _ _)

theorem snakeSegments_ne_nil (fullName : String) : snakeSegments fullName ≠ [] :=
  mt List.map_eq_nil_iff.1 (dotted_ne_nil fullName)

/-- A name without a dot is its only segment. -/
theorem dotted_of_not_mem (h : '.' ∉ fullName.toList) : dotted fullName = [fullName] := by
  rw [dotted, List.splitOn_eq_singleton h, List.map_singleton, String.ofList_toList]

theorem exists_dotted_of_mem (h : '.' ∈ fullName.toList) :
    ∃ first second rest, dotted fullName = first :: second :: rest := by
  have htext : ['.'].intercalate (fullName.toList.splitOn '.') = fullName.toList :=
    List.intercalate_splitOn '.'
  have hdot : ∀ piece ∈ fullName.toList.splitOn '.', '.' ∉ piece :=
    fun piece => not_mem_of_mem_splitOn
  rw [dotted]
  rcases hpieces : fullName.toList.splitOn '.' with _ | ⟨first, _ | ⟨second, rest⟩⟩
  · exact absurd hpieces (List.splitOn_ne_nil _ _)
  · rw [hpieces] at htext hdot
    rw [List.intercalate_singleton] at htext
    exact absurd (htext ▸ h) (hdot first List.mem_cons_self)
  · exact ⟨_, _, _, rfl⟩

theorem parted_snake (name : String) : Parted (Convention.snake.apply name).toList := by
  rw [Convention.toList_snake]
  exact (separable_smallWords name).parted

theorem parted_of_mem_snakeSegments (fullName : String) :
    ∀ w ∈ (snakeSegments fullName).map String.toList, Parted w := by
  rw [snakeSegments, List.map_map]
  exact List.forall_mem_map.2 fun name _ => parted_snake name

theorem toList_fileStem (fullName : String) :
    (fileStem fullName).toList = ['/'].intercalate ((snakeSegments fullName).map String.toList) :=
  String.toList_intercalate

theorem slash_not_mem_snakeSegments (fullName : String) :
    ∀ w ∈ (snakeSegments fullName).map String.toList, '/' ∉ w := by
  rw [snakeSegments, List.map_map]
  exact List.forall_mem_map.2 fun name _ =>
    Convention.not_mem_snake (by decide) (by decide) (by decide) name

/-- In the path of a full name are no signs but slashes and underscores, at least none with a number
up to that of the underscore. -/
theorem not_mem_fileStem {c : Char} (hletter : Text.isAlphanumeric c = false) (hslash : c ≠ '/')
    (hunderscore : c.toNat < '_'.toNat) (hzero : c ≠ '\x00') (fullName : String) :
    c ∉ (fileStem fullName).toList := by
  rw [fileStem, String.toList_intercalate]
  refine not_mem_intercalate (by simpa using hslash) ?_
  rw [List.map_map]
  exact List.forall_mem_map.2 fun name _ =>
    Convention.not_mem_snake hletter hunderscore hzero name

/-- The segments of a full name are those of its path. -/
theorem segments_fileStem (fullName : String) :
    Path.segments (fileStem fullName) = (snakeSegments fullName).map String.toList := by
  rw [Path.segments, toList_fileStem]
  exact List.splitOn_intercalate '/' (slash_not_mem_snakeSegments fullName)
    (mt List.map_eq_nil_iff.1 (snakeSegments_ne_nil fullName))

theorem map_toList_inj {l l' : List String} : l.map String.toList = l'.map String.toList ↔ l = l' :=
  (List.map_injective_iff.2 fun _ _ => String.toList_inj.1).eq_iff

/-- Two full names have one path exactly when their segments are the same. -/
theorem fileStem_eq_iff : fileStem a = fileStem b ↔ snakeSegments a = snakeSegments b := by
  refine ⟨fun h => map_toList_inj.1 ?_, fun h => congrArg "/".intercalate h⟩
  rw [← segments_fileStem, h, segments_fileStem]

namespace Wrapper.Names

theorem toList_moduleIdent (fullName : String) : (moduleIdent fullName).toList =
    ['_', '_'].intercalate ((snakeSegments fullName).map String.toList) :=
  String.toList_intercalate

/-- Two full names have one module exactly when their segments are the same. -/
theorem moduleIdent_eq_iff : moduleIdent a = moduleIdent b ↔ snakeSegments a = snakeSegments b := by
  rw [← String.toList_inj, toList_moduleIdent, toList_moduleIdent, ← map_toList_inj]
  exact Parted.intercalate_eq_iff (parted_of_mem_snakeSegments a) (parted_of_mem_snakeSegments b)
    (mt List.map_eq_nil_iff.1 (snakeSegments_ne_nil a))
    (mt List.map_eq_nil_iff.1 (snakeSegments_ne_nil b))

/-- The module of a full name does not look like a word with an underscore behind. -/
theorem moduleIdent_ne_append {word : String} (hword : '_' ∉ word.toList) (fullName : String) :
    moduleIdent fullName ≠ word ++ "_" := by
  have hparted := parted_of_mem_snakeSegments fullName
  intro h
  have htext := toList_moduleIdent fullName
  rw [h, String.toList_append] at htext
  rcases hsegments : (snakeSegments fullName).map String.toList with _ | ⟨s, _ | ⟨s', rest⟩⟩
  · exact snakeSegments_ne_nil fullName (List.map_eq_nil_iff.1 hsegments)
  · rw [hsegments, List.intercalate_singleton] at htext
    rw [hsegments, List.forall_mem_singleton, ← htext] at hparted
    exact hparted.last List.getLast?_concat
  · rw [hsegments, List.intercalate_cons_cons, List.append_assoc] at htext
    have hsingle : ¬['_', '_'] <:+: word.toList ++ '_' :: [] :=
      not_infix_append hword (by simp) (by simp)
    exact hsingle ⟨s, _, (List.append_assoc ..).trans htext.symm⟩

/-- The module of a full name is a word exactly when the name has no dot and is that word. -/
theorem moduleIdent_eq_word_iff {word : String} (hne : word ≠ "") (hword : '_' ∉ word.toList) :
    moduleIdent fullName = word ↔ '.' ∉ fullName.toList ∧ smallWords fullName = [word.toList] := by
  by_cases hdot : '.' ∈ fullName.toList
  · obtain ⟨first, second, rest, hdotted⟩ := exists_dotted_of_mem hdot
    refine iff_of_false (fun h => hword ?_) fun h => h.1 hdot
    rw [← h, toList_moduleIdent, snakeSegments, hdotted, List.map_cons, List.map_cons,
      List.map_cons, List.map_cons, List.intercalate_cons_cons]
    simp
  · rw [moduleIdent, dotted_of_not_mem hdot, List.map_singleton, String.intercalate_singleton,
      ← String.toList_inj, Convention.toList_snake, and_iff_right hdot]
    have hseparable : Separable [word.toList] :=
      List.forall_mem_singleton.2 ⟨mt String.toList_eq_nil_iff.1 hne, hword⟩
    rw [← (separable_smallWords fullName).intercalate_eq_iff hseparable,
      List.intercalate_singleton]

end Wrapper.Names

/-! ### Modules and paths -/

namespace Wrapper

/-- A path with two underscores for each slash. -/
def flatPath (path : String) : String :=
  String.ofList (path.toList.flatMap fun c => if c = '/' then ['_', '_'] else [c])

/-- The module of a full name is called after its path. -/
theorem Names.moduleIdent_eq_flatPath (fullName : String) :
    moduleIdent fullName = flatPath (fileStem fullName) := by
  have hkept : ∀ w ∈ (snakeSegments fullName).map String.toList,
      w.flatMap (fun c => if c = '/' then ['_', '_'] else [c]) = w := by
    intro w hw
    have hchars : ∀ c ∈ w, (if c = '/' then ['_', '_'] else [c]) = [c] := by
      intro c hc
      rw [if_neg]
      rintro rfl
      exact slash_not_mem_snakeSegments fullName w hw hc
    rw [List.flatMap_congr hchars, List.flatMap_singleton']
  rw [← String.toList_inj, toList_moduleIdent, flatPath, String.toList_ofList, toList_fileStem,
    flatMap_intercalate, List.map_congr_left hkept, List.map_id']
  rfl

end Wrapper

end

end ConfigTables
