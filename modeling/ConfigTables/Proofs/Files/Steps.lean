import ConfigTables.Files.Path
import ConfigTables.Proofs.Lists
import Mathlib.Data.List.DropRight

/-!
    The steps of paths that are put together. A path of names, taken from a directory, has the steps
    of the directory and then its own ones; the file beside a path has its steps but for the last
    one. So a path of one name or more stays below the directory that it is taken from, and so does
    the file beside it. -/

namespace ConfigTables.Path
variable {path directory n : String} {first : List Char} {rest : List (List Char)}

/-! ### Texts between slashes -/

theorem segments_ne_nil (path : String) : segments path ≠ [] := List.splitOn_ne_nil _ _

theorem exists_segments (path : String) : ∃ first rest, segments path = first :: rest :=
  List.exists_cons_of_ne_nil (segments_ne_nil path)

theorem slash_not_mem {segment : List Char} (h : segment ∈ segments path) : '/' ∉ segment :=
  not_mem_of_mem_splitOn h

theorem intercalate_segments (path : String) : ['/'].intercalate (segments path) = path.toList :=
  List.intercalate_splitOn '/'

/-- A path starts at the root when a slash is the first thing in it. -/
theorem isAbsolute_iff (h : segments path = first :: rest) :
    isAbsolute path = true ↔ first = [] ∧ rest ≠ [] := by
  have hfirst : '/' ∉ first := slash_not_mem (h ▸ List.mem_cons_self)
  have htext := intercalate_segments path
  rw [h] at htext
  rw [isAbsolute, decide_eq_true_iff, ← htext]
  cases first with
  | nil => cases rest <;> simp [List.intercalate_cons_cons]
  | cons c first =>
    have hc : c ≠ '/' := fun hc => hfirst (hc ▸ List.mem_cons_self)
    cases rest <;> simp [List.intercalate_cons_cons, hc]

/-! ### Steps -/

theorem parts_eq (h : segments path = first :: rest) :
    parts path = ⟨first, firstStep (isAbsolute path) first⟩ ::
      rest.map fun segment => ⟨segment, stepOf segment⟩ := by
  rw [parts, h]

theorem components_eq (h : segments path = first :: rest) :
    components path = (firstStep (isAbsolute path) first).toList ++ rest.filterMap stepOf := by
  rw [components, parts_eq h, List.filterMap_cons, List.filterMap_map]
  cases firstStep (isAbsolute path) first <;> rfl

/-- A path of names has no special first step. -/
theorem of_isInside (h : isInside path = true) :
    isAbsolute path = false ∧ components path = (segments path).filterMap stepOf := by
  obtain ⟨first, rest, hsegments⟩ := exists_segments path
  have hnames : ∀ step ∈ components path, ∃ n, step = .name n := by
    intro step hstep
    have hname := List.all_eq_true.1 h step hstep
    cases step <;> simp_all
  rw [components_eq hsegments] at hnames ⊢
  have hnot : ∀ step, firstStep (isAbsolute path) first = some step → ∃ n, step = .name n :=
    fun step hstep => hnames step (by simp [hstep])
  unfold firstStep at hnot ⊢
  cases habsolute : isAbsolute path with
  | true => simp [habsolute] at hnot
  | false =>
    by_cases hdot : first = ['.']
    · simp [habsolute, hdot] at hnot
    · rw [hsegments, List.filterMap_cons]
      simp only [hdot, Bool.false_eq_true, if_false, true_and]
      cases stepOf first <;> rfl

theorem name_injective : Function.Injective Component.name := fun _ _ h => Component.name.inj h

theorem isInside_iff :
    isInside path = true ↔ ∃ names : List String, components path = names.map .name := by
  rw [isInside]
  generalize components path = steps
  rw [List.all_eq_true]
  constructor
  · intro h
    induction steps with
    | nil => exact ⟨[], rfl⟩
    | cons step steps ih =>
      obtain ⟨hstep, hsteps⟩ := List.forall_mem_cons.1 h
      obtain ⟨names, rfl⟩ := ih hsteps
      cases step with
      | name n => exact ⟨n :: names, rfl⟩
      | root => cases hstep
      | current => cases hstep
      | parent => cases hstep
  · rintro ⟨names, h⟩ step hstep
    obtain ⟨n, -, rfl⟩ := List.mem_map.1 (h ▸ hstep)
    rfl

/-- The empty path is the only path of names without a step. -/
theorem components_eq_nil_iff (h : isInside path = true) : components path = [] ↔ path = "" := by
  refine ⟨fun hnone => ?_, by rintro rfl; rfl⟩
  obtain ⟨first, rest, hsegments⟩ := exists_segments path
  obtain ⟨hrelative, hsteps⟩ := of_isInside h
  rw [hsteps, hsegments, List.filterMap_eq_nil_iff] at hnone
  have hfirst : stepOf first = none := hnone first List.mem_cons_self
  have hdot : first ≠ ['.'] := by
    rintro rfl
    rw [isInside, components_eq hsegments, hrelative] at h
    simp [firstStep] at h
  have hempty : first = [] := by
    unfold stepOf at hfirst
    by_contra hne
    simp only [hne, hdot, decide_false, Bool.or_self, Bool.false_eq_true, if_false] at hfirst
    split at hfirst <;> cases hfirst
  have hrest : rest = [] := by
    by_contra hne
    rw [(isAbsolute_iff hsegments).2 ⟨hempty, hne⟩] at hrelative
    cases hrelative
  have htext := intercalate_segments path
  rw [hsegments, hempty, hrest] at htext
  exact String.toList_eq_nil_iff.1 htext.symm

/-- A path of names ends in a name, unless it is empty. -/
theorem exists_names (h : isInside path = true) (hne : path ≠ "") :
    ∃ names n, components path = (names ++ [n]).map .name := by
  obtain ⟨names, hnames⟩ := isInside_iff.1 h
  have hnil : names ≠ [] := by
    rintro rfl
    exact hne ((components_eq_nil_iff h).1 hnames)
  obtain ⟨first, n, rfl⟩ := (List.eq_nil_or_concat names).resolve_left hnil
  exact ⟨first, n, by rw [hnames, List.concat_eq_append]⟩

/-- A text that is a step of its own between slashes. -/
structure IsName (n : String) : Prop where
  nonempty : n ≠ ""
  current : n ≠ "."
  parent : n ≠ ".."
  slash : '/' ∉ n.toList

theorem IsName.toList_ne (h : IsName n) :
    n.toList ≠ [] ∧ n.toList ≠ ['.'] ∧ n.toList ≠ ['.', '.'] :=
  ⟨fun htext => h.nonempty (String.toList_inj.1 htext),
    fun htext => h.current (String.toList_inj.1 htext),
    fun htext => h.parent (String.toList_inj.1 htext)⟩

theorem IsName.stepOf (h : IsName n) : stepOf n.toList = some (.name n) := by
  obtain ⟨hnonempty, hcurrent, hparent⟩ := h.toList_ne
  unfold Path.stepOf
  rw [if_neg (by simp [hnonempty, hcurrent]), if_neg hparent, String.ofList_toList]

/-- Names with slashes between them are the steps of a path. -/
theorem components_intercalate {names : List String} (hne : names ≠ [])
    (h : ∀ n ∈ names, IsName n) : components ("/".intercalate names) = names.map .name := by
  obtain ⟨first, rest, rfl⟩ := List.exists_cons_of_ne_nil hne
  obtain ⟨hfirst, hrest⟩ := List.forall_mem_cons.1 h
  have hsegments : segments ("/".intercalate (first :: rest)) =
      first.toList :: rest.map String.toList := by
    rw [segments, String.toList_intercalate]
    exact List.splitOn_intercalate '/' (List.forall_mem_map.2 fun n hn => (h n hn).slash)
      (List.cons_ne_nil _ _)
  have hrelative : isAbsolute ("/".intercalate (first :: rest)) = false := by
    rw [← Bool.not_eq_true, isAbsolute_iff hsegments]
    exact fun habsolute => hfirst.toList_ne.1 habsolute.1
  have hsteps : (rest.map String.toList).filterMap stepOf = rest.map .name := by
    rw [List.filterMap_map, ← List.filterMap_eq_map]
    exact List.filterMap_congr fun n hn => (hrest n hn).stepOf
  rw [components_eq hsegments, firstStep, hrelative, if_neg Bool.false_ne_true,
    if_neg hfirst.toList_ne.2.1, hfirst.stepOf, hsteps]
  rfl

theorem IsName.of_long (hslash : '/' ∉ n.toList) (hlong : 2 < n.toList.length) : IsName n := by
  have hshort : ∀ text : String, text.toList.length ≤ 2 → n ≠ text := by
    rintro _ htext rfl
    omega
  exact ⟨hshort "" (by decide), hshort "." (by decide), hshort ".." (by decide), hslash⟩

theorem isInside_intercalate {names : List String} (hne : names ≠ []) (h : ∀ n ∈ names, IsName n) :
    isInside ("/".intercalate names) = true :=
  isInside_iff.2 ⟨names, components_intercalate hne h⟩

/-- The step of a name. -/
theorem components_name (h : IsName n) : isInside n = true ∧ components n = [.name n] := by
  have hcomponents : components ("/".intercalate [n]) = [.name n] :=
    components_intercalate (List.cons_ne_nil _ _) (List.forall_mem_singleton.2 h)
  rw [String.intercalate_singleton] at hcomponents
  exact ⟨isInside_iff.2 ⟨[n], hcomponents⟩, hcomponents⟩

/-! ### Paths from a directory -/

theorem isAbsolute_append (hne : directory ≠ "") (text : String) :
    isAbsolute (directory ++ text) = isAbsolute directory := by
  obtain ⟨c, cs, hcs⟩ := List.exists_cons_of_ne_nil (mt String.toList_eq_nil_iff.1 hne)
  rw [isAbsolute, isAbsolute, String.toList_append, hcs]
  rfl

/-- Texts put behind those of a directory give their steps behind its steps. -/
theorem components_of_segments {joined : String} {before behind : List (List Char)}
    (h : isInside path = true) (hdirectory : segments directory = first :: (before ++ behind))
    (hbehind : behind.filterMap stepOf = [])
    (hjoined : segments joined = first :: (before ++ segments path))
    (hroot : isAbsolute joined = isAbsolute directory) :
    components joined = components directory ++ components path := by
  rw [components_eq hjoined, components_eq hdirectory, hroot, (of_isInside h).2,
    List.filterMap_append, List.filterMap_append, hbehind, List.append_nil, List.append_assoc]

/-- A path of names from a directory has the steps of the directory and then its own. -/
theorem components_join (h : isInside path = true) :
    components (join directory path) = components directory ++ components path := by
  unfold join
  rw [if_neg (by simp [(of_isInside h).1])]
  by_cases hempty : directory = ""
  · subst hempty
    simp only [decide_true, Bool.true_or, if_true, String.empty_append]
    rfl
  · split
    · rename_i hslash
      obtain ⟨text, htext⟩ : ∃ text, directory.toList = text ++ ['/'] := by
        simp only [hempty, decide_false, Bool.false_or, decide_eq_true_eq] at hslash
        exact List.getLast?_eq_some_iff.1 hslash
      obtain ⟨first, before, hsplit⟩ :=
        List.exists_cons_of_ne_nil (List.splitOn_ne_nil '/' text)
      have hdirectory : segments directory = first :: (before ++ [[]]) := by
        rw [segments, htext, List.splitOn_append_cons_self, hsplit]
        rfl
      refine components_of_segments h hdirectory rfl ?_ (isAbsolute_append hempty path)
      rw [segments, String.toList_append, htext, List.append_assoc, List.singleton_append,
        List.splitOn_append_cons_self, hsplit]
      rfl
    · obtain ⟨first, rest, hsegments⟩ := exists_segments directory
      have hdirectory : segments directory = first :: (rest ++ []) := by
        rw [hsegments, List.append_nil]
      refine components_of_segments h hdirectory rfl ?_ ?_
      · rw [segments, String.toList_append, String.toList_append, List.append_assoc]
        refine (List.splitOn_append_cons_self _ _).trans ?_
        exact congrArg (· ++ segments path) hsegments
      · rw [String.append_assoc, isAbsolute_append hempty]

/-- The empty path from a directory can only mean the directory. -/
theorem endsInDirectory_join_empty (hne : directory ≠ "") :
    endsInDirectory (join directory "") = true := by
  have hlast : ∃ text : List Char, (join directory "").toList = text ++ ['/'] := by
    unfold join
    rw [if_neg (by decide)]
    split
    · rename_i hslash
      simp only [hne, decide_false, Bool.false_or, decide_eq_true_eq] at hslash
      rw [String.append_empty]
      exact List.getLast?_eq_some_iff.1 hslash
    · exact ⟨directory.toList, by simp⟩
  obtain ⟨text, htext⟩ := hlast
  have hjoined : join directory "" ≠ "" := by
    intro h
    rw [h] at htext
    simp at htext
  rw [endsInDirectory, segments, htext, List.splitOn_append_cons_self, List.splitOn_nil,
    List.getLast?_concat]
  simp [hjoined]

/-! ### The file beside a path -/

/-- The first parts of a path are the parts of a path of their own. -/
theorem components_ofParts {before : List Part} (h : before <+: parts path) :
    components (ofParts before) = before.filterMap (·.step) := by
  obtain ⟨first, rest, hsegments⟩ := exists_segments path
  rw [parts_eq hsegments] at h
  cases before with
  | nil => rfl
  | cons p before =>
    obtain ⟨rfl, hbefore⟩ := List.cons_prefix_cons.1 h
    obtain ⟨texts, htexts, rfl⟩ : ∃ texts, texts <+: rest ∧
        before = texts.map fun segment => ⟨segment, stepOf segment⟩ := by
      refine ⟨rest.take before.length, List.take_prefix _ _, ?_⟩
      rw [List.map_take]
      exact List.prefix_iff_eq_take.1 hbefore
    have htext : (⟨first, firstStep (isAbsolute path) first⟩ ::
        texts.map fun segment => (⟨segment, stepOf segment⟩ : Part)).map (·.text) =
        first :: texts := by
      rw [List.map_cons, List.map_map]
      exact congrArg (first :: ·) (List.map_id texts)
    unfold ofParts
    split
    · rename_i hroot
      have hsteps := congrArg (List.filterMap id) hroot
      rw [List.filterMap_map] at hsteps
      exact hsteps.symm
    · rename_i hroot
      rw [htext]
      have hsegments' : segments (String.ofList (['/'].intercalate (first :: texts))) =
          first :: texts := by
        rw [segments, String.toList_ofList]
        refine List.splitOn_intercalate '/' (fun text hmem => ?_) (List.cons_ne_nil _ _)
        have hmem : text ∈ first :: rest := ((List.prefix_cons_inj first).2 htexts).subset hmem
        exact slash_not_mem (hsegments ▸ hmem)
      have habsolute : isAbsolute (String.ofList (['/'].intercalate (first :: texts))) =
          isAbsolute path := by
        rw [Bool.eq_iff_iff, isAbsolute_iff hsegments', isAbsolute_iff hsegments]
        refine and_congr_right fun hfirst => ⟨fun hne hnil => ?_, fun hne hnil => hroot ?_⟩
        · exact hne (List.prefix_nil.1 (hnil ▸ htexts))
        · rw [(isAbsolute_iff hsegments).2 ⟨hfirst, hne⟩, hnil]
          rfl
      rw [components_eq hsegments', habsolute, List.filterMap_cons, List.filterMap_map]
      cases firstStep (isAbsolute path) first <;> rfl

theorem partsAbove_append {behind : List Part} (h : ∀ p ∈ behind, p.step = none)
    (rest : List Part) : partsAbove (behind ++ rest) = partsAbove rest := by
  induction behind with
  | nil => rfl
  | cons p behind ih =>
    obtain ⟨hp, hbehind⟩ := List.forall_mem_cons.1 h
    rw [List.cons_append, partsAbove, hp]
    exact ih hbehind

/-- Parts without a step add nothing at the end. -/
theorem filterMap_rdropWhile (parts : List Part) :
    (parts.rdropWhile (·.step.isNone)).filterMap (·.step) = parts.filterMap (·.step) := by
  have hnone : (parts.rtakeWhile (·.step.isNone)).filterMap (·.step) = [] := by
    refine List.filterMap_eq_nil_iff.2 fun p hp => ?_
    have hp : p.step.isNone := List.mem_rtakeWhile_imp (p := fun p : Part => p.step.isNone) hp
    exact Option.isNone_iff_eq_none.1 hp
  have hall := congrArg (List.filterMap (·.step))
    (List.rdropWhile_append_rtakeWhile (p := fun p : Part => p.step.isNone) (l := parts))
  rwa [List.filterMap_append, hnone, List.append_nil] at hall

/-- The directory of a path that ends in a name has the steps before the name. -/
theorem exists_parent {steps : List Component} (h : components path = steps ++ [.name n]) :
    ∃ directory, parent? path = some directory ∧ components directory = steps := by
  -- The last name is the step of some part, and the parts behind that one have none.
  obtain ⟨before, last, hparts, hbefore, hlast⟩ := List.filterMap_eq_append_iff.1 h
  obtain ⟨skipped, p, after, rfl, hskipped, hp, hafter⟩ := List.filterMap_eq_cons_iff.1 hlast
  have hfirst : (before ++ skipped).rdropWhile (·.step.isNone) <+: parts path := by
    refine (List.rdropWhile_prefix _ _).trans ⟨p :: after, ?_⟩
    rw [hparts, List.append_assoc]
  refine ⟨ofParts ((before ++ skipped).rdropWhile (·.step.isNone)), ?_, ?_⟩
  · have hreverse : (parts path).reverse = after.reverse ++ p :: (before ++ skipped).reverse := by
      simp [hparts]
    have hnone : ∀ p ∈ after.reverse, p.step = none := fun p hp =>
      List.filterMap_eq_nil_iff.1 hafter p (List.mem_reverse.1 hp)
    rw [parent?, above, hreverse, partsAbove_append hnone, partsAbove, hp]
    rfl
  · rw [components_ofParts hfirst, filterMap_rdropWhile, List.filterMap_append, hbefore,
      List.filterMap_eq_nil_iff.2 hskipped, List.append_nil]

theorem fileName?_eq_some_iff :
    fileName? path = some n ↔ ∃ steps, components path = steps ++ [.name n] := by
  rw [fileName?, ← List.getLast?_eq_some_iff]
  split
  · rename_i heq
    rw [heq]
    simp
  · simp_all

theorem slash_not_mem_of_name (h : .name n ∈ components path) : '/' ∉ n.toList := by
  obtain ⟨first, rest, hsegments⟩ := exists_segments path
  have hstep : ∀ segment, stepOf segment = some (.name n) → n.toList = segment := by
    intro segment h
    unfold stepOf at h
    split at h
    · cases h
    · split at h <;> cases h
      exact String.toList_ofList
  have hmem : n.toList ∈ segments path := by
    rw [components_eq hsegments, List.mem_append, Option.mem_toList, List.mem_filterMap] at h
    rw [hsegments]
    rcases h with h | ⟨segment, hsegment, h⟩
    · unfold firstStep at h
      split at h
      · cases h
      · split at h
        · cases h
        · exact hstep first h ▸ List.mem_cons_self
    · exact hstep segment h ▸ List.mem_cons_of_mem _ hsegment
  exact slash_not_mem hmem

/-- The temporary file beside a path has its steps but for the last one, the name with `.tmp`
behind. -/
theorem exists_beside {steps : List Component} (h : components path = steps ++ [.name n]) :
    ∃ temporary, beside? path ".tmp" = some temporary ∧
      components temporary = steps ++ [.name (n ++ ".tmp")] := by
  obtain ⟨directory, hparent, hsteps⟩ := exists_parent h
  have hmem : .name n ∈ components path := by simp [h]
  have hslash : '/' ∉ n.toList := slash_not_mem_of_name hmem
  have hname : isInside (n ++ ".tmp") = true ∧ components (n ++ ".tmp") = [.name (n ++ ".tmp")] :=
    components_name (.of_long (by rw [String.toList_append, List.mem_append]; simp [hslash])
      (by rw [String.toList_append, List.length_append]; simp))
  refine ⟨join directory (n ++ ".tmp"), ?_, ?_⟩
  · rw [beside?, fileName?_eq_some_iff.2 ⟨steps, h⟩, hparent]
    rfl
  · rw [components_join hname.1, hsteps, hname.2]

/-- There is a file beside a path only when the path ends in a name. -/
theorem beside?_eq_some {temporary : String} (h : beside? path ".tmp" = some temporary) :
    ∃ steps n, components path = steps ++ [.name n] ∧
      components temporary = steps ++ [.name (n ++ ".tmp")] := by
  obtain ⟨n, hn, -⟩ := Option.map_eq_some_iff.1 h
  obtain ⟨steps, hsteps⟩ := fileName?_eq_some_iff.1 hn
  obtain ⟨temporary', htemporary, hbeside⟩ := exists_beside hsteps
  cases h.symm.trans htemporary
  exact ⟨steps, n, hsteps, hbeside⟩

end ConfigTables.Path
