import ConfigTables.Proofs.Text.Blank
import ConfigTables.Schema.TypeExpr.Reader

/-!
    The grammar of type expressions, and that reading accepts exactly it. `Denotes` says what a text
    stands for, one constructor for each way to put an expression together; blanks around a text and
    around its parts do not count. Reading looks for the first and the last bracket and cuts what is
    between them at the commas outside all brackets. That this finds the parts of the grammar rests on
    `Level`: a text that denotes a type closes every bracket that it opens, and has its commas inside
    of brackets only. -/

namespace ConfigTables

/-- A text that can be a name in an expression. -/
structure IsWord (cs : List Char) : Prop where
  ne_nil : cs ≠ []
  plain : ∀ c ∈ cs, c ≠ '<' ∧ c ≠ '>' ∧ c ≠ ',' ∧ Text.isBlank c = false
  last : cs.getLast? ≠ some '?'

instance (cs : List Char) : Decidable (IsWord cs) :=
  decidable_of_iff
    (cs ≠ [] ∧ (cs.all fun c => c ≠ '<' && c ≠ '>' && c ≠ ',' && !Text.isBlank c) = true ∧
      cs.getLast? ≠ some '?')
    ⟨fun h => ⟨h.1, by simpa [and_assoc] using h.2.1, h.2.2⟩,
      fun h => ⟨h.ne_nil, by simpa [and_assoc] using h.plain, h.last⟩⟩

/-- The types that a text denotes. -/
inductive TypeExpr.Denotes : List Char → TypeExpr → Prop
  | nullable {s inner : List Char} {t : TypeExpr} : Text.trim s = inner ++ ['?'] →
      Denotes inner t → t.isNullable = false → Denotes s (.nullable t)
  | sequence {s container element : List Char} {kind : Sequence} {t : TypeExpr} :
      Text.trim s = container ++ '<' :: (element ++ ['>']) → '<' ∉ container →
      Text.trim container = kind.name.toList → Denotes element t → Denotes s (.sequence kind t)
  | map {s container key value : List Char} {k v : TypeExpr} :
      Text.trim s = container ++ '<' :: (key ++ ',' :: (value ++ ['>'])) → '<' ∉ container →
      Text.trim container = "map".toList → Denotes key k → Denotes value v → Denotes s (.map k v)
  | primitive {s : List Char} {p : Primitive} : IsWord (Text.trim s) →
      Text.trim s = p.name.toList → Denotes s (.primitive p)
  | named {s : List Char} {name : String} : IsWord (Text.trim s) → Text.trim s = name.toList →
      (∀ p : Primitive, p.name ≠ name) → Denotes s (.named name)

/-! ### Words -/

theorem IsWord.isTrimmed {cs : List Char} (h : IsWord cs) : Text.IsTrimmed cs where
  first c hc := (h.plain c (List.mem_of_mem_head? hc)).2.2.2
  last c hc := (h.plain c (List.mem_of_getLast? hc)).2.2.2

theorem Primitive.isWord_name (p : Primitive) : IsWord p.name.toList := by
  cases p <;> decide

theorem Sequence.isWord_name (kind : Sequence) : IsWord kind.name.toList := by
  cases kind <;> decide

theorem TypeExpr.isWord_map : IsWord "map".toList := by
  decide

theorem Primitive.ofName?_eq_some_iff {word : String} {p : Primitive} :
    ofName? word = some p ↔ p.name = word := by
  constructor
  · intro h
    simpa using List.find?_some h
  · rintro rfl
    exact ofName?_name p

theorem Primitive.ofName?_eq_none_iff {word : String} :
    ofName? word = none ↔ ∀ p : Primitive, p.name ≠ word := by
  rw [Option.eq_none_iff_forall_ne_some]
  exact forall_congr' fun p => not_congr ofName?_eq_some_iff

theorem TypeExpr.Container.ofName?_eq_sequence_iff {word : String} {kind : Sequence} :
    ofName? word = some (.sequence kind) ↔ word = kind.name := by
  constructor
  · intro h
    unfold ofName? at h
    split at h <;> cases h <;> rfl
  · rintro rfl
    cases kind <;> rfl

theorem TypeExpr.Container.ofName?_eq_map_iff {word : String} :
    ofName? word = some .map ↔ word = "map" := by
  constructor
  · intro h
    unfold ofName? at h
    split at h <;> cases h
    rfl
  · rintro rfl
    rfl

theorem ofList_eq_iff {cs : List Char} {s : String} : String.ofList cs = s ↔ cs = s.toList :=
  ⟨fun h => h ▸ String.toList_ofList.symm, fun h => h ▸ String.ofList_toList⟩

namespace Form

/-! ### Cutting at commas -/

theorem splitArguments_comma (rest : List Char) :
    splitArguments 0 (',' :: rest) = (splitArguments 0 rest).map ([] :: ·) := by
  rw [splitArguments]

theorem splitArguments_open (depth : Nat) (rest : List Char) :
    splitArguments depth ('<' :: rest) = (splitArguments (depth + 1) rest).map (consFirst '<') := by
  rw [splitArguments]

theorem splitArguments_close (depth : Nat) (rest : List Char) :
    splitArguments (depth + 1) ('>' :: rest) =
      (splitArguments depth rest).map (consFirst '>') := by
  rw [splitArguments]

/-- A character that is no bracket, and no comma outside of brackets, belongs to its part. -/
theorem splitArguments_inner {depth : Nat} {c : Char} (rest : List Char) (hopen : c ≠ '<')
    (hclose : c ≠ '>') (hcomma : c = ',' → 0 < depth) :
    splitArguments depth (c :: rest) = (splitArguments depth rest).map (consFirst c) := by
  rw [splitArguments]
  all_goals grind

theorem consFirst_ne_nil (c : Char) (parts : List (List Char)) : consFirst c parts ≠ [] := by
  cases parts <;> exact List.cons_ne_nil _ _

theorem splitArguments_ne_nil {depth : Nat} {text : List Char} {parts : List (List Char)}
    (h : splitArguments depth text = some parts) : parts ≠ [] := by
  fun_induction splitArguments depth text generalizing parts with
  | case1 =>
    obtain rfl := Option.some.inj h
    exact List.cons_ne_nil _ _
  | case2 => cases h
  | case3 rest ih =>
    obtain ⟨q, hq, rfl⟩ := Option.map_eq_some_iff.1 h
    exact List.cons_ne_nil _ _
  | case4 => cases h
  | case5 depth rest ih | case6 depth rest ih | case7 depth c rest _ _ _ _ ih =>
    obtain ⟨q, hq, rfl⟩ := Option.map_eq_some_iff.1 h
    exact consFirst_ne_nil _ q

theorem intercalate_consFirst (c : Char) (parts : List (List Char)) :
    [','].intercalate (consFirst c parts) = c :: [','].intercalate parts := by
  cases parts with
  | nil => rfl
  | cons first others => cases others <;> simp [consFirst, List.intercalate_cons_cons]

/-- The parts make up the text, with a comma between two of them. -/
theorem intercalate_splitArguments {depth : Nat} {text : List Char} {parts : List (List Char)}
    (h : splitArguments depth text = some parts) : [','].intercalate parts = text := by
  fun_induction splitArguments depth text generalizing parts with
  | case1 =>
    obtain rfl := Option.some.inj h
    rfl
  | case2 => cases h
  | case3 rest ih =>
    obtain ⟨q, hq, rfl⟩ := Option.map_eq_some_iff.1 h
    obtain ⟨first, others, rfl⟩ := List.exists_cons_of_ne_nil (splitArguments_ne_nil hq)
    rw [List.intercalate_cons_cons, ih hq]
    rfl
  | case4 => cases h
  | case5 depth rest ih | case6 depth rest ih | case7 depth c rest _ _ _ _ ih =>
    obtain ⟨q, hq, rfl⟩ := Option.map_eq_some_iff.1 h
    rw [intercalate_consFirst, ih hq]

/-- With at least so many brackets open, the text goes in front of the first part of what follows: it
leaves as many brackets open as there were, and no cut is made in it. -/
def Level (least : Nat) (cs : List Char) : Prop :=
  ∀ depth, least ≤ depth → ∀ rest first others,
    splitArguments depth rest = some (first :: others) →
    splitArguments depth (cs ++ rest) = some ((cs ++ first) :: others)

section Level
variable {least : Nat} {cs ds : List Char}

theorem Level.append (hcs : Level least cs) (hds : Level least ds) : Level least (cs ++ ds) := by
  intro depth hdepth rest first others h
  rw [List.append_assoc, List.append_assoc]
  exact hcs depth hdepth _ _ _ (hds depth hdepth _ _ _ h)

theorem Level.mono {more : Nat} (h : Level least cs) (hle : least ≤ more) : Level more cs :=
  fun depth hdepth => h depth (hle.trans hdepth)

theorem level_comma : Level 1 [','] := by
  intro depth hdepth rest first others h
  rw [List.singleton_append, splitArguments_inner rest (by decide) (by decide) fun _ => hdepth, h]
  rfl

/-- What stands between brackets has one bracket more open. -/
theorem Level.brackets (h : Level (least + 1) cs) : Level least ('<' :: (cs ++ ['>'])) := by
  intro depth hdepth rest first others hrest
  have hclosed : splitArguments (depth + 1) ('>' :: rest) = some (('>' :: first) :: others) := by
    rw [splitArguments_close, hrest]
    rfl
  have hinner := h (depth + 1) (by omega) _ _ _ hclosed
  rw [List.cons_append, List.append_assoc, List.singleton_append, splitArguments_open, hinner]
  simp [consFirst]

theorem level_of_plain (h : ∀ c ∈ cs, c ≠ '<' ∧ c ≠ '>' ∧ c ≠ ',') : Level 0 cs := by
  induction cs with
  | nil => exact fun _ _ _ _ _ h => h
  | cons c cs ih =>
    intro depth hdepth rest first others hrest
    obtain ⟨⟨hopen, hclose, hcomma⟩, hcs⟩ := List.forall_mem_cons.1 h
    rw [List.cons_append, splitArguments_inner _ hopen hclose fun hc => absurd hc hcomma,
      ih hcs depth hdepth rest first others hrest]
    rfl

/-- Blanks around a text do not change its level. -/
theorem level_of_trim (h : Level 0 (Text.trim cs)) : Level 0 cs := by
  have hblanks : ∀ ds : List Char, (∀ c ∈ ds, Text.isBlank c) → Level 0 ds := fun ds hds =>
    level_of_plain fun c hc => by
      refine ⟨?_, ?_, ?_⟩ <;> rintro rfl <;> exact absurd (hds _ hc) (by decide)
  obtain ⟨before, after, hcs, hbefore, hafter⟩ := Text.exists_eq_trim cs
  rw [hcs]
  exact ((hblanks _ hbefore).append h).append (hblanks _ hafter)

theorem Level.splitArguments_eq (h : Level 0 cs) : splitArguments 0 cs = some [cs] := by
  have happend := h 0 (Nat.le_refl 0) [] [] [] rfl
  rwa [List.append_nil] at happend

theorem Level.splitArguments_pair (hcs : Level 0 cs) (hds : Level 0 ds) :
    splitArguments 0 (cs ++ ',' :: ds) = some [cs, ds] := by
  have hcomma : splitArguments 0 (',' :: ds) = some [[], ds] := by
    rw [splitArguments_comma, hds.splitArguments_eq]
    rfl
  rw [hcs 0 (Nat.le_refl 0) _ _ _ hcomma, List.append_nil]

end Level

/-! ### Forms -/

section Forms
variable {text : List Char}

theorem ofText_eq_optional_iff {inner : List Char} :
    ofText text = .optional inner ↔ text = inner ++ ['?'] := by
  constructor
  · intro h
    unfold ofText at h
    split_ifs at h with hnil hlast
    · obtain ⟨front, rfl⟩ := List.getLast?_eq_some_iff.1 hlast
      cases h
      rw [List.dropLast_concat]
    · split at h <;> cases h
  · rintro rfl
    simp [ofText]

theorem ofText_eq_plain_iff {name : List Char} :
    ofText text = .plain name ↔ name = text ∧ IsWord text := by
  constructor
  · intro h
    unfold ofText at h
    split_ifs at h with hnil hlast hopen _ hstray
    · split at h <;> cases h
    · cases h
      simp only [List.any_eq_true, not_exists, not_and] at hstray
      refine ⟨rfl, hnil, fun c hc => ?_, hlast⟩
      have hc' := hstray c hc
      simp only [Bool.or_eq_true, decide_eq_true_eq, not_or, Bool.not_eq_true] at hc'
      exact ⟨fun h => hopen (h ▸ hc), hc'.1.1, hc'.1.2, hc'.2⟩
  · rintro ⟨rfl, hword⟩
    have hopen : '<' ∉ name := fun hmem => (hword.plain _ hmem).1 rfl
    have hstray : ¬(name.any fun c => c = '>' || c = ',' || Text.isBlank c) = true := by
      rw [List.any_eq_true]
      rintro ⟨c, hc, h⟩
      obtain ⟨_, hclose, hcomma, hblank⟩ := hword.plain c hc
      simp [hclose, hcomma, hblank] at h
    rw [ofText, if_neg hword.ne_nil, if_neg hword.last, if_neg hopen, if_neg hstray]

/-- Between the first bracket and a bracket at the end stand the arguments. -/
theorem ofText_brackets {before inner : List Char} (hbefore : '<' ∉ before) :
    ofText (before ++ '<' :: (inner ++ ['>'])) =
      match splitArguments 0 inner with
      | some arguments => .applied (Text.trim before) (arguments.map Text.trim)
      | none => .unbalanced := by
  have hall : ∀ c ∈ before, decide (c ≠ '<') = true := fun c hc =>
    decide_eq_true fun h => hbefore (h ▸ hc)
  have hlast : (before ++ '<' :: (inner ++ ['>'])).getLast? = some '>' :=
    List.getLast?_eq_some_iff.2 ⟨before ++ '<' :: inner, by simp⟩
  rw [ofText, if_neg (by simp), hlast, if_neg (by decide), if_pos (by simp), if_pos rfl,
    List.dropWhile_append_of_pos hall, List.takeWhile_append_of_pos hall]
  cases hsplit : splitArguments 0 inner <;> simp [hsplit]

theorem exists_brackets (hopen : '<' ∈ text) (hlast : text.getLast? = some '>') :
    ∃ before inner, text = before ++ '<' :: (inner ++ ['>']) ∧ '<' ∉ before := by
  obtain ⟨before, rest, rfl, hbefore⟩ := List.eq_append_cons_of_mem hopen
  rcases List.eq_nil_or_concat rest with rfl | ⟨inner, c, rfl⟩
  · rw [List.getLast?_concat] at hlast
    cases hlast
  · rw [List.concat_eq_append] at hlast ⊢
    rw [← List.cons_append, ← List.append_assoc, List.getLast?_concat] at hlast
    cases hlast
    exact ⟨before, inner, rfl, hbefore⟩

theorem ofText_eq_applied_iff {container : List Char} {arguments : List (List Char)} :
    ofText text = .applied container arguments ↔ ∃ before inner parts,
      text = before ++ '<' :: (inner ++ ['>']) ∧ '<' ∉ before ∧
        splitArguments 0 inner = some parts ∧ container = Text.trim before ∧
        arguments = parts.map Text.trim := by
  constructor
  · intro h
    have hends : '<' ∈ text ∧ text.getLast? = some '>' := by
      unfold ofText at h
      split_ifs at h with _ _ hopen hclose
      exact ⟨hopen, hclose⟩
    obtain ⟨before, inner, rfl, hbefore⟩ := exists_brackets hends.1 hends.2
    rw [ofText_brackets hbefore] at h
    cases hsplit : splitArguments 0 inner with
    | none => simp [hsplit] at h
    | some parts =>
      simp only [hsplit, applied.injEq] at h
      exact ⟨before, inner, parts, rfl, hbefore, hsplit, h.1.symm, h.2.symm⟩
  · rintro ⟨before, inner, parts, rfl, hbefore, hsplit, rfl, rfl⟩
    rw [ofText_brackets hbefore, hsplit]

end Forms

end Form

namespace TypeExpr

/-! ### Reading -/

section Reading
variable {s s' : List Char} {t t' : TypeExpr}

/-- What a text denotes is told by the trimmed text. -/
theorem Denotes.of_trim_eq (h : Denotes s t) (hs : Text.trim s' = Text.trim s) : Denotes s' t := by
  cases h with
  | nullable htrim hinner ht => exact .nullable (hs.trans htrim) hinner ht
  | sequence htrim hfree hname helement => exact .sequence (hs.trans htrim) hfree hname helement
  | map htrim hfree hname hkey hvalue => exact .map (hs.trans htrim) hfree hname hkey hvalue
  | primitive hword hname => exact .primitive (hs ▸ hword) (hs.trans hname)
  | named hword hname hnew => exact .named (hs ▸ hword) (hs.trans hname) hnew

theorem denotes_of_trim (h : Denotes (Text.trim s) t) : Denotes s t :=
  h.of_trim_eq (Text.trim_trim s).symm

/-- A word, perhaps with blanks around it, has no bracket and no comma. -/
theorem level_of_isWord (h : IsWord (Text.trim s)) : Form.Level 0 s :=
  Form.level_of_trim (Form.level_of_plain fun c hc =>
    ⟨(h.plain c hc).1, (h.plain c hc).2.1, (h.plain c hc).2.2.1⟩)

/-- A text that denotes a type closes every bracket that it opens, and has its commas inside of
brackets. -/
theorem Denotes.level (h : Denotes s t) : Form.Level 0 s := by
  induction h with
  | nullable htrim _ _ ih =>
    refine Form.level_of_trim ?_
    rw [htrim]
    exact ih.append (Form.level_of_plain (by simp))
  | @sequence _ _ _ kind _ htrim _ hname _ ih =>
    refine Form.level_of_trim ?_
    rw [htrim]
    have hcontainer := level_of_isWord (hname ▸ kind.isWord_name)
    exact hcontainer.append (ih.mono (Nat.zero_le 1)).brackets
  | @map _ _ key value _ _ htrim _ hname _ _ ihKey ihValue =>
    refine Form.level_of_trim ?_
    have hinner : Form.Level 1 (key ++ ([','] ++ value)) :=
      (ihKey.mono (Nat.zero_le 1)).append (Form.level_comma.append (ihValue.mono (Nat.zero_le 1)))
    have hall := (level_of_isWord (hname ▸ isWord_map)).append hinner.brackets
    rw [htrim]
    simpa using hall
  | primitive hword _ | named hword _ _ => exact level_of_isWord hword

/-- Reading finds only types that the text denotes. -/
theorem denotes_of_ofText (h : ofText s = .ok t) : Denotes s t := by
  fun_induction ofText s generalizing t with
  | case4 s inner hform t' hinner hnullable ih =>
    cases h
    rw [Bool.not_eq_true] at hnullable
    exact .nullable (Form.ofText_eq_optional_iff.1 hform) (ih hinner) hnullable
  | case6 s container kind element hform hname t' helement _ ih =>
    cases h
    obtain ⟨before, inner, parts, htrim, hfree, hsplit, rfl, hparts⟩ :=
      Form.ofText_eq_applied_iff.1 hform
    obtain ⟨part, rfl, rfl⟩ := List.map_eq_singleton_iff.1 hparts.symm
    obtain rfl : part = inner := by simpa using Form.intercalate_splitArguments hsplit
    rw [Container.ofName?_eq_sequence_iff, ofList_eq_iff] at hname
    exact .sequence htrim hfree hname (denotes_of_trim (ih helement))
  | case9 s container key value hform hname k hkey v hvalue _ ihKey ihValue =>
    cases h
    obtain ⟨before, inner, parts, htrim, hfree, hsplit, rfl, hparts⟩ :=
      Form.ofText_eq_applied_iff.1 hform
    obtain ⟨first, second, rfl, rfl, rfl⟩ : ∃ first second, parts = [first, second] ∧
        Text.trim first = key ∧ Text.trim second = value := by
      obtain ⟨first, others, rfl, hfirst, hothers⟩ := List.map_eq_cons_iff.1 hparts.symm
      obtain ⟨second, rfl, hsecond⟩ := List.map_eq_singleton_iff.1 hothers
      exact ⟨first, second, rfl, hfirst, hsecond⟩
    obtain rfl : first ++ ',' :: second = inner := by
      simpa [List.intercalate_cons_cons] using Form.intercalate_splitArguments hsplit
    rw [List.append_assoc, List.cons_append] at htrim
    rw [Container.ofName?_eq_map_iff, ofList_eq_iff] at hname
    exact .map htrim hfree hname (denotes_of_trim (ihKey hkey)) (denotes_of_trim (ihValue hvalue))
  | case14 s name hform p hp =>
    cases h
    obtain ⟨rfl, hword⟩ := Form.ofText_eq_plain_iff.1 hform
    exact .primitive hword (ofList_eq_iff.1 (Primitive.ofName?_eq_some_iff.1 hp).symm)
  | case15 s name hform hnew =>
    cases h
    obtain ⟨rfl, hword⟩ := Form.ofText_eq_plain_iff.1 hform
    exact .named hword String.toList_ofList.symm (Primitive.ofName?_eq_none_iff.1 hnew)
  | _ => simp at h

/-- Reading finds the type that a text denotes. -/
theorem ofText_of_denotes (h : Denotes s t) (hs : Text.trim s' = Text.trim s) :
    ofText s' = .ok t := by
  induction h generalizing s' with
  | @nullable _ inner _ htrim _ ht ih =>
    have hform : Form.ofText (Text.trim s') = .optional inner :=
      Form.ofText_eq_optional_iff.2 (hs.trans htrim)
    have hinner := ih rfl
    rw [ofText]
    dsimp only
    split <;> grind
  | @sequence _ container element kind _ htrim hfree hname helement ih =>
    have hform : Form.ofText (Text.trim s') =
        .applied (Text.trim container) [Text.trim element] :=
      Form.ofText_eq_applied_iff.2 ⟨container, element, [element], hs.trans htrim, hfree,
        helement.level.splitArguments_eq, rfl, rfl⟩
    have hcontainer : Container.ofName? (String.ofList (Text.trim container)) = _ :=
      Container.ofName?_eq_sequence_iff.2 (ofList_eq_iff.2 hname)
    have helement := ih (Text.trim_trim element)
    rw [ofText]
    dsimp only
    split <;> grind
  | @map _ container key value _ _ htrim hfree hname hkey hvalue ihKey ihValue =>
    have hform : Form.ofText (Text.trim s') =
        .applied (Text.trim container) [Text.trim key, Text.trim value] :=
      Form.ofText_eq_applied_iff.2 ⟨container, key ++ ',' :: value, [key, value],
        by rw [hs, htrim, List.append_assoc, List.cons_append], hfree,
        hkey.level.splitArguments_pair hvalue.level, rfl, rfl⟩
    have hcontainer : Container.ofName? (String.ofList (Text.trim container)) = _ :=
      Container.ofName?_eq_map_iff.2 (ofList_eq_iff.2 hname)
    have hkey := ihKey (Text.trim_trim key)
    have hvalue := ihValue (Text.trim_trim value)
    rw [ofText]
    dsimp only
    split <;> grind
  | @primitive s p hword hname =>
    have hform : Form.ofText (Text.trim s') = .plain (Text.trim s) :=
      Form.ofText_eq_plain_iff.2 ⟨hs.symm, hs ▸ hword⟩
    have hp : Primitive.ofName? (String.ofList (Text.trim s)) = some p :=
      Primitive.ofName?_eq_some_iff.2 (ofList_eq_iff.2 hname).symm
    rw [ofText]
    dsimp only
    split <;> grind
  | @named s name hword hname hnew =>
    have hform : Form.ofText (Text.trim s') = .plain (Text.trim s) :=
      Form.ofText_eq_plain_iff.2 ⟨hs.symm, hs ▸ hword⟩
    have hlist : String.ofList (Text.trim s) = name := ofList_eq_iff.2 hname
    have hp : Primitive.ofName? name = none := Primitive.ofName?_eq_none_iff.2 hnew
    rw [ofText]
    dsimp only
    split <;> grind

end Reading

/-- Reading accepts exactly the grammar: it gives a type for a text just when the text denotes that
type, and a text denotes one type at most. -/
theorem parse_eq_ok_iff_denotes :
    (∀ (expr : String) (t : TypeExpr), parse expr = .ok t ↔ Denotes expr.toList t) ∧
      ∀ (s : List Char) (t t' : TypeExpr), Denotes s t → Denotes s t' → t = t' := by
  refine ⟨fun expr t => ⟨denotes_of_ofText, fun h => ofText_of_denotes h rfl⟩, ?_⟩
  intro s t t' ht ht'
  exact Except.ok.inj ((ofText_of_denotes ht rfl).symm.trans (ofText_of_denotes ht' rfl))

/-- Blanks around the container and its element do not count, and the text is read as one type. -/
theorem denotes_spaced_list :
    Denotes " list < int > ".toList (.sequence .list (.primitive .int)) ∧
      parse " list < int > " = .ok (.sequence .list (.primitive .int)) ∧
      ¬ Denotes " list < int > ".toList (.sequence .set (.primitive .int)) := by
  have hint : Denotes " int ".toList (.primitive .int) :=
    .primitive (Primitive.isWord_name .int) (by decide)
  have htrim : Text.trim " list < int > ".toList =
      "list ".toList ++ '<' :: (" int ".toList ++ ['>']) := by
    decide
  have hlist : Denotes " list < int > ".toList (.sequence .list (.primitive .int)) :=
    .sequence htrim (by decide) (by decide) hint
  refine ⟨hlist, (parse_eq_ok_iff_denotes.1 _ _).2 hlist, fun hset => ?_⟩
  exact absurd (parse_eq_ok_iff_denotes.2 _ _ _ hlist hset) (by decide)

end TypeExpr

end ConfigTables
