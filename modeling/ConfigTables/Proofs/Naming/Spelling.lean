import ConfigTables.Naming.Convention
import ConfigTables.Proofs.Text.Words

/-!
    Which names are spelled alike. Snake case keeps the words of a name apart, so two names have one
    snake case form exactly when they have the same words but for the case of letters. Pascal case
    shows where a word begins by a capital, which a word that begins with a digit does not have; two
    names of ASCII characters have one Pascal case form exactly when their words are the same after
    each such word is put to the one before it. -/

namespace ConfigTables

/-- The words of a name in small letters. -/
def smallWords (name : String) : List (List Char) :=
  (Text.nameWords name.toList).map Text.lowerWord

/-- Words that an underscore can separate: not empty, and without one inside. -/
def Separable (words : List (List Char)) : Prop := ∀ w ∈ words, w ≠ [] ∧ '_' ∉ w

section
variable {words words' : List (List Char)}

theorem Separable.intercalate_ne_nil (h : Separable words) (hne : words ≠ []) :
    ['_'].intercalate words ≠ [] := by
  obtain ⟨w, rest, rfl⟩ := List.exists_cons_of_ne_nil hne
  have hw : w ≠ [] := (h w List.mem_cons_self).1
  cases rest with
  | nil => simpa using hw
  | cons w' rest => simp [List.intercalate_cons_of_ne_nil]

/-- Separated words can be told from each other. -/
theorem Separable.intercalate_eq_iff (h : Separable words) (h' : Separable words') :
    ['_'].intercalate words = ['_'].intercalate words' ↔ words = words' := by
  refine ⟨fun heq => ?_, fun heq => by rw [heq]⟩
  by_cases hne : words = []
  · subst hne
    rw [List.intercalate_nil] at heq
    refine Eq.symm (Classical.byContradiction fun hne' => ?_)
    exact h'.intercalate_ne_nil hne' heq.symm
  · have hne' : words' ≠ [] := by
      rintro rfl
      exact h.intercalate_ne_nil hne (by rw [heq, List.intercalate_nil])
    rw [← List.splitOn_intercalate '_' (fun w hw => (h w hw).2) hne, heq,
      List.splitOn_intercalate '_' (fun w hw => (h' w hw).2) hne']

/-- Separated words do not end in an underscore. -/
theorem Separable.getLast?_intercalate (h : Separable words) :
    (['_'].intercalate words).getLast? ≠ some '_' := by
  induction words with
  | nil => simp
  | cons w rest ih =>
    obtain ⟨hw, hrest⟩ := List.forall_mem_cons.1 h
    by_cases hne : rest = []
    · subst hne
      rw [List.intercalate_singleton]
      exact fun hlast => hw.2 (List.mem_of_getLast? hlast)
    · rw [List.intercalate_cons_of_ne_nil hne,
        List.getLast?_append_of_ne_nil _ (Separable.intercalate_ne_nil hrest hne)]
      exact ih hrest

end

theorem separable_smallWords (name : String) : Separable (smallWords name) := by
  refine List.forall_mem_map.2 fun w hw => ⟨?_, ?_⟩
  · exact Text.lowerWord_ne_nil (Text.ne_nil_of_mem_nameWords hw)
  · refine Text.underscore_not_mem_lowerWord fun hmem => ?_
    exact absurd (Text.mem_of_mem_nameWords hw hmem).2 (by decide)

/-! ### Words shown by capitals -/

section
open Text

/-- Names that consist of ASCII characters. -/
def IsAscii (name : String) : Prop := ∀ c ∈ name.toList, c.toNat < 128

/-- Whether a text begins with a digit. -/
def beginsWithDigit (text : List Char) : Bool := (text.head?.map Char.isDigit).getD false

/-- A word of small letters and digits. -/
def IsSmall (w : List Char) : Prop := w ≠ [] ∧ ∀ c ∈ w, isSmall c

/-- A word of small letters with a capital in front. -/
def raised : List Char → List Char
  | [] => []
  | c :: rest => c.toUpper :: rest

/-- The words that capitals show the beginnings of: one that begins with a digit runs on with the
word before it. -/
def shownWords : List (List Char) → List (List Char)
  | [] => []
  | w :: rest =>
    match shownWords rest with
    | [] => [w]
    | next :: others =>
      if beginsWithDigit next then (w ++ next) :: others else w :: next :: others

/-- Words of small letters and digits, where none but the first begins with a digit. -/
structure Shown (words : List (List Char)) : Prop where
  small : ∀ w ∈ words, IsSmall w
  letter : ∀ w ∈ words.tail, beginsWithDigit w = false

theorem shown_shownWords {words : List (List Char)} (h : ∀ w ∈ words, IsSmall w) :
    Shown (shownWords words) := by
  fun_induction shownWords words with
  | case1 => exact ⟨h, by simp⟩
  | case2 w rest _ _ => exact ⟨by simpa using h w List.mem_cons_self, by simp⟩
  | case3 w rest next others heq hdigit ih =>
    obtain ⟨hw, hrest⟩ := List.forall_mem_cons.1 h
    rw [heq] at ih
    obtain ⟨hsmall, hletter⟩ := ih hrest
    obtain ⟨hnext, hothers⟩ := List.forall_mem_cons.1 hsmall
    refine ⟨List.forall_mem_cons.2 ⟨⟨by simp [hw.1], fun c hc => ?_⟩, hothers⟩, hletter⟩
    exact (List.mem_append.1 hc).elim (hw.2 c) (hnext.2 c)
  | case4 w rest next others heq hdigit ih =>
    obtain ⟨hw, hrest⟩ := List.forall_mem_cons.1 h
    rw [heq] at ih
    obtain ⟨hsmall, hletter⟩ := ih hrest
    exact ⟨List.forall_mem_cons.2 ⟨hw, hsmall⟩,
      List.forall_mem_cons.2 ⟨by simpa using hdigit, hletter⟩⟩

theorem raised_append {w next : List Char} (hw : w ≠ []) (hdigit : beginsWithDigit next) :
    raised (w ++ next) = raised w ++ raised next := by
  obtain ⟨c, w, rfl⟩ := List.exists_cons_of_ne_nil hw
  cases next with
  | nil => cases hdigit
  | cons d next =>
    have hd : d.isDigit := hdigit
    simp [raised, toUpper_of_isDigit hd]

theorem flatMap_raised_shownWords {words : List (List Char)} (h : ∀ w ∈ words, IsSmall w) :
    (shownWords words).flatMap raised = words.flatMap raised := by
  fun_induction shownWords words with
  | case1 => rfl
  | case2 w rest heq ih =>
    obtain ⟨_, hrest⟩ := List.forall_mem_cons.1 h
    rw [heq] at ih
    rw [List.flatMap_cons, List.flatMap_cons, ih hrest]
  | case3 w rest next others heq hdigit ih =>
    obtain ⟨hw, hrest⟩ := List.forall_mem_cons.1 h
    rw [heq, List.flatMap_cons] at ih
    rw [List.flatMap_cons, List.flatMap_cons, ← ih hrest, raised_append hw.1 hdigit,
      List.append_assoc]
  | case4 w rest next others heq hdigit ih =>
    obtain ⟨_, hrest⟩ := List.forall_mem_cons.1 h
    rw [heq] at ih
    rw [List.flatMap_cons, ih hrest, List.flatMap_cons]

/-- Where what follows begins with a capital, or nothing does, it shows where small letters end. -/
theorem append_inj_of_small {r s R S : List Char} (hr : ∀ c ∈ r, isSmall c) (hs : ∀ c ∈ s, isSmall c)
    (hR : ∀ c ∈ R.head?, c.isUpper) (hS : ∀ c ∈ S.head?, c.isUpper) (h : r ++ R = s ++ S) :
    r = s ∧ R = S := by
  have hcut : ∀ {r R : List Char}, (∀ c ∈ r, isSmall c) → (∀ c ∈ R.head?, c.isUpper) →
      (r ++ R).takeWhile (!·.isUpper) = r := by
    intro r R hr hR
    rw [List.takeWhile_append_of_pos fun c hc => by simp [not_isUpper_of_isSmall (hr c hc)]]
    cases R with
    | nil => simp
    | cons c R => simp [hR c rfl]
  have hrs : r = s := by rw [← hcut hr hR, h, hcut hs hS]
  exact ⟨hrs, List.append_cancel_left (hrs ▸ h)⟩

/-- Behind the first word begins a capital. -/
theorem Shown.isUpper_of_mem_head? {w : List Char} {words : List (List Char)}
    (h : Shown (w :: words)) : ∀ c ∈ (words.flatMap raised).head?, c.isUpper := by
  cases words with
  | nil => simp
  | cons next words =>
    obtain ⟨hne, hsmall⟩ := h.small next (by simp)
    obtain ⟨d, next, rfl⟩ := List.exists_cons_of_ne_nil hne
    have hdigit : d.isDigit = false := h.letter (d :: next) (by simp)
    intro c hc
    cases Option.some.inj hc
    exact isUpper_toUpper (hsmall d List.mem_cons_self) hdigit

theorem Shown.tail {w : List Char} {words : List (List Char)} (h : Shown (w :: words)) :
    Shown words :=
  ⟨fun v hv => h.small v (List.mem_cons_of_mem _ hv),
    fun v hv => h.letter v (List.mem_of_mem_tail hv)⟩

theorem Shown.concat {words : List (List Char)} {w : List Char} (h : Shown words) (hw : IsSmall w)
    (hletter : beginsWithDigit w = false) : Shown (words ++ [w]) := by
  refine ⟨List.forall_mem_append.2 ⟨h.small, List.forall_mem_singleton.2 hw⟩, ?_⟩
  cases words with
  | nil => simp
  | cons v words =>
    exact List.forall_mem_append.2 ⟨h.letter, List.forall_mem_singleton.2 hletter⟩

/-- Shown words can be told from each other. -/
theorem Shown.eq_of_flatMap_raised {words words' : List (List Char)} (h : Shown words)
    (h' : Shown words') (heq : words.flatMap raised = words'.flatMap raised) : words = words' := by
  induction words generalizing words' with
  | nil =>
    cases words' with
    | nil => rfl
    | cons w' rest' =>
      obtain ⟨c, w', rfl⟩ := List.exists_cons_of_ne_nil (h'.small w' List.mem_cons_self).1
      cases heq
  | cons w rest ih =>
    obtain ⟨hne, hsmall⟩ := h.small w List.mem_cons_self
    obtain ⟨c, w, rfl⟩ := List.exists_cons_of_ne_nil hne
    cases words' with
    | nil => cases heq
    | cons w' rest' =>
      obtain ⟨hne', hsmall'⟩ := h'.small w' List.mem_cons_self
      obtain ⟨d, w', rfl⟩ := List.exists_cons_of_ne_nil hne'
      rw [List.forall_mem_cons] at hsmall hsmall'
      simp only [List.flatMap_cons, raised, List.cons_append, List.cons.injEq] at heq
      obtain ⟨hhead, htail⟩ := heq
      -- the first word goes on up to the next capital, in both
      obtain ⟨hw, hrest⟩ := append_inj_of_small hsmall.2 hsmall'.2 h.isUpper_of_mem_head?
        h'.isUpper_of_mem_head? htail
      rw [toUpper_inj hsmall.1 hsmall'.1 hhead, hw, ih h.tail h'.tail hrest]

end

/-! ### Conventions -/

/-- The words of a name of ASCII characters consist of small letters and digits. -/
theorem isSmall_of_mem_smallWords {name : String} (hname : IsAscii name) :
    ∀ w ∈ smallWords name, IsSmall w := by
  refine List.forall_mem_map.2 fun w hw => ?_
  have hascii : ∀ c ∈ w, c.toNat < 128 := fun c hc => hname c (Text.mem_of_mem_nameWords hw hc).1
  refine ⟨Text.lowerWord_ne_nil (Text.ne_nil_of_mem_nameWords hw), ?_⟩
  rw [Text.lowerWord_of_ascii hascii]
  exact List.forall_mem_map.2 fun c hc =>
    Text.isSmall_toLower (hascii c hc) (Text.mem_of_mem_nameWords hw hc).2

theorem capitalWord_of_ascii {w : List Char} (hw : ∀ c ∈ w, c.toNat < 128) :
    Text.capitalWord w = raised (Text.lowerWord w) := by
  cases w with
  | nil => rfl
  | cons c rest =>
    obtain ⟨hc, hrest⟩ := List.forall_mem_cons.1 hw
    rw [Text.capitalWord, Text.lowerWord_of_ascii hrest, Text.lowerWord_of_ascii hw, Text.upper,
      if_pos hc, List.map_cons, raised, Text.toUpper_toLower hc]
    rfl

namespace Convention

theorem toList_snake (name : String) :
    (snake.apply name).toList = ['_'].intercalate (smallWords name) := String.toList_ofList

/-- A name in snake case holds no signs but underscores, at least none with a number up to that of the
underscore. -/
theorem not_mem_snake {c : Char} (hletter : Text.isAlphanumeric c = false)
    (hunderscore : c.toNat < '_'.toNat) (hzero : c ≠ '\x00') (name : String) :
    c ∉ (snake.apply name).toList := by
  rw [toList_snake]
  refine not_mem_intercalate (fun hmem => ?_) (List.forall_mem_map.2 fun w hw => ?_)
  · rw [List.mem_singleton.1 hmem] at hunderscore
    exact absurd hunderscore (Nat.lt_irrefl _)
  · refine Text.not_mem_lowerWord (fun hmem => ?_) hzero (Nat.le_of_lt hunderscore)
    rw [(Text.mem_of_mem_nameWords hw hmem).2] at hletter
    cases hletter

/-- Two names have one snake case form exactly when they have the same words in small letters. -/
theorem snake_apply_eq_iff {a b : String} :
    snake.apply a = snake.apply b ↔ smallWords a = smallWords b := by
  rw [← String.toList_inj, toList_snake, toList_snake]
  exact Separable.intercalate_eq_iff (separable_smallWords a) (separable_smallWords b)

/-- A name in snake case does not end in an underscore. -/
theorem getLast?_snake (name : String) : (snake.apply name).toList.getLast? ≠ some '_' := by
  rw [toList_snake]
  exact Separable.getLast?_intercalate (separable_smallWords name)

/-- Pascal case shows the words of a name of ASCII characters by capitals. -/
theorem toList_pascal {name : String} (hname : IsAscii name) :
    (pascal.apply name).toList = (shownWords (smallWords name)).flatMap raised := by
  have hwords : ∀ w ∈ Text.nameWords name.toList,
      Text.capitalWord w = raised (Text.lowerWord w) := fun w hw =>
    capitalWord_of_ascii fun c hc => hname c (Text.mem_of_mem_nameWords hw hc).1
  rw [flatMap_raised_shownWords (isSmall_of_mem_smallWords hname), smallWords, List.flatMap_map]
  exact String.toList_ofList.trans (List.flatMap_congr hwords)

end Convention

end ConfigTables
