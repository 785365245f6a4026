import ConfigTables.Proofs.Lists
import ConfigTables.Text.Words

/-!
    What the words of a name are made of. Together they are the letters and numbers of the name, in
    order, and none of them is empty. A word in small letters is not empty either and holds no
    underscore, since no letter has one for its small form. For ASCII no table is needed: there small
    letters and digits are told apart by their capitals, and from capitals. -/

namespace ConfigTables.Text

/-! ### Words -/

theorem flatten_humps (case : WordCase) (read rest : List Char) (hrest : rest ≠ []) :
    (humps case read rest).flatten = read.reverse ++ rest := by
  fun_induction humps case read rest with
  | case1 => exact absurd rfl hrest
  | case2 => simp
  | case3 _ _ _ _ _ _ ih => simp [ih]
  | case4 _ _ _ _ _ _ _ ih => simp [ih]
  | case5 _ _ _ _ _ _ _ ih => simp [ih]

/-- A run of letters has no empty words: a case is in force only when a letter was read. -/
theorem ne_nil_of_mem_humps {case : WordCase} {read rest w : List Char}
    (hcase : case ≠ .unknown → read ≠ []) (h : w ∈ humps case read rest) : w ≠ [] := by
  fun_induction humps case read rest with
  | case1 => cases h
  | case2 => simp_all
  | case3 _ _ _ _ _ _ ih =>
    rcases List.mem_cons.1 h with rfl | h
    · simp
    · exact ih (by simp) h
  | case4 _ _ _ _ _ _ _ ih =>
    rcases List.mem_cons.1 h with rfl | h
    · simp_all
    · exact ih (by simp) h
  | case5 _ _ _ _ _ _ _ ih => exact ih (by simp) h

/-- The words of a name are its letters and numbers. -/
theorem flatten_nameWords (name : List Char) :
    (nameWords name).flatten = name.filter isAlphanumeric := by
  have hpieces : ∀ pieces : List (List Char),
      (pieces.flatMap (humps .unknown [])).flatten = pieces.flatten := by
    intro pieces
    induction pieces with
    | nil => rfl
    | cons piece rest ih =>
      rw [List.flatMap_cons, List.flatten_append, ih, List.flatten_cons]
      cases piece with
      | nil => rfl
      | cons c cs => rw [flatten_humps .unknown [] (c :: cs) (by simp)]; rfl
  rw [nameWords, hpieces, flatten_splitOnP]
  simp

theorem ne_nil_of_mem_nameWords {name w : List Char} (h : w ∈ nameWords name) : w ≠ [] := by
  obtain ⟨piece, _, h⟩ := List.mem_flatMap.1 h
  exact ne_nil_of_mem_humps (by simp) h

/-- What stands in a word is a letter or a number of the name. -/
theorem mem_of_mem_nameWords {name w : List Char} (h : w ∈ nameWords name) {c : Char} (hc : c ∈ w) :
    c ∈ name ∧ isAlphanumeric c := by
  have hflat : c ∈ (nameWords name).flatten := List.mem_flatten.2 ⟨w, h, hc⟩
  rw [flatten_nameWords] at hflat
  exact List.mem_filter.1 hflat

/-! ### Small letters -/

theorem toLower_ne {c d : Char} (hc : c ≠ d) (hd : d.toNat < 97 ∨ 122 < d.toNat) : c.toLower ≠ d := by
  unfold Char.toLower
  split
  · rename_i hupper
    intro heq
    have hlow : 65 ≤ c.toNat := UInt32.le_iff_toNat_le.1 hupper.1
    have hhigh : c.toNat ≤ 90 := UInt32.le_iff_toNat_le.1 hupper.2
    have hnat := congrArg Char.toNat heq
    simp at hnat
    omega
  · exact hc

theorem toNat_ofNat_of_ne {n : Nat} {c : Char} (h : Char.ofNat n = c) (hc : c ≠ '\x00') :
    c.toNat = n := by
  subst h
  by_cases hn : n.isValidChar
  · rw [Char.ofNat, dif_pos hn]
    rfl
  · rw [Char.ofNat, dif_neg hn] at hc
    exact absurd rfl hc

theorem image?_eq_some {runs : Array (Nat × Nat × Nat × Nat)} {n : Nat} {c : Char}
    (h : Letter.image? runs n = some c) : ∃ run ∈ runs, c = Char.ofNat (run.2.2.2 + (n - run.1)) := by
  obtain ⟨run, hrun, rfl⟩ := Option.map_eq_some_iff.1 h
  exact ⟨run, Array.mem_of_find?_eq_some hrun, rfl⟩

/-- Behind the underscore stand all small letters that the tables give. -/
theorem lowerImages_gt : ∀ run ∈ Letter.lowerImages, '_'.toNat < run.2.2.2 := by decide +kernel

theorem lowerExpansions_plain : ∀ e ∈ Letter.lowerExpansions,
    e.2.toList.all ('_'.toNat < ·.toNat) ∧ e.2.toList ≠ [] := by decide

theorem lower_ne_nil (c : Char) : lower c ≠ [] := by
  unfold lower
  split
  · simp
  · split
    · rename_i e hfind
      exact (lowerExpansions_plain _ (Array.mem_of_find?_eq_some hfind)).2
    · simp

/-- No other character has a sign up to the underscore for its small form. -/
theorem not_mem_lower {c d : Char} (hc : c ≠ d) (hzero : d ≠ '\x00') (hd : d.toNat ≤ '_'.toNat) :
    d ∉ lower c := by
  have hunderscore : '_'.toNat = 95 := rfl
  unfold lower
  split
  · simpa [eq_comm] using toLower_ne hc (.inl (by omega))
  · split
    · rename_i e hfind
      intro hmem
      have hgt := List.all_eq_true.1 (lowerExpansions_plain _ (Array.mem_of_find?_eq_some hfind)).1
      exact absurd (of_decide_eq_true (hgt d hmem)) (by omega)
    · rw [List.mem_singleton]
      cases himage : Letter.image? Letter.lowerImages c.toNat with
      | none => exact hc.symm
      | some d' =>
        obtain ⟨run, hrun, rfl⟩ := image?_eq_some himage
        intro heq
        have hgt := lowerImages_gt run hrun
        have hnat := toNat_ofNat_of_ne heq.symm hzero
        omega

theorem lowerWord_ne_nil {w : List Char} (hw : w ≠ []) : lowerWord w ≠ [] := by
  fun_cases lowerWord w with
  | case1 => exact absurd rfl hw
  | case2 => simp
  | case3 c rest _ => simp [lower_ne_nil c]

theorem not_mem_lowerWord {w : List Char} {d : Char} (hw : d ∉ w) (hzero : d ≠ '\x00')
    (hd : d.toNat ≤ '_'.toNat) : d ∉ lowerWord w := by
  fun_induction lowerWord w with
  | case1 => exact hw
  | case2 =>
    rw [List.mem_singleton]
    rintro rfl
    exact absurd hd (by decide)
  | case3 c rest _ ih =>
    rw [List.mem_cons, not_or] at hw
    rw [List.mem_append, not_or]
    exact ⟨not_mem_lower (Ne.symm hw.1) hzero hd, ih hw.2⟩

theorem underscore_not_mem_lowerWord {w : List Char} (hw : '_' ∉ w) : '_' ∉ lowerWord w :=
  not_mem_lowerWord hw (by decide) (Nat.le_refl _)

/-! ### ASCII -/

/-- What holds of the first characters by their numbers holds of the ASCII characters. -/
theorem ascii_of_ofNat {P : Char → Prop} (h : ∀ n < 128, P (Char.ofNat n)) {c : Char}
    (hc : c.toNat < 128) : P c := by
  rw [← Char.ofNat_toNat c]
  exact h _ hc

theorem lowerWord_of_ascii {w : List Char} (hw : ∀ c ∈ w, c.toNat < 128) :
    lowerWord w = w.map Char.toLower := by
  fun_induction lowerWord w with
  | case1 => rfl
  | case2 => exact absurd (hw 'Σ' List.mem_cons_self) (by decide)
  | case3 c rest _ ih =>
    obtain ⟨hc, hrest⟩ := List.forall_mem_cons.1 hw
    rw [ih hrest, lower, if_pos hc]
    rfl

/-- Whether a character is a small letter or a digit of ASCII. -/
def isSmall (c : Char) : Bool := c.isLower || c.isDigit

theorem ascii_of_isSmall {c : Char} (h : isSmall c) : c.toNat < 128 := by
  have hle : c.toNat ≤ 'z'.toNat ∨ c.toNat ≤ '9'.toNat := by
    rw [isSmall, Bool.or_eq_true] at h
    refine h.imp (fun hlower => ?_) fun hdigit => (Char.isDigit_iff_toNat.1 hdigit).2
    have hz : (decide (c.val ≥ 'a'.val) && decide (c.val ≤ 'z'.val)) = true := hlower
    exact UInt32.le_iff_toNat_le.1 (of_decide_eq_true (Bool.and_eq_true_iff.1 hz).2)
  have hz : 'z'.toNat = 122 := rfl
  have hnine : '9'.toNat = 57 := rfl
  omega

theorem isSmall_toLower {c : Char} (hc : c.toNat < 128) (h : isAlphanumeric c) :
    isSmall c.toLower := by
  rw [isAlphanumeric, if_pos hc] at h
  exact ascii_of_ofNat (P := fun c => c.isAlphanum → isSmall c.toLower) (by decide) hc h

theorem toUpper_toLower {c : Char} (hc : c.toNat < 128) : c.toLower.toUpper = c.toUpper :=
  ascii_of_ofNat (P := fun c => c.toLower.toUpper = c.toUpper) (by decide) hc

/-- Capitals tell small letters and digits apart. -/
theorem toUpper_inj {c d : Char} (hc : isSmall c) (hd : isSmall d) (h : c.toUpper = d.toUpper) :
    c = d := by
  have hinverse : ∀ {c : Char}, isSmall c → c.toUpper.toLower = c := fun {c} hc =>
    ascii_of_ofNat (P := fun c => isSmall c → c.toUpper.toLower = c) (by decide)
      (ascii_of_isSmall hc) hc
  rw [← hinverse hc, h, hinverse hd]

theorem not_isUpper_of_isSmall {c : Char} (h : isSmall c) : c.isUpper = false :=
  ascii_of_ofNat (P := fun c => isSmall c → c.isUpper = false) (by decide) (ascii_of_isSmall h) h

theorem isUpper_toUpper {c : Char} (h : isSmall c) (hdigit : c.isDigit = false) :
    c.toUpper.isUpper :=
  ascii_of_ofNat (P := fun c => isSmall c → c.isDigit = false → c.toUpper.isUpper) (by decide)
    (ascii_of_isSmall h) h hdigit

theorem toUpper_of_isDigit {c : Char} (h : c.isDigit) : c.toUpper = c :=
  ascii_of_ofNat (P := fun c => c.isDigit → c.toUpper = c) (by decide)
    (ascii_of_isSmall (by simp [isSmall, h])) h

end ConfigTables.Text
