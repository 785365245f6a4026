import Mathlib.Data.List.Forall2
import Mathlib.Data.List.Nodup

/-!
    Facts about lists that have nothing to do with tables. Two lists go through together: by what
    their elements have in common, or by a relation from place to place. A list is split at some
    elements and put together again with others between the pieces, and nothing else is lost. -/

namespace ConfigTables
variable {α β γ : Type*}

/-! ### Two lists -/

/-- Lists that agree under two projections have a partner for each element. -/
theorem exists_zip_of_mem {f : α → γ} {h : β → γ} {as : List α} {bs : List β}
    (hnames : bs.map h = as.map f) {a : α} (ha : a ∈ as) : ∃ b, (a, b) ∈ as.zip bs ∧ h b = f a := by
  induction as generalizing bs with
  | nil => cases ha
  | cons x as ih =>
    cases bs with
    | nil => cases hnames
    | cons y bs =>
      obtain ⟨hy, hrest⟩ := List.cons.inj hnames
      rcases List.mem_cons.1 ha with rfl | ha
      · exact ⟨y, List.mem_cons_self, hy⟩
      · obtain ⟨b, hb, hname⟩ := ih hrest ha
        exact ⟨b, List.mem_cons_of_mem _ hb, hname⟩

/-- What related elements have in common, related lists have in order. -/
theorem map_eq_of_forall₂ {R : α → β → Prop} {p : β → γ} {q : α → γ} {as : List α} {bs : List β}
    (h : List.Forall₂ R as bs) (hkept : ∀ a b, R a b → p b = q a) : bs.map p = as.map q := by
  induction h with
  | nil => rfl
  | cons hab _ ih => rw [List.map_cons, List.map_cons, ih, hkept _ _ hab]

theorem nodup_map_iff {f : α → β} {g : α → γ} {l : List α}
    (h : ∀ a ∈ l, ∀ b ∈ l, f a = f b ↔ g a = g b) : (l.map f).Nodup ↔ (l.map g).Nodup := by
  rw [List.Nodup, List.Nodup, List.pairwise_map, List.pairwise_map]
  exact List.Pairwise.iff_of_mem fun {a b} ha hb => not_congr (h a ha b hb)

theorem nodup_map_concat {f : α → β} {l : List α} {x : α} :
    ((l ++ [x]).map f).Nodup ↔ (l.map f).Nodup ∧ f x ∉ l.map f := by
  rw [List.map_append, List.nodup_append]
  simp only [List.map_cons, List.map_nil, List.mem_singleton, forall_eq]
  refine and_congr_right fun _ => ⟨fun h hmem => h.2 _ hmem rfl, fun h => ⟨by simp, ?_⟩⟩
  rintro p hp rfl
  exact h hp

/-- A search finds a member that fits exactly when nothing before it fits. -/
theorem find?_eq_some_iff_takeWhile [DecidableEq α] {p : α → Bool} {l : List α} {a : α}
    (ha : a ∈ l) (hp : p a) : l.find? p = some a ↔ ∀ x ∈ l.takeWhile (· ≠ a), ¬p x := by
  induction l with
  | nil => cases ha
  | cons x rest ih =>
    by_cases hx : x = a
    · subst hx
      simp [hp]
    · have hrest : a ∈ rest := (List.mem_cons.1 ha).resolve_left (Ne.symm hx)
      rw [List.takeWhile_cons_of_pos (by simpa using hx), List.forall_mem_cons]
      by_cases hfits : p x
      · simp [hfits, hx]
      · rw [List.find?_cons_of_neg hfits, ih hrest]
        simp [hfits]

/-! ### Pieces -/

/-- What separates a list does not stand inside its pieces. -/
theorem not_mem_of_mem_splitOn [DecidableEq α] {a : α} {l piece : List α}
    (h : piece ∈ l.splitOn a) : a ∉ piece := by
  induction l generalizing piece with
  | nil =>
    rw [List.splitOn_nil, List.mem_singleton] at h
    simp [h]
  | cons b l ih =>
    rw [List.splitOn_cons_eq_if_modifyHead] at h
    split at h
    · rcases List.mem_cons.1 h with rfl | h
      · simp
      · exact ih h
    · obtain ⟨head, tail, hsplit⟩ := List.exists_cons_of_ne_nil (List.splitOn_ne_nil a l)
      rw [hsplit] at ih h
      rcases List.mem_cons.1 h with rfl | h
      · rename_i hb
        rw [List.mem_cons, not_or]
        exact ⟨fun hab => hb (by rw [hab, beq_self_eq_true]), ih List.mem_cons_self⟩
      · exact ih (List.mem_cons_of_mem _ h)

theorem flatten_splitOnP (p : α → Bool) (l : List α) : (l.splitOnP p).flatten = l.filter (!p ·) := by
  induction l with
  | nil => rfl
  | cons a l ih =>
    obtain ⟨first, rest, hsplit⟩ := List.exists_cons_of_ne_nil (List.splitOnP_ne_nil p l)
    rw [List.splitOnP_cons_eq_if_modifyHead]
    by_cases ha : p a
    · simp [ha, ih]
    · rw [if_neg ha, List.filter_cons_of_pos (by simpa using ha), ← ih, hsplit]
      rfl

/-- What separates the pieces may be put for each other. -/
theorem splitOnP_map {p : α → Bool} {f : α → α} (hf : ∀ a, p a = false → f a = a)
    (hp : ∀ a, p (f a) = p a) (l : List α) : (l.map f).splitOnP p = l.splitOnP p := by
  induction l with
  | nil => rfl
  | cons a l ih =>
    rw [List.map_cons, List.splitOnP_cons_eq_if_modifyHead, List.splitOnP_cons_eq_if_modifyHead,
      hp, ih]
    cases ha : p a with
    | true => rfl
    | false => rw [hf a ha]

theorem not_mem_intercalate {sep : List α} {l : List (List α)} {a : α} (hsep : a ∉ sep)
    (hl : ∀ w ∈ l, a ∉ w) : a ∉ sep.intercalate l := by
  induction l with
  | nil => simp
  | cons w rest ih =>
    rw [List.forall_mem_cons] at hl
    cases rest with
    | nil =>
      rw [List.intercalate_singleton]
      exact hl.1
    | cons next rest =>
      rw [List.intercalate_cons_cons, List.mem_append, List.mem_append, not_or, not_or]
      exact ⟨⟨hl.1, hsep⟩, ih hl.2⟩

theorem flatMap_intercalate (f : α → List β) (sep : List α) (l : List (List α)) :
    (sep.intercalate l).flatMap f = (sep.flatMap f).intercalate (l.map (·.flatMap f)) := by
  induction l with
  | nil => simp
  | cons w rest ih =>
    cases rest with
    | nil => simp
    | cons next rest =>
      rw [List.map_cons] at ih
      rw [List.map_cons, List.map_cons, List.intercalate_cons_cons, List.intercalate_cons_cons,
        List.flatMap_append, List.flatMap_append, ih]

end ConfigTables
