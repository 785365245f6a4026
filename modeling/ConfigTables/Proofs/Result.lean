import ConfigTables.Proofs.Lists

/-!
    When a computation that may fail succeeds: exactly when each of its steps does. Otherwise it fails
    with the failure of the first step that fails. -/

namespace ConfigTables
universe u v w
variable {ε : Type u} {ε' : Type w} {α β : Type v}

theorem bind_eq_ok_iff {x : Except ε α} {f : α → Except ε β} {b : β} :
    (x >>= f) = .ok b ↔ ∃ a, x = .ok a ∧ f a = .ok b := by
  cases x with
  | error e => exact iff_of_false (by rintro ⟨⟩) (by rintro ⟨a, ⟨⟩, _⟩)
  | ok a => exact ⟨fun h => ⟨a, rfl, h⟩, by rintro ⟨_, ⟨⟩, h⟩; exact h⟩

theorem bind_eq_error_iff {x : Except ε α} {f : α → Except ε β} {e : ε} :
    (x >>= f) = .error e ↔ x = .error e ∨ ∃ a, x = .ok a ∧ f a = .error e := by
  cases x <;> simp [bind, Except.bind]

theorem map_eq_ok_iff {x : Except ε α} {f : α → β} {b : β} :
    x.map f = .ok b ↔ ∃ a, x = .ok a ∧ f a = b := by
  cases x <;> simp [Except.map]

theorem mapError_eq_ok_iff {x : Except ε α} {f : ε → ε'} {a : α} :
    x.mapError f = .ok a ↔ x = .ok a := by
  cases x <;> simp [Except.mapError]

/-- A list of computations succeeds with the list of their results. -/
theorem mapM_eq_ok_iff {f : α → Except ε β} {l : List α} {bs : List β} :
    l.mapM f = .ok bs ↔ List.Forall₂ (fun a b => f a = .ok b) l bs := by
  induction l generalizing bs with
  | nil =>
    rw [List.mapM_nil, List.forall₂_nil_left_iff]
    exact ⟨fun h => (Except.ok.inj h).symm, fun h => h ▸ rfl⟩
  | cons a l ih =>
    rw [List.mapM_cons, bind_eq_ok_iff, List.forall₂_cons_left_iff]
    constructor
    · rintro ⟨b, hb, h⟩
      obtain ⟨bs', hbs', h⟩ := bind_eq_ok_iff.1 h
      exact ⟨b, bs', hb, ih.1 hbs', (Except.ok.inj h).symm⟩
    · rintro ⟨b, bs', hb, hbs', rfl⟩
      exact ⟨b, hb, bind_eq_ok_iff.2 ⟨bs', ih.2 hbs', rfl⟩⟩

/-- A list of computations fails with the failure of the first one that fails. -/
theorem mapM_eq_error_iff {f : α → Except ε β} {l : List α} {e : ε} :
    l.mapM f = .error e ↔ ∃ before a after, l = before ++ a :: after ∧
      (∀ x ∈ before, ∃ b, f x = .ok b) ∧ f a = .error e := by
  induction l with
  | nil => exact iff_of_false (by rintro ⟨⟩) (by rintro ⟨_ | _, _, _, ⟨⟩, _⟩)
  | cons x l ih =>
    rw [List.mapM_cons, bind_eq_error_iff]
    constructor
    · rintro (hx | ⟨b, hb, h⟩)
      · exact ⟨[], x, l, rfl, by simp, hx⟩
      · rcases bind_eq_error_iff.1 h with hl | ⟨bs, _, ⟨⟩⟩
        obtain ⟨before, a, after, rfl, hbefore, ha⟩ := ih.1 hl
        exact ⟨x :: before, a, after, rfl, List.forall_mem_cons.2 ⟨⟨b, hb⟩, hbefore⟩, ha⟩
    · rintro ⟨_ | ⟨y, before⟩, a, after, hl, hbefore, ha⟩
      · cases hl
        exact .inl ha
      · cases hl
        obtain ⟨⟨b, hb⟩, hbefore⟩ := List.forall_mem_cons.1 hbefore
        exact .inr ⟨b, hb, bind_eq_error_iff.2 (.inl (ih.2 ⟨before, a, after, rfl, hbefore, ha⟩))⟩

theorem exists_mapM {f : α → Except ε β} {l : List α} (h : ∀ a ∈ l, ∃ b, f a = .ok b) :
    ∃ bs, l.mapM f = .ok bs := by
  induction l with
  | nil => exact ⟨[], rfl⟩
  | cons a l ih =>
    rw [List.forall_mem_cons] at h
    obtain ⟨⟨b, hb⟩, hl⟩ := h
    obtain ⟨bs, hbs⟩ := ih hl
    exact ⟨b :: bs, mapM_eq_ok_iff.2 (.cons hb (mapM_eq_ok_iff.1 hbs))⟩

/-- A list of computations only succeeds when each of them does, with its result among the results. -/
theorem exists_of_mapM_eq_ok {f : α → Except ε β} {l : List α} {bs : List β} {a : α}
    (h : l.mapM f = .ok bs) (ha : a ∈ l) : ∃ b ∈ bs, f a = .ok b := by
  obtain ⟨k, hk, rfl⟩ := List.mem_iff_getElem.1 ha
  have hall := mapM_eq_ok_iff.1 h
  have hk' : k < bs.length := hall.length_eq ▸ hk
  exact ⟨bs.get ⟨k, hk'⟩, List.get_mem .., hall.get hk hk'⟩

/-- Each result of a list of computations comes from one of them. -/
theorem exists_of_mem_mapM {f : α → Except ε β} {l : List α} {bs : List β} {b : β}
    (h : l.mapM f = .ok bs) (hb : b ∈ bs) : ∃ a ∈ l, f a = .ok b := by
  have hall := mapM_eq_ok_iff.1 h
  clear h
  induction hall with
  | nil => cases hb
  | cons hab _ ih =>
    rcases List.mem_cons.1 hb with rfl | hb
    · exact ⟨_, List.mem_cons_self, hab⟩
    · obtain ⟨a, ha, hab⟩ := ih hb
      exact ⟨a, List.mem_cons_of_mem _ ha, hab⟩

/-- What each computation keeps of its argument, a list of them keeps in order. -/
theorem map_eq_of_mapM {γ : Type*} {f : α → Except ε β} {p : β → γ} {q : α → γ} {l : List α}
    {bs : List β} (h : l.mapM f = .ok bs) (hkept : ∀ a b, f a = .ok b → p b = q a) :
    bs.map p = l.map q := map_eq_of_forall₂ (mapM_eq_ok_iff.1 h) hkept

/-- What a list of computations gives, a longer list that begins with them gives first. -/
theorem prefix_of_mapM {f : α → Except ε β} {l l' : List α} {bs bs' : List β} (h : l <+: l')
    (hl : l.mapM f = .ok bs) (hl' : l'.mapM f = .ok bs') : bs <+: bs' := by
  obtain ⟨rest, rfl⟩ := h
  rw [List.mapM_append] at hl'
  obtain ⟨first, hfirst, hl'⟩ := bind_eq_ok_iff.1 hl'
  cases hl.symm.trans hfirst
  obtain ⟨others, _, hl'⟩ := bind_eq_ok_iff.1 hl'
  cases hl'
  exact List.prefix_append bs others

end ConfigTables
