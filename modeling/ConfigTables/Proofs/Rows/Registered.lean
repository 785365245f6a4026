import ConfigTables.Proofs.NameMap
import ConfigTables.Proofs.Result
import ConfigTables.Rows.Load

/-!
    What a store holds after registrations. A registration puts the merged records of a table under
    its full name and leaves the other names alone. Loading is a run of registrations: under a name it
    leaves the rows of a loaded table of that name or, when no table has it, what was there. -/

namespace ConfigTables.Store
variable {s s' : Store} {t : TableDef} {main patch : List Record}

/-- The rows of a table are registered, under its full name. -/
def Holds (s : Store) (t : TableDef) (main patch : List Record) : Prop :=
  ∃ merged, mergeRecords t main patch = .ok merged ∧
    s.tables.get? t.fullName = some ⟨t, main, patch, merged⟩

theorem register_eq_ok (h : s.register t main patch = .ok s') :
    s'.excluded = s.excluded ∧ s'.Holds t main patch ∧
      ∀ name, t.fullName ≠ name → s'.tables.get? name = s.tables.get? name := by
  obtain ⟨merged, hmerged, h⟩ := bind_eq_ok_iff.1 h
  cases h
  refine ⟨rfl, ⟨merged, hmerged, ?_⟩, fun name hne => ?_⟩
  · rw [NameMap.get?_insert, if_pos rfl]
  · rw [NameMap.get?_insert, if_neg hne]

/-- A run of registrations leaves under each name the rows of a table of that name, if there is one
among those registered, and otherwise what was there. -/
theorem registerAll_eq_ok {entries : List (TableDef × Loaded)}
    (h : s.registerAll entries = (s', .ok ())) : s'.excluded = s.excluded ∧ ∀ name,
      (∃ e ∈ entries, e.1.fullName = name ∧
        ∃ main patch, e.2 = .rows main patch ∧ s'.Holds e.1 main patch) ∨
      (∀ e ∈ entries, e.1.fullName ≠ name) ∧ s'.tables.get? name = s.tables.get? name := by
  induction entries generalizing s with
  | nil =>
    cases h
    exact ⟨rfl, fun name => .inr ⟨by simp, rfl⟩⟩
  | cons entry rest ih =>
    obtain ⟨t, loaded⟩ := entry
    rw [registerAll] at h
    cases loaded with
    | failed e => cases h
    | panicked => cases h
    | rows main patch =>
      simp only [Loaded.rows?] at h
      cases hregister : s.register t main patch with
      | error e => simp [hregister] at h
      | ok s₁ =>
        simp only [hregister] at h
        obtain ⟨hexcluded₁, hholds₁, hother₁⟩ := register_eq_ok hregister
        obtain ⟨hexcluded, hrest⟩ := ih h
        refine ⟨hexcluded.trans hexcluded₁, fun name => ?_⟩
        rcases hrest name with ⟨e, he, hname, hloaded⟩ | ⟨hnone, hsame⟩
        · exact .inl ⟨e, List.mem_cons_of_mem _ he, hname, hloaded⟩
        · by_cases hname : t.fullName = name
          · -- the rows of this table stay, since no later table has its name
            obtain ⟨merged, hmerged, hget⟩ := hholds₁
            refine .inl ⟨_, List.mem_cons_self, hname, main, patch, rfl, merged, hmerged, ?_⟩
            rw [hname, hsame, ← hname, hget]
          · refine .inr ⟨List.forall_mem_cons.2 ⟨hname, hnone⟩, ?_⟩
            rw [hsame, hother₁ name hname]

/-- After loading tables of different names the rows of each are registered. -/
theorem holds_of_load {loader : Loader} {tables : List TableDef}
    (h : s.load loader tables = (s', .ok ()))
    (hnames : ∀ t ∈ tables, ∀ u ∈ tables, t.fullName = u.fullName → t = u) :
    s'.excluded = s.excluded ∧
      ∀ t ∈ tables, ∃ main patch, loader t = .rows main patch ∧ s'.Holds t main patch := by
  obtain ⟨hexcluded, hall⟩ := registerAll_eq_ok h
  refine ⟨hexcluded, fun t ht => ?_⟩
  rcases hall t.fullName with ⟨e, he, hname, main, patch, hloaded, hholds⟩ | ⟨hnone, _⟩
  · obtain ⟨u, hu, rfl⟩ := List.mem_map.1 he
    cases hnames u hu t ht hname
    exact ⟨main, patch, hloaded, hholds⟩
  · exact absurd rfl (hnone _ (List.mem_map_of_mem ht))

/-- With no tag excluded, leaving out the records of excluded tags leaves out none. -/
theorem filter_isKept_nil (records : List Record) : records.filter (·.isKept []) = records := by
  simp [Record.isKept]

/-- The export of a table whose name is registered: the merged records that are kept, unless a single
row is asked for and these are not one. -/
theorem exportRecords_of_get? {d : TableData} (h : s.tables.get? t.fullName = some d) :
    s.exportRecords t =
      let records := d.merged.filter (·.isKept s.excluded)
      if t.isSingleton && records.length ≠ 1 then .error (.singleton t.fullName records.length)
      else .ok records := by
  have hrecords : (if s.excluded.isEmpty then d.merged else d.merged.filter (·.isKept s.excluded)) =
      d.merged.filter (·.isKept s.excluded) := by
    split
    · rename_i hempty
      rw [List.isEmpty_iff.1 hempty, filter_isKept_nil]
    · rfl
  rw [exportRecords, allRecords, data, h, ← hrecords]
  rfl

end ConfigTables.Store
