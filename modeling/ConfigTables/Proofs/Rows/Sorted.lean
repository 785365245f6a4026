import ConfigTables.Proofs.Rows.Keys

/-!
    Rows in the order of their keys. Where the key of a table is an integer, every row of it has a
    sort key, which is the integer that the export shows; so sorting never fails, and the sorted rows
    are the rows in ascending order of these integers. -/

namespace ConfigTables

theorem TypeExpr.isIntegerKey_iff {type : TypeExpr} :
    type.isIntegerKey = true ↔ type = .primitive .int ∨ type = .primitive .long := by
  constructor
  · intro h
    unfold isIntegerKey at h
    split at h
    · exact .inl rfl
    · exact .inr rfl
    · cases h
  · rintro (rfl | rfl) <;> rfl

/-- Two records with integer keys, the first of which is not the greater one. -/
def Record.KeyLe (index : String) (a b : Record) : Prop :=
  ∃ i k : Int, a.exportedKey index = some (.int i) ∧ b.exportedKey index = some (.int k) ∧ i ≤ k

/-- Two records with integer keys, the first of which is the smaller one. -/
def Record.KeyLt (index : String) (a b : Record) : Prop :=
  ∃ i k : Int, a.exportedKey index = some (.int i) ∧ b.exportedKey index = some (.int k) ∧ i < k

theorem Record.KeyLe.lt {index : String} {a b : Record} (h : a.KeyLe index b)
    (hne : a.exportedKey index ≠ b.exportedKey index) : a.KeyLt index b := by
  obtain ⟨i, k, hi, hk, hle⟩ := h
  refine ⟨i, k, hi, hk, lt_of_le_of_ne hle ?_⟩
  rintro rfl
  exact hne (hi.trans hk.symm)

namespace Store
variable {g : TypeGraph} {t : TableDef} {f : BeanDef × FieldDef} {records : List Record}

/-- A value of an integer type is sorted by the integer that the export shows. -/
theorem exists_sortKey {ds : Declarations} {scope : BeanDef} {type : TypeExpr} {v : Value}
    (h : ds.Conforms scope type v) (hinteger : type.isIntegerKey = true) :
    ∃ i, sortKey? type (some v) = some i ∧ v.toJson = .int i := by
  rcases TypeExpr.isIntegerKey_iff.1 hinteger with rfl | rfl
  · cases h with
    | primitive hholds =>
      cases hholds with
      | int i => exact ⟨i.toInt, rfl, rfl⟩
  · cases h with
    | primitive hholds =>
      cases hholds with
      | long i => exact ⟨i.toInt, rfl, rfl⟩

/-- The rows of a table with an integer key all have a sort key. -/
theorem exists_withSortKeys (hkey : g.types.keyField? t = some f)
    (hinteger : f.2.type.isIntegerKey = true) (hrows : ∀ r ∈ records, g.Row t r) :
    ∃ keyed, withSortKeys t f.2 records = .ok keyed ∧ keyed.map (·.2) = records ∧
      ∀ p ∈ keyed, p.2.exportedKey f.2.name = some (.int p.1) := by
  induction records with
  | nil => exact ⟨[], rfl, rfl, by simp⟩
  | cons r rest ih =>
    obtain ⟨hr, hrest⟩ := List.forall_mem_cons.1 hrows
    obtain ⟨keyed, hkeyed, hrecords, hkeys⟩ := ih hrest
    obtain ⟨v, hfield, hconforms, hexported⟩ := hr.exists_key hkey
    obtain ⟨i, hsort, hjson⟩ := exists_sortKey hconforms hinteger
    refine ⟨(i, r) :: keyed, ?_, by rw [List.map_cons, hrecords], ?_⟩
    · rw [withSortKeys, hfield]
      rw [hsort, hkeyed]
      rfl
    · exact List.forall_mem_cons.2 ⟨hjson ▸ hexported, hkeys⟩

theorem pairwise_sorted (keyed : List (Int × Record)) :
    (keyed.mergeSort fun a b => decide (a.1 ≤ b.1)).Pairwise fun a b => a.1 ≤ b.1 := by
  have hsorted : (keyed.mergeSort fun a b => decide (a.1 ≤ b.1)).Pairwise
      fun a b => decide (a.1 ≤ b.1) := by
    refine List.pairwise_mergeSort (fun a b c hab hbc => ?_) (fun a b => ?_) keyed
    · simp only [decide_eq_true_eq] at hab hbc ⊢
      omega
    · simp only [Bool.or_eq_true, decide_eq_true_eq]
      omega
  simpa only [decide_eq_true_eq] using hsorted

/-- Sorting the rows of a table succeeds and keeps all of them. With an integer key they ascend by it,
and otherwise they stay as they are. -/
theorem exists_sortByKey (hrows : ∀ r ∈ records, g.Row t r) :
    ∃ sorted, sortByKey g.types t records = .ok sorted ∧ sorted.Perm records ∧
      ∀ f, g.types.keyField? t = some f →
        (f.2.type.isIntegerKey = true → sorted.Pairwise (Record.KeyLe f.2.name)) ∧
        (f.2.type.isIntegerKey = false → sorted = records) := by
  cases hkey : g.types.keyField? t with
  | none => exact ⟨records, by rw [sortByKey, hkey], .refl _, by simp⟩
  | some f =>
    cases hinteger : f.2.type.isIntegerKey with
    | false =>
      refine ⟨records, ?_, .refl _, fun f' hf' => ?_⟩
      · rw [sortByKey, hkey]
        simp [hinteger]
      · cases hf'
        simp [hinteger]
    | true =>
      obtain ⟨keyed, hkeyed, hrecords, hkeys⟩ := exists_withSortKeys hkey hinteger hrows
      have hperm := List.mergeSort_perm keyed fun a b => decide (a.1 ≤ b.1)
      refine ⟨(keyed.mergeSort fun a b => decide (a.1 ≤ b.1)).map (·.2), ?_, ?_, fun f' hf' => ?_⟩
      · rw [sortByKey, hkey]
        simp only [hinteger, if_true, hkeyed]
        rfl
      · exact hrecords ▸ hperm.map (·.2)
      · cases hf'
        refine ⟨fun _ => ?_, by simp [hinteger]⟩
        rw [List.pairwise_map]
        refine (pairwise_sorted keyed).imp_of_mem fun {a b} ha hb hle => ?_
        exact ⟨a.1, b.1, hkeys a (hperm.mem_iff.1 ha), hkeys b (hperm.mem_iff.1 hb), hle⟩

end Store

end ConfigTables
