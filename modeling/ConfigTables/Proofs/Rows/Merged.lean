import ConfigTables.Proofs.NameMap
import ConfigTables.Proofs.Rows.Keys
import ConfigTables.Rows.Merge

/-!
    What merging comes to. Of the records of a map table those that win their keys are left, one for
    each key: a patch record always wins, and a main record does unless a patch record has its key.
    The winners stand in the places of the main records, and patch records of new keys follow.
    `overlay` has these properties for keys that are texts; they carry over to every other form of the
    keys that tells the same of two records. -/

namespace ConfigTables

/-! ### Entries with keys -/

section Overlay
variable {α : Type} {main patch : List (String × α)} {e : String × α}

theorem overlay_subset (main patch : List (String × α)) : overlay main patch ⊆ main ++ patch := by
  intro e he
  rcases List.mem_append.1 he with he | he
  · obtain ⟨m, hm, rfl⟩ := List.mem_map.1 he
    cases hfind : patch.find? (·.1 = m.1) with
    | none => exact List.mem_append_left _ hm
    | some p => exact List.mem_append_right _ (List.mem_of_find?_eq_some hfind)
  · exact List.mem_append_right _ (List.mem_filter.1 he).1

/-- A replaced entry keeps its key. -/
theorem fst_replaced (m : String × α) : ((patch.find? (·.1 = m.1)).getD m).1 = m.1 := by
  cases hfind : patch.find? (·.1 = m.1) with
  | none => rfl
  | some p => simpa using List.find?_some hfind

theorem map_fst_overlay : (overlay main patch).map (·.1) =
    main.map (·.1) ++ (patch.filter fun e => !main.any (·.1 = e.1)).map (·.1) := by
  rw [overlay, List.map_append, List.map_map]
  congr 1
  exact List.map_congr_left fun m _ => fst_replaced m

/-- Where both sides have different keys, so has what is put together from them. -/
theorem nodup_overlay (hmain : (main.map (·.1)).Nodup) (hpatch : (patch.map (·.1)).Nodup) :
    ((overlay main patch).map (·.1)).Nodup := by
  rw [map_fst_overlay, List.nodup_append]
  refine ⟨hmain, hpatch.sublist (List.filter_sublist.map _), ?_⟩
  intro key hkey key' hkey' hsame
  obtain ⟨m, hm, rfl⟩ := List.mem_map.1 hkey
  obtain ⟨p, hp, rfl⟩ := List.mem_map.1 hkey'
  have hnew := (List.mem_filter.1 hp).2
  simp only [Bool.not_eq_true', List.any_eq_false, decide_eq_true_eq] at hnew
  exact hnew m hm hsame

/-- The entries put together are those of the patch, and those of the main side with another key. -/
theorem mem_overlay_iff (hpatch : (patch.map (·.1)).Nodup) :
    e ∈ overlay main patch ↔ e ∈ patch ∨ e ∈ main ∧ ∀ p ∈ patch, p.1 ≠ e.1 := by
  constructor
  · intro he
    rcases List.mem_append.1 he with he | he
    · obtain ⟨m, hm, rfl⟩ := List.mem_map.1 he
      cases hfind : patch.find? (·.1 = m.1) with
      | none => exact .inr ⟨hm, by simpa using hfind⟩
      | some p => exact .inl (List.mem_of_find?_eq_some hfind)
    · exact .inl (List.mem_filter.1 he).1
  · rintro (he | ⟨he, hnone⟩)
    · by_cases hold : ∃ m ∈ main, m.1 = e.1
      · obtain ⟨m, hm, hkey⟩ := hold
        refine List.mem_append_left _ (List.mem_map.2 ⟨m, hm, ?_⟩)
        rw [hkey, NameMap.find?_of_mem hpatch he]
        rfl
      · refine List.mem_append_right _ (List.mem_filter.2 ⟨he, ?_⟩)
        simpa using fun key value hm hkey => hold ⟨(key, value), hm, hkey⟩
    · refine List.mem_append_left _ (List.mem_map.2 ⟨e, he, ?_⟩)
      rw [List.find?_eq_none.2 (by simpa using hnone)]
      rfl

end Overlay

/-- The records of a side are kept in order, each with its key, and no key is there twice. -/
theorem keyedRecords_eq_ok {t : TableDef} {index : String} {side : Side} {seen : List String}
    {records : List Record} {entries : List (String × Record)}
    (h : keyedRecords t index side seen records = .ok entries) :
    entries.map (·.2) = records ∧ (∀ e ∈ entries, e.2.key t index = .ok e.1) ∧
      (entries.map (·.1)).Nodup ∧ ∀ e ∈ entries, e.1 ∉ seen := by
  induction records generalizing seen entries with
  | nil =>
    cases h
    simp
  | cons r rest ih =>
    obtain ⟨key, hkey, h⟩ := bind_eq_ok_iff.1 h
    split at h
    · cases h
    · rename_i hnew
      obtain ⟨others, hothers, h⟩ := bind_eq_ok_iff.1 h
      cases h
      obtain ⟨hrecords, hkeys, hnodup, hseen⟩ := ih hothers
      refine ⟨by simp [hrecords], List.forall_mem_cons.2 ⟨hkey, hkeys⟩, ?_, ?_⟩
      · refine List.nodup_cons.2 ⟨fun hmem => ?_, hnodup⟩
        obtain ⟨e, he, hsame⟩ := List.mem_map.1 hmem
        exact hseen e he (hsame ▸ List.mem_cons_self)
      · refine List.forall_mem_cons.2 ⟨hnew, fun e he hmem => ?_⟩
        exact hseen e he (List.mem_cons_of_mem _ hmem)

/-! ### Merged records -/

section Merged
variable {κ : Type} {key : Record → κ} {main patch merged : List Record} {r : Record}

/-- A record wins its key when it is one of the patch, or no patch record has the key. -/
def Wins (key : Record → κ) (main patch : List Record) (r : Record) : Prop :=
  r ∈ patch ∨ r ∈ main ∧ ∀ p ∈ patch, key p ≠ key r

theorem Wins.mem (h : Wins key main patch r) : r ∈ main ++ patch := by
  rcases h with h | ⟨h, _⟩
  · exact List.mem_append_right _ h
  · exact List.mem_append_left _ h

/-- Every key has a winner. -/
theorem exists_wins (h : r ∈ main ++ patch) : ∃ w, Wins key main patch w ∧ key w = key r := by
  by_cases hpatch : ∃ p ∈ patch, key p = key r
  · obtain ⟨p, hp, hkey⟩ := hpatch
    exact ⟨p, .inl hp, hkey⟩
  · rcases List.mem_append.1 h with h | h
    · exact ⟨r, .inr ⟨h, fun p hp hkey => hpatch ⟨p, hp, hkey⟩⟩, rfl⟩
    · exact absurd ⟨r, h, rfl⟩ hpatch

/-- Records in merge order: main records, or what replaces them, in their places, and then the patch
records whose keys are new. -/
structure InMergeOrder (key : Record → κ) (main patch replaced added : List Record) : Prop where
  places : List.Forall₂ (fun m w => key w = key m) main replaced
  added_sublist : added.Sublist patch
  mem_added_iff : ∀ p ∈ patch, p ∈ added ↔ ∀ m ∈ main, key m ≠ key p

/-- The merged records of a map table: the winners, one for each key, in merge order. -/
structure MergedBy (key : Record → κ) (main patch merged : List Record) : Prop where
  distinct : (merged.map key).Nodup
  mem_iff : ∀ r, r ∈ merged ↔ Wins key main patch r
  order : ∃ replaced added, merged = replaced ++ added ∧
    InMergeOrder key main patch replaced added

/-- A key of either side has one winner among the merged records. -/
theorem MergedBy.exists_winner (h : MergedBy key main patch merged) (hr : r ∈ main ++ patch) :
    ∃ w ∈ merged, ∀ w', Wins key main patch w' ∧ key w' = key r ↔ w' = w := by
  obtain ⟨w, hw, hkey⟩ : ∃ w, Wins key main patch w ∧ key w = key r := exists_wins hr
  refine ⟨w, (h.mem_iff w).2 hw, fun w' => ⟨fun ⟨hw', hkey'⟩ => ?_, ?_⟩⟩
  · exact List.inj_on_of_nodup_map h.distinct ((h.mem_iff w').2 hw') ((h.mem_iff w).2 hw)
      (hkey'.trans hkey.symm)
  · rintro rfl
    exact ⟨hw, hkey⟩

section Entries
variable {main patch : List (String × Record)}

/-- Entries that are put together keep the places of the main side, whatever key tells the same of
two records as their texts do. -/
theorem inMergeOrder_overlay
    (hkey : ∀ a ∈ main ++ patch, ∀ b ∈ main ++ patch, a.1 = b.1 ↔ key a.2 = key b.2) :
    InMergeOrder key (main.map (·.2)) (patch.map (·.2))
      ((main.map fun m => (patch.find? (·.1 = m.1)).getD m).map (·.2))
      ((patch.filter fun e => !main.any (·.1 = e.1)).map (·.2)) where
  places := by
    rw [List.map_map, List.forall₂_map_left_iff, List.forall₂_map_right_iff, List.forall₂_same]
    intro m hm
    have hmem : (patch.find? (·.1 = m.1)).getD m ∈ main ++ patch :=
      overlay_subset main patch (List.mem_append_left _ (List.mem_map.2 ⟨m, hm, rfl⟩))
    exact (hkey _ hmem m (List.mem_append_left _ hm)).1 (fst_replaced m)
  added_sublist := List.filter_sublist.map _
  mem_added_iff := by
    refine List.forall_mem_map.2 fun e he => ?_
    rw [List.forall_mem_map]
    constructor
    · intro hadded m hm hsame
      obtain ⟨e', he', heq⟩ := List.mem_map.1 hadded
      obtain ⟨he', hnew⟩ := List.mem_filter.1 he'
      simp only [Bool.not_eq_true', List.any_eq_false, decide_eq_true_eq] at hnew
      refine hnew m hm ((hkey m (List.mem_append_left _ hm) e' (List.mem_append_right _ he')).2 ?_)
      rw [hsame, heq]
    · intro hnew
      refine List.mem_map_of_mem (List.mem_filter.2 ⟨he, ?_⟩)
      simp only [Bool.not_eq_true', List.any_eq_false, decide_eq_true_eq]
      intro m hm hsame
      exact hnew m hm ((hkey m (List.mem_append_left _ hm) e (List.mem_append_right _ he)).1 hsame)

/-- Records that are put together by their texts are merged by each key that tells the same. -/
theorem mergedBy_overlay (hmain : (main.map (·.1)).Nodup) (hpatch : (patch.map (·.1)).Nodup)
    (hkey : ∀ a ∈ main ++ patch, ∀ b ∈ main ++ patch, a.1 = b.1 ↔ key a.2 = key b.2) :
    MergedBy key (main.map (·.2)) (patch.map (·.2)) ((overlay main patch).map (·.2)) where
  distinct := by
    have hnodup := nodup_overlay hmain hpatch
    rw [List.Nodup, List.pairwise_map] at hnodup
    rw [List.map_map, List.Nodup, List.pairwise_map]
    refine hnodup.imp_of_mem fun {a b} ha hb hne hsame => hne ?_
    exact (hkey a (overlay_subset _ _ ha) b (overlay_subset _ _ hb)).2 hsame
  mem_iff := by
    intro r
    simp only [List.mem_map, mem_overlay_iff hpatch]
    constructor
    · rintro ⟨e, he | ⟨he, hnone⟩, rfl⟩
      · exact .inl (List.mem_map_of_mem he)
      · refine .inr ⟨List.mem_map_of_mem he, List.forall_mem_map.2 fun p hp hsame => ?_⟩
        exact hnone p hp ((hkey p (List.mem_append_right _ hp) e (List.mem_append_left _ he)).2 hsame)
    · rintro (hr | ⟨hr, hnone⟩)
      · obtain ⟨e, he, rfl⟩ := List.mem_map.1 hr
        exact ⟨e, .inl he, rfl⟩
      · obtain ⟨e, he, rfl⟩ := List.mem_map.1 hr
        refine ⟨e, .inr ⟨he, fun p hp hsame => ?_⟩, rfl⟩
        exact hnone p.2 (List.mem_map_of_mem hp)
          ((hkey p (List.mem_append_right _ hp) e (List.mem_append_left _ he)).1 hsame)
  order := ⟨_, _, List.map_append, inMergeOrder_overlay hkey⟩

end Entries

end Merged

section Records
variable {g : TypeGraph} {t : TableDef} {f : BeanDef × FieldDef} {main patch merged : List Record}

/-- Merging makes no new records. -/
theorem mem_of_mergeRecords (h : mergeRecords t main patch = .ok merged) :
    merged ⊆ main ++ patch := by
  unfold mergeRecords at h
  split at h
  · cases h
    split
    · exact List.subset_append_left _ _
    · exact List.subset_append_right _ _
  · split at h
    · cases h
      exact List.subset_append_left _ _
    · cases h
  · split at h
    · cases h
    · obtain ⟨mainEntries, hmain, h⟩ := bind_eq_ok_iff.1 h
      obtain ⟨patchEntries, hpatch, h⟩ := bind_eq_ok_iff.1 h
      cases h
      rw [← (keyedRecords_eq_ok hmain).1, ← (keyedRecords_eq_ok hpatch).1, ← List.map_append]
      exact List.map_subset _ (overlay_subset _ _)

/-- The rows of a map table are merged by the exported values of the index field. -/
theorem mergedBy_mergeRecords (hkey : g.types.keyField? t = some f) (hmode : t.mode = .map)
    (hmain : ∀ r ∈ main, g.Row t r) (hpatch : ∀ r ∈ patch, g.Row t r)
    (h : mergeRecords t main patch = .ok merged) :
    MergedBy (·.exportedKey f.2.name) main patch merged := by
  obtain ⟨_, _, _, hindex⟩ := g.keyField?_eq_some hkey
  simp only [mergeRecords, hmode, hindex] at h
  obtain ⟨mainEntries, hmainEntries, h⟩ := bind_eq_ok_iff.1 h
  obtain ⟨patchEntries, hpatchEntries, h⟩ := bind_eq_ok_iff.1 h
  cases h
  obtain ⟨rfl, hmainKeys, hmainNodup, _⟩ := keyedRecords_eq_ok hmainEntries
  obtain ⟨rfl, hpatchKeys, hpatchNodup, _⟩ := keyedRecords_eq_ok hpatchEntries
  have hrow : ∀ e ∈ mainEntries ++ patchEntries, g.Row t e.2 ∧ e.2.key t f.2.name = .ok e.1 := by
    intro e he
    rcases List.mem_append.1 he with he | he
    · exact ⟨hmain _ (List.mem_map_of_mem he), hmainKeys e he⟩
    · exact ⟨hpatch _ (List.mem_map_of_mem he), hpatchKeys e he⟩
  refine mergedBy_overlay hmainNodup hpatchNodup fun a ha b hb => ?_
  exact (hrow a ha).1.key_eq_iff (hrow b hb).1 hkey (hrow a ha).2 (hrow b hb).2

end Records

end ConfigTables
