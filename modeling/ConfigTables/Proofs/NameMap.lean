import ConfigTables.NameMap
import Mathlib.Data.List.Nodup
import Mathlib.Data.String.Basic

/-!
    The entries of a map stand in ascending order of their names, so none is there twice and the
    list of entries says the same as the look-up. A map made from a list holds the last value given
    for a name. -/

namespace ConfigTables.NameMap
variable {α : Type}

/-- The entries ascend strictly by name. -/
def Ascending (m : NameMap α) : Prop := m.entries.Pairwise (·.1 < ·.1)

theorem ascending_empty : (empty : NameMap α).Ascending := List.Pairwise.nil

theorem mem_insertEntry {name : String} {value : α} {entries : List (String × α)} {x : String × α}
    (h : x ∈ insertEntry name value entries) : x = (name, value) ∨ x ∈ entries := by
  induction entries with
  | nil => simpa [insertEntry] using h
  | cons entry rest ih =>
    unfold insertEntry at h
    split at h
    · simpa using h
    · split at h
      · rcases List.mem_cons.1 h with rfl | h
        · exact .inl rfl
        · exact .inr (List.mem_cons_of_mem _ h)
      · rcases List.mem_cons.1 h with rfl | h
        · exact .inr List.mem_cons_self
        · exact (ih h).imp_right (List.mem_cons_of_mem _)

theorem pairwise_insertEntry {name : String} {value : α} {entries : List (String × α)}
    (h : entries.Pairwise (·.1 < ·.1)) : (insertEntry name value entries).Pairwise (·.1 < ·.1) := by
  induction entries with
  | nil => simp [insertEntry]
  | cons entry rest ih =>
    obtain ⟨hhead, hrest⟩ := List.pairwise_cons.1 h
    unfold insertEntry
    split
    · rename_i hlt
      refine List.pairwise_cons.2 ⟨fun x hx => ?_, h⟩
      rcases List.mem_cons.1 hx with rfl | hx
      · exact hlt
      · exact lt_trans hlt (hhead x hx)
    · split
      · rename_i heq
        exact List.pairwise_cons.2 ⟨fun x hx => heq ▸ hhead x hx, hrest⟩
      · rename_i hnlt hne
        refine List.pairwise_cons.2 ⟨fun x hx => ?_, ih hrest⟩
        rcases mem_insertEntry hx with rfl | hx
        · exact lt_of_le_of_ne (not_lt.1 hnlt) (Ne.symm hne)
        · exact hhead x hx

theorem Ascending.insert {m : NameMap α} (h : m.Ascending) (name : String) (value : α) :
    (m.insert name value).Ascending := pairwise_insertEntry h

theorem get?_insert_eq_some_iff {m : NameMap α} {name other : String} {value w : α} :
    (m.insert name value).get? other = some w ↔
      (name = other ∧ value = w) ∨ (name ≠ other ∧ m.get? other = some w) := by
  rw [get?_insert]
  by_cases h : name = other <;> simp [h]

/-- In an ascending map the entries are what the look-up finds. -/
theorem mem_entries_iff {m : NameMap α} (h : m.Ascending) {name : String} {value : α} :
    (name, value) ∈ m.entries ↔ m.get? name = some value := by
  obtain ⟨entries⟩ := m
  simp only [Ascending, get?] at h ⊢
  induction entries with
  | nil => simp
  | cons entry rest ih =>
    obtain ⟨hhead, hrest⟩ := List.pairwise_cons.1 h
    by_cases heq : entry.1 = name
    · rw [List.find?_cons_of_pos (by simpa using heq), Option.map_some, Option.some.injEq,
        List.mem_cons]
      constructor
      · rintro (rfl | hmem)
        · rfl
        · exact absurd (heq ▸ hhead _ hmem) (lt_irrefl _)
      · rintro rfl
        exact .inl (by rw [← heq])
    · rw [List.find?_cons_of_neg (by simpa using heq), ← ih hrest, List.mem_cons]
      exact or_iff_right fun h => heq (congrArg Prod.fst h).symm

theorem get?_foldl_insert (entries : List (String × α)) (m : NameMap α) (name : String) :
    (entries.foldl (fun m entry => m.insert entry.1 entry.2) m).get? name =
      ((entries.reverse.find? (·.1 = name)).map (·.2)).or (m.get? name) := by
  induction entries generalizing m with
  | nil => simp
  | cons entry rest ih =>
    rw [List.foldl_cons, ih, List.reverse_cons, List.find?_append, get?_insert]
    cases rest.reverse.find? (·.1 = name) with
    | some found => rfl
    | none => by_cases h : entry.1 = name <;> simp [h]

/-- A map made from a list holds the last value that the list gives for a name. -/
theorem get?_ofList (entries : List (String × α)) (name : String) :
    (ofList entries).get? name = (entries.reverse.find? (·.1 = name)).map (·.2) := by
  rw [ofList, get?_foldl_insert, get?_empty, Option.or_none]

/-- A map made from a list holds nothing under other names. -/
theorem get?_ofList_eq_none {entries : List (String × α)} {name : String}
    (h : name ∉ entries.map (·.1)) : (ofList entries).get? name = none := by
  rw [get?_ofList, Option.map_eq_none_iff, List.find?_eq_none]
  intro entry hentry hname
  rw [← of_decide_eq_true hname] at h
  exact h (List.mem_map_of_mem (List.mem_reverse.1 hentry))

theorem name_mem_of_mem_ofList {entries : List (String × α)} {entry : String × α}
    (h : entry ∈ (ofList entries).entries) : entry.1 ∈ entries.map (·.1) := by
  by_contra hname
  have hnone := Option.map_eq_none_iff.1 (get?_ofList_eq_none hname)
  simpa using List.find?_eq_none.1 hnone entry h

/-- In a list that gives no name twice, a look-up finds each entry. -/
theorem find?_of_mem {entries : List (String × α)} (h : (entries.map (·.1)).Nodup) {name : String}
    {value : α} (hmem : (name, value) ∈ entries) :
    entries.find? (·.1 = name) = some (name, value) := by
  cases hfind : entries.find? (·.1 = name) with
  | none => simpa using List.find?_eq_none.1 hfind _ hmem
  | some found =>
    have hname : found.1 = name := by simpa using List.find?_some hfind
    rw [List.inj_on_of_nodup_map h (List.mem_of_find?_eq_some hfind) hmem hname]

/-- The map made from a list holds each entry of its end, when that gives no name twice. -/
theorem get?_ofList_append {before entries : List (String × α)} (h : (entries.map (·.1)).Nodup)
    {name : String} {value : α} (hmem : (name, value) ∈ entries) :
    (ofList (before ++ entries)).get? name = some value := by
  have hnodup : (entries.reverse.map (·.1)).Nodup := by
    rw [List.map_reverse, List.nodup_reverse]
    exact h
  rw [get?_ofList, List.reverse_append, List.find?_append,
    find?_of_mem hnodup (List.mem_reverse.2 hmem)]
  rfl

/-- When no name is given twice, the map made from a list holds each entry of it. -/
theorem get?_ofList_of_mem {entries : List (String × α)} (h : (entries.map (·.1)).Nodup)
    {name : String} {value : α} (hmem : (name, value) ∈ entries) :
    (ofList entries).get? name = some value := by
  rw [← List.nil_append entries]
  exact get?_ofList_append h hmem

end ConfigTables.NameMap
