import ConfigTables.Emit.DataTarget
import ConfigTables.Proofs.Rows.Merged
import ConfigTables.Proofs.Rows.Registered
import ConfigTables.Proofs.Rows.Sorted

/-!
    The exported rows of a map table. For each key that a row of either side has, the winner is
    exported unless it has an excluded tag, and nothing else is. Integer keys ascend, and rows with
    other keys stand in the order in which they were merged. -/

namespace ConfigTables

/-- The rows that are written of a map table: they show different keys, they are the kept ones among
the winners, and each key of either side has one winner. -/
structure MapExport (index : String) (excluded : List String) (main patch written : List Record) :
    Prop where
  shown : ∀ r ∈ written, (r.exportedKey index).isSome
  distinct : (written.map (·.exportedKey index)).Nodup
  winners : ∀ r ∈ written, Wins (·.exportedKey index) main patch r
  decided : ∀ r ∈ main ++ patch, ∃ w,
    (∀ w', Wins (·.exportedKey index) main patch w' ∧
      w'.exportedKey index = r.exportedKey index ↔ w' = w) ∧
    ((∃ x ∈ written, x.exportedKey index = r.exportedKey index) ↔ w.isKept excluded = true) ∧
    ∀ x ∈ written, x.exportedKey index = r.exportedKey index → x = w

section
variable {index : String} {excluded : List String} {main patch merged written : List Record}

theorem mapExport_of_mergedBy (hmerged : MergedBy (·.exportedKey index) main patch merged)
    (hshown : ∀ r ∈ main ++ patch, (r.exportedKey index).isSome)
    (hwritten : written.Perm (merged.filter (·.isKept excluded))) :
    MapExport index excluded main patch written where
  shown r hr :=
    hshown r ((hmerged.mem_iff r).1 (List.mem_filter.1 (hwritten.mem_iff.1 hr)).1).mem
  distinct := by
    refine (hwritten.map _).nodup_iff.2 (hmerged.distinct.sublist ?_)
    exact List.filter_sublist.map _
  winners r hr := (hmerged.mem_iff r).1 (List.mem_filter.1 (hwritten.mem_iff.1 hr)).1
  decided := by
    intro r hr
    obtain ⟨w, hw, honly⟩ := hmerged.exists_winner hr
    have hsame : ∀ x ∈ written, x.exportedKey index = r.exportedKey index → x = w :=
      fun x hx hkey => (honly x).1
        ⟨(hmerged.mem_iff x).1 (List.mem_filter.1 (hwritten.mem_iff.1 hx)).1, hkey⟩
    refine ⟨w, honly, ⟨?_, fun hkept => ?_⟩, hsame⟩
    · rintro ⟨x, hx, hkey⟩
      cases hsame x hx hkey
      exact (List.mem_filter.1 (hwritten.mem_iff.1 hx)).2
    · exact ⟨w, hwritten.mem_iff.2 (List.mem_filter.2 ⟨hw, hkept⟩), ((honly w).2 rfl).2⟩

end

/-- The data target writes the right rows of a map table. When its rows could be registered, the rows
written are the winners of the keys that carry no excluded tag; by ascending keys where the index is
an `int` or a `long`, and otherwise in merge order. -/
theorem map_table_export (g : TypeGraph) (t : TableDef) (ht : .table t ∈ g.types)
    (hmode : t.mode = .map) (main patch : List Record) (hmain : ∀ r ∈ main, g.Row t r)
    (hpatch : ∀ r ∈ patch, g.Row t r) (s : Store) (ctx : Context) (hgraph : ctx.graph = g)
    (hregister : s.register t main patch = .ok ctx.store) :
    ∃ key written, g.types.keyField? t = some key ∧ t.index = some key.2.name ∧
      DataTarget.rows ctx t = .ok written ∧
      DataTarget.target.tableBody ctx t =
        .text (Json.array (written.map (·.data.toJson))).fileText ∧
      MapExport key.2.name s.excluded main patch written ∧
      (key.2.type = .primitive .int ∨ key.2.type = .primitive .long →
        written.Pairwise (Record.KeyLt key.2.name)) ∧
      (¬(key.2.type = .primitive .int ∨ key.2.type = .primitive .long) →
        ∃ replaced added, InMergeOrder (·.exportedKey key.2.name) main patch replaced added ∧
          written = (replaced ++ added).filter (·.isKept s.excluded)) := by
  obtain ⟨key, hkey⟩ := g.exists_keyField ht hmode
  obtain ⟨_, _, _, hindex⟩ := g.keyField?_eq_some hkey
  obtain ⟨hexcluded, ⟨merged, hmerge, hget⟩, _⟩ := Store.register_eq_ok hregister
  have hmerged := mergedBy_mergeRecords hkey hmode hmain hpatch hmerge
  have hrows : ∀ r ∈ main ++ patch, g.Row t r := List.forall_mem_append.2 ⟨hmain, hpatch⟩
  have hkept : ∀ r ∈ merged.filter (·.isKept s.excluded), g.Row t r := fun r hr =>
    hrows r (mem_of_mergeRecords hmerge (List.mem_filter.1 hr).1)
  obtain ⟨written, hsort, hperm, horder⟩ := Store.exists_sortByKey hkept
  obtain ⟨hascending, hunsorted⟩ := horder key hkey
  have hexport : DataTarget.rows ctx t = .ok written := by
    have hrecords : ctx.exportRecords t = .ok (merged.filter (·.isKept s.excluded)) := by
      rw [Context.exportRecords, Store.exportRecords_of_get? hget, hexcluded]
      simp [TableDef.isSingleton, hmode]
    exact bind_eq_ok_iff.2 ⟨_, hrecords, hgraph ▸ hsort⟩
  have hshown : ∀ r ∈ main ++ patch, (r.exportedKey key.2.name).isSome := by
    intro r hr
    obtain ⟨v, _, _, hexported⟩ := (hrows r hr).exists_key hkey
    rw [hexported]
    rfl
  have hmap := mapExport_of_mergedBy hmerged hshown hperm
  refine ⟨key, written, hkey, hindex, hexport, ?_, hmap, fun hinteger => ?_, fun hother => ?_⟩
  · simp only [DataTarget.target, DataTarget.rowsText, hexport]
    rfl
  · have hdistinct := hmap.distinct
    rw [List.Nodup, List.pairwise_map] at hdistinct
    refine (hascending (TypeExpr.isIntegerKey_iff.2 hinteger)).imp₂ ?_ hdistinct
    exact fun a b => Record.KeyLe.lt
  · obtain ⟨replaced, added, rfl, hplaces⟩ := hmerged.order
    rw [← TypeExpr.isIntegerKey_iff, Bool.not_eq_true] at hother
    exact ⟨replaced, added, hplaces, hunsorted hother⟩

namespace Shapes

/-- A row for an empty group. -/
def groupRow (id : Int) (tags : List String) : Json :=
  .object [("$type", .string "Group"), ("__tags", .strings tags), ("id", .int id),
    ("parts", .array [])]

/-- The record of such a row. -/
def group (id : Int32) (tags : List String) : Record where
  data := ⟨"Group", true, [("id", .int id), ("color", .null), ("scale", .null), ("parts", .map [])]⟩
  tags := tags
  source := some "shapes"

/-- The table with three groups, of which a patch replaces the second one, and a new group. -/
def patched : Context where
  graph := graph
  target := ⟨"json", "Tables", "", []⟩
  includedTags := []
  options := .empty
  exportTables := [table]
  closure := .empty
  store := ⟨["dev"], .ofList [("TbShape", ⟨table, [group 7 [], group 3 [], group 5 ["dev"]],
    [group 3 ["new"], group (-1) ["dev"]],
    [group 7 [], group 3 ["new"], group 5 ["dev"], group (-1) ["dev"]]⟩)]⟩

/-- The replaced group and the first one are exported, by their keys; the others have the excluded
tag. -/
theorem patched_export :
    DataTarget.rows patched table = .ok [group 3 ["new"], group 7 []] ∧
      MapExport "id" ["dev"] [group 7 [], group 3 [], group 5 ["dev"]]
        [group 3 ["new"], group (-1) ["dev"]] [group 3 ["new"], group 7 []] ∧
      [group 3 ["new"], group 7 []].Pairwise (Record.KeyLt "id") := by
  have hmain : ∀ r ∈ [group 7 [], group 3 [], group 5 ["dev"]], graph.Row table r := by
    simp only [List.forall_mem_cons, List.not_mem_nil, false_imp_iff, implies_true, and_true]
    exact ⟨⟨"shapes", groupRow 7 [], rfl⟩, ⟨"shapes", groupRow 3 [], rfl⟩,
      ⟨"shapes", groupRow 5 ["dev"], rfl⟩⟩
  have hpatch : ∀ r ∈ [group 3 ["new"], group (-1) ["dev"]], graph.Row table r := by
    simp only [List.forall_mem_cons, List.not_mem_nil, false_imp_iff, implies_true, and_true]
    exact ⟨⟨"shapes", groupRow 3 ["new"], rfl⟩, ⟨"shapes", groupRow (-1) ["dev"], rfl⟩⟩
  obtain ⟨key, written, hkey, _, hrows, _, hexport, hascending, _⟩ :=
    map_table_export graph table (by simp [graph]) rfl _ _ hmain hpatch (.empty ["dev"]) patched
      rfl rfl
  have hwritten : DataTarget.rows patched table = .ok [group 3 ["new"], group 7 []] := by
    change Except.ok (([(7, group 7 []), (3, group 3 ["new"])].mergeSort
      fun a b : Int × Record => decide (a.1 ≤ b.1)).map (·.2)) = _
    simp [List.mergeSort]
  cases hwritten.symm.trans hrows
  cases hkey
  exact ⟨hwritten, hexport, hascending (.inl rfl)⟩

end Shapes

end ConfigTables
