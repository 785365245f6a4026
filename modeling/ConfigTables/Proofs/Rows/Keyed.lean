import ConfigTables.Proofs.Rows.Places
import Mathlib.Data.List.Nodup

/-!
    What a keyed merge comes to. Each side has to give every record a key, and no key twice; the first
    record that does not is refused, and the main side goes first (`FirstRefusal`). Where nothing is
    refused, the keys of the result are those of the main side and behind them the new ones of the
    patch, and under each key stands the record of the patch, if it has one, or else that of the main
    side (`KeyedMerge`). The merge of record after record has the same results and refusals. -/

namespace ConfigTables

/-! ### Keys of records -/

namespace Record
variable {r : Record} {t : TableDef} {index key : String}

/-- The text of the key of a record: of the first field named like the index. -/
def keyText? (r : Record) (index : String) : Option String := (r.data.field? index).bind Value.keyText?

/-- What is wrong with a record that has no key. -/
def keyFault (r : Record) (index : String) : RowFault :=
  match r.data.field? index with
  | none => .noKey index
  | some v => .badKey index v.kind

theorem key_eq_ok_iff_keyText : r.key t index = .ok key ↔ r.keyText? index = some key := by
  rw [key_eq_ok_iff, keyText?, Option.bind_eq_some_iff]

theorem key_of_keyless (h : r.keyText? index = none) :
    r.key t index = .error (.invalidRecord (r.location t) (r.keyFault index)) := by
  unfold keyText? at h
  unfold key keyFault
  cases hfield : r.data.field? index with
  | none => rfl
  | some v =>
    rw [hfield, Option.bind_some] at h
    simp only [h]

end Record

/-! ### Sides -/

/-- Every record has a key, and no two have the same one. -/
structure DistinctKeys (index : String) (records : List Record) : Prop where
  keyed : ∀ r ∈ records, r.keyText? index ≠ none
  distinct : (records.map (·.keyText? index)).Nodup

/-- What a record is refused for, after some others: it has no key, or the key of one of them. -/
inductive Refusal (t : TableDef) (index : String) (side : Side) (before : List Record) (r : Record) :
    DataError → Prop
  | keyless : r.keyText? index = none →
      Refusal t index side before r (.invalidRecord (r.location t) (r.keyFault index))
  | repeated {key : String} : r.keyText? index = some key →
      some key ∈ before.map (·.keyText? index) →
      Refusal t index side before r (.duplicateKey t.fullName key side)

/-- The refusal of the first record that is refused. -/
def FirstRefusal (t : TableDef) (index : String) (side : Side) (records : List Record)
    (e : DataError) : Prop :=
  ∃ before r after, records = before ++ r :: after ∧ DistinctKeys index before ∧
    Refusal t index side before r e

section Sides
variable {t : TableDef} {index key : String} {side : Side} {before records rest : List Record}
  {r : Record} {seen : List String} {entries : List (String × Record)} {e e' : DataError}

theorem distinctKeys_nil : DistinctKeys index [] := ⟨by simp, List.nodup_nil⟩

theorem DistinctKeys.concat (h : DistinctKeys index records) (hkey : r.keyText? index = some key)
    (hnew : some key ∉ records.map (·.keyText? index)) : DistinctKeys index (records ++ [r]) where
  keyed := by
    rw [List.forall_mem_append, List.forall_mem_singleton, hkey]
    exact ⟨h.keyed, nofun⟩
  distinct := by
    rw [List.map_append, List.map_singleton, hkey]
    exact h.distinct.append (List.nodup_singleton _) (List.disjoint_singleton.2 hnew)

/-- A refused record is in no list of distinct keys behind the others. -/
theorem Refusal.not_distinctKeys (h : Refusal t index side before r e) :
    ¬ DistinctKeys index (before ++ r :: rest) := by
  intro hkeys
  cases h with
  | keyless hnone => exact hkeys.keyed r (by simp) hnone
  | repeated hkey hold =>
    have hdistinct := hkeys.distinct
    rw [List.map_append, List.map_cons, hkey, List.nodup_append] at hdistinct
    exact hdistinct.2.2 _ hold _ List.mem_cons_self rfl

theorem Refusal.unique (h : Refusal t index side before r e)
    (h' : Refusal t index side before r e') : e = e' := by
  cases h with
  | keyless hnone =>
    cases h' with
    | keyless => rfl
    | repeated hkey => cases hnone.symm.trans hkey
  | repeated hkey =>
    cases h' with
    | keyless hnone => cases hnone.symm.trans hkey
    | repeated hkey' =>
      cases hkey.symm.trans hkey'
      rfl

/-- There is one first refusal: of two records at different places, the first one would be among the
records with distinct keys before the second. -/
theorem FirstRefusal.unique (h : FirstRefusal t index side records e)
    (h' : FirstRefusal t index side records e') : e = e' := by
  obtain ⟨before, r, after, rfl, hbefore, hr⟩ := h
  obtain ⟨before', r', after', hrecords, hbefore', hr'⟩ := h'
  rcases List.append_eq_append_iff.1 hrecords with ⟨mid, rfl, hmid⟩ | ⟨mid, rfl, hmid⟩
  · cases mid with
    | nil =>
      obtain ⟨rfl, -⟩ := List.cons.inj hmid
      rw [List.append_nil] at hr'
      exact hr.unique hr'
    | cons first mid =>
      obtain ⟨rfl, -⟩ := List.cons.inj hmid
      exact absurd hbefore' hr.not_distinctKeys
  · cases mid with
    | nil =>
      obtain ⟨rfl, -⟩ := List.cons.inj hmid
      rw [List.append_nil] at hr
      exact hr.unique hr'
    | cons first mid =>
      obtain ⟨rfl, -⟩ := List.cons.inj hmid
      exact absurd hbefore hr'.not_distinctKeys

theorem FirstRefusal.not_distinctKeys (h : FirstRefusal t index side records e) :
    ¬ DistinctKeys index records := by
  obtain ⟨before, r, after, rfl, -, hr⟩ := h
  exact hr.not_distinctKeys

/-- Reading goes through all records, or stops at the first that is refused. -/
theorem keyedRecords_cases (before : List Record) (hbefore : DistinctKeys index before)
    (hseen : ∀ key, key ∈ seen ↔ some key ∈ before.map (·.keyText? index)) :
    (∃ entries, keyedRecords t index side seen records = .ok entries) ∧
        DistinctKeys index (before ++ records) ∨
      ∃ e, keyedRecords t index side seen records = .error e ∧
        ∃ mid r after, records = mid ++ r :: after ∧ DistinctKeys index (before ++ mid) ∧
          Refusal t index side (before ++ mid) r e := by
  induction records generalizing before seen with
  | nil => exact .inl ⟨⟨[], rfl⟩, by rwa [List.append_nil]⟩
  | cons r rest ih =>
    cases hkey : r.keyText? index with
    | none =>
      refine .inr ⟨_, keyedRecords_cons_of_error (Record.key_of_keyless hkey), [], r, rest, rfl, ?_⟩
      rw [List.append_nil]
      exact ⟨hbefore, .keyless hkey⟩
    | some key =>
      have hread : r.key t index = .ok key := Record.key_eq_ok_iff_keyText.2 hkey
      by_cases hold : key ∈ seen
      · refine .inr ⟨_, keyedRecords_cons_of_mem hread hold, [], r, rest, rfl, ?_⟩
        rw [List.append_nil]
        exact ⟨hbefore, .repeated hkey ((hseen key).1 hold)⟩
      · have hnew : some key ∉ before.map (·.keyText? index) := fun hmem => hold ((hseen key).2 hmem)
        have hkeys : ∀ key', key' ∈ key :: seen ↔
            some key' ∈ (before ++ [r]).map (·.keyText? index) := by
          simp [hseen, hkey, or_comm, eq_comm]
        rw [keyedRecords_cons_of_new hread hold]
        rcases ih _ (hbefore.concat hkey hnew) hkeys with ⟨⟨read, hok⟩, hall⟩ | ⟨e, herror, h⟩
        · refine .inl ⟨⟨(key, r) :: read, by rw [hok]; rfl⟩, ?_⟩
          rwa [List.append_assoc] at hall
        · obtain ⟨mid, r', after, rfl, hmid, hr'⟩ := h
          rw [List.append_assoc] at hmid hr'
          exact .inr ⟨e, by rw [herror]; rfl, r :: mid, r', after, rfl, hmid, hr'⟩

theorem keyedRecords_nil_cases (t : TableDef) (index : String) (side : Side)
    (records : List Record) :
    (∃ entries, keyedRecords t index side [] records = .ok entries) ∧ DistinctKeys index records ∨
      ∃ e, keyedRecords t index side [] records = .error e ∧ FirstRefusal t index side records e :=
  keyedRecords_cases [] distinctKeys_nil (by simp)

/-- A side can be read if and only if its records have distinct keys. -/
theorem exists_keyedRecords_iff (t : TableDef) (side : Side) :
    (∃ entries, keyedRecords t index side [] records = .ok entries) ↔ DistinctKeys index records := by
  rcases keyedRecords_nil_cases t index side records with
    ⟨hok, hkeys⟩ | ⟨e, herror, hfirst⟩
  · exact iff_of_true hok hkeys
  · refine iff_of_false ?_ hfirst.not_distinctKeys
    rintro ⟨entries, hok⟩
    cases hok.symm.trans herror

theorem keyedRecords_eq_error_iff :
    keyedRecords t index side [] records = .error e ↔ FirstRefusal t index side records e := by
  rcases keyedRecords_nil_cases t index side records with
    ⟨⟨entries, hok⟩, hkeys⟩ | ⟨e', herror, hfirst⟩
  · refine iff_of_false (fun herror => ?_) fun hfirst => hfirst.not_distinctKeys hkeys
    cases hok.symm.trans herror
  · rw [herror]
    constructor
    · rintro ⟨⟩
      exact hfirst
    · intro h
      rw [hfirst.unique h]

/-- The keys of the entries of a side are the keys of its records. -/
theorem keyText_of_mem_keyedRecords (h : keyedRecords t index side [] records = .ok entries)
    {entry : String × Record} (hentry : entry ∈ entries) :
    entry.2.keyText? index = some entry.1 :=
  Record.key_eq_ok_iff_keyText.1 ((keyedRecords_eq_ok h).2.1 entry hentry)

end Sides

/-! ### Merging -/

/-- What the records of both sides are merged to. -/
structure KeyedMerge (index : String) (main patch merged : List Record) : Prop where
  /-- The keys are those of the main side in order, then the ones only the patch has, in its order. -/
  keys : merged.map (·.keyText? index) = main.map (·.keyText? index) ++
    (patch.map (·.keyText? index)).filter (· ∉ main.map (·.keyText? index))
  distinct : DistinctKeys index merged
  /-- Under each key stands the record of the patch, if there is one, or else that of the main side. -/
  record : ∀ key, merged.find? (·.keyText? index = some key) =
    (patch.find? (·.keyText? index = some key)).or (main.find? (·.keyText? index = some key))

section Entries
variable {index key : String} {main patch entries : List (String × Record)}

/-- An entry put together from both sides is, under its key, that of the patch or else that of the
main side. -/
theorem find?_overlay {α : Type} {main patch : List (String × α)} :
    (overlay main patch).find? (·.1 = key) =
      (patch.find? (·.1 = key)).or (main.find? (·.1 = key)) := by
  have hreplaced : (main.map fun m => (patch.find? (·.1 = m.1)).getD m).find? (·.1 = key) =
      (main.find? (·.1 = key)).map fun m => (patch.find? (·.1 = m.1)).getD m := by
    rw [List.find?_map]
    congr 1
    exact List.find?_congr fun m _ => by rw [Function.comp_apply, fst_replaced]
  rw [overlay, List.find?_append, hreplaced]
  cases hmain : main.find? (·.1 = key) with
  | none =>
    -- the patch entry of a key that the main side lacks is among the added ones
    rw [Option.map_none, Option.none_or, Option.or_none, List.find?_filter]
    refine List.find?_congr fun e _ => ?_
    rw [List.find?_eq_none] at hmain
    by_cases hkey : e.1 = key
    · simpa [hkey] using fun k a hm => by simpa using hmain (k, a) hm
    · simp [hkey]
  | some m =>
    have hkey : m.1 = key := by simpa using List.find?_some hmain
    rw [Option.map_some, Option.some_or, Option.or_some, hkey]

theorem map_keyText_entries (h : ∀ e ∈ entries, e.2.keyText? index = some e.1) :
    (entries.map (·.2)).map (·.keyText? index) = (entries.map (·.1)).map some := by
  rw [List.map_map, List.map_map]
  exact List.map_congr_left h

theorem find?_entries (h : ∀ e ∈ entries, e.2.keyText? index = some e.1) :
    (entries.map (·.2)).find? (·.keyText? index = some key) =
      (entries.find? (·.1 = key)).map (·.2) := by
  rw [List.find?_map]
  congr 1
  refine List.find?_congr fun e he => ?_
  simp [h e he]

theorem keyedMerge_overlay (hmain : ∀ e ∈ main, e.2.keyText? index = some e.1)
    (hpatch : ∀ e ∈ patch, e.2.keyText? index = some e.1) (hmainKeys : (main.map (·.1)).Nodup)
    (hpatchKeys : (patch.map (·.1)).Nodup) :
    KeyedMerge index (main.map (·.2)) (patch.map (·.2)) ((overlay main patch).map (·.2)) := by
  have hall : ∀ e ∈ overlay main patch, e.2.keyText? index = some e.1 := fun e he =>
    (List.mem_append.1 (overlay_subset main patch he)).elim (hmain e) (hpatch e)
  refine ⟨?_, ⟨?_, ?_⟩, fun key => ?_⟩
  · have hadded : ((patch.map (·.1)).map some).filter (· ∉ (main.map (·.1)).map some) =
        ((patch.filter fun e => !main.any (·.1 = e.1)).map (·.1)).map some := by
      simp only [List.map_map, List.filter_map]
      congr 1
      refine List.filter_congr fun e _ => ?_
      rw [Bool.eq_iff_iff]
      simp only [Function.comp_apply, decide_eq_true_eq, Bool.not_eq_true', List.any_eq_false,
        List.mem_map, Option.some.injEq, not_exists, not_and]
    rw [map_keyText_entries hall, map_keyText_entries hmain, map_keyText_entries hpatch,
      map_fst_overlay, List.map_append, hadded]
  · refine List.forall_mem_map.2 fun e he => ?_
    rw [hall e he]
    exact nofun
  · rw [map_keyText_entries hall]
    exact (nodup_overlay hmainKeys hpatchKeys).map (Option.some_injective _)
  · rw [find?_entries hall, find?_entries hmain, find?_entries hpatch, find?_overlay, Option.map_or]

end Entries

section Merged
variable {t : TableDef} {index : String} {main patch merged : List Record} {e : DataError}

theorem exists_mergeRecords_iff (hmode : t.mode = .map) (hindex : t.index = some index) :
    (∃ merged, mergeRecords t main patch = .ok merged) ↔
      DistinctKeys index main ∧ DistinctKeys index patch := by
  rw [← exists_keyedRecords_iff t .main, ← exists_keyedRecords_iff t .patch]
  simp only [mergeRecords, hmode, hindex, bind_eq_ok_iff]
  constructor
  · rintro ⟨merged, mainEntries, hmain, patchEntries, hpatch, -⟩
    exact ⟨⟨mainEntries, hmain⟩, patchEntries, hpatch⟩
  · rintro ⟨⟨mainEntries, hmain⟩, patchEntries, hpatch⟩
    exact ⟨_, mainEntries, hmain, patchEntries, hpatch, rfl⟩

theorem keyedMerge_of_mergeRecords (hmode : t.mode = .map) (hindex : t.index = some index)
    (h : mergeRecords t main patch = .ok merged) : KeyedMerge index main patch merged := by
  simp only [mergeRecords, hmode, hindex] at h
  obtain ⟨mainEntries, hmain, h⟩ := bind_eq_ok_iff.1 h
  obtain ⟨patchEntries, hpatch, h⟩ := bind_eq_ok_iff.1 h
  cases h
  obtain ⟨hmainRecords, -, hmainKeys, -⟩ := keyedRecords_eq_ok hmain
  obtain ⟨hpatchRecords, -, hpatchKeys, -⟩ := keyedRecords_eq_ok hpatch
  rw [← hmainRecords, ← hpatchRecords]
  exact keyedMerge_overlay (fun e he => keyText_of_mem_keyedRecords hmain he)
    (fun e he => keyText_of_mem_keyedRecords hpatch he) hmainKeys hpatchKeys

/-- A record of the patch is refused only where the main side has distinct keys. -/
theorem mergeRecords_eq_error_iff (hmode : t.mode = .map) (hindex : t.index = some index) :
    mergeRecords t main patch = .error e ↔ FirstRefusal t index .main main e ∨
      DistinctKeys index main ∧ FirstRefusal t index .patch patch e := by
  rw [← keyedRecords_eq_error_iff, ← keyedRecords_eq_error_iff, ← exists_keyedRecords_iff t .main]
  simp only [mergeRecords, hmode, hindex]
  cases hmain : keyedRecords t index .main [] main with
  | error e' => simp [bind, Except.bind]
  | ok mainEntries =>
    cases hpatch : keyedRecords t index .patch [] patch with
    | error e' => simp [bind, Except.bind]
    | ok patchEntries => simp [bind, Except.bind, pure, Except.pure]

end Merged

/-- Records of a map table, merged one after another or a side at a time. There is a result if and only
if each side gives every record a key of its own. The result has the keys of the main side in order and
then the new ones of the patch, and under each key the record of the patch before that of the main
side. Otherwise the first record that is refused, main side first, decides the error. -/
theorem keyed_merge_exact (t : TableDef) (index : String) (main patch : List Record)
    (hmode : t.mode = .map) (hindex : t.index = some index) :
    mergeByPlaces t index main patch = mergeRecords t main patch ∧
    ((∃ merged, mergeRecords t main patch = .ok merged) ↔
      DistinctKeys index main ∧ DistinctKeys index patch) ∧
    (∀ merged, mergeRecords t main patch = .ok merged → KeyedMerge index main patch merged) ∧
    ∀ e, mergeRecords t main patch = .error e ↔ FirstRefusal t index .main main e ∨
      DistinctKeys index main ∧ FirstRefusal t index .patch patch e :=
  ⟨mergeByPlaces_eq hmode hindex, exists_mergeRecords_iff hmode hindex,
    fun _ h => keyedMerge_of_mergeRecords hmode hindex h,
    fun _ => mergeRecords_eq_error_iff hmode hindex⟩

namespace Stock

/-- The items of a shop, by id. -/
def items : TableDef := ⟨"", "TbItem", "Item", some "id", .map, [], none, none⟩

def item (id : Int32) (name : String) : Record :=
  ⟨⟨"Item", false, [("id", .int id), ("name", .string name)]⟩, [], none⟩

/-- The patch gives item 2 another name and adds item 4. -/
theorem keyed_merge_exact_items :
    items.mode = .map ∧ items.index = some "id" ∧
    mergeRecords items [item 1 "a", item 2 "b", item 3 "c"] [item 4 "d", item 2 "B"] =
      .ok [item 1 "a", item 2 "B", item 3 "c", item 4 "d"] ∧
    KeyedMerge "id" [item 1 "a", item 2 "b", item 3 "c"] [item 4 "d", item 2 "B"]
      [item 1 "a", item 2 "B", item 3 "c", item 4 "d"] := by
  have hmerged : mergeRecords items [item 1 "a", item 2 "b", item 3 "c"]
      [item 4 "d", item 2 "B"] = .ok [item 1 "a", item 2 "B", item 3 "c", item 4 "d"] := by
    rfl
  exact ⟨rfl, rfl, hmerged, (keyed_merge_exact items "id" _ _ rfl rfl).2.2.1 _ hmerged⟩

end Stock

end ConfigTables
