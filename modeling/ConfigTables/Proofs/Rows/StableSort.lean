import ConfigTables.Proofs.Rows.Sorted

/-!
    Sorting any records by an integer key, rows of a table or not. It succeeds exactly when every
    record holds a value of the declared type in the key field, and fails with the first record that
    does not, before anything is moved. The sorted records ascend, those of one key stay in the
    order they had (`StablySorted`), and sorting them again changes nothing. -/

namespace ConfigTables
variable {ds : Declarations} {t : TableDef} {field : FieldDef} {r : Record} {records : List Record}

/-- The field that the records of a table are sorted by: the key field, when its type is one of
integers. -/
def Declarations.SortsBy (ds : Declarations) (t : TableDef) (field : FieldDef) : Prop :=
  (∃ owner, ds.keyField? t = some (owner, field)) ∧
    (field.type = .primitive .int ∨ field.type = .primitive .long)

/-- The integer that a record holds in a field, when the first value under its name has the type
that the field declares. -/
inductive Record.HoldsInteger (r : Record) (field : FieldDef) : Int → Prop
  | int {i : Int32} : field.type = .primitive .int → r.data.field? field.name = some (.int i) →
      HoldsInteger r field i.toInt
  | long {i : Int64} : field.type = .primitive .long → r.data.field? field.name = some (.long i) →
      HoldsInteger r field i.toInt

namespace Store

theorem sortKey?_eq_some_iff {i : Int} :
    sortKey? field.type (r.data.field? field.name) = some i ↔ r.HoldsInteger field i := by
  constructor
  · intro h
    unfold sortKey? at h
    split at h
    · obtain ⟨htype, ⟨⟩⟩ := Option.ite_none_right_eq_some.1 h
      exact .int htype ‹_›
    · obtain ⟨htype, ⟨⟩⟩ := Option.ite_none_right_eq_some.1 h
      exact .long htype ‹_›
    · cases h
  · rintro (⟨htype, hheld⟩ | ⟨htype, hheld⟩) <;> simp [sortKey?, htype, hheld]

end Store

instance (r : Record) (field : FieldDef) (i : Int) : Decidable (r.HoldsInteger field i) :=
  decidable_of_iff _ Store.sortKey?_eq_some_iff

/-- A record holds one integer in a field at most. -/
theorem Record.HoldsInteger.unique {i k : Int} (hi : r.HoldsInteger field i)
    (hk : r.HoldsInteger field k) : i = k :=
  Option.some.inj ((Store.sortKey?_eq_some_iff.2 hi).symm.trans (Store.sortKey?_eq_some_iff.2 hk))

/-- The same records in ascending order of the integers that they hold in a field, those of one
integer in the order they had. -/
structure StablySorted (field : FieldDef) (records sorted : List Record) : Prop where
  perm : sorted.Perm records
  ascending : sorted.Pairwise fun a b =>
    ∃ i k, a.HoldsInteger field i ∧ b.HoldsInteger field k ∧ i ≤ k
  stable : ∀ i, sorted.filter (·.HoldsInteger field i) = records.filter (·.HoldsInteger field i)

namespace Store

/-! ### The keys of the records -/

/-- What is said of a record without an integer in the key field. -/
def keyFailure (t : TableDef) (field : FieldDef) (r : Record) : DataError :=
  .invariant (.keyType t.fullName field.name field.type
    (((r.data.field? field.name).map Value.kind).getD "nothing"))

/-- A record with the integer that it is sorted by, or the failure to find one. -/
def withSortKey (t : TableDef) (field : FieldDef) (r : Record) : Except DataError (Int × Record) :=
  match sortKey? field.type (r.data.field? field.name) with
  | none => .error (keyFailure t field r)
  | some i => .ok (i, r)

theorem withSortKeys_eq_mapM (t : TableDef) (field : FieldDef) (records : List Record) :
    withSortKeys t field records = records.mapM (withSortKey t field) := by
  induction records with
  | nil => rfl
  | cons r rest ih =>
    rw [withSortKeys, List.mapM_cons, ← ih, withSortKey]
    cases sortKey? field.type (r.data.field? field.name) <;> rfl

theorem withSortKey_eq_ok_iff {p : Int × Record} :
    withSortKey t field r = .ok p ↔ p.2 = r ∧ p.2.HoldsInteger field p.1 := by
  unfold withSortKey
  constructor
  · intro h
    split at h
    · cases h
    · cases h
      exact ⟨rfl, sortKey?_eq_some_iff.1 ‹_›⟩
  · rintro ⟨rfl, hholds⟩
    rw [sortKey?_eq_some_iff.2 hholds]

theorem exists_withSortKey_iff :
    (∃ p, withSortKey t field r = .ok p) ↔ ∃ i, r.HoldsInteger field i := by
  constructor
  · rintro ⟨p, hp⟩
    obtain ⟨rfl, hholds⟩ := withSortKey_eq_ok_iff.1 hp
    exact ⟨p.1, hholds⟩
  · rintro ⟨i, hholds⟩
    exact ⟨(i, r), withSortKey_eq_ok_iff.2 ⟨rfl, hholds⟩⟩

theorem withSortKey_eq_error (h : ¬∃ i, r.HoldsInteger field i) :
    withSortKey t field r = .error (keyFailure t field r) := by
  unfold withSortKey
  split
  · rfl
  · exact absurd ⟨_, sortKey?_eq_some_iff.1 ‹_›⟩ h

/-! ### The sorted records -/

/-- Records with their keys, in ascending order. -/
def ascending (keyed : List (Int × Record)) : List (Int × Record) :=
  keyed.mergeSort fun a b => decide (a.1 ≤ b.1)

theorem mem_ascending {keyed : List (Int × Record)} {p : Int × Record} :
    p ∈ ascending keyed ↔ p ∈ keyed := List.mem_mergeSort

theorem ascending_ascending (keyed : List (Int × Record)) :
    ascending (ascending keyed) = ascending keyed := by
  have hordered : (ascending keyed).Pairwise fun a b => a.1 ≤ b.1 := pairwise_sorted keyed
  exact List.mergeSort_of_pairwise (hordered.imp fun hle => decide_eq_true hle)

theorem sortByKey_eq_self (h : ∀ field, ¬ds.SortsBy t field) :
    sortByKey ds t records = .ok records := by
  unfold sortByKey
  split
  · rfl
  · rename_i owner field hkey
    refine if_neg fun hinteger => h field ⟨⟨owner, hkey⟩, ?_⟩
    exact TypeExpr.isIntegerKey_iff.1 hinteger

theorem sortByKey_eq_bind (h : ds.SortsBy t field) (records : List Record) :
    sortByKey ds t records =
      records.mapM (withSortKey t field) >>= fun keyed => .ok ((ascending keyed).map (·.2)) := by
  obtain ⟨⟨owner, hkey⟩, hinteger⟩ := h
  simp only [sortByKey, hkey]
  rw [if_pos (TypeExpr.isIntegerKey_iff.2 hinteger), withSortKeys_eq_mapM]
  rfl

theorem sortByKey_eq_ok_iff (h : ds.SortsBy t field) {sorted : List Record} :
    sortByKey ds t records = .ok sorted ↔
      ∃ keyed, records.mapM (withSortKey t field) = .ok keyed ∧
        (ascending keyed).map (·.2) = sorted := by
  rw [sortByKey_eq_bind h, bind_eq_ok_iff]
  simp only [Except.ok.injEq]

/-- Keys that ascend are those of the records, in the order in which they came. -/
theorem filter_ascending (keyed : List (Int × Record)) (i : Int) :
    (ascending keyed).filter (·.1 = i) = keyed.filter (·.1 = i) := by
  have hordered : (keyed.filter (·.1 = i)).Pairwise fun a b => decide (a.1 ≤ b.1) := by
    refine List.pairwise_of_forall_mem_list fun a ha b hb => ?_
    have hai : a.1 = i := by simpa using (List.mem_filter.1 ha).2
    have hbi : b.1 = i := by simpa using (List.mem_filter.1 hb).2
    simp [hai, hbi]
  have hsub : (keyed.filter (·.1 = i)).Sublist (ascending keyed) := by
    refine List.sublist_mergeSort (fun a b c hab hbc => ?_) (fun a b => ?_) hordered
      List.filter_sublist
    · simp only [decide_eq_true_eq] at hab hbc ⊢
      omega
    · simp only [Bool.or_eq_true, decide_eq_true_eq]
      omega
  have hfiltered := hsub.filter (·.1 = i)
  rw [List.filter_filter] at hfiltered
  simp only [Bool.and_self] at hfiltered
  refine (hfiltered.eq_of_length ?_).symm
  exact ((List.mergeSort_perm keyed _).filter _).length_eq.symm

/-- Records with the integers that they hold, sorted by these, are the records stably sorted. -/
theorem stablySorted_ascending {keyed : List (Int × Record)}
    (hholds : ∀ p ∈ keyed, p.2.HoldsInteger field p.1) :
    StablySorted field (keyed.map (·.2)) ((ascending keyed).map (·.2)) where
  perm := (List.mergeSort_perm keyed _).map _
  ascending := by
    rw [List.pairwise_map]
    refine (pairwise_sorted keyed).imp_of_mem fun {a b} ha hb hle => ?_
    exact ⟨a.1, b.1, hholds a (mem_ascending.1 ha), hholds b (mem_ascending.1 hb), hle⟩
  stable := by
    intro i
    have hsame : ∀ l : List (Int × Record), (∀ p ∈ l, p ∈ keyed) →
        (l.map (·.2)).filter (·.HoldsInteger field i) = (l.filter (·.1 = i)).map (·.2) := by
      intro l hl
      rw [List.filter_map]
      congr 1
      refine List.filter_congr fun p hp => decide_eq_decide.2 ?_
      have hp := hholds p (hl p hp)
      exact ⟨fun hi => hp.unique hi, fun hi => hi ▸ hp⟩
    rw [hsame _ fun p hp => mem_ascending.1 hp, hsame _ fun p hp => hp, filter_ascending]

/-- Sorted records are sorted to themselves. -/
theorem sortByKey_ascending (h : ds.SortsBy t field) {keyed : List (Int × Record)}
    (hholds : ∀ p ∈ keyed, p.2.HoldsInteger field p.1) :
    sortByKey ds t ((ascending keyed).map (·.2)) = .ok ((ascending keyed).map (·.2)) := by
  refine (sortByKey_eq_ok_iff h).2 ⟨ascending keyed, mapM_eq_ok_iff.2 ?_, ?_⟩
  · rw [List.forall₂_map_left_iff, List.forall₂_same]
    exact fun p hp => withSortKey_eq_ok_iff.2 ⟨rfl, hholds p (mem_ascending.1 hp)⟩
  · rw [ascending_ascending]

end Store

/-- Sorting records by the key of a table. Where this is no integer, they stay as they are.
Otherwise sorting succeeds exactly when every record holds an integer of the declared type; the
records are then stably sorted, and sorting them again leaves them alone. The failure is that of the
first record that holds none. -/
theorem sortByKey_stable (g : TypeGraph) (t : TableDef) (records : List Record) :
    ((∀ field, ¬g.types.SortsBy t field) → Store.sortByKey g.types t records = .ok records) ∧
    ∀ field, g.types.SortsBy t field →
      ((∃ sorted, Store.sortByKey g.types t records = .ok sorted) ↔
        ∀ r ∈ records, ∃ i, r.HoldsInteger field i) ∧
      (∀ sorted, Store.sortByKey g.types t records = .ok sorted →
        StablySorted field records sorted ∧ Store.sortByKey g.types t sorted = .ok sorted) ∧
      ∀ before r after, records = before ++ r :: after →
        (∀ r' ∈ before, ∃ i, r'.HoldsInteger field i) → (¬∃ i, r.HoldsInteger field i) →
        Store.sortByKey g.types t records =
          .error (.invariant (.keyType t.fullName field.name field.type
            (((r.data.field? field.name).map Value.kind).getD "nothing"))) := by
  refine ⟨Store.sortByKey_eq_self, fun field h => ⟨⟨?_, fun hall => ?_⟩, ?_, ?_⟩⟩
  · rintro ⟨sorted, hsorted⟩ r hr
    obtain ⟨keyed, hkeyed, -⟩ := (Store.sortByKey_eq_ok_iff h).1 hsorted
    obtain ⟨p, -, hp⟩ := exists_of_mapM_eq_ok hkeyed hr
    exact Store.exists_withSortKey_iff.1 ⟨p, hp⟩
  · obtain ⟨keyed, hkeyed⟩ :=
      exists_mapM fun r hr => Store.exists_withSortKey_iff (t := t).2 (hall r hr)
    exact ⟨_, (Store.sortByKey_eq_ok_iff h).2 ⟨keyed, hkeyed, rfl⟩⟩
  · intro sorted hsorted
    obtain ⟨keyed, hkeyed, rfl⟩ := (Store.sortByKey_eq_ok_iff h).1 hsorted
    have hholds : ∀ p ∈ keyed, p.2.HoldsInteger field p.1 := by
      intro p hp
      obtain ⟨r, -, hr⟩ := exists_of_mem_mapM hkeyed hp
      exact (Store.withSortKey_eq_ok_iff.1 hr).2
    have hrecords : keyed.map (·.2) = records :=
      (map_eq_of_mapM (q := id) hkeyed fun _ _ hp => (Store.withSortKey_eq_ok_iff.1 hp).1).trans
        (List.map_id _)
    exact ⟨hrecords ▸ Store.stablySorted_ascending hholds, Store.sortByKey_ascending h hholds⟩
  · rintro before r after rfl hbefore hnone
    have hfirst : (before ++ r :: after).mapM (Store.withSortKey t field) =
        .error (Store.keyFailure t field r) :=
      mapM_eq_error_iff.2 ⟨before, r, after, rfl,
        fun r' hr' => Store.exists_withSortKey_iff.2 (hbefore r' hr'),
        Store.withSortKey_eq_error hnone⟩
    rw [Store.sortByKey_eq_bind h, hfirst]
    rfl

namespace Ranks

/-- A bean with a rank, and one that inherits it. -/
def piece : BeanDef := ⟨"", "Piece", none, true, [], [⟨"rank", .primitive .int, none⟩], none⟩

def knight : BeanDef :=
  ⟨"", "Knight", some "Piece", false, [], [⟨"name", .primitive .string, none⟩], none⟩

/-- Knights by their rank, and the same ones without an order. -/
def ranked : TableDef := ⟨"", "TbRanked", "Knight", some "rank", .map, [], none, none⟩

def listed : TableDef := ⟨"", "TbListed", "Knight", none, .list, [], none, none⟩

def graph : TypeGraph where
  types := [.bean piece, .bean knight, .table ranked, .table listed]
  consistent := by decide

/-- A knight of a name whose rank is some value. -/
def named (name : String) (rank : Value) : Record where
  data := ⟨"Knight", true, [("rank", rank), ("name", .string name)]⟩
  tags := []
  source := none

/-- Three knights, two of them with one rank. -/
def knights : List Record := [named "Bors" (.int 7), named "Kay" (.int (-3)), named "Tor" (.int 7)]

theorem sortsBy_ranked : graph.types.SortsBy ranked ⟨"rank", .primitive .int, none⟩ :=
  ⟨⟨piece, rfl⟩, .inl rfl⟩

theorem knights_sorted :
    Store.sortByKey graph.types listed knights = .ok knights ∧
    (∃ sorted, Store.sortByKey graph.types ranked knights = .ok sorted ∧
      StablySorted ⟨"rank", .primitive .int, none⟩ knights sorted ∧
      Store.sortByKey graph.types ranked sorted = .ok sorted) ∧
    Store.sortByKey graph.types ranked (knights ++ [named "Lot" (.long 1), named "Mark" .null]) =
      .error (.invariant (.keyType "TbRanked" "rank" (.primitive .int) "long")) := by
  have hheld : ∀ r ∈ knights, ∃ i, r.HoldsInteger ⟨"rank", .primitive .int, none⟩ i := by
    intro r hr
    simp only [knights, List.mem_cons, List.not_mem_nil, or_false] at hr
    rcases hr with rfl | rfl | rfl <;> exact ⟨_, .int rfl rfl⟩
  have hnot : ¬∃ i, (named "Lot" (.long 1)).HoldsInteger ⟨"rank", .primitive .int, none⟩ i := by
    rintro ⟨i, ⟨-, ⟨⟩⟩ | ⟨⟨⟩, -⟩⟩
  refine ⟨(sortByKey_stable graph listed knights).1 ?_, ?_, ?_⟩
  · rintro field ⟨⟨owner, ⟨⟩⟩, -⟩
  · obtain ⟨hsuccess, hsorts, -⟩ :=
      (sortByKey_stable graph ranked knights).2 _ sortsBy_ranked
    obtain ⟨sorted, hsorted⟩ := hsuccess.2 hheld
    exact ⟨sorted, hsorted, hsorts sorted hsorted⟩
  · exact ((sortByKey_stable graph ranked _).2 _ sortsBy_ranked).2.2 knights _ _ rfl hheld hnot

end Ranks

end ConfigTables
