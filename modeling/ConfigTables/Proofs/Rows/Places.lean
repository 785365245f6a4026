import ConfigTables.Proofs.Rows.Merged
import Mathlib.Data.List.Induction

/-!
    Merging one record after another. The records so far stand in a list, and a map says at which
    place of it each key is: a patch record overwrites the place of its key, and a record of a new key
    goes to the end. `Holds` is the invariant of this run, and by it the run comes to the same as
    `mergeRecords`, which looks at each side as a whole. -/

namespace ConfigTables

/-! ### The run -/

/-- Two computations that fail alike, or else come to related results. -/
inductive Alike {ε α β : Type} (R : α → β → Prop) : Except ε α → Except ε β → Prop
  | ok {a : α} {b : β} : R a b → Alike R (.ok a) (.ok b)
  | error (e : ε) : Alike R (.error e) (.error e)

theorem Alike.bind {ε α β γ δ : Type} {R : α → β → Prop} {S : γ → δ → Prop} {x : Except ε α}
    {y : Except ε β} {f : α → Except ε γ} {g : β → Except ε δ} (h : Alike R x y)
    (hnext : ∀ a b, R a b → Alike S (f a) (g b)) : Alike S (x >>= f) (y >>= g) := by
  cases h with
  | ok hab => exact hnext _ _ hab
  | error e => exact .error e

/-- The second computation may go on alone, as long as it cannot fail any more. -/
theorem Alike.bind_pure {ε α β γ : Type} {R : α → β → Prop} {S : α → γ → Prop} {x : Except ε α}
    {y : Except ε β} {g : β → γ} (h : Alike R x y) (hnext : ∀ a b, R a b → S a (g b)) :
    Alike S x (y >>= fun b => pure (g b)) := by
  cases h with
  | ok hab => exact .ok (hnext _ _ hab)
  | error e => exact .error e

/-- Results are related as results, in particular. -/
theorem Alike.with_result {ε α β : Type} {R : α → β → Prop} {x : Except ε α} {y : Except ε β}
    (h : Alike R x y) : Alike (fun a b => R a b ∧ y = .ok b) x y := by
  cases h with
  | ok hab => exact .ok ⟨hab, rfl⟩
  | error e => exact .error e

theorem Alike.eq {ε α : Type} {x y : Except ε α} (h : Alike Eq x y) : x = y := by
  cases h with
  | ok hab => rw [hab]
  | error e => rfl

/-- Records on their way of being merged: those so far, the place of each key among them, and the keys
of the patch so far. -/
structure Merging where
  records : List Record
  places : NameMap Nat
  patched : List String

namespace Merging

/-- Before the first record. -/
def empty : Merging := ⟨[], .empty, []⟩

/-- A record of a new key goes to the end. -/
def append (m : Merging) (key : String) (r : Record) : Merging :=
  { m with records := m.records ++ [r], places := m.places.insert key m.records.length }

/-- A record goes to the place of its key or, without one, to the end. -/
def put (m : Merging) (key : String) (r : Record) : Merging :=
  match m.places.get? key with
  | some place => { m with records := m.records.set place r }
  | none => m.append key r

/-- The next record of the main side. -/
def addMain (t : TableDef) (index : String) (m : Merging) (r : Record) :
    Except DataError Merging := do
  let key ← r.key t index
  if m.places.contains key then .error (.duplicateKey t.fullName key .main)
  else return m.append key r

/-- The next record of the patch. -/
def addPatch (t : TableDef) (index : String) (m : Merging) (r : Record) :
    Except DataError Merging := do
  let key ← r.key t index
  if key ∈ m.patched then .error (.duplicateKey t.fullName key .patch)
  else return { m.put key r with patched := key :: m.patched }

end Merging

/-- The records of a map table, merged one after another. -/
def mergeByPlaces (t : TableDef) (index : String) (main patch : List Record) :
    Except DataError (List Record) := do
  let m ← main.foldlM (Merging.addMain t index) .empty
  let m ← patch.foldlM (Merging.addPatch t index) m
  return m.records

/-! ### What is true on the way -/

section Overlay
variable {α : Type} {main patch l : List (String × α)} {key : String} {a : α} {place : Nat}

/-- Where keys are different, overwriting one place is replacing the entry of one key. -/
theorem set_eq_map (hnodup : (l.map (·.1)).Nodup) (hplace : (l.map (·.1))[place]? = some key) :
    l.set place (key, a) = l.map fun e => if e.1 = key then (key, a) else e := by
  induction l generalizing place with
  | nil => simp at hplace
  | cons e l ih =>
    obtain ⟨hnew, hnodup⟩ := List.nodup_cons.1 hnodup
    cases place with
    | zero =>
      obtain rfl : e.1 = key := by simpa using hplace
      have hrest : l.map (fun e' => if e'.1 = e.1 then (e.1, a) else e') = l := by
        refine (List.map_congr_left fun e' he' => if_neg fun hsame => ?_).trans (List.map_id l)
        exact hnew (List.mem_map.2 ⟨e', he', hsame⟩)
      rw [List.set_cons_zero, List.map_cons, if_pos rfl, hrest]
    | succ place =>
      have hplace : (l.map (·.1))[place]? = some key := by simpa using hplace
      have hne : e.1 ≠ key := by
        rintro rfl
        exact hnew (List.mem_of_getElem? hplace)
      rw [List.set_cons_succ, List.map_cons, if_neg hne, ih hnodup hplace]

theorem overlay_nil : overlay main [] = main := by simp [overlay]

/-- An entry of a key that neither side has comes last. -/
theorem overlay_concat_of_new (hnew : key ∉ (overlay main patch).map (·.1)) :
    overlay main (patch ++ [(key, a)]) = overlay main patch ++ [(key, a)] := by
  have hmain : ∀ m ∈ main, m.1 ≠ key := by
    intro m hm hsame
    rw [map_fst_overlay] at hnew
    exact hnew (List.mem_append_left _ (hsame ▸ List.mem_map_of_mem hm))
  have hreplaced : main.map (fun m => ((patch ++ [(key, a)]).find? (·.1 = m.1)).getD m) =
      main.map fun m => (patch.find? (·.1 = m.1)).getD m := by
    refine List.map_congr_left fun m hm => ?_
    rw [List.find?_append, List.find?_cons_of_neg (by simpa using (hmain m hm).symm),
      List.find?_nil, Option.or_none]
  have hadded : main.any (·.1 = key) = false := by
    simpa using fun m hm => hmain (m, hm)
  rw [overlay, overlay, hreplaced, List.filter_append, List.append_assoc]
  simp [hadded]

/-- An entry of a key of the main side takes the place of this key, if the patch did not have it yet. -/
theorem overlay_concat_of_main (hkeys : (main.map (·.1)).Nodup) (hpatch : (patch.map (·.1)).Nodup)
    (hnew : key ∉ patch.map (·.1)) (hplace : ((overlay main patch).map (·.1))[place]? = some key) :
    overlay main (patch ++ [(key, a)]) = (overlay main patch).set place (key, a) := by
  have hold : key ∈ main.map (·.1) := by
    have hmem := List.mem_of_getElem? hplace
    rw [map_fst_overlay, List.mem_append] at hmem
    refine hmem.resolve_right fun hadded => hnew ?_
    exact (List.filter_sublist.map _).subset hadded
  have hany : main.any (·.1 = key) = true := by
    obtain ⟨m, hm, rfl⟩ := List.mem_map.1 hold
    exact List.any_eq_true.2 ⟨m, hm, decide_eq_true rfl⟩
  rw [set_eq_map (nodup_overlay hkeys hpatch) hplace, overlay, overlay, List.map_append,
    List.filter_append, List.map_map]
  congr 1
  · refine List.map_congr_left fun m _ => ?_
    rw [List.find?_append, Function.comp_apply, fst_replaced]
    by_cases hm : m.1 = key
    · have hnone : patch.find? (·.1 = m.1) = none := by
        rw [List.find?_eq_none, hm]
        exact fun p hp hsame => hnew (List.mem_map.2 ⟨p, hp, of_decide_eq_true hsame⟩)
      rw [if_pos hm, hnone, Option.none_or, List.find?_cons_of_pos (by simpa using hm.symm)]
      rfl
    · rw [if_neg hm, List.find?_cons_of_neg (by simpa using Ne.symm hm), List.find?_nil,
        Option.or_none]
  · have hadded : ∀ e ∈ patch.filter (fun e => !main.any (·.1 = e.1)),
        (if e.1 = key then (key, a) else e) = e := fun e he => if_neg fun hsame =>
      hnew (List.mem_map.2 ⟨e, (List.mem_filter.1 he).1, hsame⟩)
    rw [List.map_congr_left hadded, List.map_id']
    simp [hany]

end Overlay

/-! A record without a key, of a key that was there, and of a new key, in a reading of one side. -/

section Reading
variable {t : TableDef} {index key : String} {side : Side} {r : Record} {records : List Record}
  {seen : List String} {e : DataError}

theorem keyedRecords_cons_of_error (hkey : r.key t index = .error e) :
    keyedRecords t index side seen (r :: records) = .error e := by
  rw [keyedRecords, hkey]
  rfl

theorem keyedRecords_cons_of_mem (hkey : r.key t index = .ok key) (hold : key ∈ seen) :
    keyedRecords t index side seen (r :: records) = .error (.duplicateKey t.fullName key side) := by
  rw [keyedRecords, hkey]
  exact if_pos hold

theorem keyedRecords_cons_of_new (hkey : r.key t index = .ok key) (hnew : key ∉ seen) :
    keyedRecords t index side seen (r :: records) =
      keyedRecords t index side (key :: seen) records >>= fun read => pure ((key, r) :: read) := by
  rw [keyedRecords, hkey]
  exact if_neg hnew

end Reading

namespace Merging
variable {m : Merging} {entries main patch : List (String × Record)} {key : String} {r : Record}
  {place : Nat}

/-- The records are those of some entries, and the map gives the place of each entry under its key, so
that no key is there twice. -/
structure Holds (m : Merging) (entries : List (String × Record)) : Prop where
  records : m.records = entries.map (·.2)
  places : ∀ key place, m.places.get? key = some place ↔ (entries.map (·.1))[place]? = some key

theorem holds_empty : empty.Holds [] := ⟨rfl, by simp [empty]⟩

theorem Holds.contains_iff (h : m.Holds entries) :
    m.places.contains key = true ↔ key ∈ entries.map (·.1) := by
  rw [NameMap.contains, Option.isSome_iff_exists, List.mem_iff_getElem?]
  exact exists_congr (h.places key)

theorem Holds.get?_eq_none (h : m.Holds entries) (hnone : m.places.get? key = none) :
    key ∉ entries.map (·.1) := by
  rw [← h.contains_iff, NameMap.contains, hnone]
  exact Bool.false_ne_true

theorem Holds.append (h : m.Holds entries) (hnew : key ∉ entries.map (·.1)) :
    (m.append key r).Holds (entries ++ [(key, r)]) where
  records := by rw [Merging.append, h.records, List.map_append, List.map_singleton]
  places := by
    intro key' place
    have hlength : m.records.length = (entries.map (·.1)).length := by simp [h.records]
    rw [Merging.append, NameMap.get?_insert_eq_some_iff, h.places, hlength, List.map_append,
      List.map_singleton]
    rcases lt_trichotomy place (entries.map (·.1)).length with hlt | rfl | hgt
    · -- an old place has its old key, which is another one
      rw [List.getElem?_append_left hlt]
      refine ⟨?_, fun hold => .inr ⟨?_, hold⟩⟩
      · rintro (⟨-, rfl⟩ | ⟨-, hold⟩)
        · exact absurd hlt (lt_irrefl _)
        · exact hold
      · rintro rfl
        exact hnew (List.mem_of_getElem? hold)
    · simp
    · have hnone : (entries.map (·.1) ++ [key])[place]? = none := by
        rw [List.getElem?_eq_none_iff, List.length_append, List.length_singleton]
        exact hgt
      have hold : (entries.map (·.1))[place]? = none := List.getElem?_eq_none_iff.2 hgt.le
      simp only [hnone, hold]
      simpa using fun _ => hgt.ne

theorem Holds.set (h : m.Holds entries) (hplace : m.places.get? key = some place) :
    Holds { m with records := m.records.set place r } (entries.set place (key, r)) where
  records := by rw [h.records, List.map_set]
  places := by
    intro key' place'
    rw [h.places, List.map_set]
    rw [h.places] at hplace
    by_cases hsame : place = place'
    · subst hsame
      rw [hplace, List.getElem?_set_self (List.getElem?_eq_some_iff.1 hplace).1]
    · rw [List.getElem?_set_ne hsame]

/-- The next entry of a patch keeps the entries put together. -/
theorem Holds.put (h : m.Holds (overlay main patch)) (hkeys : (main.map (·.1)).Nodup)
    (hpatch : (patch.map (·.1)).Nodup) (hnew : key ∉ patch.map (·.1)) :
    (m.put key r).Holds (overlay main (patch ++ [(key, r)])) := by
  unfold Merging.put
  cases hplace : m.places.get? key with
  | none =>
    have habsent := h.get?_eq_none hplace
    rw [overlay_concat_of_new habsent]
    exact h.append habsent
  | some place =>
    rw [overlay_concat_of_main hkeys hpatch hnew ((h.places _ _).1 hplace)]
    exact h.set hplace

section Runs
variable {t : TableDef} {index : String} {records : List Record} {seen : List String}

/-- The run over the main side refuses what its reading with keys refuses, and else holds its entries
behind those from before. -/
theorem alike_addMain (h : m.Holds entries) (hseen : ∀ key, key ∈ seen ↔ key ∈ entries.map (·.1)) :
    Alike (fun m' read => m'.Holds (entries ++ read) ∧ m'.patched = m.patched)
      (records.foldlM (addMain t index) m) (keyedRecords t index .main seen records) := by
  induction records generalizing m entries seen with
  | nil => exact .ok ⟨by rwa [List.append_nil], rfl⟩
  | cons r rest ih =>
    rw [List.foldlM_cons, addMain]
    cases hkey : r.key t index with
    | error e =>
      rw [keyedRecords_cons_of_error hkey]
      exact .error e
    | ok key =>
      by_cases hold : key ∈ seen
      · rw [keyedRecords_cons_of_mem hkey hold]
        simp only [bind, Except.bind, h.contains_iff.2 ((hseen key).1 hold), if_true]
        exact .error _
      · have hnew : key ∉ entries.map (·.1) := fun hmem => hold ((hseen key).2 hmem)
        have hcontains : m.places.contains key = false :=
          Bool.eq_false_iff.2 fun hmem => hnew (h.contains_iff.1 hmem)
        have hkeys : ∀ key', key' ∈ key :: seen ↔ key' ∈ (entries ++ [(key, r)]).map (·.1) := by
          simp [hseen, or_comm]
        have hrest := ih (h.append hnew) hkeys
        rw [keyedRecords_cons_of_new hkey hold]
        simp only [bind, Except.bind, hcontains, Bool.false_eq_true, if_false]
        refine hrest.bind_pure fun m' read hread => ?_
        rwa [List.append_assoc, List.singleton_append] at hread

/-- The run over the patch refuses what its reading with keys refuses, and else holds the entries of
both sides put together. -/
theorem alike_addPatch (h : m.Holds (overlay main patch)) (hkeys : (main.map (·.1)).Nodup)
    (hpatch : (patch.map (·.1)).Nodup) (hseen : ∀ key, key ∈ m.patched ↔ key ∈ patch.map (·.1)) :
    Alike (fun m' read => m'.Holds (overlay main (patch ++ read)))
      (records.foldlM (addPatch t index) m) (keyedRecords t index .patch m.patched records) := by
  induction records generalizing m patch with
  | nil => exact .ok (by rwa [List.append_nil])
  | cons r rest ih =>
    rw [List.foldlM_cons, addPatch]
    cases hkey : r.key t index with
    | error e =>
      rw [keyedRecords_cons_of_error hkey]
      exact .error e
    | ok key =>
      by_cases hold : key ∈ m.patched
      · rw [keyedRecords_cons_of_mem hkey hold]
        simp only [bind, Except.bind, hold, if_true]
        exact .error _
      · have hnew : key ∉ patch.map (·.1) := fun hmem => hold ((hseen key).2 hmem)
        have hdistinct : ((patch ++ [(key, r)]).map (·.1)).Nodup := by
          rw [List.map_append, List.map_singleton]
          exact hpatch.append (List.nodup_singleton _) (List.disjoint_singleton.2 hnew)
        have hput := h.put (r := r) hkeys hpatch hnew
        have hrest := ih (m := { m.put key r with patched := key :: m.patched })
          ⟨hput.records, hput.places⟩ hdistinct fun key' => by simp [hseen, or_comm]
        rw [keyedRecords_cons_of_new hkey hold]
        simp only [bind, Except.bind, hold, if_false]
        refine hrest.bind_pure fun m' read hread => ?_
        rwa [List.append_assoc, List.singleton_append] at hread

end Runs

end Merging

section Merged
variable {t : TableDef} {index : String} {main patch : List Record}

/-- Merging one record after another comes to what the two sides as a whole come to. -/
theorem mergeByPlaces_eq (hmode : t.mode = .map) (hindex : t.index = some index) :
    mergeByPlaces t index main patch = mergeRecords t main patch := by
  simp only [mergeRecords, hmode, hindex]
  have hmain : Alike (fun m read => m.Holds ([] ++ read) ∧ m.patched = [])
      (main.foldlM (Merging.addMain t index) .empty) (keyedRecords t index .main [] main) :=
    Merging.alike_addMain Merging.holds_empty (by simp)
  refine (hmain.with_result.bind ?_).eq
  rintro m mainEntries ⟨⟨hholds, hpatched⟩, hread⟩
  obtain ⟨_, _, hkeys, _⟩ := keyedRecords_eq_ok hread
  have hoverlay : overlay mainEntries [] = [] ++ mainEntries := overlay_nil
  rw [← hoverlay] at hholds
  have hpatch : Alike (fun m' read => m'.Holds (overlay mainEntries ([] ++ read)))
      (patch.foldlM (Merging.addPatch t index) m) (keyedRecords t index .patch m.patched patch) :=
    Merging.alike_addPatch hholds hkeys List.nodup_nil (by simp [hpatched])
  rw [hpatched] at hpatch
  refine hpatch.bind ?_
  rintro m' patchEntries hholds
  exact .ok hholds.records

end Merged

end ConfigTables
