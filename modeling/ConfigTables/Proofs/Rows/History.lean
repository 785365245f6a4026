import ConfigTables.Proofs.Rows.Registered
import Mathlib.Data.List.Induction

/-!
    What a store answers after any calls. A call merges the records first and changes the store only
    when that succeeds, so a call that fails leaves everything as it was. Under each name the store
    holds what the last successful call for the name was given; `reflects_history` says so for every
    list of calls, and what the store answers then for any table. -/

namespace ConfigTables

/-- A call that registers the records of a table. -/
structure Registration where
  table : TableDef
  main : List Record
  patch : List Record

/-- The calls made so far, each with its answer, in order. -/
abbrev History := List (Registration × Except DataError Unit)

namespace History

/-- A call is the last successful one for a full name: every later call for it failed. -/
def LastSuccess (h : History) (name : String) (r : Registration) : Prop :=
  ∃ before after, h = before ++ (r, .ok ()) :: after ∧ r.table.fullName = name ∧
    ∀ c ∈ after, c.1.table.fullName = name → c.2 ≠ .ok ()

/-- No call for a full name was successful. -/
def NoSuccess (h : History) (name : String) : Prop :=
  ∀ c ∈ h, c.1.table.fullName = name → c.2 ≠ .ok ()

variable {h : History} {name : String} {c : Registration × Except DataError Unit} {r : Registration}

theorem lastSuccess_concat_iff : LastSuccess (h ++ [c]) name r ↔
    (c = (r, .ok ()) ∧ r.table.fullName = name) ∨
      (c.1.table.fullName = name → c.2 ≠ .ok ()) ∧ LastSuccess h name r := by
  constructor
  · rintro ⟨before, after, heq, hname, hlater⟩
    rcases List.eq_nil_or_concat after with rfl | ⟨inner, x, rfl⟩
    · obtain ⟨-, hc⟩ := List.append_inj' heq rfl
      exact .inl ⟨List.head_eq_of_cons_eq hc, hname⟩
    · rw [List.concat_eq_append, ← List.cons_append, ← List.append_assoc] at heq
      obtain ⟨rfl, hc⟩ := List.append_inj' heq rfl
      cases List.head_eq_of_cons_eq hc
      rw [List.concat_eq_append, List.forall_mem_append] at hlater
      exact .inr ⟨hlater.2 c (List.mem_singleton_self c), before, inner, rfl, hname, hlater.1⟩
  · rintro (⟨rfl, hname⟩ | ⟨hc, before, after, rfl, hname, hlater⟩)
    · exact ⟨h, [], rfl, hname, by simp⟩
    · refine ⟨before, after ++ [c], by simp, hname, ?_⟩
      rw [List.forall_mem_append]
      exact ⟨hlater, by simpa using hc⟩

/-- Without a successful call for a name there is no last one. -/
theorem NoSuccess.not_lastSuccess (hnone : NoSuccess h name) : ¬LastSuccess h name r := by
  rintro ⟨before, after, rfl, hname, _⟩
  exact hnone (r, .ok ()) (by simp) hname rfl

end History

namespace Store

/-- Registering as a change of a store, which goes on being there whatever the answer is. -/
def registering (r : Registration) : ExceptT DataError (StateM Store) Unit := do
  let merged ← ExceptT.mk (pure (mergeRecords r.table r.main r.patch))
  modify fun s =>
    { s with tables := s.tables.insert r.table.fullName ⟨r.table, r.main, r.patch, merged⟩ }

/-- The answer of a call, and the store after it. -/
def call (s : Store) (r : Registration) : Except DataError Unit × Store :=
  StateT.run (ExceptT.run (registering r)) s

/-- The store after some calls. -/
def after (s : Store) (calls : List Registration) : Store :=
  calls.foldl (fun s r => (s.call r).2) s

/-- Some calls with their answers. -/
def history (s : Store) : List Registration → History
  | [] => []
  | r :: rest => (r, (s.call r).1) :: history (s.call r).2 rest

variable {s : Store} {r : Registration} {calls : List Registration} {name : String} {d : TableData}

/-- A call answers as a registration does, and gives the new store, or on failure the old one. -/
theorem call_eq (s : Store) (r : Registration) : s.call r =
    match s.register r.table r.main r.patch with
    | .ok s' => (.ok (), s')
    | .error e => (.error e, s) := by
  rw [register]
  unfold call registering
  cases mergeRecords r.table r.main r.patch <;> rfl

theorem call_of_error {e : DataError} (h : (s.call r).1 = .error e) : (s.call r).2 = s := by
  rw [call_eq] at h ⊢
  cases hregister : s.register r.table r.main r.patch with
  | ok s' => simp [hregister] at h
  | error e' => rfl

theorem call_of_ok (h : (s.call r).1 = .ok ()) :
    (s.call r).2.excluded = s.excluded ∧ (s.call r).2.Holds r.table r.main r.patch ∧
      ∀ name, r.table.fullName ≠ name → (s.call r).2.tables.get? name = s.tables.get? name := by
  rw [call_eq] at h ⊢
  cases hregister : s.register r.table r.main r.patch with
  | ok s' => exact register_eq_ok hregister
  | error e => simp [hregister] at h

/-- What one call does: it puts its own records under the name of its table when it succeeds, and
nothing changes under other names or when it fails. -/
theorem get?_call_iff : (s.call r).2.tables.get? name = some d ↔
    ((s.call r).1 = .ok () ∧ r.table.fullName = name ∧ r = ⟨d.table, d.main, d.patch⟩ ∧
      mergeRecords d.table d.main d.patch = .ok d.merged) ∨
    (r.table.fullName = name → (s.call r).1 ≠ .ok ()) ∧ s.tables.get? name = some d := by
  cases hanswer : (s.call r).1 with
  | error e =>
    rw [call_of_error hanswer]
    simp
  | ok _ =>
    obtain ⟨_, ⟨merged, hmerged, hget⟩, hother⟩ := call_of_ok hanswer
    by_cases hname : r.table.fullName = name
    · subst hname
      rw [hget]
      constructor
      · intro h
        cases h
        exact .inl ⟨rfl, rfl, rfl, hmerged⟩
      · rintro (⟨-, -, rfl, hd⟩ | ⟨h, -⟩)
        · cases hmerged.symm.trans hd
          rfl
        · exact absurd rfl (h rfl)
    · rw [hother name hname]
      simp [hname]

theorem after_concat (s : Store) (calls : List Registration) (r : Registration) :
    s.after (calls ++ [r]) = ((s.after calls).call r).2 := List.foldl_concat ..

theorem history_concat (s : Store) (calls : List Registration) (r : Registration) :
    s.history (calls ++ [r]) = s.history calls ++ [(r, ((s.after calls).call r).1)] := by
  induction calls generalizing s with
  | nil => rfl
  | cons first rest ih => exact congrArg (_ :: ·) (ih (s.call first).2)

theorem excluded_after (s : Store) (calls : List Registration) :
    (s.after calls).excluded = s.excluded := by
  induction calls using List.reverseRecOn with
  | nil => rfl
  | append_singleton calls r ih =>
    rw [after_concat, ← ih]
    cases hanswer : ((s.after calls).call r).1 with
    | error e => rw [call_of_error hanswer]
    | ok _ => exact (call_of_ok hanswer).1

/-- A run of calls leaves under each name what the last successful call for it was given. -/
theorem get?_after_iff (excluded : List String) :
    ((empty excluded).after calls).tables.get? name = some d ↔
      ((empty excluded).history calls).LastSuccess name ⟨d.table, d.main, d.patch⟩ ∧
        mergeRecords d.table d.main d.patch = .ok d.merged := by
  -- from the end, since the last call alone decides what the calls before it leave standing
  induction calls using List.reverseRecOn with
  | nil =>
    refine iff_of_false (by simp [after, empty]) ?_
    rintro ⟨⟨before, later, h, _⟩, _⟩
    simp [history] at h
  | append_singleton calls r ih =>
    rw [after_concat, history_concat, get?_call_iff, History.lastSuccess_concat_iff, ih]
    constructor
    · rintro (⟨hanswer, rfl, rfl, hmerged⟩ | ⟨hother, hlast, hmerged⟩)
      · exact ⟨.inl ⟨by rw [hanswer], rfl⟩, hmerged⟩
      · exact ⟨.inr ⟨hother, hlast⟩, hmerged⟩
    · rintro ⟨⟨hcall, hname⟩ | ⟨hother, hlast⟩, hmerged⟩
      · obtain ⟨rfl, hanswer⟩ := Prod.ext_iff.1 hcall
        exact .inl ⟨hanswer, hname, rfl, hmerged⟩
      · exact .inr ⟨hother, hlast, hmerged⟩

/-- The records of a successful call could be merged. -/
theorem exists_merged (h : (r, .ok ()) ∈ s.history calls) :
    ∃ merged, mergeRecords r.table r.main r.patch = .ok merged := by
  induction calls generalizing s with
  | nil => cases h
  | cons first rest ih =>
    rcases List.mem_cons.1 h with heq | h
    · obtain ⟨rfl, hanswer⟩ := Prod.ext_iff.1 heq
      obtain ⟨_, ⟨merged, hmerged, _⟩, _⟩ := call_of_ok hanswer.symm
      exact ⟨merged, hmerged⟩
    · exact ih h

/-- The records of a table that carry no excluded tag, in order. -/
def kept (excluded : List String) (records : List Record) : List Record :=
  records.filter fun r => decide (∀ tag ∈ r.tags, tag ∉ excluded)

theorem kept_eq (excluded : List String) (records : List Record) :
    kept excluded records = records.filter (·.isKept excluded) := by
  refine List.filter_congr fun r _ => ?_
  rw [Bool.eq_iff_iff]
  simp [Record.isKept]

/-- What a store answers when some calls with some answers have led to it. -/
structure Reflects (excluded : List String) (h : History) (s : Store) : Prop where
  entry : ∀ name d, s.tables.get? name = some d → d.table.fullName = name ∧
    mergeRecords d.table d.main d.patch = .ok d.merged ∧
    h.LastSuccess name ⟨d.table, d.main, d.patch⟩
  held : ∀ name r, h.LastSuccess name r →
    ∃ merged, s.tables.get? name = some ⟨r.table, r.main, r.patch, merged⟩
  unknown : ∀ t, h.NoSuccess t.fullName → s.data t = .error (.notRegistered t.fullName) ∧
    s.allRecords t = .error (.notRegistered t.fullName) ∧
    s.exportRecords t = .error (.notRegistered t.fullName)
  unchanged : ∀ r e, (s.call r).1 = .error e → (s.call r).2 = s
  export_eq : ∀ t d, s.tables.get? t.fullName = some d → s.exportRecords t =
    if t.mode = .one ∧ (kept excluded d.merged).length ≠ 1 then
      .error (.singleton t.fullName (kept excluded d.merged).length)
    else .ok (kept excluded d.merged)

/-- A store that holds nothing under the name of a table does not know the table. -/
theorem unknown_of_get? {t : TableDef} (h : s.tables.get? t.fullName = none) :
    s.data t = .error (.notRegistered t.fullName) ∧
      s.allRecords t = .error (.notRegistered t.fullName) ∧
      s.exportRecords t = .error (.notRegistered t.fullName) := by
  have hdata : s.data t = .error (.notRegistered t.fullName) := by rw [data, h]
  have hall : s.allRecords t = .error (.notRegistered t.fullName) := by
    rw [allRecords, hdata]
    rfl
  refine ⟨hdata, hall, ?_⟩
  rw [exportRecords, hall]
  rfl

/-- After any calls on the empty store, those that succeed and those that fail, the store reflects
them: it holds and exports what the last successful call for each table was given. -/
theorem reflects_history (excluded : List String) (calls : List Registration) :
    Reflects excluded ((empty excluded).history calls) ((empty excluded).after calls) := by
  refine ⟨fun name d hget => ?_, fun name r hlast => ?_, fun t hnone => ?_,
    fun r e h => call_of_error h, fun t d hget => ?_⟩
  · obtain ⟨hlast, hmerged⟩ := (get?_after_iff excluded).1 hget
    obtain ⟨_, _, _, hname, _⟩ := id hlast
    exact ⟨hname, hmerged, hlast⟩
  · obtain ⟨before, after, hhistory, _⟩ := id hlast
    obtain ⟨merged, hmerged⟩ := exists_merged (hhistory ▸ by simp :
      (r, .ok ()) ∈ (empty excluded).history calls)
    exact ⟨merged, (get?_after_iff excluded).2 ⟨hlast, hmerged⟩⟩
  · refine unknown_of_get? (Option.eq_none_iff_forall_not_mem.2 fun d hget => ?_)
    exact hnone.not_lastSuccess ((get?_after_iff excluded).1 hget).1
  · have hexcluded : ((empty excluded).after calls).excluded = excluded := excluded_after ..
    rw [exportRecords_of_get? hget, hexcluded, kept_eq]
    simp only [TableDef.isSingleton, Bool.and_eq_true, decide_eq_true_eq]

end Store

end ConfigTables
