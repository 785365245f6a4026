import ConfigTables.Proofs.Rows.Registered
import ConfigTables.Proofs.Workers

/-!
    Loading tables by workers. A worker for each table loads its rows, and the workers finish in any
    order. When all are joined, the rows are registered in the order of the tables, until one table
    stops the load because its worker failed or panicked or because its rows cannot be merged. Nothing
    is taken back then: the rows of the tables before it stay registered (`Registers`), so that only a
    load that the first table stops is sure to leave the store as it was. -/

namespace ConfigTables.Store
variable {s s' s'' : Store} {loader : Loader} {t u : TableDef} {tables : List TableDef}
  {e : DataError}

/-! ### Registrations in order -/

/-- The loaded rows of some tables are registered, one table after another. -/
inductive Registers (loader : Loader) : Store → List TableDef → Store → Prop
  | nil {s : Store} : Registers loader s [] s
  | cons {s s' s'' : Store} {t : TableDef} {rest : List TableDef} {main patch : List Record} :
      loader t = .rows main patch → s.register t main patch = .ok s' →
      Registers loader s' rest s'' → Registers loader s (t :: rest) s''

/-- What a table stops a load with. -/
inductive Stops (loader : Loader) (t : TableDef) : DataError → Prop
  | failed {e : DataError} : loader t = .failed e → Stops loader t e
  | panicked : loader t = .panicked → Stops loader t (.invariant (.loaderPanicked t.fullName))
  | unmerged {e : DataError} {main patch : List Record} : loader t = .rows main patch →
      mergeRecords t main patch = .error e → Stops loader t e

theorem register_eq_error_iff {main patch : List Record} :
    s.register t main patch = .error e ↔ mergeRecords t main patch = .error e := by
  rw [register, bind_eq_error_iff]
  exact ⟨fun h => h.resolve_right (by rintro ⟨_, _, ⟨⟩⟩), .inl⟩

theorem load_nil : s.load loader [] = (s, .ok ()) := rfl

theorem load_cons_of_rows {main patch : List Record} (hrows : loader t = .rows main patch)
    (hregister : s.register t main patch = .ok s') :
    s.load loader (t :: tables) = s'.load loader tables := by
  rw [load, List.map_cons, registerAll, hrows]
  simp only [Loaded.rows?, hregister]
  rfl

theorem load_cons_of_stops (h : Stops loader t e) :
    s.load loader (t :: tables) = (s, .error e) := by
  rw [load, List.map_cons, registerAll]
  cases h with
  | failed hfailed => rw [hfailed]; rfl
  | panicked hpanicked => rw [hpanicked]; rfl
  | unmerged hrows hmerge =>
    rw [hrows]
    simp only [Loaded.rows?, register_eq_error_iff.2 hmerge]

/-- The next table is registered, or it stops the load. -/
theorem registers_or_stops (s : Store) (loader : Loader) (t : TableDef) :
    (∃ main patch s', loader t = .rows main patch ∧ s.register t main patch = .ok s') ∨
      ∃ e, Stops loader t e := by
  cases hloaded : loader t with
  | failed e => exact .inr ⟨e, .failed hloaded⟩
  | panicked => exact .inr ⟨_, .panicked hloaded⟩
  | rows main patch =>
    cases hregister : s.register t main patch with
    | ok s' => exact .inl ⟨main, patch, s', rfl, hregister⟩
    | error e => exact .inr ⟨e, .unmerged hloaded (register_eq_error_iff.1 hregister)⟩

/-- A load registers all tables, or those before the first one that stops it. -/
theorem load_cases (s : Store) (loader : Loader) (tables : List TableDef) :
    (∃ s', s.load loader tables = (s', .ok ()) ∧ Registers loader s tables s') ∨
      ∃ s' e before t after, s.load loader tables = (s', .error e) ∧ tables = before ++ t :: after ∧
        Registers loader s before s' ∧ Stops loader t e := by
  induction tables generalizing s with
  | nil => exact .inl ⟨s, load_nil, .nil⟩
  | cons t rest ih =>
    rcases registers_or_stops s loader t with ⟨main, patch, s₁, hrows, hregister⟩ | ⟨e, hstops⟩
    · rw [load_cons_of_rows hrows hregister]
      rcases ih s₁ with ⟨s', hload, hrest⟩ | ⟨s', e, before, u, after, hload, rfl, hbefore, hstops⟩
      · exact .inl ⟨s', hload, .cons hrows hregister hrest⟩
      · exact .inr ⟨s', e, t :: before, u, after, hload, rfl, .cons hrows hregister hbefore, hstops⟩
    · exact .inr ⟨s, e, [], t, rest, load_cons_of_stops hstops, rfl, .nil, hstops⟩

theorem Registers.load_eq (h : Registers loader s tables s') :
    s.load loader tables = (s', .ok ()) := by
  induction h with
  | nil => exact load_nil
  | cons hrows hregister _ ih => rw [load_cons_of_rows hrows hregister, ih]

/-- Registered rows stay under the name of a table, and other names keep what they had. -/
theorem Registers.isRegistered (h : Registers loader s tables s') (ht : t ∈ tables) :
    s'.isRegistered t = true := by
  rcases (registerAll_eq_ok h.load_eq).2 t.fullName with ⟨_, _, hname, _, _, _, _, _, hget⟩ | ⟨hnone, _⟩
  · rw [Store.isRegistered, NameMap.contains, ← hname, hget]
    rfl
  · exact absurd rfl (hnone _ (List.mem_map_of_mem ht))

theorem Registers.get?_eq (h : Registers loader s tables s')
    (hother : ∀ t ∈ tables, t.fullName ≠ u.fullName) :
    s'.tables.get? u.fullName = s.tables.get? u.fullName := by
  rcases (registerAll_eq_ok h.load_eq).2 u.fullName with ⟨entry, hentry, hname, _⟩ | ⟨_, hsame⟩
  · obtain ⟨t, ht, rfl⟩ := List.mem_map.1 hentry
    exact absurd hname (hother t ht)
  · exact hsame

/-! ### Schedules -/

/-- A load on its way: its workers, the store and the answer. -/
abbrev LoadState := ForkJoin Loaded Store (Except DataError Unit)

namespace LoadState

/-- The end of a load: what was joined is registered, in order. -/
def ending (tables : List TableDef) (joined : List Loaded) (s : Store) :
    Store × Except DataError Unit := s.registerAll (tables.zip joined)

/-- One step of a load or of one of its workers. -/
def Step (loader : Loader) (tables : List TableDef) : LoadState → LoadState → Prop :=
  ForkJoin.Step (tables.map loader) (ending tables)

/-- Some steps of a load and its workers, one after the other. -/
def Steps (loader : Loader) (tables : List TableDef) : LoadState → LoadState → Prop :=
  Relation.ReflTransGen (Step loader tables)

variable {st : LoadState}

/-- For every order of the tables there is a schedule in which their workers finish in that order. -/
theorem exists_schedule (loader : Loader) (s : Store) {order : List Nat}
    (horder : order.Perm (List.range tables.length)) :
    ∃ st, Steps loader tables (.initial s) st ∧ st.workers.finishers = order ∧ st.answer.isSome := by
  rw [← List.length_map (f := loader)] at horder
  exact ForkJoin.exists_schedule _ s horder

/-- The answer is that of a load without workers. -/
theorem load_eq (h : Steps loader tables (.initial s) st) {r : Except DataError Unit}
    (hr : st.answer = some r) : s.load loader tables = (st.state, r) := by
  rw [load, List.map_prod_left_eq_zip]
  exact (ForkJoin.Steps.reached h).answered r hr

end LoadState

/-- A load by workers, in every schedule. Every schedule ends, none is stuck before there is an answer,
and until then the store is as before; the workers may finish in any order. The answer is that of a
load without workers. When it is good, the loaded rows of all tables are registered in order. When it
is a failure, this is that of the first table that stops the load, and the rows of the tables before it
are registered: these tables have data then, and the names of other tables keep what they had. -/
theorem load_registers_until_stopped (s : Store) (loader : Loader) (tables : List TableDef) :
    (WellFounded fun st' st => LoadState.Step loader tables st st') ∧
    (∀ order, order.Perm (List.range tables.length) →
      ∃ st, LoadState.Steps loader tables (.initial s) st ∧ st.workers.finishers = order ∧
        st.answer.isSome) ∧
    ∀ st, LoadState.Steps loader tables (.initial s) st →
      (st.answer = none → st.state = s ∧ ∃ st', LoadState.Step loader tables st st') ∧
      ∀ r, st.answer = some r →
        s.load loader tables = (st.state, r) ∧
        (r = .ok () → Registers loader s tables st.state) ∧
        ∀ e, r = .error e → ∃ before t after, tables = before ++ t :: after ∧
          Stops loader t e ∧ Registers loader s before st.state ∧
          (∀ u ∈ before, st.state.isRegistered u = true) ∧
          ∀ u : TableDef, (∀ t' ∈ before, t'.fullName ≠ u.fullName) →
            st.state.tables.get? u.fullName = s.tables.get? u.fullName := by
  refine ⟨ForkJoin.wellFounded_step _ _,
    fun order horder => LoadState.exists_schedule loader s horder, fun st hsteps => ?_⟩
  have h := ForkJoin.Steps.reached hsteps
  refine ⟨fun hnone => ⟨h.waiting hnone, h.exists_step hnone⟩, fun r hr => ?_⟩
  have hload := LoadState.load_eq hsteps hr
  refine ⟨hload, ?_⟩
  rcases load_cases s loader tables with
    ⟨s', hok, hall⟩ | ⟨s', e, before, t, after, herror, rfl, hbefore, hstops⟩
  · cases hload.symm.trans hok
    exact ⟨fun _ => hall, nofun⟩
  · cases hload.symm.trans herror
    refine ⟨nofun, ?_⟩
    rintro _ ⟨⟩
    exact ⟨before, t, after, rfl, hstops, hbefore, fun u hu => hbefore.isRegistered hu,
      fun u hother => hbefore.get?_eq hother⟩

namespace Deliveries

/-- Two tables; the rows of the second one do not come. -/
def arrived : TableDef := ⟨"", "TbArrived", "Item", none, .list, [], none, none⟩

def missing : TableDef := ⟨"", "TbMissing", "Item", none, .list, [], none, none⟩

def source : Loader := fun t => if t = arrived then .rows [] [] else .panicked

def failure : DataError := .invariant (.loaderPanicked "TbMissing")

theorem source_arrived : source arrived = .rows [] [] := if_pos rfl

theorem not_stops_arrived {e : DataError} : ¬Stops source arrived e := by
  intro h
  cases h with
  | failed hloaded => cases source_arrived.symm.trans hloaded
  | panicked hloaded => cases source_arrived.symm.trans hloaded
  | unmerged hloaded hmerge =>
    cases source_arrived.symm.trans hloaded
    cases hmerge

theorem load_eq : ∃ s : Store, (Store.empty []).load source [arrived, missing] =
    (s, .error failure) ∧ s.isRegistered arrived = true := ⟨_, rfl, by decide⟩

/-- The worker of the second table finishes first; still the rows of the first one are registered and
stay so. -/
theorem load_registers_until_missing :
    ∃ st, LoadState.Steps source [arrived, missing] (.initial (.empty [])) st ∧
      st.workers.finishers = [1, 0] ∧ st.answer = some (.error failure) ∧
      Registers source (.empty []) [arrived] st.state := by
  obtain ⟨-, horders, hruns⟩ :=
    load_registers_until_stopped (.empty []) source [arrived, missing]
  obtain ⟨st, hsteps, hfinishers, hsome⟩ := horders [1, 0] (by decide)
  obtain ⟨r, hr⟩ := Option.isSome_iff_exists.1 hsome
  obtain ⟨hload, -, hfailed⟩ := (hruns st hsteps).2 r hr
  obtain ⟨s, hs, -⟩ := load_eq
  cases hload.symm.trans hs
  obtain ⟨before, t, after, hsplit, hstops, hbefore, -⟩ := hfailed failure rfl
  rcases before with _ | ⟨first, _ | ⟨second, before⟩⟩
  · cases hsplit
    exact absurd hstops not_stops_arrived
  · cases hsplit
    exact ⟨st, hsteps, hfinishers, hr, hbefore⟩
  · simp at hsplit

/-- A failed load is not undone: the first table has data afterwards, though it had none before. -/
theorem failed_load_leaves_rows : ¬ ∀ (s : Store) (loader : Loader) (tables : List TableDef)
    (st : LoadState) (e : DataError), LoadState.Steps loader tables (.initial s) st →
    st.answer = some (.error e) → ∀ t, st.state.isRegistered t = s.isRegistered t ∧
      st.state.tables.get? t.fullName = s.tables.get? t.fullName := by
  intro h
  have horder : [0, 1].Perm (List.range [arrived, missing].length) := by decide
  obtain ⟨st, hsteps, -, hsome⟩ := LoadState.exists_schedule source (.empty []) horder
  obtain ⟨r, hr⟩ := Option.isSome_iff_exists.1 hsome
  have hload := LoadState.load_eq hsteps hr
  obtain ⟨s, hs, hregistered⟩ := load_eq
  cases hload.symm.trans hs
  have hsame := (h _ _ _ st failure hsteps hr arrived).1
  rw [hregistered] at hsame
  cases hsame

end Deliveries

end ConfigTables.Store
