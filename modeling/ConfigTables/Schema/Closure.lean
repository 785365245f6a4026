import ConfigTables.NameMap
import ConfigTables.Schema.Graph

/-!
    The declarations that an export needs: every enum, every bean of an enabled group, every table to
    be exported, and all that these mention, directly or through others. Tables are never mentioned
    into an export; they are listed. A closure holds each declaration under its full name, and a name
    that would stand for declarations of two kinds is refused.

    `reach` collects what is mentioned. It takes a declaration at most once, so it ends on every
    graph, cycles included. -/

namespace ConfigTables

/-- The declarations of an export, under their full names. -/
abbrev ExportClosure := NameMap TypeDef

namespace Declarations

theorem mem_of_named?_eq_some {ds : Declarations} {name : String} {d : TypeDef}
    (h : ds.named? name = some d) : d ∈ ds := List.mem_of_find?_eq_some h

theorem mem_of_fieldRef?_eq_some {ds : Declarations} {owner : BeanDef} {name : String} {d : TypeDef}
    (h : ds.fieldRef? owner name = some d) : d ∈ ds := by
  unfold fieldRef? resolve? at h
  split at h
  · exact mem_of_named?_eq_some h
  · split at h
    · rename_i e he
      exact Option.some.inj h ▸ mem_of_named?_eq_some he
    · exact mem_of_named?_eq_some h

/-- What a declaration mentions is declared. -/
theorem mem_of_mem_refs {ds : Declarations} {d r : TypeDef} (h : r ∈ ds.refs d) : r ∈ ds := by
  unfold refs at h
  split at h
  · simp at h
  · simp only [Option.mem_toList] at h
    exact mem_of_named?_eq_some h
  · rename_i b
    simp only [List.mem_append, Option.mem_toList, List.mem_filterMap, fieldRefs,
      List.mem_flatMap] at h
    rcases h with (h | ⟨_, _, h⟩) | ⟨_, _, _, _, h⟩
    · obtain ⟨p, -, hp⟩ := Option.bind_eq_some_iff.1 h
      exact mem_of_named?_eq_some hp
    · exact mem_of_named?_eq_some h
    · exact mem_of_fieldRef?_eq_some h

/-- The declarations that a declaration mentions, without tables. -/
def valueRefs (ds : Declarations) (d : TypeDef) : List TypeDef :=
  (ds.refs d).filter (·.kind ≠ .table)

/-- `valueRefs` with the proof that they are declared, the last one first. -/
def pendingRefs (ds : Declarations) (d : TypeDef) : List { r : TypeDef // r ∈ ds } :=
  ((ds.valueRefs d).attachWith (· ∈ ds) fun _ h => mem_of_mem_refs (List.mem_filter.1 h).1).reverse

/-- How many declarations a closure does not hold yet. -/
def missing (ds : Declarations) (closure : ExportClosure) : Nat :=
  ds.countP fun d => !closure.contains d.fullName

theorem countP_lt_of_imp {α : Type} {p q : α → Bool} {l : List α} (himp : ∀ x, q x → p x) {a : α}
    (ha : a ∈ l) (hp : p a) (hq : q a = false) : l.countP q < l.countP p := by
  induction l with
  | nil => simp at ha
  | cons x rest ih =>
    have hle : rest.countP q ≤ rest.countP p := List.countP_mono_left fun x _ => himp x
    rcases List.mem_cons.1 ha with rfl | ha
    · simp only [List.countP_cons, hp, hq]
      simp
      omega
    · have := ih ha
      have := himp x
      simp only [List.countP_cons]
      by_cases hqx : q x
      · simp_all
      · simp only [hqx]
        simp
        omega

/-- Taking a declaration into a closure leaves fewer outside. -/
theorem missing_insert_lt {ds : Declarations} {closure : ExportClosure} {d : TypeDef} (hd : d ∈ ds)
    (hnew : closure.get? d.fullName = none) :
    ds.missing (closure.insert d.fullName d) < ds.missing closure := by
  refine countP_lt_of_imp (a := d) (fun e he => ?_) hd ?_ ?_
  · simp only [NameMap.contains, NameMap.get?_insert, Bool.not_eq_true', Option.isSome_eq_false_iff,
      Option.isNone_iff_eq_none] at he ⊢
    split at he <;> simp_all
  · simp [NameMap.contains, hnew]
  · simp [NameMap.contains, NameMap.get?_insert]

/-- The closure with the pending declarations and everything they mention, the first pending one
first. A declaration whose name the closure holds already is passed over. -/
def reach (ds : Declarations) (closure : ExportClosure) :
    List { d : TypeDef // d ∈ ds } → Except SchemaError ExportClosure
  | [] => .ok closure
  | ⟨d, _⟩ :: pending =>
    match _hget : closure.get? d.fullName with
    | some existing =>
      if existing.kind = d.kind then ds.reach closure pending
      else .error (.nameCollision d.fullName existing.kind d.kind)
    | none => ds.reach (closure.insert d.fullName d) (ds.pendingRefs d ++ pending)
termination_by pending => (ds.missing closure, pending.length)
decreasing_by
  · exact Prod.Lex.right _ (by simp)
  · exact Prod.Lex.left _ _ (missing_insert_lt ‹_› ‹_›)

/-- Whether a declaration belongs to an export by itself. -/
def isRoot (enabled : List String) : TypeDef → Bool
  | .enum _ => true
  | .bean b => b.groups.any (· ∈ enabled)
  | .table _ => false

/-- The closure with the declarations that belong to an export by themselves, and everything they
mention. -/
def reachRoots (ds : Declarations) (enabled : List String) (closure : ExportClosure) :
    List { d : TypeDef // d ∈ ds } → Except SchemaError ExportClosure
  | [] => .ok closure
  | d :: rest =>
    if closure.contains d.val.fullName || !isRoot enabled d.val then
      ds.reachRoots enabled closure rest
    else do ds.reachRoots enabled (← ds.reach closure [d]) rest

/-- The closure with a table and everything its rows mention. The table need not be declared. -/
def reachTable (ds : Declarations) (closure : ExportClosure) (t : TableDef) :
    Except SchemaError ExportClosure :=
  let collision := (closure.get? t.fullName).filter (·.kind ≠ .table)
  match collision with
  | some existing => .error (.nameCollision t.fullName existing.kind .table)
  | none =>
    let closure := closure.insert t.fullName (.table t)
    match h : ds.named? t.valueType with
    | none => .error (.unknownType t.valueType)
    | some value => ds.reach closure [⟨value, mem_of_named?_eq_some h⟩]

/-- The declarations that an export of some tables needs. -/
def exportClosure (ds : Declarations) (tables : List TableDef) (enabled : List String) :
    Except SchemaError ExportClosure := do
  tables.foldlM ds.reachTable (← ds.reachRoots enabled .empty ds.attach)

/-- The tables to be exported: those without groups, and those of an enabled group, in order. -/
def exportTables (ds : Declarations) (enabled : List String) : List TableDef :=
  ds.tables.filter fun t => t.groups.isEmpty || t.groups.any (· ∈ enabled)

end Declarations

namespace ExportClosure

/-- The beans of an export, by name. -/
def beans (c : ExportClosure) : List BeanDef := c.values.filterMap TypeDef.bean?

/-- The enums of an export, by name. -/
def enums (c : ExportClosure) : List EnumDef := c.values.filterMap TypeDef.enum?

/-- The tables of an export, by name. -/
def tables (c : ExportClosure) : List TableDef := c.values.filterMap TypeDef.table?

end ExportClosure

end ConfigTables
