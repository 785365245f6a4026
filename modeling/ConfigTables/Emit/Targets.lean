import ConfigTables.Emit.Wrapper.Target

/-!
    The targets that every run can choose from. -/

namespace ConfigTables

/-- The registry of the targets of this library. -/
def Registry.standard : Registry :=
  .ofList ([DataTarget.target, Wrapper.target].map fun t => (t.name, t))

end ConfigTables
