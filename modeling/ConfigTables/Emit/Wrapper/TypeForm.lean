import ConfigTables.Emit.Wrapper.Names
import ConfigTables.Schema.Error

/-!
    The Rust types that fields have. A bean outside all containers is boxed, so that a bean may hold
    itself; inside a container it need not be, since the container holds its elements by reference. -/

namespace ConfigTables.Wrapper

/-- The type of a field of generated code. -/
inductive TypeForm where
  | bool
  | int32
  | int64
  | float32
  | float64
  | text
  | enum (e : EnumDef)
  | bean (b : BeanDef)
  | boxed (b : BeanDef)
  | vector (element : TypeForm)
  | pairs (key value : TypeForm)
  | option (inner : TypeForm)
  deriving DecidableEq

namespace TypeForm

/-- The form of a primitive type. -/
def ofPrimitive : Primitive → TypeForm
  | .bool => bool
  | .int => int32
  | .long => int64
  | .float => float32
  | .double => float64
  | .string => text
  | .datetime => int64

/-- The form of a type in a field of `scope`; `box` says that a bean in it has to be boxed. -/
def ofType (ds : Declarations) (scope : BeanDef) (box : Bool) :
    TypeExpr → Except SchemaError TypeForm
  | .primitive p => .ok (ofPrimitive p)
  | .named name =>
    match ds.fieldRef? scope name with
    | some (.enum e) => .ok (enum e)
    | some (.bean b) => .ok (if box then boxed b else bean b)
    | _ => .error (.unknownType name)
  | .sequence _ element => do return vector (← ofType ds scope false element)
  | .map key value => do
    let k ← ofType ds scope false key
    let v ← ofType ds scope false value
    return pairs k v
  | .nullable inner => do return option (← ofType ds scope box inner)

/-- The Rust text of a form. -/
def render (n : Names) : TypeForm → String
  | bool => "bool"
  | int32 => "i32"
  | int64 => "i64"
  | float32 => "f32"
  | float64 => "f64"
  | text => "String"
  | enum e => n.typeIdent e.fullName
  | bean b => n.beanIdent b
  | boxed b => "Box<" ++ n.beanIdent b ++ ">"
  | vector element => "Vec<" ++ element.render n ++ ">"
  | pairs key value => "Vec<(" ++ key.render n ++ ", " ++ value.render n ++ ")>"
  | option inner => "Option<" ++ inner.render n ++ ">"

/-- Whether values of a type in a field of `scope` can be keys of a hash map. -/
def isHashable (ds : Declarations) (scope : BeanDef) : TypeExpr → Bool
  | .primitive .float | .primitive .double => false
  | .primitive _ => true
  | .named name =>
    match ds.fieldRef? scope name with
    | some (.enum _) => true
    | _ => false
  | .sequence _ element => isHashable ds scope element
  | .map key value => isHashable ds scope key && isHashable ds scope value
  | .nullable inner => isHashable ds scope inner

end TypeForm

end ConfigTables.Wrapper
