import ConfigTables.Schema.TypeExpr
import ConfigTables.Text.Blank

/-!
    Reading type expressions. `Form.ofText` finds how an expression is put together at its outermost
    level, and `TypeExpr.ofText` reads the parts it finds there. The parts are shorter than the
    expression (`Form.length_part_lt`), so reading ends for every text. -/

namespace ConfigTables

/-- What can be wrong with a type expression. -/
inductive TypeExprFault where
  | empty
  | nestedNullable
  | unbalanced
  | argumentCount
  | unknownContainer
  | strayCharacter
  deriving DecidableEq, Repr

/-- The words for a fault. -/
def TypeExprFault.message : TypeExprFault → String
  | empty => "empty type"
  | nestedNullable => "nested nullable"
  | unbalanced => "unbalanced '<'"
  | argumentCount => "wrong number of type arguments"
  | unknownContainer => "unknown container"
  | strayCharacter => "unexpected character"

/-- A refused type expression: the innermost part that is at fault, as it is written, and why. -/
structure TypeExprError where
  expr : String
  fault : TypeExprFault
  deriving DecidableEq, Repr

/-- A type expression, taken apart at its outermost level. -/
inductive Form where
  | empty
  | optional (inner : List Char)
  | applied (container : List Char) (arguments : List (List Char))
  | unbalanced
  | stray
  | plain (name : List Char)

namespace Form

/-- Puts a character in front of the first of some texts. -/
def consFirst (c : Char) : List (List Char) → List (List Char)
  | [] => [[c]]
  | first :: others => (c :: first) :: others

/-- The parts between the commas that stand outside all angle brackets, `none` when the brackets do
not pair up; `depth` brackets are open before the text. -/
def splitArguments : Nat → List Char → Option (List (List Char))
  | 0, [] => some [[]]
  | _ + 1, [] => none
  | 0, ',' :: rest => (splitArguments 0 rest).map ([] :: ·)
  | 0, '>' :: _ => none
  | depth + 1, '>' :: rest => (splitArguments depth rest).map (consFirst '>')
  | depth, '<' :: rest => (splitArguments (depth + 1) rest).map (consFirst '<')
  | depth, c :: rest => (splitArguments depth rest).map (consFirst c)

/-- The form of an expression without blanks around it. -/
def ofText (text : List Char) : Form :=
  if text = [] then empty
  else if text.getLast? = some '?' then optional text.dropLast
  else if '<' ∈ text then
    if text.getLast? = some '>' then
      match splitArguments 0 ((text.dropWhile (· ≠ '<')).tail.dropLast) with
      | some arguments =>
        applied (Text.trim (text.takeWhile (· ≠ '<'))) (arguments.map Text.trim)
      | none => unbalanced
    else unbalanced
  else if text.any fun c => c = '>' || c = ',' || Text.isBlank c then stray
  else plain text

/-- Whether a text is one of the parts that a form leaves to be read. -/
def HasPart : Form → List Char → Prop
  | optional inner, part => part = inner
  | applied _ arguments, part => part ∈ arguments
  | _, _ => False

theorem length_le_of_mem_consFirst {c : Char} {n : Nat} {parts : List (List Char)}
    (h : ∀ p ∈ parts, p.length ≤ n) : ∀ p ∈ consFirst c parts, p.length ≤ n + 1 := by
  intro p hp
  cases parts with
  | nil => simp_all [consFirst]
  | cons first others =>
    simp only [consFirst, List.mem_cons] at hp
    rcases hp with rfl | hp
    · have := h first (by simp)
      simpa using this
    · have := h p (by simp [hp])
      omega

theorem length_splitArguments_le {depth : Nat} {text : List Char} {parts : List (List Char)}
    (h : splitArguments depth text = some parts) : ∀ p ∈ parts, p.length ≤ text.length := by
  fun_induction splitArguments depth text generalizing parts with
  | case1 =>
    obtain rfl := Option.some.inj h
    simp
  | case2 => simp at h
  | case3 rest ih =>
    obtain ⟨q, hq, rfl⟩ := Option.map_eq_some_iff.1 h
    intro p hp
    rcases List.mem_cons.1 hp with rfl | hp
    · simp
    · have := ih hq p hp
      simp only [List.length_cons]
      omega
  | case4 => simp at h
  | case5 depth rest ih =>
    obtain ⟨q, hq, rfl⟩ := Option.map_eq_some_iff.1 h
    exact length_le_of_mem_consFirst (ih hq)
  | case6 depth rest ih =>
    obtain ⟨q, hq, rfl⟩ := Option.map_eq_some_iff.1 h
    exact length_le_of_mem_consFirst (ih hq)
  | case7 depth c rest _ _ _ _ ih =>
    obtain ⟨q, hq, rfl⟩ := Option.map_eq_some_iff.1 h
    exact length_le_of_mem_consFirst (ih hq)

/-- The parts of an expression are shorter than the expression. -/
theorem length_part_lt {text part : List Char} (h : (ofText text).HasPart part) :
    part.length < text.length := by
  unfold ofText at h
  split at h
  · exact h.elim
  rename_i hne
  have hpos : 0 < text.length := List.length_pos_iff.2 hne
  split at h
  · simp only [HasPart] at h
    subst h
    simp only [List.length_dropLast]
    omega
  split at h
  · split at h
    · split at h
      · rename_i parts hparts
        simp only [HasPart, List.mem_map] at h
        obtain ⟨argument, hmem, rfl⟩ := h
        have h1 := Text.length_trim_le argument
        have h2 := length_splitArguments_le hparts argument hmem
        have h3 := (List.dropWhile_sublist (l := text) (fun c => decide (c ≠ '<'))).length_le
        simp only [List.length_dropLast, List.length_tail] at h2
        omega
      · exact h.elim
    · exact h.elim
  split at h <;> exact h.elim

end Form

namespace TypeExpr

/-- The two ways to apply a container to type arguments. -/
inductive Container where
  | sequence (kind : Sequence)
  | map
  deriving DecidableEq

/-- The container of a name. -/
def Container.ofName? : String → Option Container
  | "array" => some (.sequence .array)
  | "list" => some (.sequence .list)
  | "set" => some (.sequence .set)
  | "map" => some .map
  | _ => none

/-- Reads a type expression; blanks around it and around its arguments do not count. -/
def ofText (expr : List Char) : Except TypeExprError TypeExpr :=
  let refuse (fault : TypeExprFault) : Except TypeExprError TypeExpr :=
    .error ⟨String.ofList expr, fault⟩
  match h : Form.ofText (Text.trim expr) with
  | .empty => refuse .empty
  | .optional inner =>
    match ofText inner with
    | .error e => .error e
    | .ok t => if t.isNullable then refuse .nestedNullable else .ok (nullable t)
  | .applied container arguments =>
    match Container.ofName? (String.ofList container), arguments, h with
    | some (.sequence kind), [element], _h =>
      match ofText element with
      | .error e => .error e
      | .ok t => .ok (sequence kind t)
    | some .map, [key, value], _h =>
      match ofText key with
      | .error e => .error e
      | .ok k =>
        match ofText value with
        | .error e => .error e
        | .ok v => .ok (map k v)
    | some _, _, _ => refuse .argumentCount
    | none, _, _ => refuse .unknownContainer
  | .unbalanced => refuse .unbalanced
  | .stray => refuse .strayCharacter
  | .plain name =>
    match Primitive.ofName? (String.ofList name) with
    | some p => .ok (primitive p)
    | none => .ok (named (String.ofList name))
termination_by expr.length
decreasing_by
  all_goals
    refine Nat.lt_of_lt_of_le (Form.length_part_lt ?_) (Text.length_trim_le expr)
    grind [Form.HasPart]

/-- Reads a type expression from a string. -/
def parse (expr : String) : Except TypeExprError TypeExpr := ofText expr.toList

end TypeExpr

end ConfigTables
