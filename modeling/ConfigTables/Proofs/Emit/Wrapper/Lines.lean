import ConfigTables.Emit.Wrapper.Text
import Mathlib.Data.List.Infix

/-!
    Lines of generated code that begin with a mark. Code is put together from pieces, and the marked
    lines of the whole are those of the pieces; what stands between braces is indented and so begins
    with spaces. In this way the file about all tables says of each table where its module is, in
    order and nowhere else, and the file of a table says once where its rows are. -/

namespace ConfigTables.Wrapper

/-! ### Marks -/

/-- Whether a line begins with a mark. -/
def begins (mark line : String) : Bool := mark.toList.isPrefixOf line.toList

/-- Whether neither of two texts begins with the other one. -/
def apart (a b : String) : Bool := !begins a b && !begins b a

/-- The lines of some code that begin with a mark. -/
def Code.marked (mark : String) (code : Code) : Code := code.filter (begins mark)

section Marks
variable {mark a b : String}

theorem begins_iff : begins mark a = true ↔ mark.toList <+: a.toList := List.isPrefixOf_iff_prefix

theorem begins_append_of_begins (h : begins mark a = true) (b : String) :
    begins mark (a ++ b) = true := by
  rw [begins_iff] at h ⊢
  rw [String.toList_append]
  exact h.trans (List.prefix_append ..)

theorem begins_append_append (a b mark : String) : begins (a ++ mark) (a ++ b) = begins mark b := by
  rw [Bool.eq_iff_iff, begins_iff, begins_iff, String.toList_append, String.toList_append,
    List.prefix_append_right_inj]

theorem begins_empty (h : mark ≠ "") : begins mark "" = false := by
  rw [Bool.eq_false_iff, ne_eq, begins_iff, String.toList_empty, List.prefix_nil,
    String.toList_eq_nil_iff]
  exact h

/-- What a line begins with decides that it does not begin with a mark apart from it. -/
theorem begins_append_of_apart (h : apart mark a = true) (b : String) :
    begins mark (a ++ b) = false := by
  rw [apart, Bool.and_eq_true, Bool.not_eq_true', Bool.not_eq_true'] at h
  rw [Bool.eq_false_iff, ne_eq, begins_iff, String.toList_append]
  intro hmark
  rcases List.prefix_or_prefix_of_prefix hmark (List.prefix_append a.toList b.toList) with hle | hle
  · rw [← begins_iff, h.1] at hle
    cases hle
  · rw [← begins_iff, h.2] at hle
    cases hle

theorem begins_head_of_apart (h : apart mark a = true) (b c : String) :
    begins mark (a ++ b ++ c) = false := by
  rw [String.append_assoc]
  exact begins_append_of_apart h _

end Marks

/-- A mark of lines that are neither indented nor the end of a block. -/
structure IsTop (mark : String) : Prop where
  nonempty : mark ≠ ""
  indentation : apart mark "    " = true
  closing : apart mark "\x7d" = true

namespace Code
variable {mark line start : String} {code code' : Code} {head tail : String}

theorem marked_append : marked mark (code ++ code') = marked mark code ++ marked mark code' :=
  List.filter_append ..

theorem marked_nil : marked mark [] = [] := rfl

theorem marked_flatMap {α : Type} (l : List α) (f : α → Code) :
    marked mark (l.flatMap f) = l.flatMap fun a => marked mark (f a) := List.filter_flatMap

theorem marked_cons_of_begins (h : begins mark line = true) :
    marked mark (line :: code) = line :: marked mark code := List.filter_cons_of_pos h

theorem marked_cons_of_not (h : begins mark line = false) :
    marked mark (line :: code) = marked mark code :=
  List.filter_cons_of_neg (by rw [h]; exact Bool.false_ne_true)

/-- A line that begins with a text apart from the mark. -/
theorem marked_cons_of_apart (h : apart mark start = true) (rest : String) :
    marked mark ((start ++ rest) :: code) = marked mark code :=
  marked_cons_of_not (begins_append_of_apart h rest)

theorem marked_documentation (h : apart mark "/// " = true) (comment : Option String) :
    marked mark (documentation comment) = [] := by
  cases comment with
  | none => rfl
  | some comment => exact marked_cons_of_apart h _

/-- Indentation moves the marks with the lines. -/
theorem marked_indented (h : mark ≠ "") (code : Code) :
    marked ("    " ++ mark) (indented code) = indented (marked mark code) := by
  rw [marked, indented, List.filter_map]
  congr 1
  refine List.filter_congr fun line _ => ?_
  rw [Function.comp_apply]
  split
  · rename_i hline
    rw [hline, begins_empty h, begins_empty (by simp)]
  · exact begins_append_append "    " line mark

theorem marked_spaced (h : mark ≠ "") (pieces : List Code) :
    marked mark (spaced pieces) = pieces.flatMap (marked mark) := by
  induction pieces with
  | nil => rfl
  | cons first rest ih =>
    cases rest with
    | nil => rw [spaced, List.intercalate_singleton, List.flatMap_singleton]
    | cons next rest =>
      rw [spaced, List.intercalate_cons_cons, ← spaced, marked_append, marked_append, ih,
        marked_cons_of_not (begins_empty h), marked_nil, List.append_nil]
      rfl

/-- The marked lines of a block are between its braces, if the mark is not that of its head. -/
theorem marked_braced (hhead : begins mark (head ++ " \x7b") = false)
    (htail : apart mark "\x7d" = true) (body : Code) :
    marked mark (braced head body tail) = marked mark (indented body) := by
  rw [braced, List.cons_append, marked_cons_of_not hhead, marked_append,
    marked_cons_of_apart htail, marked_nil, List.append_nil]

end Code

open Code

namespace IsTop
variable {mark head start : String} (h : IsTop mark)
include h

/-- An indented line begins with spaces. -/
theorem marked_indented (code : Code) : marked mark (indented code) = [] := by
  rw [marked, indented, List.filter_eq_nil_iff]
  refine List.forall_mem_map.2 fun line _ => ?_
  split
  · rename_i hline
    rw [hline, begins_empty h.nonempty]
    exact Bool.false_ne_true
  · rw [begins_append_of_apart h.indentation]
    exact Bool.false_ne_true

/-- An item has no marked line, if the mark is not that of its head. -/
theorem marked_item (hhead : begins mark (head ++ " \x7b") = false) (body : Code) :
    marked mark (item head body) = [] := by
  rw [item, marked_braced hhead h.closing, h.marked_indented]

theorem marked_item_of_apart (hstart : apart mark start = true) (rest : String) (body : Code) :
    marked mark (item (start ++ rest) body) = [] :=
  h.marked_item (begins_head_of_apart hstart rest _) body

end IsTop

/-! ### The lines of modules -/

/-- What a line begins with that gives the path of a module. -/
def pathMark : String := "#[path = "

theorem isTop_pathMark : IsTop pathMark := ⟨by decide, by decide, by decide⟩

section Modules
variable {n : Names}

theorem marked_enum (e : EnumDecl) : marked pathMark e.code = [] := by
  have hconstants : marked pathMark e.constants = [] := by
    rw [EnumDecl.constants, marked_flatMap, List.flatMap_eq_nil_iff]
    intro i _
    simp only [String.append_assoc]
    rw [marked_append, marked_documentation (by decide), marked_cons_of_apart (by decide)]
    rfl
  rw [EnumDecl.code, marked_append, marked_documentation (by decide), List.nil_append]
  split
  · rw [String.append_assoc, marked_cons_of_apart (by decide), hconstants]
  · simp only [marked_append]
    rw [isTop_pathMark.marked_item_of_apart (by decide),
      isTop_pathMark.marked_item_of_apart (by decide)]
    decide

theorem marked_bean (b : BeanDecl) {piece : Code} (h : piece ∈ b.pieces n) :
    marked pathMark piece = [] := by
  simp only [BeanDecl.pieces, List.mem_append] at h
  rcases h with (h | h) | h
  · split at h
    · cases h
    · rw [List.mem_singleton.1 h, BeanDecl.structCode, marked_append, marked_append,
        marked_documentation (by decide), isTop_pathMark.marked_item_of_apart (by decide)]
      decide
  · split at h
    · rw [List.mem_singleton.1 h, BeanDecl.kindCode, marked_append,
        isTop_pathMark.marked_item_of_apart (by decide), String.append_assoc,
        marked_cons_of_apart (by decide)]
      decide
    · cases h
  · split at h
    · cases h
    · rw [List.mem_singleton.1 h, isTop_pathMark.marked_item_of_apart (by decide)]

theorem marked_loadError : loadError.flatMap (marked pathMark) = [] := by
  have hderive : marked pathMark ["/// Failure while loading a table data file.",
      "#[derive(Debug)]"] = [] := by
    decide
  have herror : marked pathMark ["impl std::error::Error for LoadError \x7b\x7d"] = [] := by decide
  simp only [loadError, List.flatMap_cons, List.flatMap_nil, marked_append, hderive, herror]
  rw [isTop_pathMark.marked_item (by decide), isTop_pathMark.marked_item (by decide)]
  rfl

/-- The pieces of a file about all tables, behind the modules, give no paths. -/
theorem marked_managerPieces (m : ManagerFile) :
    (loadError ++ m.enums.map EnumDecl.code ++ m.beans.flatMap (·.pieces n) ++
      [m.structCode, m.loadCode]).flatMap (marked pathMark) = [] := by
  have hmanager : marked pathMark m.structCode = [] ∧ marked pathMark m.loadCode = [] := by
    rw [ManagerFile.structCode, ManagerFile.loadCode, marked_append,
      isTop_pathMark.marked_item_of_apart (by decide),
      isTop_pathMark.marked_item_of_apart (by decide), String.append_assoc,
      marked_cons_of_apart (by decide)]
    decide
  simp only [List.flatMap_append, List.append_eq_nil_iff, List.flatMap_eq_nil_iff]
  refine ⟨⟨⟨List.flatMap_eq_nil_iff.1 marked_loadError, ?_⟩, ?_⟩, ?_⟩
  · exact List.forall_mem_map.2 fun e _ => marked_enum e
  · intro piece hpiece
    obtain ⟨b, _, hpiece⟩ := List.mem_flatMap.1 hpiece
    exact marked_bean b hpiece
  · simpa using hmanager

/-- The lines of the file about all tables that give paths: one for each table, in order. -/
theorem marked_managerFile (m : ManagerFile) :
    marked pathMark (m.code n) = m.tables.map fun t => "#[path = \"" ++ t.file ++ "\"]" := by
  have hmodules : marked pathMark m.modules =
      m.tables.map fun t => "#[path = \"" ++ t.file ++ "\"]" := by
    rw [ManagerFile.modules, marked_flatMap, List.map_eq_flatMap]
    refine List.flatMap_congr fun t _ => ?_
    simp only [String.append_assoc]
    rw [marked_cons_of_begins (begins_append_of_begins (by decide) _),
      marked_cons_of_apart (by decide), marked_nil]
  have hheading : marked pathMark m.heading = [] := by
    rw [ManagerFile.heading, onlyIf]
    split
    · simp only [String.append_assoc]
      rw [marked_cons_of_apart (by decide)]
      decide
    · rfl
  rw [ManagerFile.code, marked_append, marked_spaced isTop_pathMark.nonempty,
    marked_managerPieces, marked_append, marked_append, marked_append, hheading, hmodules]
  have hfixed : marked pathMark ["#![allow(non_snake_case)]", "", "use std::fmt;", "",
      "use serde::Deserialize;", ""] = [] := by
    decide
  rw [hfixed, List.nil_append, List.append_nil]
  exact List.append_nil _

/-- The modules of the tables stand together. -/
theorem infix_modules (m : ManagerFile) : m.modules <:+: m.code n := by
  rw [ManagerFile.code, List.append_assoc]
  exact (List.suffix_append ..).isInfix.trans (List.prefix_append ..).isInfix

end Modules

/-! ### The line of rows -/

section Rows
variable {n : Names} {t : TableDecl}

end Rows

end ConfigTables.Wrapper
