import ConfigTables.Emit.Wrapper.Declaration

/-!
    The text of the generated Rust code. Code is a list of lines; what stands between braces is
    indented by one step. There are two kinds of files: one declares the types and the manager that
    holds all tables, the others hold one table each. -/

namespace ConfigTables.Wrapper

/-- Lines of code. -/
abbrev Code := List String

namespace Code

/-- Code one step further to the right. -/
def indented (code : Code) : Code := code.map fun l => if l = "" then l else "    " ++ l

/-- Code between braces: the first brace ends the line `head`, `tail` follows the last one. -/
def braced (head : String) (body : Code) (tail : String) : Code :=
  (head ++ " \x7b") :: indented body ++ ["\x7d" ++ tail]

/-- The definition of an item, with its body between braces. -/
def item (head : String) (body : Code) : Code := braced head body ""

/-- The documentation of an item. -/
def documentation : Option String → Code
  | some comment => ["/// " ++ comment]
  | none => []

/-- Pieces of code with an empty line between any two. -/
def spaced (pieces : List Code) : Code := ([""] : Code).intercalate pieces

/-- Code, if a condition holds. -/
def onlyIf (condition : Bool) (code : Code) : Code := if condition then code else []

/-- The text of code, each line with its end. -/
def text (code : Code) : String := String.join (code.map (· ++ "\n"))

end Code

open Code

namespace EnumDecl

/-- The constants of an enum of flags. -/
def constants (e : EnumDecl) : Code :=
  e.items.flatMap fun i => documentation i.comment ++
    ["pub const " ++ e.constantStem ++ "_" ++ i.constant ++ ": " ++ e.ident ++ " = " ++
      toString i.value.toInt ++ ";"]

/-- The variants of an enum. -/
def variantLines (e : EnumDecl) : Code :=
  e.items.flatMap fun i => documentation i.comment ++
    [i.variant ++ " = " ++ toString i.value.toInt ++ ","]

/-- The variant of each number, and the error for all other numbers. -/
def matchLines (e : EnumDecl) : Code :=
  e.items.map (fun i =>
    toString i.value.toInt ++ " => Ok(" ++ e.ident ++ "::" ++ i.variant ++ "),") ++
  ["other => Err(format!(\"invalid " ++ e.fullName ++ " value \x7bother\x7d\")),"]

/-- The code of an enum. -/
def code (e : EnumDecl) : Code :=
  documentation e.comment ++
  if e.flags then ("pub type " ++ e.ident ++ " = i32;") :: e.constants
  else
    ["#[derive(Debug, Clone, Copy, PartialEq, Eq, Hash, Deserialize)]",
      "#[serde(try_from = \"i32\")]",
      "#[repr(i32)]"] ++
    item ("pub enum " ++ e.ident) e.variantLines ++
    [""] ++
    item ("impl TryFrom<i32> for " ++ e.ident)
      (["type Error = String;", ""] ++
        item "fn try_from(value: i32) -> Result<Self, Self::Error>"
          (item "match value" e.matchLines))

end EnumDecl

namespace BeanDecl

/-- A field of the struct of a bean. -/
def fieldCode (n : Names) (f : FieldDecl) : Code :=
  documentation f.comment ++
  onlyIf f.isRenamed ["#[serde(rename = \"" ++ f.member ++ "\")]"] ++
  ["pub " ++ f.ident ++ ": " ++ f.form.render n ++ ","]

/-- The struct of a bean. -/
def structCode (n : Names) (b : BeanDecl) : Code :=
  documentation b.comment ++
  ["#[derive(Debug, Clone, PartialEq, Deserialize)]"] ++
  item ("pub struct " ++ b.ident) (b.fields.flatMap (fieldCode n))

/-- The enum over the instances of a bean. -/
def kindCode (b : BeanDecl) : Code :=
  ["/// Concrete `" ++ b.fullName ++ "` values, selected by `$type`.",
    "#[derive(Debug, Clone, PartialEq, Deserialize)]",
    "#[serde(tag = \"$type\")]"] ++
  item ("pub enum " ++ b.kindIdent) (b.variants.flatMap fun v =>
    ["#[serde(rename = \"" ++ v.tag ++ "\")]", v.ident ++ "(" ++ v.ident ++ "),"])

/-- The method on this enum that gives a field, whichever instance has it. -/
def accessorCode (n : Names) (b : BeanDecl) (f : FieldDecl) : Code :=
  item ("pub fn " ++ f.accessor ++ "(&self) -> &" ++ f.form.render n)
    (item "match self" (b.variants.map fun v =>
      b.kindIdent ++ "::" ++ v.ident ++ "(value) => &value." ++ f.ident ++ ","))

/-- The pieces of code of a bean. -/
def pieces (n : Names) (b : BeanDecl) : List Code :=
  (if b.isAbstract then [] else [b.structCode n]) ++
  (if b.hasKinds then [b.kindCode] else []) ++
  (if b.variants.isEmpty then []
    else [item ("impl " ++ b.kindIdent) (spaced (b.fields.map (b.accessorCode n)))])

end BeanDecl

/-- The error type of all loading functions. -/
def loadError : List Code :=
  [["/// Failure while loading a table data file.",
      "#[derive(Debug)]"] ++
    item "pub enum LoadError"
      (braced "Io" ["file: &'static str,", "source: std::io::Error,"] "," ++
        braced "Json" ["file: &'static str,", "source: serde_json::Error,"] "," ++
        braced "Cardinality" ["table: &'static str,", "count: usize,"] ","),
    item "impl fmt::Display for LoadError"
      (item "fn fmt(&self, f: &mut fmt::Formatter<'_>) -> fmt::Result"
        (item "match self"
          (["LoadError::Io \x7b file, source \x7d => " ++
              "write!(f, \"failed to read \x7bfile\x7d: \x7bsource\x7d\"),",
            "LoadError::Json \x7b file, source \x7d => " ++
              "write!(f, \"invalid data in \x7bfile\x7d: \x7bsource\x7d\"),"] ++
            item "LoadError::Cardinality \x7b table, count \x7d =>"
              ["write!(f, \"table \x7btable\x7d expects exactly one row, found \x7bcount\x7d\")"]))),
    ["impl std::error::Error for LoadError \x7b\x7d"]]

namespace TableDecl

/-- The type of a table, as seen from outside its module. -/
def path (t : TableDecl) : String := t.module ++ "::" ++ t.ident

/-- The expression of the manager that loads a table. -/
def loadCode (t : TableDecl) : Code :=
  braced (t.member ++ ":")
    ["let file = " ++ t.path ++ "::FILE;",
      "let json = read(file).map_err(|source| LoadError::Io \x7b file, source \x7d)?;",
      t.path ++ "::load(&json)?"] ","

end TableDecl

/-- The file that declares the types and the manager. -/
structure ManagerFile where
  space : String
  target : String
  ident : String
  enums : List EnumDecl
  beans : List BeanDecl
  tables : List TableDecl

namespace ManagerFile

/-- The documentation of the file, if it belongs to a module. -/
def heading (m : ManagerFile) : Code :=
  onlyIf (m.space ≠ "")
    ["//! `" ++ m.space ++ "` configuration tables for target `" ++ m.target ++ "`.", ""]

/-- The modules of the tables. -/
def modules (m : ManagerFile) : Code :=
  m.tables.flatMap fun t => ["#[path = \"" ++ t.file ++ "\"]", "pub mod " ++ t.module ++ ";"]

/-- The struct that holds all tables. -/
def structCode (m : ManagerFile) : Code :=
  ["/// Every exported table of target `" ++ m.target ++ "`.", "#[derive(Debug, Clone)]"] ++
  item ("pub struct " ++ m.ident) (m.tables.map fun t => "pub " ++ t.member ++ ": " ++ t.path ++ ",")

/-- The function that loads all tables. -/
def loadCode (m : ManagerFile) : Code :=
  item ("impl " ++ m.ident)
    (["/// Load every table. `read` returns the JSON text of a data file.",
      "pub fn load<F>(mut read: F) -> Result<Self, LoadError>",
      "where",
      "    F: FnMut(&str) -> std::io::Result<String>,",
      "\x7b"] ++
      indented (braced ("Ok(" ++ m.ident) (m.tables.flatMap TableDecl.loadCode) ")") ++
      ["\x7d"])

/-- The code of the file. -/
def code (n : Names) (m : ManagerFile) : Code :=
  m.heading ++
  ["#![allow(non_snake_case)]", "", "use std::fmt;", "", "use serde::Deserialize;", ""] ++
  m.modules ++
  [""] ++
  spaced (loadError ++ m.enums.map EnumDecl.code ++ m.beans.flatMap (·.pieces n) ++
    [m.structCode, m.loadCode])

end ManagerFile

namespace TableDecl

/-- The rows of a table, as seen from inside its module. -/
def rows (t : TableDecl) : String := "Vec<" ++ t.rowIdent ++ ">"

/-- The index of a table, if it has one. -/
def indexType (n : Names) (key : KeyDecl) : String :=
  "std::collections::HashMap<" ++ key.form.render n ++ ", usize>"

/-- The key of a table that is found by its index. -/
def indexKey? (t : TableDecl) : Option KeyDecl := if t.isIndexed then t.key else none

/-- The struct of a table. -/
def structCode (n : Names) (t : TableDecl) : Code :=
  documentation t.comment ++
  ["#[derive(Debug, Clone)]"] ++
  item ("pub struct " ++ t.ident)
    (("data_list: " ++ t.rows ++ ",") ::
      (t.indexKey?.map fun key => "data_map: " ++ indexType n key ++ ",").toList)

/-- The check that a table has as many rows as it has to. -/
def cardinalityCode (t : TableDecl) : Code :=
  onlyIf (t.mode = .one) (item "if data_list.len() != 1"
    (braced "return Err(LoadError::Cardinality"
      ["table: \"" ++ t.fullName ++ "\",", "count: data_list.len(),"] ");"))

/-- What a loaded table is built from. -/
def resultCode (t : TableDecl) : Code :=
  match t.indexKey? with
  | some key =>
    ["let mut data_map = std::collections::HashMap::with_capacity(data_list.len());"] ++
    item "for (idx, row) in data_list.iter().enumerate()"
      ["data_map.insert((" ++ key.access ++ ").clone(), idx);"] ++
    braced ("Ok(" ++ t.ident) ["data_list,", "data_map,"] ")"
  | none => ["Ok(" ++ t.ident ++ " \x7b data_list \x7d)"]

/-- The function that loads a table. -/
def loadFn (t : TableDecl) : Code :=
  item "pub fn load(json: &str) -> Result<Self, LoadError>"
    (["let data_list: " ++ t.rows ++ " ="] ++
      indented (braced "serde_json::from_str(json).map_err(|source| LoadError::Json"
        ["file: Self::FILE,", "source,"] ")?;") ++
      t.cardinalityCode ++ t.resultCode)

/-- The function that gives all rows. -/
def listFn (t : TableDecl) : Code :=
  item ("pub fn data_list(&self) -> &[" ++ t.rowIdent ++ "]") ["&self.data_list"]

/-- The function that gives the only row. -/
def onlyRowFn (t : TableDecl) : Code :=
  item ("pub fn data(&self) -> &" ++ t.rowIdent) ["&self.data_list[0]"]

/-- The function that finds the row of a key. -/
def getFn (n : Names) (t : TableDecl) (key : KeyDecl) : Code :=
  item ("pub fn get(&self, key: &" ++ key.form.render n ++ ") -> Option<&" ++ t.rowIdent ++ ">")
    [if t.isIndexed then "self.data_map.get(key).map(|idx| &self.data_list[*idx])"
      else "self.data_list.iter().find(|row| " ++ key.access ++ " == key)"]

/-- How single rows are found. -/
def rowFns (n : Names) (t : TableDecl) : List Code :=
  if t.mode = .one then [t.onlyRowFn] else (t.key.map (t.getFn n)).toList

/-- The functions of a table. -/
def implCode (n : Names) (t : TableDecl) : Code :=
  item ("impl " ++ t.ident) (spaced (
    [["pub const FILE: &'static str = \"" ++ t.dataFile ++ "\";"], t.loadFn, t.listFn] ++
    t.rowFns n))

/-- The code of the file that holds a table. -/
def code (n : Names) (t : TableDecl) : Code :=
  spaced [["use super::*;"], t.structCode n, t.implCode n]

end TableDecl

end ConfigTables.Wrapper
