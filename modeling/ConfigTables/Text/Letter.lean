import ConfigTables.Text.Letter.Cases
import ConfigTables.Text.Letter.Classes

/-!
    Letters of every script: which characters belong to a name, which are upper or lower case, and
    what a letter becomes when its case changes. ASCII is decided by arithmetic and everything from
    code point 128 on by the tables, so a statement about ASCII names never looks into a table. -/

namespace ConfigTables.Text

/-- Whether a run `(first, last, step)` of a table holds `n`. -/
def Letter.inRun (n : Nat) (run : Nat × Nat × Nat) : Bool :=
  run.1 ≤ n && n ≤ run.2.1 && (n - run.1) % run.2.2 == 0

/-- The image of `n` in the first run that holds it. -/
def Letter.image? (runs : Array (Nat × Nat × Nat × Nat)) (n : Nat) : Option Char :=
  (runs.find? fun run => Letter.inRun n (run.1, run.2.1, run.2.2.1)).map
    fun run => Char.ofNat (run.2.2.2 + (n - run.1))

/-- Letters and numbers of every script, and the marks that belong to letters. -/
def isAlphanumeric (c : Char) : Bool :=
  if c.toNat < 128 then c.isAlphanum
  else Letter.alphanumericRanges.any fun range => range.1 ≤ c.toNat && c.toNat ≤ range.2

/-- Capital letters. -/
def isUpper (c : Char) : Bool :=
  if c.toNat < 128 then c.isUpper else Letter.upperRuns.any (Letter.inRun c.toNat)

/-- Small letters. -/
def isLower (c : Char) : Bool :=
  if c.toNat < 128 then c.isLower else Letter.lowerRuns.any (Letter.inRun c.toNat)

/-- The upper case form of a character, several characters long for a few. -/
def upper (c : Char) : List Char :=
  if c.toNat < 128 then [c.toUpper]
  else match Letter.upperExpansions.find? (·.1 == c.toNat) with
    | some (_, form) => form.toList
    | none => [(Letter.image? Letter.upperImages c.toNat).getD c]

/-- The lower case form of a character, wherever it stands in a word. -/
def lower (c : Char) : List Char :=
  if c.toNat < 128 then [c.toLower]
  else match Letter.lowerExpansions.find? (·.1 == c.toNat) with
    | some (_, form) => form.toList
    | none => [(Letter.image? Letter.lowerImages c.toNat).getD c]

end ConfigTables.Text
