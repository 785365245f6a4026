import ConfigTables.Text.Blank
import Mathlib.Data.List.DropRight

/-!
    What trimming leaves. A text is its trimmed text between blanks, and a text is trimmed when
    neither its first nor its last character is a blank, so trimming twice is trimming once. -/

namespace ConfigTables.Text
variable {cs : List Char}

/-- Neither the first nor the last character is a blank. -/
structure IsTrimmed (cs : List Char) : Prop where
  first : ∀ c ∈ cs.head?, isBlank c = false
  last : ∀ c ∈ cs.getLast?, isBlank c = false

theorem trimEnd_eq_rdropWhile (cs : List Char) : trimEnd cs = cs.rdropWhile isBlank := rfl

/-- A text is its trimmed text between blanks. -/
theorem exists_eq_trim (cs : List Char) : ∃ before after, cs = before ++ trim cs ++ after ∧
    (∀ c ∈ before, isBlank c) ∧ ∀ c ∈ after, isBlank c := by
  refine ⟨cs.takeWhile isBlank, (trimStart cs).rtakeWhile isBlank, ?_, ?_, ?_⟩
  · have hfront : cs.takeWhile isBlank ++ trimStart cs = cs := List.takeWhile_append_dropWhile
    have hback : trim cs ++ (trimStart cs).rtakeWhile isBlank = trimStart cs := by
      rw [trim, trimEnd_eq_rdropWhile, List.rdropWhile, List.rtakeWhile, ← List.reverse_append,
        List.takeWhile_append_dropWhile, List.reverse_reverse]
    rw [List.append_assoc, hback, hfront]
  · exact fun c hc => List.mem_takeWhile_imp hc
  · exact fun c hc => List.mem_rtakeWhile_imp hc

theorem trimStart_eq_self_iff : trimStart cs = cs ↔ ∀ c ∈ cs.head?, isBlank c = false := by
  cases cs with
  | nil => simp [trimStart]
  | cons c rest => simp [trimStart, List.dropWhile_eq_self_iff]

theorem trimEnd_eq_self_iff : trimEnd cs = cs ↔ ∀ c ∈ cs.getLast?, isBlank c = false := by
  rw [trimEnd, List.reverse_eq_iff, trimStart_eq_self_iff, List.head?_reverse]

theorem isTrimmed_trim (cs : List Char) : IsTrimmed (trim cs) where
  first := by
    have hstart : ∀ c ∈ (trimStart cs).head?, isBlank c = false :=
      trimStart_eq_self_iff.1 (List.dropWhile_idempotent isBlank cs)
    intro c hc
    -- what is cut off the end leaves the first character where it is
    obtain ⟨rest, hrest⟩ := List.rdropWhile_prefix isBlank (trimStart cs)
    obtain ⟨tail, htail⟩ := List.head?_eq_some_iff.1 hc
    refine hstart c ?_
    rw [← hrest, ← trimEnd_eq_rdropWhile, ← trim, htail]
    rfl
  last := trimEnd_eq_self_iff.1 (List.rdropWhile_idempotent isBlank (trimStart cs))

theorem IsTrimmed.trim_eq (h : IsTrimmed cs) : trim cs = cs := by
  rw [trim, trimStart_eq_self_iff.2 h.first, trimEnd_eq_self_iff.2 h.last]

/-- What starts as a trimmed text does and ends with no blank is trimmed. -/
theorem IsTrimmed.append_concat (h : IsTrimmed cs) (hne : cs ≠ []) (inner : List Char) {c : Char}
    (hc : isBlank c = false) : IsTrimmed (cs ++ inner ++ [c]) where
  first := by
    rw [List.append_assoc, List.head?_append_of_ne_nil _ hne]
    exact h.first
  last := by simpa using hc

theorem trim_trim (cs : List Char) : trim (trim cs) = trim cs := (isTrimmed_trim cs).trim_eq

end ConfigTables.Text
