import ConfigTables.Number.Binary
import Mathlib.Data.Nat.Log
import Mathlib.Tactic.GCongr
import Mathlib.Tactic.Positivity
import Mathlib.Tactic.Ring

/-!
    Numbers that a format holds exactly. Rounding a fraction cuts it to the precision of the format;
    when the fraction is the value of a number of the format, nothing is cut and this number comes
    out (`ofRatio_eq_finite`). Every 32-bit number has its value among the 64-bit ones, so widening
    keeps the value, and narrowing again gives the number that was widened. -/

namespace ConfigTables.Number

theorem roundHalfEven_mul {d : Nat} (n : Nat) (hd : 0 < d) : roundHalfEven (n * d) d = n := by
  simp [roundHalfEven, Nat.mul_div_cancel _ hd, hd]

namespace Binary
variable {f : Format}

/-- Bounds of the quotient at the guessed index: it is at most one bit too long, and not too short
unless the index is zero already. -/
theorem guessed_quotient {precision den : Nat} (scaled : Nat) (hprecision : 0 < precision)
    (hden : 0 < den) :
    let guess := Nat.log2 scaled - Nat.log2 den - precision
    scaled / (den * 2 ^ guess) < 2 ^ (precision + 1) ∧
      (guess = 0 ∨ 2 ^ (precision - 1) ≤ scaled / (den * 2 ^ guess)) := by
  intro guess
  have hdenLow : 2 ^ Nat.log2 den ≤ den := Nat.log2_self_le hden.ne'
  have hdenHigh : den < 2 ^ (Nat.log2 den + 1) := Nat.lt_log2_self
  have hscaledHigh : scaled < 2 ^ (Nat.log2 scaled + 1) := Nat.lt_log2_self
  constructor
  · rw [Nat.div_lt_iff_lt_mul (by positivity)]
    calc scaled < 2 ^ (Nat.log2 scaled + 1) := hscaledHigh
      _ ≤ 2 ^ (precision + 1 + (Nat.log2 den + guess)) := Nat.pow_le_pow_right (by omega) (by omega)
      _ = 2 ^ (precision + 1) * (2 ^ Nat.log2 den * 2 ^ guess) := by rw [pow_add, pow_add _ _ guess]
      _ ≤ 2 ^ (precision + 1) * (den * 2 ^ guess) := by gcongr
  · rcases Nat.eq_zero_or_pos guess with hzero | hpos
    · exact .inl hzero
    · right
      have hscaled : scaled ≠ 0 := by
        rintro rfl
        simp [guess, Nat.log2_zero] at hpos
      rw [Nat.le_div_iff_mul_le (by positivity)]
      calc 2 ^ (precision - 1) * (den * 2 ^ guess)
          ≤ 2 ^ (precision - 1) * (2 ^ (Nat.log2 den + 1) * 2 ^ guess) := by gcongr
        _ = 2 ^ Nat.log2 scaled := by
          rw [← pow_add, ← pow_add]
          congr 1
          omega
        _ ≤ scaled := Nat.log2_self_le hscaled

/-- Halving the quotient at the guessed index when it is too long leaves it in range. -/
theorem chosen_quotient {precision den : Nat} (scaled : Nat) (hprecision : 0 < precision)
    (hden : 0 < den) :
    let guess := Nat.log2 scaled - Nat.log2 den - precision
    let index := if 2 ^ precision ≤ scaled / (den * 2 ^ guess) then guess + 1 else guess
    scaled / (den * 2 ^ index) < 2 ^ precision ∧
      (index = 0 ∨ 2 ^ (precision - 1) ≤ scaled / (den * 2 ^ index)) := by
  intro guess index
  obtain ⟨hhigh, hlow⟩ := guessed_quotient scaled hprecision hden
  by_cases hlong : 2 ^ precision ≤ scaled / (den * 2 ^ guess)
  · have hindex : index = guess + 1 := if_pos hlong
    have hhalf : scaled / (den * 2 ^ index) = scaled / (den * 2 ^ guess) / 2 := by
      rw [hindex, pow_succ, ← mul_assoc, Nat.div_div_eq_div_mul]
    have hdouble : 2 * 2 ^ (precision - 1) = 2 ^ precision := by
      rw [mul_comm, ← pow_succ, Nat.sub_add_cancel hprecision]
    have hhigh : scaled / (den * 2 ^ guess) < 2 ^ precision * 2 := by rwa [← pow_succ]
    rw [hhalf]
    exact ⟨by omega, .inr (by omega)⟩
  · have hindex : index = guess := if_neg hlong
    rw [hindex]
    exact ⟨not_le.1 hlong, hlow⟩

/-- The quotient of an exact value is in range at one index only. -/
theorem index_eq {mantissa index chosen : Nat} (hprecision : 0 < f.precision)
    (hcanonical : f.Canonical mantissa index)
    (hhigh : mantissa * 2 ^ index / 2 ^ chosen < 2 ^ f.precision)
    (hlow : chosen = 0 ∨ 2 ^ (f.precision - 1) ≤ mantissa * 2 ^ index / 2 ^ chosen) :
    chosen = index := by
  obtain ⟨hshort, _, hfull⟩ := hcanonical
  rw [Nat.pow_eq] at hshort hfull
  have hdouble : 2 * 2 ^ (f.precision - 1) = 2 ^ f.precision := by
    rw [mul_comm, ← pow_succ, Nat.sub_add_cancel hprecision]
  rcases lt_trichotomy chosen index with hless | heq | hgreater
  · -- the quotient is too long
    obtain ⟨k, rfl⟩ := Nat.exists_eq_add_of_lt hless
    have hquotient : mantissa * 2 ^ (chosen + k + 1) / 2 ^ chosen = mantissa * 2 ^ (k + 1) := by
      rw [add_assoc, pow_add, mul_left_comm, Nat.mul_div_cancel_left _ (by positivity)]
    have hfull := hfull.resolve_left (by omega)
    have hlong : 2 ^ (f.precision - 1) * 2 ≤ mantissa * 2 ^ (k + 1) := by
      gcongr
      exact Nat.le_self_pow (by omega) 2
    omega
  · exact heq
  · -- the quotient is too short
    obtain ⟨k, rfl⟩ := Nat.exists_eq_add_of_lt hgreater
    have hquotient : mantissa * 2 ^ index / 2 ^ (index + k + 1) = mantissa / 2 ^ (k + 1) := by
      rw [add_assoc, pow_add, mul_comm mantissa, Nat.mul_div_mul_left _ _ (by positivity)]
    have hlow := hlow.resolve_left (by omega)
    have hhalf : mantissa / 2 ^ (k + 1) ≤ mantissa / 2 :=
      Nat.div_le_div_left (Nat.le_self_pow (by omega) 2) (by omega)
    omega

/-- The fraction that is the value of a number of the format is rounded to this number. -/
theorem ofRatio_eq_finite {negative : Bool} {num den mantissa index : Nat}
    (hprecision : 0 < f.precision) (hden : 0 < den) (hcanonical : f.Canonical mantissa index)
    (hvalue : num * 2 ^ f.shift = mantissa * 2 ^ index * den) :
    ofRatio f negative num den = .finite ⟨negative, mantissa, index, hcanonical⟩ := by
  obtain ⟨hhigh, hlow⟩ := chosen_quotient (num * 2 ^ f.shift) hprecision hden
  unfold ofRatio
  extract_lets scaled guess chosen rounded
  have hscaled : scaled = mantissa * 2 ^ index * den := hvalue
  have hquotient : ∀ k, scaled / (den * 2 ^ k) = mantissa * 2 ^ index / 2 ^ k := by
    intro k
    rw [hscaled, mul_comm _ den, Nat.mul_div_mul_left _ _ hden]
  change scaled / (den * 2 ^ chosen) < 2 ^ f.precision at hhigh
  change chosen = 0 ∨ 2 ^ (f.precision - 1) ≤ scaled / (den * 2 ^ chosen) at hlow
  rw [hquotient] at hhigh hlow
  have hchosen : chosen = index := index_eq hprecision hcanonical hhigh hlow
  have hrounded : rounded = mantissa := by
    change roundHalfEven scaled (den * 2 ^ chosen) = mantissa
    rw [hchosen, hscaled, mul_assoc, mul_comm (2 ^ index), roundHalfEven_mul _ (by positivity)]
  rw [hrounded, hchosen, if_neg hcanonical.1.ne, ofParts, dif_pos hcanonical]

/-- A number of another format with the same value is what a number is converted to. -/
theorem convert_eq_finite {g : Format} (x : Finite f) {mantissa index : Nat}
    (hprecision : 0 < g.precision) (hcanonical : g.Canonical mantissa index)
    (hvalue : x.mantissa * 2 ^ x.index * 2 ^ g.shift = mantissa * 2 ^ index * 2 ^ f.shift) :
    (Binary.finite x).convert g = .finite ⟨x.negative, mantissa, index, hcanonical⟩ :=
  ofRatio_eq_finite hprecision (Nat.pow_pos (by decide)) hcanonical hvalue

/-- A mantissa of the 32-bit format at an index far from both ends of the 64-bit format stands for a
number of that format. -/
theorem exists_canonical_double {mantissa index : Nat} (hmantissa : mantissa < 2 ^ 24)
    (hlow : 52 ≤ index) (hhigh : index ≤ 2045) :
    ∃ m i, Format.double.Canonical m i ∧ m * 2 ^ i = mantissa * 2 ^ index := by
  rcases Nat.eq_zero_or_pos mantissa with rfl | hpos
  · exact ⟨0, 0, by decide, by simp⟩
  · have hlog : Nat.log2 mantissa < 24 := (Nat.log2_lt hpos.ne').2 hmantissa
    refine ⟨mantissa * 2 ^ (52 - Nat.log2 mantissa), index - (52 - Nat.log2 mantissa),
      ⟨?_, ?_, .inr ?_⟩, ?_⟩
    · calc mantissa * 2 ^ (52 - Nat.log2 mantissa)
          < 2 ^ (Nat.log2 mantissa + 1) * 2 ^ (52 - Nat.log2 mantissa) := by
            gcongr
            exact Nat.lt_log2_self
        _ = 2 ^ 53 := by
          rw [← pow_add]
          congr 1
          omega
    · exact (Nat.sub_le _ _).trans hhigh
    · calc 2 ^ 52 = 2 ^ Nat.log2 mantissa * 2 ^ (52 - Nat.log2 mantissa) := by
            rw [← pow_add]
            congr 1
            omega
        _ ≤ mantissa * 2 ^ (52 - Nat.log2 mantissa) := by
          gcongr
          exact Nat.log2_self_le hpos.ne'
    · rw [mul_assoc, ← pow_add]
      congr 2
      omega

/-- Widening keeps the value of a 32-bit number, and narrowing gives the number again. -/
theorem exists_widened (x : Finite .single) : ∃ y, (Binary.finite x).convert .double = .finite y ∧
    (Binary.finite y).convert .single = .finite x := by
  obtain ⟨hmantissa, hindex, _⟩ := x.canonical
  obtain ⟨extra, hextra⟩ : ∃ extra, extra = Format.double.shift - Format.single.shift := ⟨_, rfl⟩
  simp only [Format.double, Format.single] at hindex hextra
  have hshift : Format.double.shift = extra + Format.single.shift := by subst hextra; rfl
  have hlow : 52 ≤ x.index + extra := by omega
  obtain ⟨m, i, hcanonical, hvalue⟩ := exists_canonical_double hmantissa hlow (by omega)
  refine ⟨⟨x.negative, m, i, hcanonical⟩, ?_, ?_⟩
  · refine convert_eq_finite x (by decide) hcanonical ?_
    rw [hvalue, hshift, pow_add, pow_add]
    ring
  · refine convert_eq_finite ⟨x.negative, m, i, hcanonical⟩ (by decide) x.canonical ?_
    rw [hvalue, hshift, pow_add, pow_add]
    ring

end Binary

end ConfigTables.Number
