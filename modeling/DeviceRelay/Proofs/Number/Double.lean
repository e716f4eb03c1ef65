/-
# A ratio is rounded to a double that is no larger than the next power of two

The powers of two from one on are doubles, and rounding does not pass one: a ratio of at
most `2 ^ k` is rounded to a double of at most `2 ^ k`, and one of at least one to a double
of at least one. So a double of at most `2 ^ k` stays one if it is divided by a double of at
least one.

Key definitions: `Double.AtMost`, `Double.AtLeastOne`.
Key theorems: `Double.ofRatio_cases`, `Double.atMost_ofRatio`, `Double.atMost_div`.
-/
import DeviceRelay.Number.Double
import Mathlib.Algebra.Ring.Nat

namespace DeviceRelay

theorem twoTo_eq (n : Nat) : twoTo n = 2 ^ n := rfl

theorem twoTo_pos (n : Nat) : 0 < twoTo n := Nat.pow_pos (by decide)

theorem twoTo_add (m n : Nat) : twoTo (m + n) = twoTo m * twoTo n := Nat.pow_add ..

theorem twoTo_le {m n : Nat} (h : m ≤ n) : twoTo m ≤ twoTo n := Nat.pow_le_pow_right (by decide) h

theorem lt_of_twoTo_lt {m n : Nat} (h : twoTo m < twoTo n) : m < n :=
  (Nat.pow_lt_pow_iff_right (by decide)).mp h

theorem le_of_twoTo_le {m n : Nat} (h : twoTo m ≤ twoTo n) : m ≤ n :=
  (Nat.pow_le_pow_iff_right (by decide)).mp h

theorem tenTo_pos (n : Nat) : 0 < tenTo n := Nat.pow_pos (by decide)

namespace Double

/-! ### Bits -/

theorem magnitude_lt (x : Double) : x.magnitude < 2 ^ 63 := Nat.mod_lt _ (by decide)

theorem magnitude_ofMagnitude (negative : Bool) {m : Nat} (h : m < 2 ^ 63) :
    (ofMagnitude negative m).magnitude = m := by
  unfold magnitude ofMagnitude
  rw [UInt64.toNat_ofNat', twoTo_eq]
  cases negative with
  | true => simp only [↓reduceIte]; omega
  | false => simp only [Bool.false_eq_true, ↓reduceIte]; omega

theorem magnitude_neg (x : Double) : x.neg.magnitude = x.magnitude :=
  magnitude_ofMagnitude _ x.magnitude_lt

/-! ### Rounding -/

theorem roundHalfEven_le {num den bound : Nat} (hden : 0 < den) (h : num ≤ bound * den) :
    roundHalfEven num den ≤ bound := by
  have hfloor : num / den ≤ bound := Nat.div_le_of_le_mul (Nat.mul_comm bound den ▸ h)
  unfold roundHalfEven
  rcases Nat.lt_or_eq_of_le hfloor with hlt | heq
  · dsimp only
    split
    · exact hfloor
    · split
      · exact hlt
      · split
        · exact hfloor
        · exact hlt
  · -- nothing remains, so nothing is rounded up
    have hsum : den * (num / den) + num % den = num := Nat.div_add_mod num den
    rw [heq, Nat.mul_comm] at hsum
    have hrest : 2 * (num % den) < den := by omega
    rw [if_pos hrest]
    exact hfloor

theorem le_roundHalfEven {num den bound : Nat} (hden : 0 < den) (h : bound * den ≤ num) :
    bound ≤ roundHalfEven num den := by
  have hfloor : bound ≤ num / den := (Nat.le_div_iff_mul_le hden).mpr h
  unfold roundHalfEven
  dsimp only
  split
  · exact hfloor
  · split
    · exact Nat.le_succ_of_le hfloor
    · split
      · exact hfloor
      · exact Nat.le_succ_of_le hfloor

/-- The exponent of a ratio and how it is rounded with it. -/
theorem ofRatio_cases (negative : Bool) {num den : Nat} (hnum : 0 < num) (hden : 0 < den) :
    ∃ e, num * twoTo 1074 < den * twoTo (e + 1) ∧ (e = 0 ∨ den * twoTo e ≤ num * twoTo 1074) ∧
      ofRatio negative num den = ofMagnitude negative (min ((e - 52) * twoTo 52 +
        roundHalfEven (num * twoTo 1074) (den * twoTo (e - 52))) infinity) := by
  have hn1 : twoTo (num * twoTo 1074).log2 ≤ num * twoTo 1074 :=
    Nat.log2_self_le (Nat.ne_of_gt (Nat.mul_pos hnum (twoTo_pos 1074)))
  have hn2 : num * twoTo 1074 < twoTo ((num * twoTo 1074).log2 + 1) := Nat.lt_log2_self
  have hd1 : twoTo den.log2 ≤ den := Nat.log2_self_le (Nat.ne_of_gt hden)
  have hd2 : den < twoTo (den.log2 + 1) := Nat.lt_log2_self
  unfold ofRatio
  rw [if_neg (Nat.ne_of_gt hnum)]
  dsimp only
  generalize num * twoTo 1074 = n at hn1 hn2 ⊢
  generalize hguess : n.log2 - den.log2 = guess
  -- the guess is the exponent or one beyond it
  have hover : n < den * twoTo (guess + 1) := by
    calc n < twoTo (n.log2 + 1) := hn2
      _ ≤ twoTo (den.log2 + (guess + 1)) := twoTo_le (by omega)
      _ = twoTo den.log2 * twoTo (guess + 1) := by rw [← twoTo_add]
      _ ≤ den * twoTo (guess + 1) := Nat.mul_le_mul_right _ hd1
  by_cases hlt : n < den * twoTo guess
  · rw [if_pos hlt]
    refine ⟨guess - 1, ?_, ?_, rfl⟩
    · rcases Nat.eq_zero_or_pos guess with h0 | hpos
      · rw [h0] at hover ⊢
        exact hover
      · rwa [Nat.sub_add_cancel hpos]
    · rcases Nat.eq_zero_or_pos guess with h0 | hpos
      · exact Or.inl (by omega)
      · refine Or.inr ?_
        calc den * twoTo (guess - 1) ≤ twoTo (den.log2 + 1) * twoTo (guess - 1) :=
              Nat.mul_le_mul_right _ (Nat.le_of_lt hd2)
          _ = twoTo (den.log2 + 1 + (guess - 1)) := by rw [← twoTo_add]
          _ ≤ twoTo n.log2 := twoTo_le (by omega)
          _ ≤ n := hn1
  · rw [if_neg hlt]
    exact ⟨guess, hover, Or.inr (Nat.le_of_not_lt hlt), rfl⟩

/-! ### Bounds -/

/-- A double of at most `2 ^ k`. -/
def AtMost (k : Nat) (x : Double) : Prop := x.magnitude ≤ (k + 1023) * 2 ^ 52

/-- A double of at least one, which may be infinite. -/
def AtLeastOne (x : Double) : Prop := 1023 * 2 ^ 52 ≤ x.magnitude

theorem infinity_eq : infinity = 2047 * 2 ^ 52 := rfl

theorem isFinite_of_atMost {k : Nat} (hk : k < 1024) {x : Double} (h : AtMost k x) :
    x.isFinite = true := by
  unfold AtMost at h
  have hlt : (k + 1023) * 2 ^ 52 < infinity := by
    rw [infinity_eq]
    omega
  exact decide_eq_true (Nat.lt_of_le_of_lt h hlt)

theorem min_infinity_lt (m : Nat) : min m infinity < 2 ^ 63 :=
  Nat.lt_of_le_of_lt (Nat.min_le_right ..) (by decide)

/-- **Rounding does not pass a power of two from above.** -/
theorem atMost_ofRatio (negative : Bool) {num den k : Nat} (hden : 0 < den)
    (h : num ≤ den * twoTo k) : AtMost k (ofRatio negative num den) := by
  unfold AtMost
  rcases Nat.eq_zero_or_pos num with rfl | hnum
  · have hzero : (ofRatio negative 0 den).magnitude = 0 := magnitude_ofMagnitude negative (by decide)
    rw [hzero]
    exact Nat.zero_le _
  obtain ⟨e, hover, hunder, hround⟩ := ofRatio_cases negative hnum hden
  rw [hround, magnitude_ofMagnitude negative (min_infinity_lt _)]
  refine Nat.le_trans (Nat.min_le_left ..) ?_
  have hpos : 0 < den * twoTo (e - 52) := Nat.mul_pos hden (twoTo_pos _)
  have hle : num * twoTo 1074 ≤ den * twoTo (k + 1074) := by
    calc num * twoTo 1074 ≤ den * twoTo k * twoTo 1074 := Nat.mul_le_mul_right _ h
      _ = den * twoTo (k + 1074) := by rw [Nat.mul_assoc, ← twoTo_add]
  generalize num * twoTo 1074 = n at *
  have h52 : twoTo 52 = 2 ^ 52 := rfl
  rcases Nat.lt_or_eq_of_le hle with hlt | heq
  · -- below the power of two the exponent is smaller, and the significand has 53 bits at most
    have he : e ≤ k + 1073 := by
      rcases hunder with h0 | hunder
      · omega
      · have hpow : den * twoTo e < den * twoTo (k + 1074) := Nat.lt_of_le_of_lt hunder hlt
        have hlow := lt_of_twoTo_lt (Nat.lt_of_mul_lt_mul_left hpow)
        omega
    have hm : roundHalfEven n (den * twoTo (e - 52)) ≤ 2 ^ 53 := by
      refine roundHalfEven_le hpos (Nat.le_of_lt (Nat.lt_of_lt_of_le hover ?_))
      calc den * twoTo (e + 1) ≤ den * twoTo (53 + (e - 52)) :=
            Nat.mul_le_mul_left _ (twoTo_le (by omega))
        _ = twoTo 53 * (den * twoTo (e - 52)) := by rw [twoTo_add, Nat.mul_left_comm]
    rw [h52]
    omega
  · -- at the power of two the significand is one with 52 zeros
    have he : e = k + 1074 := by
      have hlow : k + 1074 < e + 1 := by
        rw [heq] at hover
        exact lt_of_twoTo_lt (Nat.lt_of_mul_lt_mul_left hover)
      rcases hunder with h0 | hunder
      · omega
      · rw [heq] at hunder
        have hhigh := le_of_twoTo_le (Nat.le_of_mul_le_mul_left hunder hden)
        omega
    have hm : roundHalfEven n (den * twoTo (e - 52)) ≤ 2 ^ 52 := by
      refine roundHalfEven_le hpos (Nat.le_of_eq ?_)
      have hexponent : k + 1074 = 52 + (e - 52) := by omega
      calc n = den * twoTo (52 + (e - 52)) := by rw [heq, hexponent]
        _ = twoTo 52 * (den * twoTo (e - 52)) := by rw [twoTo_add, Nat.mul_left_comm]
    rw [h52]
    omega

/-- **Rounding does not pass one from below.** -/
theorem atLeastOne_ofRatio (negative : Bool) {num den : Nat} (hden : 0 < den) (h : den ≤ num) :
    AtLeastOne (ofRatio negative num den) := by
  unfold AtLeastOne
  obtain ⟨e, hover, hunder, hround⟩ := ofRatio_cases negative (Nat.lt_of_lt_of_le hden h) hden
  rw [hround, magnitude_ofMagnitude negative (min_infinity_lt _)]
  have hpos : 0 < den * twoTo (e - 52) := Nat.mul_pos hden (twoTo_pos _)
  have hle : den * twoTo 1074 ≤ num * twoTo 1074 := Nat.mul_le_mul_right _ h
  generalize num * twoTo 1074 = n at *
  have he : 1074 < e + 1 :=
    lt_of_twoTo_lt (Nat.lt_of_mul_lt_mul_left (Nat.lt_of_le_of_lt hle hover))
  have hm : 2 ^ 52 ≤ roundHalfEven n (den * twoTo (e - 52)) := by
    refine le_roundHalfEven hpos ?_
    have hunder : den * twoTo e ≤ n := hunder.resolve_left (by omega)
    calc twoTo 52 * (den * twoTo (e - 52)) = den * twoTo (52 + (e - 52)) := by
          rw [Nat.mul_left_comm, ← twoTo_add]
      _ = den * twoTo e := by rw [Nat.add_sub_cancel' (by omega)]
      _ ≤ n := hunder
  have hq : 1022 ≤ e - 52 := Nat.le_sub_of_add_le (Nat.le_of_lt_succ he)
  refine Nat.le_min.mpr ⟨?_, by decide⟩
  calc 1023 * 2 ^ 52 = 1022 * twoTo 52 + 2 ^ 52 := rfl
    _ ≤ (e - 52) * twoTo 52 + roundHalfEven n (den * twoTo (e - 52)) :=
      Nat.add_le_add (Nat.mul_le_mul_right _ hq) hm

/-- The number that a double of at most `2 ^ k` stands for. -/
theorem value_le_of_atMost {k : Nat} {x : Double} (h : AtMost k x) :
    x.significand * twoTo x.scale ≤ twoTo (k + 1074) := by
  have hexponent : 52 + (k + 1022) ≤ k + 1074 ∧ 53 + (k + 1021) ≤ k + 1074 := by omega
  unfold AtMost at h
  have h52 : twoTo 52 = 2 ^ 52 := rfl
  by_cases hlt : x.magnitude < twoTo 52
  · rw [significand, scale, if_pos hlt, if_pos hlt]
    calc x.magnitude * twoTo 0 = x.magnitude := Nat.mul_one _
      _ ≤ twoTo 52 := Nat.le_of_lt hlt
      _ ≤ twoTo (k + 1074) := twoTo_le (by omega)
  · rw [significand, scale, if_neg hlt, if_neg hlt]
    have hrest : x.magnitude % twoTo 52 < twoTo 52 := Nat.mod_lt _ (twoTo_pos 52)
    rcases Nat.lt_or_ge (x.magnitude / twoTo 52) (k + 1023) with hq | hq
    · calc (x.magnitude % twoTo 52 + twoTo 52) * twoTo (x.magnitude / twoTo 52 - 1)
          ≤ twoTo 53 * twoTo (k + 1021) := by
            refine Nat.mul_le_mul ?_ (twoTo_le (by omega))
            have h53 : twoTo 53 = 2 ^ 53 := rfl
            omega
        _ = twoTo (53 + (k + 1021)) := by rw [← twoTo_add]
        _ ≤ twoTo (k + 1074) := twoTo_le hexponent.2
    · have hrest0 : x.magnitude % twoTo 52 = 0 := by
        rw [h52] at hq ⊢
        omega
      have hq' : x.magnitude / twoTo 52 = k + 1023 :=
        Nat.le_antisymm (Nat.div_le_of_le_mul (Nat.mul_comm _ _ ▸ h)) hq
      rw [hrest0, hq', Nat.zero_add, Nat.add_succ_sub_one, ← twoTo_add]
      exact twoTo_le hexponent.1

theorem value_ge_of_atLeastOne {x : Double} (h : AtLeastOne x) :
    twoTo 1074 ≤ x.significand * twoTo x.scale := by
  unfold AtLeastOne at h
  have h52 : twoTo 52 = 2 ^ 52 := rfl
  have hge : ¬ x.magnitude < twoTo 52 := by omega
  rw [significand, scale, if_neg hge, if_neg hge]
  have hq : 1022 ≤ x.magnitude / twoTo 52 - 1 := by
    rw [h52]
    omega
  calc twoTo 1074 ≤ twoTo (52 + 1022) := twoTo_le (Nat.le_refl _)
    _ = twoTo 52 * twoTo 1022 := by rw [twoTo_add]
    _ ≤ (x.magnitude % twoTo 52 + twoTo 52) * twoTo (x.magnitude / twoTo 52 - 1) :=
      Nat.mul_le_mul (Nat.le_add_left ..) (twoTo_le hq)

/-- **To divide by a double of at least one does not make a double larger.** -/
theorem atMost_div {k : Nat} {x y : Double} (hx : AtMost k x) (hy : AtLeastOne y) :
    AtMost k (x.div y) := by
  have hden := value_ge_of_atLeastOne hy
  refine atMost_ofRatio _ (Nat.lt_of_lt_of_le (twoTo_pos 1074) hden) ?_
  calc x.significand * twoTo x.scale ≤ twoTo (k + 1074) := value_le_of_atMost hx
    _ = twoTo 1074 * twoTo k := by rw [Nat.add_comm, twoTo_add]
    _ ≤ y.significand * twoTo y.scale * twoTo k := Nat.mul_le_mul_right _ hden

theorem atMost_ofNat {n k : Nat} (h : n ≤ twoTo k) : AtMost k (ofNat n) :=
  atMost_ofRatio false Nat.one_pos (by omega)

theorem atLeastOne_ofNat {n : Nat} (h : 0 < n) : AtLeastOne (ofNat n) :=
  atLeastOne_ofRatio false Nat.one_pos h

theorem isFinite_neg (x : Double) : x.neg.isFinite = x.isFinite := by
  unfold isFinite
  rw [magnitude_neg]

theorem isFinite_zero (negative : Bool) : (zero negative).isFinite = true := by
  cases negative <;> decide

end Double
end DeviceRelay
