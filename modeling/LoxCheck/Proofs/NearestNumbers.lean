import LoxCheck.Proofs.PlacedTokens
import Mathlib.Algebra.Order.Field.Power
import Mathlib.Algebra.Ring.Parity
import Mathlib.Data.Rat.Cast.Order
import Mathlib.Tactic.FieldSimp
import Mathlib.Tactic.Linarith
import Mathlib.Tactic.NormNum
import Mathlib.Tactic.Positivity
import Mathlib.Tactic.Ring

/-!
# Nearest numbers

Reading a numeral rounds its value, a rational number, to the nearest double-precision number. Of
two numbers that are as near the one with the even significand is taken, and from half a unit above
the greatest number on everything is infinite. There is only one such number for each value, so that
this says all about `Binary64.ofRatio` and `Binary64.ofDecimal`.
-/

namespace LoxCheck

namespace Binary64

/-! ## Powers as quotients -/

theorem zpow_mul_toNat {base : ℚ} (hb : 0 < base) (power : ℤ) :
    base ^ power * base ^ (-power).toNat = base ^ power.toNat := by
  rw [← zpow_natCast, ← zpow_natCast, ← zpow_add₀ hb.ne']
  congr 1
  omega

theorem reaches_iff {base num den : ℕ} {power : ℤ} (hb : 0 < base) (hd : 0 < den) :
    reaches base num den power = true ↔ (base : ℚ) ^ power ≤ num / den := by
  have base_pos : (0 : ℚ) < base := by exact_mod_cast hb
  have den_pos : (0 : ℚ) < den := by exact_mod_cast hd
  have scale : (0 : ℚ) < base ^ (-power).toNat := by positivity
  rw [reaches, decide_eq_true_eq, le_div_iff₀ den_pos, ← mul_le_mul_iff_right₀ scale, ← mul_assoc,
    mul_comm ((base : ℚ) ^ (-power).toNat), zpow_mul_toNat base_pos]
  simp only [Nat.pow_eq]
  exact_mod_cast Iff.rfl

theorem log2_bounds {n : ℕ} (h : 0 < n) :
    (2 : ℚ) ^ (n.log2 : ℤ) ≤ n ∧ (n : ℚ) < 2 ^ ((n.log2 : ℤ) + 1) := by
  constructor
  · exact_mod_cast Nat.log2_self_le h.ne'
  · exact_mod_cast @Nat.lt_log2_self n

/-- The numbers of bits tell a quotient up to a factor of two on either side. -/
theorem log2_sub_bounds {num den : ℕ} (hn : 0 < num) (hd : 0 < den) :
    (2 : ℚ) ^ ((num.log2 : ℤ) - den.log2 - 1) ≤ num / den ∧
      (num / den : ℚ) < 2 ^ ((num.log2 : ℤ) - den.log2 + 1) := by
  have den_pos : (0 : ℚ) < den := by exact_mod_cast hd
  obtain ⟨low, high⟩ := log2_bounds hn
  obtain ⟨low', high'⟩ := log2_bounds hd
  rw [le_div_iff₀ den_pos, div_lt_iff₀ den_pos]
  constructor
  · calc (2 : ℚ) ^ ((num.log2 : ℤ) - den.log2 - 1) * den
        ≤ 2 ^ ((num.log2 : ℤ) - den.log2 - 1) * 2 ^ ((den.log2 : ℤ) + 1) :=
          mul_le_mul_of_nonneg_left high'.le (by positivity)
      _ = 2 ^ (num.log2 : ℤ) := by
        rw [← zpow_add₀ two_ne_zero]
        congr 1
        omega
      _ ≤ num := low
  · calc (num : ℚ) < 2 ^ ((num.log2 : ℤ) + 1) := high
      _ = 2 ^ ((num.log2 : ℤ) - den.log2 + 1) * 2 ^ (den.log2 : ℤ) := by
        rw [← zpow_add₀ two_ne_zero]
        congr 1
        omega
      _ ≤ 2 ^ ((num.log2 : ℤ) - den.log2 + 1) * den :=
        mul_le_mul_of_nonneg_left low' (by positivity)

theorem binaryOrder_spec {num den : ℕ} (hn : 0 < num) (hd : 0 < den) :
    (2 : ℚ) ^ binaryOrder num den ≤ num / den ∧
      (num / den : ℚ) < 2 ^ (binaryOrder num den + 1) := by
  obtain ⟨below, above⟩ := log2_sub_bounds hn hd
  have test := @reaches_iff 2 num den ((num.log2 : ℤ) - den.log2) two_pos hd
  by_cases reached : reaches 2 num den ((num.log2 : ℤ) - den.log2) = true
  · have order : binaryOrder num den = (num.log2 : ℤ) - den.log2 := if_pos reached
    rw [order]
    exact ⟨test.1 reached, above⟩
  · have order : binaryOrder num den = (num.log2 : ℤ) - den.log2 - 1 := if_neg reached
    rw [order, sub_add_cancel]
    exact ⟨below, not_le.1 fun bound => reached (test.2 bound)⟩

/-! ## Rounding to a natural number -/

/-- A natural number that is at most half a unit away, and even if it is as far as that. -/
structure RoundsTo (x : ℚ) (n : ℕ) : Prop where
  close : |x - n| ≤ 1 / 2
  even : |x - n| = 1 / 2 → Even n

theorem roundsTo_of_lt_half {whole : ℕ} {fraction : ℚ} (nonneg : 0 ≤ fraction)
    (half : fraction < 1 / 2) : RoundsTo (whole + fraction) whole := by
  have distance : |whole + fraction - whole| = fraction := by
    rw [add_sub_cancel_left, abs_of_nonneg nonneg]
  exact ⟨distance.trans_le half.le, fun same => absurd (distance.symm.trans same) half.ne⟩

theorem roundsTo_of_half_lt {whole : ℕ} {fraction : ℚ} (half : 1 / 2 < fraction)
    (lt_one : fraction < 1) : RoundsTo (whole + fraction) (whole + 1) := by
  have distance : |whole + fraction - (whole + 1 : ℕ)| = 1 - fraction := by
    rw [Nat.cast_add_one, add_sub_add_left_eq_sub, abs_sub_comm, abs_of_pos (by linarith)]
  exact ⟨by linarith, fun same => absurd (distance.symm.trans same) (by linarith)⟩

/-- What is halfway goes to the even side. -/
theorem roundsTo_half (whole : ℕ) : RoundsTo (whole + 1 / 2) (whole + whole % 2) := by
  have even : Even (whole + whole % 2) := Nat.even_iff.2 (by omega)
  have distance : |whole + 1 / 2 - ((whole + whole % 2 : ℕ) : ℚ)| = 1 / 2 := by
    rw [Nat.cast_add, add_sub_add_left_eq_sub]
    rcases Nat.mod_two_eq_zero_or_one whole with parity | parity <;> rw [parity] <;>
      norm_num [abs_of_pos, abs_of_neg]
  exact ⟨distance.le, fun _ => even⟩

theorem roundsTo_roundDiv (num : ℕ) {den : ℕ} (hd : 0 < den) :
    RoundsTo (num / den) (roundDiv num den) := by
  have den_pos : (0 : ℚ) < den := by exact_mod_cast hd
  have cut : (num / den : ℚ) = (num / den : ℕ) + ((num % den : ℕ) : ℚ) / den := by
    have whole : (num : ℚ) = den * (num / den : ℕ) + (num % den : ℕ) := by
      exact_mod_cast (Nat.div_add_mod num den).symm
    field_simp
    linarith
  rw [cut]
  unfold roundDiv
  dsimp only
  split_ifs with less more
  · refine roundsTo_of_lt_half (by positivity) ?_
    rw [div_lt_div_iff₀ den_pos two_pos, one_mul, mul_comm]
    exact_mod_cast less
  · refine roundsTo_of_half_lt ?_ ?_
    · rw [div_lt_div_iff₀ two_pos den_pos, one_mul, mul_comm]
      exact_mod_cast more
    · rw [div_lt_one den_pos]
      exact_mod_cast Nat.mod_lt num hd
  · have half : ((num % den : ℕ) : ℚ) / den = 1 / 2 := by
      rw [div_eq_div_iff den_pos.ne' two_ne_zero, one_mul, mul_comm]
      exact_mod_cast (by omega : 2 * (num % den) = den)
    rw [half]
    exact roundsTo_half _

/-! ## The nearest number -/

/-- Nothing with a significand of 53 bits and an exponent that is not too small is nearer to `x`
than `significand * 2 ^ exponent`, and if something else is as near, this significand is even. The
exponents have no upper bound here; that greater numbers are infinite comes on top. -/
def Nearest (x : ℚ) (significand : ℕ) (exponent : ℤ) : Prop :=
  ∀ (m : ℕ) (q : ℤ), m < 2 ^ precision → minExponent ≤ q →
    |x - significand * 2 ^ exponent| ≤ |x - m * 2 ^ q| ∧
      (|x - significand * 2 ^ exponent| = |x - m * 2 ^ q| →
        (significand * 2 ^ exponent : ℚ) = m * 2 ^ q ∨ Even significand)

theorem RoundsTo.nearest_nat {x : ℚ} {n : ℕ} (h : RoundsTo x n) (m : ℕ) :
    |x - n| ≤ |x - m| ∧ (|x - n| = |x - m| → n = m ∨ Even n) := by
  by_cases same : n = m
  · subst same
    exact ⟨le_rfl, fun _ => .inl rfl⟩
  · -- another natural number is at least one unit away from this one
    have apart : (1 : ℚ) ≤ |(n : ℚ) - m| := by
      have : (1 : ℤ) ≤ |(n : ℤ) - m| := Int.one_le_abs (by omega)
      exact_mod_cast this
    have triangle : |(n : ℚ) - m| ≤ |x - n| + |x - m| := by
      have := abs_sub_le (n : ℚ) x m
      rwa [abs_sub_comm (n : ℚ) x] at this
    have close := h.close
    exact ⟨by linarith, fun tie => .inr (h.even (by linarith))⟩

theorem two_pow_precision : (2 : ℚ) ^ precision = 2 * 2 ^ (precision - 1) := by
  norm_num [precision]

/-- A multiple of a power of two is one of every smaller power. -/
theorem mul_zpow_of_le (m : ℕ) {q p : ℤ} (h : q ≤ p) :
    (m * 2 ^ p : ℚ) = (m * 2 ^ (p - q).toNat : ℕ) * 2 ^ q := by
  push_cast
  rw [mul_assoc, ← zpow_natCast, ← zpow_add₀ two_ne_zero]
  congr 2
  omega

theorem abs_sub_mul_zpow (x : ℚ) (n : ℕ) (q : ℤ) :
    |x - n * 2 ^ q| = |x / 2 ^ q - n| * 2 ^ q := by
  have unit : (0 : ℚ) < 2 ^ q := by positivity
  rw [← abs_of_pos unit, ← abs_mul, abs_of_pos unit, sub_mul, div_mul_cancel₀ x unit.ne']

/-- A quotient is rounded to a multiple of a power of two. The multiple is nearest to it, if no
smaller power would have to be considered: it is the least one, or the quotient has 53 bits. -/
theorem nearest_of_roundsTo {x : ℚ} {n : ℕ} {q : ℤ} (rounds : RoundsTo (x / 2 ^ q) n)
    (full : (2 : ℚ) ^ (precision - 1) * 2 ^ q ≤ x ∨ q = minExponent) : Nearest x n q := by
  have unit : (0 : ℚ) < 2 ^ q := by positivity
  intro m p hm hp
  rcases le_or_gt q p with coarse | fine
  · -- a multiple of a greater power is one of this power too
    have multiple := mul_zpow_of_le m coarse
    obtain ⟨nearer, tie⟩ := rounds.nearest_nat (m * 2 ^ (p - q).toNat)
    rw [multiple, abs_sub_mul_zpow, abs_sub_mul_zpow]
    refine ⟨mul_le_mul_of_nonneg_right nearer unit.le, fun same => ?_⟩
    rcases tie (mul_right_cancel₀ unit.ne' same) with equal | even
    · exact .inl (by rw [equal])
    · exact .inr even
  · -- what has a smaller power is below the least number with all bits, which is not above `x`
    have above : (2 : ℚ) ^ (precision - 1) * 2 ^ q ≤ x := by
      rcases full with above | least
      · exact above
      · exact absurd (least ▸ fine) (not_lt.2 hp)
    have power : (2 : ℚ) ^ p * 2 ≤ 2 ^ q := by
      rw [← zpow_add_one₀ two_ne_zero]
      exact zpow_le_zpow_right₀ one_le_two (by omega)
    have bits : (m : ℚ) < 2 ^ precision := by exact_mod_cast hm
    have below : (m * 2 ^ p : ℚ) < 2 ^ (precision - 1) * 2 ^ q := by
      calc (m * 2 ^ p : ℚ) < 2 ^ precision * 2 ^ p := mul_lt_mul_of_pos_right bits (by positivity)
        _ = 2 ^ (precision - 1) * (2 ^ p * 2) := by
          rw [two_pow_precision]
          ring
        _ ≤ 2 ^ (precision - 1) * 2 ^ q := mul_le_mul_of_nonneg_left power (by positivity)
    have between : |x - n * 2 ^ q| ≤ x - 2 ^ (precision - 1) * 2 ^ q := by
      have nearer := (rounds.nearest_nat (2 ^ (precision - 1))).1
      have scaled := mul_le_mul_of_nonneg_right nearer unit.le
      rw [← abs_sub_mul_zpow, ← abs_sub_mul_zpow] at scaled
      push_cast at scaled
      exact scaled.trans_eq (abs_of_nonneg (by linarith))
    have farther : x - 2 ^ (precision - 1) * 2 ^ q < |x - m * 2 ^ p| := by
      rw [abs_of_pos (by linarith)]
      linarith
    exact ⟨by linarith, fun tie => absurd tie (by linarith)⟩

/-! ## Rounding quotients -/

/-- The form of a number that has one form only: its significand has 53 bits, or the exponent is the
least one. -/
structure Canonical (significand : ℕ) (exponent : ℤ) : Prop where
  bits : significand < 2 ^ precision
  least : minExponent ≤ exponent
  full : 2 ^ (precision - 1) ≤ significand ∨ exponent = minExponent

theorem Nearest.carry {x : ℚ} {q : ℤ} (h : Nearest x (2 ^ precision) q) :
    Nearest x (2 ^ (precision - 1)) (q + 1) := by
  have value : ((2 ^ (precision - 1) : ℕ) * 2 ^ (q + 1) : ℚ) = (2 ^ precision : ℕ) * 2 ^ q := by
    push_cast
    rw [zpow_add_one₀ two_ne_zero, two_pow_precision]
    ring
  intro m p hm hp
  obtain ⟨nearer, tie⟩ := h m p hm hp
  rw [value]
  refine ⟨nearer, fun same => (tie same).imp_right fun _ => ?_⟩
  decide

/-- What a quotient is rounded to at a power of two, before a carry. -/
structure Rounded (x : ℚ) (significand : ℕ) (exponent : ℤ) : Prop where
  least : minExponent ≤ exponent
  bits : significand ≤ 2 ^ precision
  full : 2 ^ (precision - 1) ≤ significand ∨ exponent = minExponent
  nearest : Nearest x significand exponent

/-- With the power of two that leaves 53 bits before the point, or the least one, rounding a
quotient gives the nearest number. -/
theorem rounded_of_order {x : ℚ} {n : ℕ} {e : ℤ} (low : (2 : ℚ) ^ e ≤ x) (high : x < 2 ^ (e + 1))
    (rounds : RoundsTo (x / 2 ^ max (e - (precision - 1 : ℕ)) minExponent) n) :
    Rounded x n (max (e - (precision - 1 : ℕ)) minExponent) := by
  set q := max (e - (precision - 1 : ℕ)) minExponent with hq
  have unit : (0 : ℚ) < 2 ^ q := by positivity
  have close := abs_le.1 rounds.close
  -- the quotient has 53 bits at most, and exactly that many above the least power
  have most : x / 2 ^ q < 2 ^ precision := by
    rw [div_lt_iff₀ unit]
    refine high.trans_le ?_
    rw [← zpow_natCast, ← zpow_add₀ two_ne_zero]
    exact zpow_le_zpow_right₀ one_le_two (by simp only [precision] at hq ⊢; omega)
  have full : (2 : ℚ) ^ (precision - 1) * 2 ^ q ≤ x ∨ q = minExponent := by
    rcases max_choice (e - (precision - 1 : ℕ)) minExponent with order | least
    · left
      refine le_trans (le_of_eq ?_) low
      rw [← zpow_natCast, ← zpow_add₀ two_ne_zero, hq, order]
      congr 1
      omega
    · exact .inr least
  refine ⟨le_max_right _ _, ?_, full.imp_left fun above => ?_, nearest_of_roundsTo rounds full⟩
  · have : (n : ℚ) < (2 ^ precision : ℕ) + 1 := by
      push_cast
      linarith
    exact Nat.lt_succ_iff.1 (by exact_mod_cast this)
  · have least : (2 : ℚ) ^ (precision - 1) ≤ x / 2 ^ q := (le_div_iff₀ unit).2 above
    have : ((2 ^ (precision - 1) : ℕ) : ℚ) < n + 1 := by
      push_cast
      linarith
    exact Nat.lt_succ_iff.1 (by exact_mod_cast this)

/-- A quotient is rounded to the canonical form of the nearest number, whose exponent is then
compared with the greatest one. -/
theorem ofRatio_eq_make (negative : Bool) (num : ℕ) {den : ℕ} (hd : 0 < den) :
    ∃ m q, Canonical m q ∧ Nearest (num / den) m q ∧
      ofRatio negative num den = make negative m q := by
  rcases Nat.eq_zero_or_pos num with rfl | hn
  · refine ⟨0, minExponent, ⟨by decide, le_rfl, .inr rfl⟩, fun m q _ _ => ?_, rfl⟩
    simp only [Nat.cast_zero, zero_div, zero_mul, sub_zero, abs_zero]
    exact ⟨abs_nonneg _, fun _ => .inr Even.zero⟩
  obtain ⟨low, high⟩ := binaryOrder_spec hn hd
  set q := max (binaryOrder num den - (precision - 1 : ℕ)) minExponent with hq
  set n := roundDiv (num * Nat.pow 2 (-q).toNat) (den * Nat.pow 2 q.toNat) with hn'
  have scaled : ((num * Nat.pow 2 (-q).toNat : ℕ) : ℚ) / (den * Nat.pow 2 q.toNat : ℕ) =
      num / den / 2 ^ q := by
    simp only [Nat.pow_eq]
    push_cast
    rw [← zpow_mul_toNat two_pos q]
    field_simp
  have rounds : RoundsTo (num / den / 2 ^ q) n := by
    rw [← scaled]
    exact roundsTo_roundDiv _ (Nat.mul_pos hd (Nat.pow_pos two_pos))
  obtain ⟨least, bits, full, nearest⟩ := rounded_of_order low high rounds
  have result : ofRatio negative num den =
      if n = Nat.pow 2 precision then make negative (Nat.pow 2 (precision - 1)) (q + 1)
      else make negative n q := if_neg hn.ne'
  rw [result]
  split_ifs with carry
  · refine ⟨_, _, ⟨by decide, by omega, .inl le_rfl⟩, ?_, rfl⟩
    rw [carry] at nearest
    exact nearest.carry
  · exact ⟨n, q, ⟨lt_of_le_of_ne bits carry, least, full⟩, nearest, rfl⟩

/-! ## The greatest number -/

/-- Half a unit above the greatest number. -/
def overflow : ℚ := (2 ^ precision - 1 / 2) * 2 ^ maxExponent

section

variable {x : ℚ} {m : ℕ} {q : ℤ}

theorem zpow_maxExponent_succ : (2 : ℚ) ^ (maxExponent + 1) = 2 * 2 ^ maxExponent := by
  rw [zpow_add_one₀ two_ne_zero, mul_comm]

/-- Only from half a unit above the greatest number on the nearest number is a greater one. -/
theorem overflow_le_of_nearest (canonical : Canonical m q) (nearest : Nearest x m q)
    (great : maxExponent < q) : overflow ≤ x := by
  have unit : (0 : ℚ) < 2 ^ maxExponent := by positivity
  have above : (2 : ℚ) ^ precision * 2 ^ maxExponent ≤ m * 2 ^ q := by
    have bits : (2 : ℚ) ^ (precision - 1) ≤ m := by
      rcases canonical.full with full | least
      · exact_mod_cast full
      · rw [least] at great
        exact absurd great (by decide)
    have power : (2 : ℚ) ^ (maxExponent + 1) ≤ 2 ^ q :=
      zpow_le_zpow_right₀ one_le_two (Int.add_one_le_iff.2 great)
    calc (2 : ℚ) ^ precision * 2 ^ maxExponent
        = 2 ^ (precision - 1) * 2 ^ (maxExponent + 1) := by
          rw [two_pow_precision, zpow_maxExponent_succ]
          ring
      _ ≤ m * 2 ^ q := mul_le_mul bits power (zpow_nonneg zero_le_two _) m.cast_nonneg
  -- the greatest number is not nearer
  obtain ⟨nearer, -⟩ := nearest (2 ^ precision - 1) maxExponent (by decide) (by decide)
  have greatest : ((2 ^ precision - 1 : ℕ) : ℚ) = 2 ^ precision - 1 := by norm_num [precision]
  rw [greatest] at nearer
  by_contra small
  unfold overflow at small
  rcases abs_cases (x - m * 2 ^ q) with ⟨h, _⟩ | ⟨h, _⟩ <;>
    rcases abs_cases (x - (2 ^ precision - 1) * 2 ^ maxExponent) with ⟨h', _⟩ | ⟨h', _⟩ <;>
    linarith

theorem lt_overflow_of_nearest (canonical : Canonical m q) (nearest : Nearest x m q)
    (finite : q ≤ maxExponent) : x < overflow := by
  have unit : (0 : ℚ) < 2 ^ maxExponent := by positivity
  have bits : (m : ℚ) ≤ 2 ^ precision - 1 := by
    have : ((m + 1 : ℕ) : ℚ) ≤ (2 ^ precision : ℕ) := by exact_mod_cast canonical.bits
    push_cast at this
    linarith
  have power : (2 : ℚ) ^ q ≤ 2 ^ maxExponent := zpow_le_zpow_right₀ one_le_two finite
  have below : (m * 2 ^ q : ℚ) ≤ (2 ^ precision - 1) * 2 ^ maxExponent :=
    mul_le_mul bits power (by positivity) (by linarith [(m.cast_nonneg : (0 : ℚ) ≤ m)])
  -- the next number after the greatest one, if there were greater exponents, is not nearer
  obtain ⟨nearer, tie⟩ := nearest (2 ^ (precision - 1)) (maxExponent + 1) (by decide) (by decide)
  have next : ((2 ^ (precision - 1) : ℕ) * 2 ^ (maxExponent + 1) : ℚ) =
      2 ^ precision * 2 ^ maxExponent := by
    push_cast
    rw [two_pow_precision, zpow_maxExponent_succ]
    ring
  rw [next] at nearer tie
  by_contra great
  unfold overflow at great
  have same : |x - m * 2 ^ q| = |x - 2 ^ precision * 2 ^ maxExponent| := by
    rcases abs_cases (x - m * 2 ^ q) with ⟨h, _⟩ | ⟨h, _⟩ <;>
      rcases abs_cases (x - 2 ^ precision * 2 ^ maxExponent) with ⟨h', _⟩ | ⟨h', _⟩ <;>
      linarith
  rcases tie same with equal | even
  · rw [equal] at below
    linarith
  -- a tie is one with the greatest number, whose significand is odd
  have value : (2 ^ precision - 1) * 2 ^ maxExponent ≤ (m * 2 ^ q : ℚ) := by
    rcases abs_cases (x - m * 2 ^ q) with ⟨h, _⟩ | ⟨h, _⟩ <;>
      rcases abs_cases (x - 2 ^ precision * 2 ^ maxExponent) with ⟨h', _⟩ | ⟨h', _⟩ <;>
      linarith
  have all : (2 ^ precision - 1 : ℚ) ≤ m := by
    have := value.trans (mul_le_mul_of_nonneg_left power m.cast_nonneg)
    exact le_of_mul_le_mul_right this unit
  have greatest : 2 ^ precision ≤ m + 1 := by
    have : ((2 ^ precision : ℕ) : ℚ) ≤ (m + 1 : ℕ) := by
      push_cast
      linarith
    exact_mod_cast this
  have last : m = 2 ^ precision - 1 := by
    have := canonical.bits
    omega
  rw [last] at even
  exact absurd even (by decide)

end

/-! ## The number that a magnitude is rounded to -/

/-- A number is what a magnitude is rounded to, under a sign: below half a unit above the greatest
number it is the nearest one in canonical form, a tie going to the even significand, and from there
on it is infinite. -/
def Rounds (negative : Bool) (x : ℚ) : Binary64 → Prop
  | .finite sign m q =>
    sign = negative ∧ x < overflow ∧ Canonical m q ∧ q ≤ maxExponent ∧ Nearest x m q
  | .infinite sign => sign = negative ∧ overflow ≤ x

theorem rounds_make {x : ℚ} {m : ℕ} {q : ℤ} (negative : Bool) (canonical : Canonical m q)
    (nearest : Nearest x m q) : (make negative m q).Rounds negative x := by
  unfold make
  split_ifs with great
  · exact ⟨rfl, overflow_le_of_nearest canonical nearest great⟩
  · have finite : q ≤ maxExponent := not_lt.1 great
    exact ⟨rfl, lt_overflow_of_nearest canonical nearest finite, canonical, finite, nearest⟩

/-- `ofRatio` rounds a quotient. -/
theorem rounds_ofRatio (negative : Bool) (num : ℕ) {den : ℕ} (hd : 0 < den) :
    (ofRatio negative num den).Rounds negative (num / den) := by
  obtain ⟨m, q, canonical, nearest, result⟩ := ofRatio_eq_make negative num hd
  rw [result]
  exact rounds_make negative canonical nearest

/-- A magnitude that is closer to zero than to the least positive number is rounded to zero. -/
theorem rounds_zero (negative : Bool) {x : ℚ} (nonneg : 0 ≤ x)
    (small : x < 2 ^ (minExponent - 1)) : (zero negative).Rounds negative x := by
  have canonical : Canonical 0 minExponent := ⟨by decide, le_rfl, .inr rfl⟩
  have nearest : Nearest x 0 minExponent := by
    intro m q hm hq
    rw [Nat.cast_zero, zero_mul, sub_zero, abs_of_nonneg nonneg]
    rcases Nat.eq_zero_or_pos m with rfl | positive
    · simp [abs_of_nonneg nonneg]
    · have least : 2 * 2 ^ (minExponent - 1) ≤ (m * 2 ^ q : ℚ) := by
        have one : (1 : ℚ) ≤ m := by exact_mod_cast positive
        calc (2 : ℚ) * 2 ^ (minExponent - 1) = 1 * 2 ^ minExponent := by
              rw [← zpow_one_add₀ two_ne_zero, add_sub_cancel, one_mul]
          _ ≤ m * 2 ^ q := mul_le_mul one (zpow_le_zpow_right₀ one_le_two hq)
              (zpow_nonneg zero_le_two _) m.cast_nonneg
      have farther : x < |x - m * 2 ^ q| := by
        rw [abs_sub_comm]
        exact lt_of_lt_of_le (by linarith) (le_abs_self _)
      exact ⟨farther.le, fun tie => absurd tie farther.ne⟩
  exact ⟨rfl, lt_overflow_of_nearest canonical nearest (by decide), canonical, by decide, nearest⟩

/-! ## There is only one -/

/-- A significand over a finer power of two than that of a canonical form has a smaller value. -/
theorem Canonical.lt_of_lt {m m' : ℕ} {q q' : ℤ} (h : Canonical m q) (bits : m' < 2 ^ precision)
    (least : minExponent ≤ q') (fine : q' < q) : (m' * 2 ^ q' : ℚ) < m * 2 ^ q := by
  have full : (2 : ℚ) ^ (precision - 1) ≤ m := by
    rcases h.full with full | lowest
    · exact_mod_cast full
    · omega
  have power : (2 : ℚ) ^ (q' + 1) ≤ 2 ^ q := zpow_le_zpow_right₀ one_le_two (by omega)
  calc (m' * 2 ^ q' : ℚ) < 2 ^ precision * 2 ^ q' :=
        mul_lt_mul_of_pos_right (by exact_mod_cast bits) (zpow_pos two_pos _)
    _ = 2 ^ (precision - 1) * 2 ^ (q' + 1) := by
        rw [two_pow_precision, zpow_add_one₀ two_ne_zero]
        ring
    _ ≤ m * 2 ^ q := mul_le_mul full power (zpow_nonneg zero_le_two _) m.cast_nonneg

/-- A number has one canonical form. -/
theorem Canonical.eq_of_value {m m' : ℕ} {q q' : ℤ} (h : Canonical m q) (h' : Canonical m' q')
    (same : (m * 2 ^ q : ℚ) = m' * 2 ^ q') : m = m' ∧ q = q' := by
  rcases lt_trichotomy q q' with fine | rfl | fine
  · exact absurd same (h'.lt_of_lt h.bits h.least fine).ne
  · have significands := mul_right_cancel₀ (zpow_ne_zero q two_ne_zero) same
    exact ⟨by exact_mod_cast significands, rfl⟩
  · exact absurd same (h.lt_of_lt h'.bits h'.least fine).ne'

/-- Of two nearest numbers neither is above the other: both significands would be even, and the odd
one between them would be nearer. -/
theorem Nearest.not_lt {x : ℚ} {m m' : ℕ} {q q' : ℤ} (h : Canonical m q) (h' : Canonical m' q')
    (near : Nearest x m q) (near' : Nearest x m' q') : ¬(m * 2 ^ q : ℚ) < m' * 2 ^ q' := by
  intro below
  obtain ⟨le, tie⟩ := near m' q' h'.bits h'.least
  obtain ⟨le', tie'⟩ := near' m q h.bits h.least
  have even := (tie (le_antisymm le le')).resolve_left below.ne
  have even' := (tie' (le_antisymm le' le)).resolve_left below.ne'
  have coarse : q ≤ q' := by
    by_contra fine
    exact absurd below (h.lt_of_lt h'.bits h'.least (not_le.1 fine)).not_gt
  -- over the power of the lower number both significands are even
  have multiple := mul_zpow_of_le m' coarse
  have next_bits : m + 1 < 2 ^ precision := by
    have := h.bits
    rcases even with ⟨k, hk⟩
    simp only [precision] at this ⊢
    omega
  have between : m + 1 < m' * 2 ^ (q' - q).toNat := by
    rw [multiple] at below
    have : m < m' * 2 ^ (q' - q).toNat := by
      exact_mod_cast lt_of_mul_lt_mul_right below (zpow_nonneg zero_le_two q)
    have parity : Even (m' * 2 ^ (q' - q).toNat) := even'.mul_right _
    obtain ⟨k, hk⟩ := even
    obtain ⟨l, hl⟩ := parity
    omega
  obtain ⟨nearer, -⟩ := near (m + 1) q next_bits h.least
  have lower : (m * 2 ^ q : ℚ) < (m + 1 : ℕ) * 2 ^ q :=
    mul_lt_mul_of_pos_right (by exact_mod_cast Nat.lt_succ_self m) (zpow_pos two_pos q)
  have upper : ((m + 1 : ℕ) * 2 ^ q : ℚ) < m' * 2 ^ q' := by
    rw [multiple]
    exact mul_lt_mul_of_pos_right (by exact_mod_cast between) (zpow_pos two_pos q)
  have same := le_antisymm le le'
  rcases abs_cases (x - m * 2 ^ q) with ⟨d, _⟩ | ⟨d, _⟩ <;>
    rcases abs_cases (x - m' * 2 ^ q') with ⟨d', _⟩ | ⟨d', _⟩ <;>
    rcases abs_cases (x - (m + 1 : ℕ) * 2 ^ q) with ⟨e, _⟩ | ⟨e, _⟩ <;>
    linarith

/-- A magnitude is rounded to one number only. -/
theorem Rounds.unique {negative : Bool} {x : ℚ} {a b : Binary64} (ha : a.Rounds negative x)
    (hb : b.Rounds negative x) : a = b := by
  cases a with
  | finite sign m q =>
    obtain ⟨rfl, small, canonical, -, nearest⟩ := ha
    cases b with
    | finite sign' m' q' =>
      obtain ⟨rfl, -, canonical', -, nearest'⟩ := hb
      have same : (m * 2 ^ q : ℚ) = m' * 2 ^ q' :=
        le_antisymm (not_lt.1 (Nearest.not_lt canonical' canonical nearest' nearest))
          (not_lt.1 (Nearest.not_lt canonical canonical' nearest nearest'))
      obtain ⟨rfl, rfl⟩ := canonical.eq_of_value canonical' same
      rfl
    | infinite sign' => exact absurd hb.2 (not_le.2 small)
  | infinite sign =>
    obtain ⟨rfl, great⟩ := ha
    cases b with
    | finite sign' m' q' => exact absurd great (not_le.2 hb.2.1)
    | infinite sign' => rw [hb.1]

theorem two_pow_le_ten_pow (n : ℕ) : (2 : ℚ) ^ (3 * n) ≤ 10 ^ n := by
  rw [pow_mul]
  exact pow_le_pow_left₀ (by norm_num) (by norm_num) n

/-- More than four hundred zeros are too many. -/
theorem overflow_le_of_great {digits : ℕ} {exponent : ℤ} (some_left : digits ≠ 0)
    (great : 400 < exponent) : overflow ≤ digits * 10 ^ exponent := by
  have one : (1 : ℚ) ≤ digits := by exact_mod_cast Nat.one_le_iff_ne_zero.2 some_left
  calc overflow ≤ 2 ^ precision * 2 ^ maxExponent :=
        mul_le_mul_of_nonneg_right (by linarith) (zpow_nonneg zero_le_two _)
    _ = 2 ^ ((precision : ℤ) + maxExponent) := by
        rw [zpow_add₀ two_ne_zero, zpow_natCast]
    _ ≤ 2 ^ ((3 * 342 : ℕ) : ℤ) := zpow_le_zpow_right₀ one_le_two (by decide)
    _ ≤ 10 ^ ((342 : ℕ) : ℤ) := by
        rw [zpow_natCast, zpow_natCast]
        exact two_pow_le_ten_pow 342
    _ ≤ 10 ^ exponent := zpow_le_zpow_right₀ (by norm_num) (by omega)
    _ ≤ digits * 10 ^ exponent := le_mul_of_one_le_left (zpow_nonneg (by norm_num) _) one

/-- Digits behind so many zeros after the point are too small. -/
theorem lt_of_small {digits : ℕ} {exponent : ℤ}
    (small : (digits.log2 : ℤ) + 1 + 1100 ≤ 3 * (-exponent)) :
    (digits * 10 ^ exponent : ℚ) < 2 ^ (minExponent - 1) := by
  obtain ⟨n, rfl⟩ : ∃ n : ℕ, exponent = -n := ⟨(-exponent).toNat, by omega⟩
  have high : (digits : ℚ) < 2 ^ ((digits.log2 : ℤ) + 1) := by
    exact_mod_cast @Nat.lt_log2_self digits
  have tens : (10 : ℚ) ^ (-(n : ℤ)) ≤ 2 ^ (-(3 * n : ℤ)) := by
    rw [zpow_neg, zpow_neg]
    refine inv_anti₀ (by positivity) ?_
    exact_mod_cast two_pow_le_ten_pow n
  calc (digits * 10 ^ (-(n : ℤ)) : ℚ) < 2 ^ ((digits.log2 : ℤ) + 1) * 10 ^ (-(n : ℤ)) :=
        mul_lt_mul_of_pos_right high (zpow_pos (by norm_num) _)
    _ ≤ 2 ^ ((digits.log2 : ℤ) + 1) * 2 ^ (-(3 * n : ℤ)) :=
        mul_le_mul_of_nonneg_left tens (zpow_nonneg zero_le_two _)
    _ = 2 ^ ((digits.log2 : ℤ) + 1 + -(3 * n : ℤ)) := (zpow_add₀ two_ne_zero _ _).symm
    _ ≤ 2 ^ (minExponent - 1) :=
        zpow_le_zpow_right₀ one_le_two (by simp only [minExponent]; omega)

/-- `ofDecimal` rounds a decimal. The powers of ten that it does not compute would change
nothing. -/
theorem rounds_ofDecimal (negative : Bool) (digits : ℕ) (exponent : ℤ) :
    (ofDecimal negative digits exponent).Rounds negative (digits * 10 ^ exponent) := by
  have ten : (0 : ℚ) < 10 := by norm_num
  unfold ofDecimal
  split_ifs with none_left great small
  · rw [none_left, Nat.cast_zero, zero_mul]
    exact rounds_zero negative le_rfl (zpow_pos two_pos _)
  · exact ⟨rfl, overflow_le_of_great none_left great⟩
  · exact rounds_zero negative (mul_nonneg digits.cast_nonneg (zpow_nonneg ten.le _))
      (lt_of_small small)
  · have quotient : ((digits * Nat.pow 10 exponent.toNat : ℕ) : ℚ) /
        (Nat.pow 10 (-exponent).toNat : ℕ) = digits * 10 ^ exponent := by
      simp only [Nat.pow_eq]
      push_cast
      rw [← zpow_mul_toNat ten exponent]
      field_simp
    rw [← quotient]
    exact rounds_ofRatio negative _ (Nat.pow_pos (by norm_num))

end Binary64

/-- A plain numeral is read as the number that its value is rounded to. -/
theorem Numeral.rounds_plain (whole fraction : List Char) :
    (plain whole fraction).Rounds false
      (digitsValue (whole ++ fraction) / 10 ^ fraction.length) := by
  have value : (digitsValue (whole ++ fraction) / 10 ^ fraction.length : ℚ) =
      digitsValue (whole ++ fraction) * 10 ^ (0 - (fraction.length : ℤ)) := by
    rw [zero_sub, zpow_neg, zpow_natCast, div_eq_mul_inv]
  rw [value]
  exact Binary64.rounds_ofDecimal false _ _

/-- The number that a scanned token carries is the one that its numeral is rounded to. -/
theorem rounds_of_mem_scan {source : String} {t : Token} (h : t ∈ (scan source).tokens)
    (number : t.kind = .number) :
    ∃ whole fraction x, t.lexeme.toList = Numeral.plainText whole fraction ∧
      t.literal = .number x ∧
      x.Rounds false (Numeral.digitsValue (whole ++ fraction) / 10 ^ fraction.length) := by
  rcases List.mem_append.1 h with body | last
  · obtain ⟨after, maximal⟩ := exists_maximal body
    obtain ⟨whole, fraction, numeral⟩ := maximal.number number
    obtain ⟨x, read, carried⟩ := numeral.value
    rw [numeral.text, Numeral.read?_plainText numeral.nonempty numeral.digits numeral.decimals]
      at read
    obtain rfl := Option.some.inj read
    exact ⟨whole, fraction, _, numeral.text, carried, Numeral.rounds_plain whole fraction⟩
  · obtain rfl := List.mem_singleton.1 last
    exact TokenKind.noConfusion number

end LoxCheck
