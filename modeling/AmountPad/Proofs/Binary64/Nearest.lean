import AmountPad.Binary64.Exact
import AmountPad.Proofs.Binary64.Bits
import AmountPad.Proofs.Binary64.Grid

/-!
# The double nearest to a quotient

The distance of a double to a quotient is a number of units over the denominator.  So
the double with the nearest bits is the nearest one, and it is even if another is
equally near.  There is no other nearest double, because two neighbours are not both
even, and there is a finite one as long as the quotient is below the middle of the
largest double and the first that is not finite.
-/

namespace AmountPad.Binary64

/-! ## Exact values -/

section Exact

variable {x y : Float}

theorem unitsPerOne_pos_rat : (0 : Rat) < unitsPerOne :=
  Nat.cast_pos.mpr unitsPerOne_pos

theorem toRat_of_positive (positive : isNegative x = false) :
    toRat x = (magnitude x : Rat) / unitsPerOne := by
  rw [toRat, signedUnits, if_neg (by simp [positive]), Int.cast_natCast]

theorem toRat_of_negative (negative : isNegative x = true) :
    toRat x = -((magnitude x : Rat) / unitsPerOne) := by
  rw [toRat, signedUnits, if_pos negative, Int.cast_neg, Int.cast_natCast, neg_div]

theorem abs_toRat (x : Float) : |toRat x| = (magnitude x : Rat) / unitsPerOne := by
  rw [toRat, abs_div, ← natAbs_signedUnits, Nat.cast_natAbs, Int.cast_abs, Nat.abs_cast]

/-- Doubles with the same sign are as far apart as their magnitudes.  The sign of a
zero does not matter. -/
theorem abs_toRat_sub (sign : magnitude y ≠ 0 → isNegative y = isNegative x) :
    |toRat y - toRat x| = (Nat.dist (magnitude y) (magnitude x) : Rat) / unitsPerOne := by
  have apart : (signedUnits y - signedUnits x).natAbs =
      Nat.dist (magnitude y) (magnitude x) := by
    simp only [signedUnits, Nat.dist]
    by_cases zero : magnitude y = 0
    · rw [zero]
      split <;> split <;> omega
    · rw [sign zero]
      split <;> omega
  rw [toRat, toRat, ← sub_div, abs_div, ← apart, Nat.cast_natAbs, Int.cast_abs, Int.cast_sub,
    Nat.abs_cast]

/-- A double is told by its sign and the bits below it. -/
theorem eq_of_bits_eq (sign : isNegative x = isNegative y)
    (rest : x.toBits.toNat % signBit = y.toBits.toNat % signBit) : x = y := by
  have xSmall : x.toBits.toNat < 2 * signBit := x.toBits.toNat_lt
  have ySmall : y.toBits.toNat < 2 * signBit := y.toBits.toNat_lt
  have sameBits : x.toBits = y.toBits := by
    apply UInt64.toNat_inj.mp
    simp only [isNegative, decide_eq_decide] at sign
    simp only [signBit] at *
    omega
  rcases x with ⟨⟨bits, _⟩⟩
  rcases y with ⟨⟨others, _⟩⟩
  have same : bits = others := sameBits
  subst same
  rfl

/-- Among the doubles that are not negative, the larger one has the larger bits. -/
theorem toRat_lt_toRat_iff (xPositive : isNegative x = false) (yPositive : isNegative y = false) :
    toRat x < toRat y ↔ x.toBits.toNat % signBit < y.toBits.toNat % signBit := by
  rw [toRat_of_positive xPositive, toRat_of_positive yPositive,
    div_lt_div_iff_of_pos_right unitsPerOne_pos_rat, Nat.cast_lt]
  exact units_strictMono.lt_iff_lt

theorem significand_mod_two (x : Float) :
    significand x % 2 = x.toBits.toNat % signBit % 2 := by
  simp only [significand]
  split
  · rfl
  · simp only [perBinade]
    omega

/-- There is a double with given bits below the sign. -/
theorem exists_toBits_eq {bits : Nat} (finite : bits < infinityBits) :
    ∃ x : Float, x.isFinite = true ∧ isNegative x = false ∧ x.toBits.toNat % signBit = bits := by
  have below : bits < signBit := Nat.lt_trans finite (by decide)
  have bitsEq := toNat_toBits_ofBits finite
  refine ⟨Float.ofBits (UInt64.ofNat bits), ?_, ?_, ?_⟩
  · rw [isFinite_iff, bitsEq, Nat.mod_eq_of_lt below]
    exact finite
  · rw [isNegative, bitsEq]
    simpa using below
  · rw [bitsEq, Nat.mod_eq_of_lt below]

end Exact

/-! ## The distance to a quotient -/

section Distance

variable {numerator denominator : Nat} {x y : Float}

theorem abs_natCast_sub (first second : Nat) :
    |(first : Rat) - second| = Nat.dist first second := by
  rcases Nat.le_total first second with below | above
  · rw [abs_sub_comm, ← Nat.cast_sub below, Nat.abs_cast, Nat.dist_eq_sub_of_le below]
  · rw [← Nat.cast_sub above, Nat.abs_cast, Nat.dist_eq_sub_of_le_right above]

/-- How far a double that is not negative is from a quotient. -/
theorem abs_toRat_sub_div (positive : 0 < denominator) (sign : isNegative x = false) :
    |toRat x - numerator / denominator| =
      Nat.dist (denominator * magnitude x) (numerator * unitsPerOne) /
        (denominator * unitsPerOne) := by
  have denominatorPositive : (0 : Rat) < denominator := Nat.cast_pos.mpr positive
  have product : (0 : Rat) < unitsPerOne * denominator :=
    mul_pos unitsPerOne_pos_rat denominatorPositive
  rw [toRat_of_positive sign, div_sub_div _ _ unitsPerOne_pos_rat.ne' denominatorPositive.ne',
    abs_div, abs_of_pos product, ← abs_natCast_sub, mul_comm (unitsPerOne : Rat) denominator]
  push_cast
  rw [mul_comm (magnitude x : Rat), mul_comm (unitsPerOne : Rat) numerator]

/-- No double is nearer to a quotient than its magnitude is. -/
theorem le_abs_toRat_sub_div (positive : 0 < denominator) (numerator : Nat) (x : Float) :
    (Nat.dist (denominator * magnitude x) (numerator * unitsPerOne) : Rat) /
        (denominator * unitsPerOne) ≤
      |toRat x - numerator / denominator| := by
  cases sign : isNegative x with
  | false => rw [abs_toRat_sub_div positive sign]
  | true =>
      have denominatorPositive : (0 : Rat) < denominator := Nat.cast_pos.mpr positive
      have product : (0 : Rat) < denominator * unitsPerOne :=
        mul_pos denominatorPositive unitsPerOne_pos_rat
      have triangle : Nat.dist (denominator * magnitude x) (numerator * unitsPerOne) ≤
          denominator * magnitude x + numerator * unitsPerOne := by
        simp only [Nat.dist]
        omega
      have sum : |toRat x - numerator / denominator| =
          ((denominator * magnitude x + numerator * unitsPerOne : Nat) : Rat) /
            (denominator * unitsPerOne) := by
        have nonneg : (0 : Rat) ≤ magnitude x / unitsPerOne + numerator / denominator :=
          add_nonneg (div_nonneg (Nat.cast_nonneg _) (Nat.cast_nonneg _))
            (div_nonneg (Nat.cast_nonneg _) (Nat.cast_nonneg _))
        rw [toRat_of_negative sign, ← neg_add', abs_neg, abs_of_nonneg nonneg,
          div_add_div _ _ unitsPerOne_pos_rat.ne' denominatorPositive.ne',
          mul_comm (unitsPerOne : Rat) denominator]
        push_cast
        rw [mul_comm (magnitude x : Rat), mul_comm (unitsPerOne : Rat) numerator]
      rw [sum, div_le_div_iff_of_pos_right product]
      exact_mod_cast triangle

/-- Different doubles that are equally far from a positive number have different
magnitudes. -/
theorem magnitude_ne_of_equidistant {q : Rat} (positive : 0 < q) (different : toRat y ≠ toRat x)
    (equidistant : |toRat y - q| = |toRat x - q|) : magnitude y ≠ magnitude x := by
  intro same
  have opposite : toRat y = -toRat x := by
    have absEq : |toRat y| = |toRat x| := by
      rw [abs_toRat, abs_toRat, same]
    exact (abs_eq_abs.mp absEq).resolve_left different
  rw [opposite] at different equidistant
  rcases abs_eq_abs.mp equidistant with sameSide | otherSide
  · exact different (by linarith)
  · linarith

/-- A number between two that are equally far is nearer than they are. -/
theorem abs_sub_lt_of_between {q first second between : Rat} (above : first < between)
    (below : between < second) (equidistant : |first - q| = |second - q|) :
    |between - q| < |first - q| := by
  have opposite : first - q = -(second - q) := by
    apply (abs_eq_abs.mp equidistant).resolve_left
    intro same
    linarith
  have firstBelow : first - q < 0 := by linarith
  rw [abs_of_neg firstBelow, abs_lt]
  constructor <;> linarith

/-- Between two doubles with even significands there is another. -/
theorem exists_between_of_even (xPositive : isNegative x = false)
    (yPositive : isNegative y = false) (yFinite : y.isFinite = true)
    (smaller : toRat x < toRat y) (xEven : significand x % 2 = 0)
    (yEven : significand y % 2 = 0) :
    ∃ z : Float, z.isFinite = true ∧ toRat x < toRat z ∧ toRat z < toRat y := by
  rw [significand_mod_two] at xEven yEven
  rw [toRat_lt_toRat_iff xPositive yPositive] at smaller
  rw [isFinite_iff] at yFinite
  have finite : x.toBits.toNat % signBit + 1 < infinityBits := by omega
  obtain ⟨z, zFinite, zPositive, zBits⟩ := exists_toBits_eq finite
  refine ⟨z, zFinite, ?_, ?_⟩
  · rw [toRat_lt_toRat_iff xPositive zPositive]
    omega
  · rw [toRat_lt_toRat_iff zPositive yPositive]
    omega

end Distance

/-! ## The nearest double -/

section Nearest

variable {numerator denominator : Nat} {q : Rat} {x y : Float}

/-- The double with the nearest bits is nearest. -/
theorem isNearest_of_nearest? (positive : 0 < denominator)
    (nearest : nearest? numerator denominator = some x) :
    IsNearest (numerator / denominator) x := by
  obtain ⟨finite, sign, magnitudeEq⟩ := nearest?_spec nearest
  have nonneg : (0 : Rat) ≤ numerator / denominator :=
    div_nonneg (Nat.cast_nonneg _) (Nat.cast_nonneg _)
  have product : (0 : Rat) < denominator * unitsPerOne :=
    mul_pos (Nat.cast_pos.mpr positive) unitsPerOne_pos_rat
  have nearBits (y : Float) :
      Nat.dist (denominator * magnitude x) (numerator * unitsPerOne) ≤
        Nat.dist (denominator * magnitude y) (numerator * unitsPerOne) := by
    rw [magnitudeEq]
    exact dist_nearestBits_le positive numerator _
  refine ⟨finite, ?_, ?_, ?_⟩
  · rw [sign]
    exact iff_of_false Bool.false_ne_true (not_lt_of_ge nonneg)
  · intro y _
    refine le_trans ?_ (le_abs_toRat_sub_div positive numerator y)
    rw [abs_toRat_sub_div positive sign, div_le_div_iff_of_pos_right product]
    exact_mod_cast nearBits y
  · intro y _ different equidistant
    have bitsEq : x.toBits.toNat % signBit = nearestBits numerator denominator :=
      units_strictMono.injective magnitudeEq
    rw [significand_mod_two, bitsEq]
    by_cases zero : numerator = 0
    · rw [zero, nearestBits_zero]
    · have quotientPositive : (0 : Rat) < numerator / denominator :=
        div_pos (Nat.cast_pos.mpr (Nat.pos_of_ne_zero zero)) (Nat.cast_pos.mpr positive)
      have otherMagnitude := magnitude_ne_of_equidistant quotientPositive different equidistant
      have distances := le_abs_toRat_sub_div positive numerator y
      rw [equidistant, abs_toRat_sub_div positive sign, div_le_div_iff_of_pos_right product,
        Nat.cast_le] at distances
      have sameDistance := Nat.le_antisymm distances (nearBits y)
      rw [magnitudeEq] at otherMagnitude sameDistance
      apply nearestBits_even_of_equidistant positive _ sameDistance
      intro sameBits
      exact otherMagnitude (congrArg units sameBits)

/-- A smaller double is not nearest if a larger one is. -/
theorem IsNearest.not_toRat_lt (nonneg : 0 ≤ q) (first : IsNearest q x) (second : IsNearest q y) :
    ¬ toRat x < toRat y := by
  intro smaller
  have notNegative {z : Float} (nearest : IsNearest q z) : isNegative z = false := by
    rw [← Bool.not_eq_true, nearest.sign]
    exact not_lt_of_ge nonneg
  have xPositive := notNegative first
  have yPositive := notNegative second
  have equidistant : |toRat x - q| = |toRat y - q| :=
    le_antisymm (first.near y second.isFinite) (second.near x first.isFinite)
  have xEven := first.even y second.isFinite smaller.ne' equidistant.symm
  have yEven := second.even x first.isFinite smaller.ne equidistant
  obtain ⟨z, zFinite, above, below⟩ :=
    exists_between_of_even xPositive yPositive second.isFinite smaller xEven yEven
  have nearer := abs_sub_lt_of_between above below equidistant
  exact absurd (first.near z zFinite) (not_le_of_gt nearer)

/-- There is only one nearest double. -/
theorem IsNearest.unique (nonneg : 0 ≤ q) (first : IsNearest q x) (second : IsNearest q y) :
    x = y := by
  have sameValue : toRat x = toRat y :=
    le_antisymm (not_lt.mp (second.not_toRat_lt nonneg first))
      (not_lt.mp (first.not_toRat_lt nonneg second))
  have sameSign : isNegative x = isNegative y := by
    rw [Bool.eq_iff_iff, first.sign, second.sign]
  have sameMagnitude : magnitude x = magnitude y := by
    have absEq := congrArg abs sameValue
    rw [abs_toRat, abs_toRat, div_left_inj' unitsPerOne_pos_rat.ne', Nat.cast_inj] at absEq
    exact absEq
  exact eq_of_bits_eq sameSign (units_strictMono.injective sameMagnitude)

end Nearest

/-! ## The largest quotient -/

section Range

variable {numerator denominator : Nat}

/-- The first double that is not finite, and the one before it. -/
theorem units_infinityBits :
    units infinityBits = 2 ^ 54 * (2 ^ 970 * unitsPerOne) ∧
      units (infinityBits - 1) = (2 ^ 54 - 2) * (2 ^ 970 * unitsPerOne) := by
  decide +kernel

/-- A quotient has a finite nearest double if it is below the middle of these two. -/
theorem nearestBits_lt_infinityBits_iff_mul (positive : 0 < denominator) :
    nearestBits numerator denominator < infinityBits ↔
      numerator * unitsPerOne < (2 ^ 54 - 1) * (denominator * (2 ^ 970 * unitsPerOne)) := by
  obtain ⟨firstEq, lastEq⟩ := units_infinityBits
  have gapPositive : 0 < denominator * (2 ^ 970 * unitsPerOne) :=
    Nat.mul_pos positive (Nat.mul_pos (pow_pos Nat.two_pos 970) unitsPerOne_pos)
  have first : denominator * units infinityBits =
      2 ^ 54 * (denominator * (2 ^ 970 * unitsPerOne)) := by
    rw [firstEq, Nat.mul_left_comm]
  have last : denominator * units (infinityBits - 1) =
      (2 ^ 54 - 2) * (denominator * (2 ^ 970 * unitsPerOne)) := by
    rw [lastEq, Nat.mul_left_comm]
  have nearFirst := dist_nearestBits_le positive numerator infinityBits
  have nearLast := dist_nearestBits_le positive numerator (infinityBits - 1)
  generalize denominator * (2 ^ 970 * unitsPerOne) = gap at gapPositive first last ⊢
  constructor
  · intro finite
    by_contra tooLarge
    have below := Nat.mul_le_mul_left denominator
      (units_strictMono.monotone (Nat.le_sub_one_of_lt finite))
    -- both are equally near, and the last finite one is odd
    have isLast : denominator * units (nearestBits numerator denominator) =
        denominator * units (infinityBits - 1) := by
      rw [first] at nearFirst
      rw [last] at below ⊢
      simp only [Nat.dist] at nearFirst
      omega
    have equidistant : Nat.dist (denominator * units infinityBits) (numerator * unitsPerOne) =
        Nat.dist (denominator * units (nearestBits numerator denominator))
          (numerator * unitsPerOne) := by
      rw [first] at nearFirst ⊢
      rw [isLast, last] at nearFirst ⊢
      simp only [Nat.dist] at nearFirst ⊢
      omega
    have isEven := nearestBits_even_of_equidistant positive (Nat.ne_of_gt finite) equidistant
    have bitsEq := units_strictMono.injective (Nat.eq_of_mul_eq_mul_left positive isLast)
    rw [bitsEq] at isEven
    exact absurd isEven (by decide)
  · intro small
    by_contra tooLarge
    have above := Nat.mul_le_mul_left denominator
      (units_strictMono.monotone (Nat.le_of_not_lt tooLarge))
    rw [first] at above
    rw [last] at nearLast
    simp only [Nat.dist] at nearLast
    omega

/-- A quotient has a finite nearest double if and only if it is below
`2 ^ 1024 - 2 ^ 970`. -/
theorem nearestBits_lt_infinityBits_iff (positive : 0 < denominator) :
    nearestBits numerator denominator < infinityBits ↔
      (numerator : Rat) / denominator < 2 ^ 1024 - 2 ^ 970 := by
  have denominatorPositive : (0 : Rat) < denominator := Nat.cast_pos.mpr positive
  have power : (2 : Rat) ^ 1024 = 2 ^ 54 * 2 ^ 970 := by
    rw [← pow_add]
  have castGap : (2 : Rat) ^ 970 = ((2 ^ 970 : Nat) : Rat) := by
    rw [Nat.cast_pow, Nat.cast_ofNat]
  rw [nearestBits_lt_infinityBits_iff_mul positive, power, castGap,
    div_lt_iff₀ denominatorPositive]
  generalize 2 ^ 970 = gap
  have scaled : (2 ^ 54 - 1) * (denominator * (gap * unitsPerOne)) =
      (2 ^ 54 - 1) * (gap * denominator) * unitsPerOne := by
    ring
  have product : (2 ^ 54 * (gap : Rat) - gap) * denominator =
      (((2 ^ 54 - 1) * (gap * denominator) : Nat) : Rat) := by
    push_cast
    ring
  rw [scaled, Nat.mul_lt_mul_right unitsPerOne_pos, product, Nat.cast_lt]

theorem isSome_nearest?_iff (positive : 0 < denominator) :
    (nearest? numerator denominator).isSome ↔
      (numerator : Rat) / denominator < 2 ^ 1024 - 2 ^ 970 := by
  rw [← nearestBits_lt_infinityBits_iff positive, Option.isSome_iff_exists]
  constructor
  · rintro ⟨x, nearest⟩
    exact (nearest?_eq_some_iff.mp nearest).1
  · intro finite
    exact ⟨_, nearest?_eq_some_iff.mpr ⟨finite, rfl⟩⟩

end Range

end AmountPad.Binary64
