/-!
# The shortest decimal that reads back

A binary fraction stands for every real number that rounds to it: those up to
half way to its neighbours, the half-way points themselves included exactly
when its significand is even.  Among the decimals in that interval this file
finds the one on the coarsest decimal grid, hence with the fewest digits, and
among those the one nearest to the fraction.  All arithmetic is exact, on
natural numbers.
-/

namespace Lox

/-- The positive number `significand * 2 ^ exponent`.  Its neighbour above is
one unit `2 ^ exponent` away; its neighbour below is as far, or half as far
when `narrowBelow` holds. -/
structure BinaryFraction where
  significand : Nat
  exponent : Int
  narrowBelow : Bool
  deriving DecidableEq

/-- The number `coefficient * 10 ^ exponent`. -/
structure Decimal where
  coefficient : Nat
  exponent : Int
  deriving DecidableEq

namespace BinaryFraction

/-- Quarter units at the lower end of the interval that rounds to a fraction. -/
def lowerQuarters (fraction : BinaryFraction) : Nat :=
  4 * fraction.significand - if fraction.narrowBelow then 1 else 2

/-- Quarter units at the upper end of the interval that rounds to a fraction. -/
def upperQuarters (fraction : BinaryFraction) : Nat :=
  4 * fraction.significand + 2

/-- A quarter unit of a fraction, in the measure that makes both it and the
step of a decimal grid whole: `quarterUnit / gridStep` is the quotient of
`2 ^ (exponent - 2)` by `10 ^ grid`. -/
def quarterUnit (fraction : BinaryFraction) (grid : Int) : Nat :=
  Nat.pow 2 (fraction.exponent - 2).toNat * Nat.pow 10 (-grid).toNat

/-- The step `10 ^ grid` of a decimal grid, in the same measure. -/
def gridStep (fraction : BinaryFraction) (grid : Int) : Nat :=
  Nat.pow 2 (2 - fraction.exponent).toNat * Nat.pow 10 grid.toNat

/-- Whether a decimal rounds to a fraction.  A half-way point goes to the
neighbour with the even significand. -/
def readsBack (fraction : BinaryFraction) (decimal : Decimal) : Bool :=
  let point := decimal.coefficient * fraction.gridStep decimal.exponent
  let lower := fraction.lowerQuarters * fraction.quarterUnit decimal.exponent
  let upper := fraction.upperQuarters * fraction.quarterUnit decimal.exponent
  if fraction.significand % 2 = 0 then
    lower ≤ point && point ≤ upper
  else
    lower < point && point < upper

/-- The decimal on a grid that rounds to a fraction and is nearest to it.  Of
two equally near ones it is the greater.  Only the two grid points around the
fraction can qualify. -/
def nearestOnGrid? (fraction : BinaryFraction) (grid : Int) : Option Decimal :=
  let value := 4 * fraction.significand * fraction.quarterUnit grid
  let step := fraction.gridStep grid
  let below : Decimal := ⟨value / step, grid⟩
  let above : Decimal := ⟨value / step + 1, grid⟩
  match fraction.readsBack below, fraction.readsBack above with
  | true, true => some (if 2 * (value % step) < step then below else above)
  | true, false => some below
  | false, true => some above
  | false, false => none

/-- The exponent of a grid whose first positive point exceeds a fraction, or
zero when that is more.  Three binary digits make less than one decimal digit. -/
def coarsestGrid (fraction : BinaryFraction) : Nat :=
  (fraction.significand.log2 + fraction.exponent).toNat / 3 + 1

/-- The decimal grids on which a shortest decimal is looked for, the coarsest
first.  The last one holds the fraction itself. -/
def grids (fraction : BinaryFraction) : List Int :=
  (List.range (fraction.coarsestGrid + (-fraction.exponent).toNat + 1)).map
    fun (finer : Nat) => (fraction.coarsestGrid : Int) - finer

/-- The decimal with the fewest digits that rounds to a fraction, and of those
the nearest. -/
def shortestDecimal (fraction : BinaryFraction) : Decimal :=
  (fraction.grids.findSome? fraction.nearestOnGrid?).getD ⟨0, 0⟩

theorem quarterUnit_pos (fraction : BinaryFraction) (grid : Int) :
    0 < fraction.quarterUnit grid := by
  unfold quarterUnit
  exact Nat.mul_pos (Nat.pow_pos (by decide)) (Nat.pow_pos (by decide))

/-- What is found on a grid lies on it and rounds to the fraction. -/
theorem readsBack_of_nearestOnGrid? {fraction : BinaryFraction} {grid : Int}
    {decimal : Decimal} (found : fraction.nearestOnGrid? grid = some decimal) :
    decimal.exponent = grid ∧ fraction.readsBack decimal = true := by
  unfold nearestOnGrid? at found
  dsimp only at found
  split at found
  next belowReads aboveReads =>
    split at found
    · cases found
      exact ⟨rfl, belowReads⟩
    · cases found
      exact ⟨rfl, aboveReads⟩
  next belowReads _ =>
    cases found
    exact ⟨rfl, belowReads⟩
  next _ aboveReads =>
    cases found
    exact ⟨rfl, aboveReads⟩
  next => simp at found

/-- A grid point that equals a positive fraction rounds to it. -/
theorem readsBack_of_exact {fraction : BinaryFraction} {decimal : Decimal}
    (positive : 0 < fraction.significand)
    (exact : decimal.coefficient * fraction.gridStep decimal.exponent =
      4 * fraction.significand * fraction.quarterUnit decimal.exponent) :
    fraction.readsBack decimal = true := by
  have unitPositive := fraction.quarterUnit_pos decimal.exponent
  have lower : fraction.lowerQuarters < 4 * fraction.significand := by
    unfold lowerQuarters
    split <;> omega
  have upper : 4 * fraction.significand < fraction.upperQuarters := by
    unfold upperQuarters
    omega
  have lowerPoint := Nat.mul_lt_mul_of_pos_right lower unitPositive
  have upperPoint := Nat.mul_lt_mul_of_pos_right upper unitPositive
  unfold readsBack
  dsimp only
  rw [exact]
  split <;> simp only [Bool.and_eq_true, decide_eq_true_eq] <;> omega

/-- The last grid that is searched holds the fraction itself. -/
theorem gridStep_dvd_value (fraction : BinaryFraction) :
    fraction.gridStep (-((-fraction.exponent).toNat : Int)) ∣
      4 * fraction.significand *
        fraction.quarterUnit (-((-fraction.exponent).toNat : Int)) := by
  rcases fraction with ⟨significand, exponent, narrowBelow⟩
  simp only [gridStep, quarterUnit, Nat.pow_eq, Int.neg_neg,
    Int.toNat_natCast]
  rw [show (-((-exponent).toNat : Int)).toNat = 0 by omega, Nat.pow_zero,
    Nat.mul_one]
  by_cases whole : 0 ≤ exponent
  · have small : (2 - exponent).toNat ≤ 2 := by omega
    have divides : 2 ^ (2 - exponent).toNat ∣ 2 ^ 2 :=
      Nat.pow_dvd_pow 2 small
    exact Nat.dvd_mul_right_of_dvd (Nat.dvd_mul_right_of_dvd divides _) _
  · obtain ⟨places, rfl⟩ : ∃ places : Nat, exponent = -(places : Int) :=
      ⟨(-exponent).toNat, by omega⟩
    rw [show (2 - -(places : Int)).toNat = 2 + places by omega,
      show (- -(places : Int)).toNat = places by omega,
      show (-(places : Int) - 2).toNat = 0 by omega, Nat.pow_add,
      show (10 : Nat) = 2 * 5 by decide, Nat.mul_pow]
    exact Nat.mul_dvd_mul ⟨significand, rfl⟩
      (Nat.dvd_mul_left_of_dvd (Nat.dvd_mul_right _ _) _)

/-- The shortest decimal of a positive fraction rounds to it. -/
theorem readsBack_shortestDecimal {fraction : BinaryFraction}
    (positive : 0 < fraction.significand) :
    fraction.readsBack fraction.shortestDecimal = true := by
  have last : (-((-fraction.exponent).toNat : Int)) ∈ fraction.grids := by
    refine List.mem_map.mpr
      ⟨fraction.coarsestGrid + (-fraction.exponent).toNat, ?_, by omega⟩
    simp
  have foundLast :
      (fraction.nearestOnGrid?
        (-((-fraction.exponent).toNat : Int))).isSome := by
    have below := readsBack_of_exact positive
      (show (Decimal.mk _ (-((-fraction.exponent).toNat : Int))).coefficient *
          fraction.gridStep _ = _ from
        Nat.div_mul_cancel fraction.gridStep_dvd_value)
    unfold nearestOnGrid?
    dsimp only
    rw [below]
    split <;> simp_all
  have found :
      (fraction.grids.findSome? fraction.nearestOnGrid?).isSome :=
    List.findSome?_isSome_iff.mpr ⟨_, last, foundLast⟩
  obtain ⟨decimal, decimalEq⟩ := Option.isSome_iff_exists.mp found
  obtain ⟨grid, _, onGrid⟩ := List.exists_of_findSome?_eq_some decimalEq
  rw [shortestDecimal, decimalEq]
  exact (readsBack_of_nearestOnGrid? onGrid).2

end BinaryFraction
end Lox
