import Mathlib.Algebra.Order.Floor.Ring
import Mathlib.Algebra.Order.Field.Basic
import Mathlib.Tactic.Linarith

/-!
# Rounding to the nearest integer

Of two integers that are equally near, the even one is taken. Rounding keeps the order and
leaves integers as they are, so it keeps every bound that is an integer.
-/

namespace NhiSentinel.Base

variable {α : Type} [Field α] [LinearOrder α] [FloorRing α]

/-- The nearest integer, the even one of two. -/
def roundEven (x : α) : ℤ :=
  if x - ⌊x⌋ < 1 / 2 ∨ x - ⌊x⌋ = 1 / 2 ∧ ⌊x⌋ % 2 = 0 then ⌊x⌋ else ⌊x⌋ + 1

private theorem floor_le_roundEven (x : α) : ⌊x⌋ ≤ roundEven x := by
  rw [roundEven]
  split <;> omega

private theorem roundEven_le_floor_add_one (x : α) : roundEven x ≤ ⌊x⌋ + 1 := by
  rw [roundEven]
  split <;> omega

variable [IsStrictOrderedRing α]

/-- Rounding keeps the order. -/
theorem roundEven_mono {x y : α} (h : x ≤ y) : roundEven x ≤ roundEven y := by
  rcases (Int.floor_mono h).lt_or_eq with hlt | he
  · exact ((roundEven_le_floor_add_one x).trans (Int.add_one_le_of_lt hlt)).trans
      (floor_le_roundEven y)
  · rw [roundEven, roundEven, he]
    have hs : x - (⌊y⌋ : α) ≤ y - ⌊y⌋ := sub_le_sub_right h _
    split
    · split <;> omega
    · next hx =>
      rw [if_neg]
      rintro (hy | ⟨hy, heven⟩)
      · exact hx (.inl (hs.trans_lt hy))
      · -- halfway for the greater one, and for the smaller one if it is not below
        rcases (hs.trans_eq hy).lt_or_eq with hlt | heq
        · exact hx (.inl hlt)
        · exact hx (.inr ⟨heq, heven⟩)

/-- A whole number is rounded to itself. -/
@[simp] theorem roundEven_intCast (n : ℤ) : roundEven (n : α) = n := by
  rw [roundEven, Int.floor_intCast, sub_self]
  exact if_pos (.inl one_half_pos)

/-- An even number can be added before or after. -/
theorem roundEven_add_two_mul (x : α) (n : ℤ) :
    roundEven (x + (2 * n : ℤ)) = roundEven x + 2 * n := by
  have hp : (⌊x⌋ + 2 * n) % 2 = ⌊x⌋ % 2 := by omega
  rw [roundEven, roundEven, Int.floor_add_intCast, hp, Int.cast_add, add_sub_add_right_eq_sub]
  split
  · rfl
  · omega

/-- An integer bound from below is kept. -/
theorem le_roundEven {n : ℤ} {x : α} (h : (n : α) ≤ x) : n ≤ roundEven x := by
  have hm := roundEven_mono h
  rwa [roundEven_intCast] at hm

/-- An integer bound from above is kept. -/
theorem roundEven_le {n : ℤ} {x : α} (h : x ≤ (n : α)) : roundEven x ≤ n := by
  have hm := roundEven_mono h
  rwa [roundEven_intCast] at hm

end NhiSentinel.Base
