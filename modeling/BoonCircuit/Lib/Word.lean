import Mathlib.Tactic.Linarith

/-!
# Counters of a machine word

Increments that report or stop at the largest number, and differences that stop at
zero.
-/

namespace BoonCircuit.Lib

/-- The next number, if there is one. -/
def checkedIncrement (number : UInt64) : Option UInt64 :=
  if number = 0xFFFFFFFFFFFFFFFF then none else some (number + 1)

/-- The next number, or the largest one. -/
def saturatingIncrement (number : UInt64) : UInt64 :=
  if number = 0xFFFFFFFFFFFFFFFF then number else number + 1

/-- The difference, or zero. -/
def saturatingSub (left right : UInt64) : UInt64 :=
  if left < right then 0 else left - right

variable {number : UInt64}

theorem toNat_lt_last (room : number ≠ 0xFFFFFFFFFFFFFFFF) : number.toNat < 2 ^ 64 - 1 := by
  have bound := number.toNat_lt
  have apart : number.toNat ≠ 2 ^ 64 - 1 := fun same => room (UInt64.toNat_inj.mp same)
  omega

theorem toNat_increment (room : number ≠ 0xFFFFFFFFFFFFFFFF) :
    (number + 1).toNat = number.toNat + 1 := by
  have bound := toNat_lt_last room
  rw [UInt64.toNat_add, UInt64.toNat_one]
  omega

theorem toNat_of_checkedIncrement {next : UInt64}
    (counted : checkedIncrement number = some next) : next.toNat = number.toNat + 1 := by
  unfold checkedIncrement at counted
  split at counted
  · cases counted
  · next room =>
      cases counted
      exact toNat_increment room

theorem toNat_saturatingIncrement :
    (saturatingIncrement number).toNat = min (number.toNat + 1) (2 ^ 64 - 1) := by
  unfold saturatingIncrement
  split
  · next last =>
      subst last
      rfl
  · next room =>
      have bound := toNat_lt_last room
      rw [toNat_increment room]
      omega

theorem le_saturatingIncrement : number ≤ saturatingIncrement number := by
  have bound := number.toNat_lt
  rw [UInt64.le_iff_toNat_le, toNat_saturatingIncrement]
  omega

theorem toNat_saturatingSub {left right : UInt64} :
    (saturatingSub left right).toNat = left.toNat - right.toNat := by
  unfold saturatingSub
  split
  · next less =>
      have below := UInt64.lt_iff_toNat_lt.mp less
      change 0 = _
      omega
  · next enough => exact UInt64.toNat_sub_of_le _ _ (UInt64.not_lt.mp enough)

end BoonCircuit.Lib
