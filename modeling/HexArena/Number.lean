/-!
# Bounded numbers

The arena keeps three kinds of number: components of a coordinate, which are
signed and 32 bits wide; values of a script, which are signed and 64 bits wide;
and counters of a piece, which stop growing at the largest 32-bit number.  All
of them are plain integers here, and the bounds are predicates and checks.

Main results:

- Definitions {lit}`Fits32` and {lit}`Fits64`: the two signed ranges.
- Definitions {lit}`toCount?`, {lit}`toComponent?` and {lit}`wrap32`: conversions between
  the kinds of number.
- Definition {lit}`sum64?`: the sum of two values, if it is a value.
- Definition {lit}`Checked`: a result, or the report of a number that left its
  range.
- Definition {lit}`addCount`: addition of counters that stops at
  {lit}`maxCount`.
-/

namespace HexArena

/-! ## Signed ranges -/

/-- The integer is a signed 32-bit number. -/
def Fits32 (n : Int) : Prop :=
  -2147483648 ≤ n ∧ n ≤ 2147483647

instance (n : Int) : Decidable (Fits32 n) :=
  inferInstanceAs (Decidable (_ ∧ _))

/-- The integer is a signed 64-bit number. -/
def Fits64 (n : Int) : Prop :=
  -9223372036854775808 ≤ n ∧ n ≤ 9223372036854775807

instance (n : Int) : Decidable (Fits64 n) :=
  inferInstanceAs (Decidable (_ ∧ _))

/-! ## Checked results -/

/-- Why a computation is given up. -/
inductive Overflow where
  /-- A component of a coordinate left the signed 32-bit range. -/
  | component
  /-- A mailbox is to hold more messages than memory can be addressed for. -/
  | capacity
deriving DecidableEq, Repr, Inhabited

/-- The result of a computation, unless a number left its range. -/
abbrev Checked (α : Type) := Except Overflow α

/-! ## Counters -/

/-- The largest value of a counter. -/
def maxCount : Nat := 4294967295

/-- The sum of two counters, which never exceeds {lit}`maxCount`. -/
def addCount (a b : Nat) : Nat :=
  min (a + b) maxCount

/-! ## Conversions -/

/-- The largest component of a coordinate. -/
def maxComponent : Nat := 2147483647

/-- The integer as a counter, if it is one. -/
def toCount? (n : Int) : Option Nat :=
  if 0 ≤ n ∧ n ≤ maxCount then some n.toNat else none

/-- The integer as a component, if it is one. -/
def toComponent? (n : Int) : Option Int :=
  if Fits32 n then some n else none

/-- The component with the last 32 bits of an integer. -/
def wrap32 (n : Int) : Int :=
  Int.bmod n 4294967296

/-- The sum of two values, if it is a value. -/
def sum64? (a b : Int) : Option Int :=
  if Fits64 (a + b) then some (a + b) else none

/-- A component is its own conversion. -/
theorem toComponent?_of_fits {n : Int} (h : Fits32 n) : toComponent? n = some n :=
  if_pos h

/-- A component stays as it is when it is cut to 32 bits. -/
theorem wrap32_of_fits {n : Int} (h : Fits32 n) : wrap32 n = n := by
  unfold Fits32 at h
  unfold wrap32
  exact Int.bmod_eq_of_le (by omega) (by omega)

/-- A number of steps is a component. -/
theorem fits32_of_le {n : Nat} (h : n ≤ maxComponent) : Fits32 n := by
  unfold maxComponent at h
  unfold Fits32
  omega

/-- The conversion of an integer to a counter is exact up to every bound that is one: where
it is cut off, the integer is beyond the bound. -/
theorem min_toCount? (n : Int) {bound : Nat} (h : bound ≤ maxCount) :
    min ((toCount? (max n 0)).getD maxCount) bound = min n.toNat bound := by
  unfold toCount?
  unfold maxCount at h ⊢
  split
  · simp only [Option.getD_some]
    omega
  · simp only [Option.getD_none]
    omega

end HexArena
