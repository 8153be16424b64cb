import Mathlib

/-! The range of a 32-bit C `int` and the conversions into it. -/
namespace Ramryder.CInt

def intMin : ℤ := -2147483648
def intMax : ℤ := 2147483647

def InInt (n : ℤ) : Prop := intMin ≤ n ∧ n ≤ intMax

instance (n : ℤ) : Decidable (InInt n) := inferInstanceAs (Decidable (_ ∧ _))

/-- Conversion to `int`, keeping the low 32 bits. -/
def toInt32 (n : ℤ) : ℤ := (n + 2147483648) % 4294967296 - 2147483648

/-- Where `strtol` saturates. -/
def clampLong (n : ℤ) : ℤ := max (-9223372036854775808) (min n 9223372036854775807)

/-- Neither conversion changes a number that already fits. -/
theorem toInt32_of_inInt {n : ℤ} (h : InInt n) : toInt32 n = n := by
  simp only [InInt, intMin, intMax] at h
  unfold toInt32
  omega

theorem toInt32_inInt (n : ℤ) : InInt (toInt32 n) := by
  simp only [InInt, intMin, intMax, toInt32]
  omega

theorem clampLong_of_inInt {n : ℤ} (h : InInt n) : clampLong n = n := by
  simp only [InInt, intMin, intMax] at h
  unfold clampLong
  omega

end Ramryder.CInt
