/-!
# Positional numerals

A number is written with a fixed number of digits in some base, the most significant digit first.
Hexadecimal text and big-endian bytes are the two instances that identifiers use.
-/

namespace ContentAddress.Positional

/-- The `width` lowest digits of a number in base `base`, the most significant first. -/
def digits (base : Nat) : Nat → Nat → List Nat
  | 0, _ => []
  | width + 1, n => digits base width (n / base) ++ [n % base]

def value (base : Nat) (digits : List Nat) : Nat :=
  digits.foldl (fun n digit => n * base + digit) 0

@[simp] theorem length_digits (base width n : Nat) : (digits base width n).length = width := by
  induction width generalizing n with
  | zero => rfl
  | succ width ih => simp [digits, ih]

@[simp] theorem value_append_singleton (base : Nat) (ds : List Nat) (d : Nat) :
    value base (ds ++ [d]) = value base ds * base + d := by
  simp [value]

/-- Reading the digits back gives the number, as far as they reach. -/
theorem value_digits (base width n : Nat) :
    value base (digits base width n) = n % Nat.pow base width := by
  induction width generalizing n with
  | zero => simp [digits, value, Nat.mod_one]
  | succ width ih =>
      have hpow : Nat.pow base (width + 1) = base * Nat.pow base width := Nat.mul_comm _ _
      rw [digits, value_append_singleton, ih, hpow, Nat.mod_mul, Nat.add_comm, Nat.mul_comm base]

end ContentAddress.Positional
