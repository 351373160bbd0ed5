import Mathlib.Data.Int.Basic
import Mathlib.Tactic.Linarith
import Mathlib.Tactic.Ring

/-!
# Bytes

Numbers in a memory of bytes, the least significant byte first, and what is left of them in the lower
bytes.
-/

namespace Libusbgx

/-- A memory. -/
abbrev Bytes : Type := ℕ → UInt8

namespace Bytes

variable {b b' : Bytes} {off off' m n v : ℕ}

/-- The number in `n` bytes. -/
def toNat (b : Bytes) : ℕ → ℕ → ℕ
  | _, 0 => 0
  | off, n + 1 => (b off).toNat + 256 * toNat b (off + 1) n

/-- The number in `n` bytes with a sign. -/
def toInt (b : Bytes) (off n : ℕ) : ℤ := Int.bmod (b.toNat off n) (256 ^ n)

/-- The memory with the lower `n` bytes of a number in it. -/
def store (b : Bytes) (off n v : ℕ) : Bytes := fun o =>
  if off ≤ o ∧ o < off + n then UInt8.ofNat (v / 256 ^ (o - off)) else b o

lemma store_at (b : Bytes) (off v : ℕ) (h : 0 < n) : b.store off n v off = UInt8.ofNat v := by
  rw [store, if_pos (by omega), Nat.sub_self, pow_zero, Nat.div_one]

lemma toNat_lt (b : Bytes) (off n : ℕ) : b.toNat off n < 256 ^ n := by
  induction n generalizing off with
  | zero => simp [toNat]
  | succ n ih =>
    have hbyte : (b off).toNat < 256 := (b off).toNat_lt
    have hrest := ih (off + 1)
    rw [toNat, pow_succ]
    omega

lemma toNat_congr (h : ∀ i < n, b (off + i) = b' (off + i)) : b.toNat off n = b'.toNat off n := by
  induction n generalizing off with
  | zero => rfl
  | succ n ih =>
    have hhead : b off = b' off := h 0 (by omega)
    have htail : b.toNat (off + 1) n = b'.toNat (off + 1) n := ih fun i hi => by
      have := h (i + 1) (by omega)
      rwa [show off + (i + 1) = off + 1 + i by omega] at this
    rw [toNat, toNat, hhead, htail]

lemma toInt_congr (h : ∀ i < n, b (off + i) = b' (off + i)) : b.toInt off n = b'.toInt off n := by
  rw [toInt, toInt, toNat_congr h]

/-- The upper bytes are a number of their own. -/
lemma toNat_add (b : Bytes) (off m n : ℕ) :
    b.toNat off (m + n) = b.toNat off m + 256 ^ m * b.toNat (off + m) n := by
  induction m generalizing off with
  | zero => simp [toNat]
  | succ m ih =>
    rw [show m + 1 + n = (m + n) + 1 by omega, toNat, toNat, ih (off + 1), show off + 1 + m = off + (m + 1) by omega]
    ring

/-- The bytes of a number, read back. -/
lemma toNat_of_digits (h : ∀ i < n, b (off + i) = UInt8.ofNat (v / 256 ^ i)) : b.toNat off n = v % 256 ^ n := by
  induction n generalizing off v with
  | zero => simp [toNat, Nat.mod_one]
  | succ n ih =>
    have hhead : b off = UInt8.ofNat v := by simpa using h 0 (by omega)
    have htail : b.toNat (off + 1) n = v / 256 % 256 ^ n := ih fun i hi => by
      have := h (i + 1) (by omega)
      rwa [show off + (i + 1) = off + 1 + i by omega, pow_succ', ← Nat.div_div_eq_div_mul] at this
    have hbyte : (UInt8.ofNat v).toNat = v % 256 := by simp
    rw [toNat, hhead, htail, hbyte, pow_succ', Nat.mod_mul]

/-- What has been stored is read back, as far as it is read. -/
lemma toNat_store (b : Bytes) (off v : ℕ) (h : m ≤ n) : (b.store off n v).toNat off m = v % 256 ^ m := by
  refine toNat_of_digits fun i hi => ?_
  rw [store, if_pos (by omega), Nat.add_sub_cancel_left]

lemma toInt_fits (b : Bytes) (off : ℕ) : -2 ^ 31 ≤ b.toInt off 4 ∧ b.toInt off 4 < 2 ^ 31 := by
  rw [toInt, Int.bmod_def]
  omega

/-- A number of four bytes that is stored again leaves the bytes it was read from. -/
lemma toNat_store_toInt (b b' : Bytes) (off off' : ℕ) (h : m ≤ 4) :
    (b.store off 4 (b'.toInt off' 4 % 2 ^ 32).toNat).toNat off m = b'.toNat off' m := by
  have hfour : (b'.toInt off' 4 % 2 ^ 32).toNat = b'.toNat off' 4 := by
    have := b'.toNat_lt off' 4
    rw [toInt, Int.bmod_def]
    omega
  have hsplit := b'.toNat_add off' m (4 - m)
  rw [show m + (4 - m) = 4 by omega] at hsplit
  rw [toNat_store b off _ h, hfour, hsplit, Nat.add_mul_mod_self_left, Nat.mod_eq_of_lt (b'.toNat_lt off' m)]

lemma toInt_store_toInt (b b' : Bytes) (off off' : ℕ) (h : m ≤ 4) :
    (b.store off 4 (b'.toInt off' 4 % 2 ^ 32).toNat).toInt off m = b'.toInt off' m :=
  congrArg (fun v : ℕ => Int.bmod v (256 ^ m)) (toNat_store_toInt b b' off off' h)

/-- The bytes above a number of two bytes are those of its sign. -/
def SignExtended (b : Bytes) (off : ℕ) : Prop :=
  let sign : UInt8 := if b.toInt off 2 < 0 then 255 else 0
  b (off + 2) = sign ∧ b (off + 3) = sign

instance (b : Bytes) (off : ℕ) : Decidable (b.SignExtended off) := inferInstanceAs (Decidable (_ ∧ _))

/-- Four bytes are the number in the lower two if and only if the upper two are those of its sign. -/
lemma toInt_four_eq_two : b.toInt off 4 = b.toInt off 2 ↔ b.SignExtended off := by
  have hsplit : b.toNat off 4 = b.toNat off 2 + 65536 * b.toNat (off + 2) 2 := b.toNat_add off 2 2
  have hlow := b.toNat_lt off 2
  have hhigh : b.toNat (off + 2) 2 = (b (off + 2)).toNat + 256 * (b (off + 3)).toNat := by simp [toNat]
  have hbyte₂ : (b (off + 2)).toNat < 256 := (b (off + 2)).toNat_lt
  have hbyte₃ : (b (off + 3)).toNat < 256 := (b (off + 3)).toNat_lt
  have hint : b.toInt off 4 = b.toInt off 2 ↔
      b.toNat (off + 2) 2 = if b.toInt off 2 < 0 then 65535 else 0 := by
    rcases lt_or_ge (b.toNat off 2) 32768 with hpos | hneg
    · have htwo : b.toInt off 2 = b.toNat off 2 := by
        rw [toInt, Int.bmod_def]
        omega
      rw [htwo, if_neg (by omega), toInt, Int.bmod_def]
      omega
    · have htwo : b.toInt off 2 = b.toNat off 2 - 65536 := by
        rw [toInt, Int.bmod_def]
        omega
      rw [htwo, if_pos (by omega), toInt, Int.bmod_def]
      omega
  rw [hint, hhigh, SignExtended, ← UInt8.toNat_inj, ← UInt8.toNat_inj]
  split
  · rw [show (255 : UInt8).toNat = 255 from rfl]
    omega
  · rw [show (0 : UInt8).toNat = 0 from rfl]
    omega

/-- Four bytes are a number without a sign if and only if it is small. -/
lemma toInt_eq_toNat : b.toInt off 4 = b.toNat off 4 ↔ b.toNat off 4 < 2 ^ 31 := by
  have := b.toNat_lt off 4
  rw [toInt, Int.bmod_def]
  omega

end Bytes

end Libusbgx
