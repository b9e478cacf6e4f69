import Mathlib.Data.Nat.Basic
import Mathlib.Tactic.Ring

/-!
# Big-endian numbers

`digits k n` are the `k` bytes of `n` in network byte order, the most significant first,
and `value bs` is the number the bytes `bs` stand for.  The two are inverse to each other on
`k` bytes and on the numbers below `256 ^ k`.
-/

/-- A sequence of bytes. -/
abbrev Bytes : Type := List UInt8

namespace BigEndian

/-- The `k` lowest bytes of `n`, the most significant first. -/
def digits : Nat → Nat → Bytes
  | 0, _ => []
  | k + 1, n => UInt8.ofNat (n / 256 ^ k) :: digits k n

/-- The number whose bytes are `bs`, the most significant first. -/
def value : Bytes → Nat
  | [] => 0
  | b :: bs => b.toNat * 256 ^ bs.length + value bs

@[simp]
theorem length_digits (k n : Nat) :
  (digits k n).length = k
  := by
  induction k with
  | zero => rfl
  | succ k ih => rw [digits, List.length_cons, ih]

theorem value_lt (bs : Bytes) :
  value bs < 256 ^ bs.length
  := by
  induction bs with
  | nil => apply Nat.one_pos
  | cons b bs ih =>
    have hb : b.toNat + 1 ≤ 256 := b.toNat_lt
    calc b.toNat * 256 ^ bs.length + value bs
        < b.toNat * 256 ^ bs.length + 256 ^ bs.length := Nat.add_lt_add_left ih _
      _ = (b.toNat + 1) * 256 ^ bs.length := by ring
      _ ≤ 256 * 256 ^ bs.length := Nat.mul_le_mul_right _ hb
      _ = 256 ^ (b :: bs).length := by rw [List.length_cons]; ring

/-- Only the `k` lowest bytes of a number matter to its `k` digits. -/
theorem digits_add_mul (k a n : Nat) :
  digits k (a * 256 ^ k + n) = digits k n
  := by
  induction k generalizing a with
  | zero => rfl
  | succ k ih =>
    have h : a * 256 ^ (k + 1) + n = (a * 256) * 256 ^ k + n := by ring
    rw [digits, digits, h, ih]
    congr 1
    have hk : 0 < 256 ^ k := Nat.pow_pos (by omega)
    rw [Nat.add_comm, Nat.add_mul_div_right _ _ hk]
    apply UInt8.toNat_inj.mp
    rw [UInt8.toNat_ofNat', UInt8.toNat_ofNat']
    omega

/-- The digits of a number are the high ones followed by the low ones. -/
theorem digits_add (j k n : Nat) :
  digits (j + k) n = digits j (n / 256 ^ k) ++ digits k n
  := by
  induction j with
  | zero => rw [Nat.zero_add]; rfl
  | succ j ih =>
    rw [Nat.succ_add, digits, digits, ih, List.cons_append, Nat.div_div_eq_div_mul,
      Nat.add_comm j k, Nat.pow_add]

@[simp]
theorem digits_value (bs : Bytes) :
  digits bs.length (value bs) = bs
  := by
  induction bs with
  | nil => rfl
  | cons b bs ih =>
    have hk : 0 < 256 ^ bs.length := Nat.pow_pos (by omega)
    rw [value, List.length_cons, digits, digits_add_mul, ih, Nat.add_comm,
      Nat.add_mul_div_right _ _ hk, Nat.div_eq_of_lt (value_lt bs), Nat.zero_add,
      UInt8.ofNat_toNat]

theorem value_digits (k n : Nat) :
  value (digits k n) = n % 256 ^ k
  := by
  induction k with
  | zero => rw [Nat.pow_zero, Nat.mod_one]; rfl
  | succ k ih =>
    have h : n % (256 ^ k * 256) = n % 256 ^ k + 256 ^ k * (n / 256 ^ k % 256) := Nat.mod_mul
    rw [digits, value, length_digits, ih, UInt8.toNat_ofNat', Nat.pow_succ 256 k, h]
    ring

theorem value_digits_of_lt {k n : Nat} (h : n < 256 ^ k) :
  value (digits k n) = n
  := by
  rw [value_digits, Nat.mod_eq_of_lt h]

theorem digits_eq_iff {k : Nat} {m n : Nat} (hm : m < 256 ^ k) (hn : n < 256 ^ k) :
  digits k m = digits k n ↔ m = n
  := by
  constructor
  · intro h
    rw [← value_digits_of_lt hm, h, value_digits_of_lt hn]
  · rintro rfl
    rfl

/-! ### Machine words -/

/-- Shifting a byte into a 32-bit word from below. -/
theorem toNat_shiftIn_u32 (v : UInt32) (b : UInt8) :
  (v <<< 8 ||| b.toUInt32).toNat = (v.toNat * 256 + b.toNat) % 2 ^ 32
  := by
  have hb : b.toNat < 2 ^ 8 := b.toNat_lt
  have hor : v.toNat <<< 8 + b.toNat = v.toNat <<< 8 ||| b.toNat :=
    Nat.shiftLeft_add_eq_or_of_lt hb v.toNat
  have hb32 : b.toNat % 2 ^ 32 = b.toNat := Nat.mod_eq_of_lt (by omega)
  rw [UInt32.toNat_or, UInt32.toNat_shiftLeft, UInt8.toNat_toUInt32, ← hb32,
    show (8 : UInt32).toNat % 32 = 8 from rfl, ← Nat.or_mod_two_pow, ← hor, hb32,
    Nat.shiftLeft_eq]

/-- Shifting a byte into a 64-bit word from below. -/
theorem toNat_shiftIn_u64 (v : UInt64) (b : UInt8) :
  (v <<< 8 ||| b.toUInt64).toNat = (v.toNat * 256 + b.toNat) % 2 ^ 64
  := by
  have hb : b.toNat < 2 ^ 8 := b.toNat_lt
  have hor : v.toNat <<< 8 + b.toNat = v.toNat <<< 8 ||| b.toNat :=
    Nat.shiftLeft_add_eq_or_of_lt hb v.toNat
  have hb64 : b.toNat % 2 ^ 64 = b.toNat := Nat.mod_eq_of_lt (by omega)
  rw [UInt64.toNat_or, UInt64.toNat_shiftLeft, UInt8.toNat_toUInt64, ← hb64,
    show (8 : UInt64).toNat % 64 = 8 from rfl, ← Nat.or_mod_two_pow, ← hor, hb64,
    Nat.shiftLeft_eq]

/-- Shifting the bytes `bs` into a 32-bit word one after the other. -/
theorem foldl_shiftIn_u32 (bs : Bytes) (v : UInt32) :
  bs.foldl (fun (v : UInt32) (b : UInt8) => v <<< 8 ||| b.toUInt32) v
    = UInt32.ofNat (v.toNat * 256 ^ bs.length + value bs)
  := by
  induction bs generalizing v with
  | nil => simp [value]
  | cons b bs ih =>
    rw [List.foldl_cons, ih, toNat_shiftIn_u32]
    apply UInt32.toNat_inj.mp
    rw [UInt32.toNat_ofNat', UInt32.toNat_ofNat', value, List.length_cons, Nat.add_mod,
      Nat.mul_mod, Nat.mod_mod, ← Nat.mul_mod, ← Nat.add_mod]
    congr 1
    ring

/-- Shifting the bytes `bs` into a 64-bit word one after the other. -/
theorem foldl_shiftIn_u64 (bs : Bytes) (v : UInt64) :
  bs.foldl (fun (v : UInt64) (b : UInt8) => v <<< 8 ||| b.toUInt64) v
    = UInt64.ofNat (v.toNat * 256 ^ bs.length + value bs)
  := by
  induction bs generalizing v with
  | nil => simp [value]
  | cons b bs ih =>
    rw [List.foldl_cons, ih, toNat_shiftIn_u64]
    apply UInt64.toNat_inj.mp
    rw [UInt64.toNat_ofNat', UInt64.toNat_ofNat', value, List.length_cons, Nat.add_mod,
      Nat.mul_mod, Nat.mod_mod, ← Nat.mul_mod, ← Nat.add_mod]
    congr 1
    ring

/-- The four bytes shifted out of a 32-bit word are its digits. -/
theorem map_shiftOut_u32 (v : UInt32) :
  [24, 16, 8, 0].map (fun shift : UInt32 => ((v >>> shift) &&& 0xff).toUInt8)
    = digits 4 v.toNat
  := by
  simp only [List.map_cons, List.map_nil, digits, List.cons.injEq, and_true]
  refine ⟨?_, ?_, ?_, ?_⟩
  all_goals
    apply UInt8.toNat_inj.mp
    simp [Nat.shiftRight_eq_div_pow, Nat.and_two_pow_sub_one_eq_mod _ 8]

/-- The eight bytes shifted out of a 64-bit word are its digits. -/
theorem map_shiftOut_u64 (v : UInt64) :
  [56, 48, 40, 32, 24, 16, 8, 0].map (fun shift : UInt64 => ((v >>> shift) &&& 0xff).toUInt8)
    = digits 8 v.toNat
  := by
  simp only [List.map_cons, List.map_nil, digits, List.cons.injEq, and_true]
  refine ⟨?_, ?_, ?_, ?_, ?_, ?_, ?_, ?_⟩
  all_goals
    apply UInt8.toNat_inj.mp
    simp [Nat.shiftRight_eq_div_pow, Nat.and_two_pow_sub_one_eq_mod _ 8]

end BigEndian
