/-
# PatBase.Lib.Endian -- how an unsigned integer lies in memory

Code that punches through a union or copies an integer with `memcpy` works on the bytes
of its object, and which byte comes first is up to the host.  `Endian.store` and
`Endian.load` are the two directions, for any number of bytes; each undoes the other on
every host, and network byte order is the big-endian one.
-/
import Mathlib.Algebra.Group.Nat.Defs
import Mathlib.Data.List.Basic

namespace PatBase.Lib

set_option autoImplicit false

/-- The byte order of the host. -/
inductive Endian where
  | little
  | big
  deriving DecidableEq, Repr

/-! ## Digits to the base 256 -/

/-- The `n` low bytes of `x`, the least significant first. -/
def lowBytes : Nat → Nat → List UInt8
  | 0, _ => []
  | n + 1, x => UInt8.ofNat x :: lowBytes n (x / 256)

/-- The number with these bytes, the least significant first. -/
def bytesValue : List UInt8 → Nat
  | [] => 0
  | b :: bs => b.toNat + 256 * bytesValue bs

@[simp] theorem lowBytes_length (n x : Nat) : (lowBytes n x).length = n := by
  induction n generalizing x with
  | zero => rfl
  | succ n ih => simp [lowBytes, ih]

theorem bytesValue_lt (bs : List UInt8) : bytesValue bs < 256 ^ bs.length := by
  induction bs with
  | nil => simp [bytesValue]
  | cons b bs ih =>
      have low := b.toNat_lt
      simp only [bytesValue, List.length_cons, Nat.pow_succ]
      omega

theorem bytesValue_lowBytes (n x : Nat) : bytesValue (lowBytes n x) = x % 256 ^ n := by
  induction n generalizing x with
  | zero => simp [lowBytes, bytesValue, Nat.mod_one]
  | succ n ih =>
      have low : (UInt8.ofNat x).toNat = x % 256 := UInt8.toNat_ofNat'
      rw [lowBytes, bytesValue, ih, low, Nat.pow_succ, Nat.mul_comm (256 ^ n), Nat.mod_mul]

theorem lowBytes_bytesValue (bs : List UInt8) : lowBytes bs.length (bytesValue bs) = bs := by
  induction bs with
  | nil => rfl
  | cons b bs ih =>
      have low := b.toNat_lt
      have first : UInt8.ofNat (b.toNat + 256 * bytesValue bs) = b := by
        apply UInt8.toNat_inj.mp
        rw [UInt8.toNat_ofNat']
        omega
      have rest : (b.toNat + 256 * bytesValue bs) / 256 = bytesValue bs := by omega
      rw [List.length_cons, bytesValue, lowBytes, first, rest, ih]

/-! ## Objects -/

namespace Endian

/-- The bytes of an `n`-byte unsigned integer, in the order of their addresses. -/
def store (e : Endian) (n x : Nat) : List UInt8 :=
  match e with
  | .little => lowBytes n x
  | .big => (lowBytes n x).reverse

/-- The unsigned integer with these bytes. -/
def load (e : Endian) (bs : List UInt8) : Nat :=
  match e with
  | .little => bytesValue bs
  | .big => bytesValue bs.reverse

variable (e : Endian)

@[simp] theorem store_length (n x : Nat) : (e.store n x).length = n := by
  cases e <;> simp [store]

theorem load_lt (bs : List UInt8) : e.load bs < 256 ^ bs.length := by
  cases e with
  | little => exact bytesValue_lt bs
  | big =>
      rw [← List.length_reverse]
      exact bytesValue_lt bs.reverse

theorem load_store {n x : Nat} (fits : x < 256 ^ n) : e.load (e.store n x) = x := by
  have value : bytesValue (lowBytes n x) = x := by
    rw [bytesValue_lowBytes, Nat.mod_eq_of_lt fits]
  cases e with
  | little => exact value
  | big =>
      rw [load, store, List.reverse_reverse]
      exact value

theorem store_load (bs : List UInt8) : e.store bs.length (e.load bs) = bs := by
  cases e with
  | little => exact lowBytes_bytesValue bs
  | big =>
      have digits := lowBytes_bytesValue bs.reverse
      rw [List.length_reverse] at digits
      rw [load, store, digits, List.reverse_reverse]

end Endian

/-! ## Network byte order -/

/-- The host-order integer whose object is `x` in network byte order. -/
def htons (e : Endian) (x : UInt16) : UInt16 :=
  match e with
  | .little => (x <<< 8) ||| (x >>> 8)
  | .big => x

theorem swap_toNat (x : UInt16) :
    ((x <<< 8) ||| (x >>> 8)).toNat = x.toNat % 256 * 256 + x.toNat / 256 := by
  have bound := x.toNat_lt
  have high : x.toNat <<< 8 % 2 ^ 16 = 2 ^ 8 * (x.toNat % 256) := by
    rw [Nat.shiftLeft_eq]
    omega
  have low : x.toNat / 2 ^ 8 < 2 ^ 8 := by omega
  have parts := Nat.two_pow_add_eq_or_of_lt low (x.toNat % 256)
  rw [UInt16.toNat_or, UInt16.toNat_shiftLeft, UInt16.toNat_shiftRight]
  show x.toNat <<< 8 % 2 ^ 16 ||| x.toNat >>> 8 = _
  rw [high, Nat.shiftRight_eq_div_pow, ← parts]
  omega

/-- The object of `htons(x)` is that of `x` on a big-endian host. -/
theorem store_htons (e : Endian) (x : UInt16) :
    e.store 2 (htons e x).toNat = Endian.big.store 2 x.toNat := by
  cases e with
  | big => rfl
  | little =>
      have bound := x.toNat_lt
      have low : x.toNat / 256 < 256 := by omega
      have high : (x.toNat % 256 * 256 + x.toNat / 256) / 256 = x.toNat % 256 := by
        rw [Nat.mul_comm, Nat.mul_add_div (by decide), Nat.div_eq_of_lt low, Nat.add_zero]
      have first : UInt8.ofNat (x.toNat % 256 * 256 + x.toNat / 256) =
          UInt8.ofNat (x.toNat / 256) := by
        apply UInt8.toNat_inj.mp
        simp [UInt8.toNat_ofNat']
      have second : UInt8.ofNat (x.toNat % 256) = UInt8.ofNat x.toNat := by
        apply UInt8.toNat_inj.mp
        simp [UInt8.toNat_ofNat']
      show lowBytes 2 ((x <<< 8) ||| (x >>> 8)).toNat = (lowBytes 2 x.toNat).reverse
      simp only [swap_toNat, lowBytes, high, first, second]
      rfl

end PatBase.Lib
