import Mathlib

/-! # Words as bytes, in both byte orders

`bytesOf n v` are the low `n` bytes of `v`, least significant first, and
`valueOf` is its inverse on `n` bytes. `ByteOrder` arranges either of them; the
round trips are stated for numbers and for machine words.
-/

namespace AapBridge.Lib

def bytesOf (n v : Nat) : List UInt8 :=
  (List.range n).map fun i => UInt8.ofNat (v / 256 ^ i)

def valueOf (bs : List UInt8) : Nat :=
  bs.foldr (fun b acc => b.toNat + 256 * acc) 0

@[simp] theorem bytesOf_length (n v : Nat) : (bytesOf n v).length = n := by
  simp [bytesOf]

@[simp] theorem valueOf_nil : valueOf [] = 0 := rfl

@[simp] theorem valueOf_cons (b : UInt8) (bs : List UInt8) :
    valueOf (b :: bs) = b.toNat + 256 * valueOf bs := rfl

theorem valueOf_append (as bs : List UInt8) :
    valueOf (as ++ bs) = valueOf as + 256 ^ as.length * valueOf bs := by
  induction as with
  | nil => simp
  | cons a as ih =>
      rw [List.cons_append, valueOf_cons, ih, valueOf_cons, List.length_cons, Nat.pow_succ]
      ring

/-- `n` bytes hold a number up to multiples of `256 ^ n`. -/
theorem valueOf_bytesOf (n v : Nat) : valueOf (bytesOf n v) = v % 256 ^ n := by
  induction n with
  | zero => simp [bytesOf, Nat.mod_one]
  | succ n ih =>
      have hlast : bytesOf (n + 1) v = bytesOf n v ++ [UInt8.ofNat (v / 256 ^ n)] := by
        simp [bytesOf, List.range_succ]
      have hbyte : (UInt8.ofNat (v / 256 ^ n)).toNat = v / 256 ^ n % 256 := by simp
      rw [hlast, valueOf_append, ih, bytesOf_length, valueOf_cons, hbyte, valueOf_nil,
        Nat.pow_succ, Nat.mod_mul]
      simp

/-- What lies above `n` bytes does not matter. -/
theorem bytesOf_mod (n v : Nat) : bytesOf n (v % 256 ^ n) = bytesOf n v := by
  unfold bytesOf
  apply List.map_congr_left
  intro i hi
  have hle : i + 1 ≤ n := List.mem_range.mp hi
  have hpow : 256 ^ n = 256 ^ i * 256 ^ (n - i) := by rw [← pow_add, Nat.add_sub_cancel' (by omega)]
  have hdvd : 256 ∣ 256 ^ (n - i) := dvd_pow_self 256 (by omega)
  apply UInt8.toNat_inj.mp
  simp only [UInt8.toNat_ofNat', Nat.reducePow]
  rw [hpow, Nat.mod_mul_right_div_self, Nat.mod_mod_of_dvd _ hdvd]

inductive ByteOrder where
  | littleEndian
  | bigEndian
deriving DecidableEq

namespace ByteOrder

def arrange : ByteOrder → List UInt8 → List UInt8
  | littleEndian, bs => bs
  | bigEndian, bs => bs.reverse

@[simp] theorem arrange_length (o : ByteOrder) (bs : List UInt8) :
    (o.arrange bs).length = bs.length := by
  cases o <;> simp [arrange]

@[simp] theorem arrange_arrange (o : ByteOrder) (bs : List UInt8) :
    o.arrange (o.arrange bs) = bs := by
  cases o <;> simp [arrange]

/-- The low `n` bytes of `v` in this order. -/
def put (o : ByteOrder) (n v : Nat) : List UInt8 := o.arrange (bytesOf n v)

def get (o : ByteOrder) (bs : List UInt8) : Nat := valueOf (o.arrange bs)

@[simp] theorem put_length (o : ByteOrder) (n v : Nat) : (o.put n v).length = n := by
  simp [put]

theorem put_mod (o : ByteOrder) (n v : Nat) : o.put n (v % 256 ^ n) = o.put n v := by
  rw [put, bytesOf_mod, put]

theorem get_put (o : ByteOrder) (n v : Nat) : o.get (o.put n v) = v % 256 ^ n := by
  rw [get, put, arrange_arrange, valueOf_bytesOf]

theorem get_put_of_lt (o : ByteOrder) {n v : Nat} (h : v < 256 ^ n) : o.get (o.put n v) = v := by
  rw [get_put, Nat.mod_eq_of_lt h]

/-- A machine word survives a trip through at least its own number of bytes. -/
theorem word_put (o : ByteOrder) {w n : Nat} (hw : w ≤ 8 * n) (x : BitVec w) :
    BitVec.ofNat w (o.get (o.put n x.toNat)) = x := by
  have hpow : 2 ^ w ≤ 256 ^ n := by
    calc 2 ^ w ≤ 2 ^ (8 * n) := Nat.pow_le_pow_right (by decide) hw
      _ = 256 ^ n := by rw [Nat.pow_mul]
  rw [o.get_put_of_lt (x.isLt.trans_le hpow), BitVec.ofNat_toNat, BitVec.setWidth_eq]

end ByteOrder

end AapBridge.Lib
