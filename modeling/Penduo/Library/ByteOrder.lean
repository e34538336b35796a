import Mathlib.Tactic.Ring

set_option autoImplicit false

/-!
Numbers in memory, a fixed number of bytes in one of the two orders.
-/

inductive ByteOrder
  | little
  | big
deriving DecidableEq, Repr

namespace ByteOrder

variable {n v : ℕ} {bs : List UInt8}

-- The least significant byte comes first.
def digits : ℕ → ℕ → List UInt8
  | 0, _ => []
  | n + 1, v => UInt8.ofNat v :: digits n (v / 256)

def value : List UInt8 → ℕ
  | [] => 0
  | b :: bs => b.toNat + 256 * value bs

@[simp] theorem length_digits (n v : ℕ) : (digits n v).length = n := by
  induction n generalizing v with
  | zero => rfl
  | succ n ih => simp [digits, ih]

theorem value_lt (bs : List UInt8) : value bs < 256 ^ bs.length := by
  induction bs with
  | nil => simp [value]
  | cons b bs ih =>
    have hb := b.toNat_lt
    rw [value, List.length_cons, Nat.pow_succ]
    omega

theorem value_digits (h : v < 256 ^ n) : value (digits n v) = v := by
  induction n generalizing v with
  | zero =>
    rw [Nat.pow_zero] at h
    simp only [digits, value]
    omega
  | succ n ih =>
    have hrest : v / 256 < 256 ^ n := Nat.div_lt_of_lt_mul (by rwa [Nat.pow_succ, Nat.mul_comm] at h)
    rw [digits, value, ih hrest, UInt8.toNat_ofNat']
    omega

theorem digits_value (bs : List UInt8) : digits bs.length (value bs) = bs := by
  induction bs with
  | nil => rfl
  | cons b bs ih =>
    have hb := b.toNat_lt
    have hrest : (b.toNat + 256 * value bs) / 256 = value bs := by omega
    have hfirst : UInt8.ofNat (b.toNat + 256 * value bs) = b := by
      apply UInt8.toNat_inj.mp
      rw [UInt8.toNat_ofNat']
      omega
    rw [List.length_cons, value, digits, hrest, ih, hfirst]

def store : ByteOrder → ℕ → ℕ → List UInt8
  | little, n, v => digits n v
  | big, n, v => (digits n v).reverse

def load : ByteOrder → List UInt8 → ℕ
  | little, bs => value bs
  | big, bs => value bs.reverse

@[simp] theorem length_store (o : ByteOrder) (n v : ℕ) : (o.store n v).length = n := by
  cases o <;> simp [store]

theorem load_lt (o : ByteOrder) (bs : List UInt8) : o.load bs < 256 ^ bs.length := by
  cases o with
  | little => exact value_lt bs
  | big =>
    have hlt := value_lt bs.reverse
    rwa [List.length_reverse] at hlt

theorem load_store (o : ByteOrder) (h : v < 256 ^ n) : o.load (o.store n v) = v := by
  cases o with
  | little => exact value_digits h
  | big => rw [store, load, List.reverse_reverse, value_digits h]

theorem store_load (o : ByteOrder) (bs : List UInt8) : o.store bs.length (o.load bs) = bs := by
  cases o with
  | little => exact digits_value bs
  | big =>
    have hdigits := digits_value bs.reverse
    rw [List.length_reverse] at hdigits
    rw [store, load, hdigits, List.reverse_reverse]

def reorder (o o' : ByteOrder) (n v : ℕ) : ℕ := o'.load (o.store n v)

theorem reorder_lt (o o' : ByteOrder) (n v : ℕ) : reorder o o' n v < 256 ^ n := by
  have hlt := o'.load_lt (o.store n v)
  rwa [length_store] at hlt

theorem store_reorder (o o' : ByteOrder) (n v : ℕ) : o'.store n (reorder o o' n v) = o.store n v := by
  have hbytes := o'.store_load (o.store n v)
  rwa [length_store] at hbytes

theorem reorder_load (o o' : ByteOrder) (bs : List UInt8) : reorder o o' bs.length (o.load bs) = o'.load bs := by
  rw [reorder, store_load]

end ByteOrder
