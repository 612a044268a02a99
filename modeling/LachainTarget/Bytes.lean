import Mathlib.Data.List.Basic
import Mathlib.Data.BitVec

/-!
# Bytes and little-endian words

The Lachain target runs on wasm32, where an LLVM store of an `iN` value writes its
`storeSize N` bytes least significant first, and a load reads them back the same way.
`leBytes` and `ofLeBytes` are those two directions on byte lists.  `Word` is the 32-byte
unit that the storage primitives move and that carries a 256-bit value operand.
-/

namespace LachainTarget

/-- The `n` bytes of `v`, least significant first, as a wasm store writes them. -/
def leBytes : Nat → Nat → List UInt8
  | 0, _ => []
  | n + 1, v => UInt8.ofNat (v % 256) :: leBytes n (v / 256)

/-- The number that a byte sequence denotes, least significant byte first, as a wasm load
reads it. -/
def ofLeBytes : List UInt8 → Nat
  | [] => 0
  | b :: bs => b.toNat + 256 * ofLeBytes bs

@[simp] theorem length_leBytes (n v : Nat) : (leBytes n v).length = n := by
  induction n generalizing v with
  | zero => rfl
  | succ n ih => simp [leBytes, ih]

theorem toNat_ofNat_mod (v : Nat) : (UInt8.ofNat (v % 256)).toNat = v % 256 :=
  UInt8.toNat_ofNat_of_lt (Nat.mod_lt _ (by decide))

theorem ofLeBytes_leBytes (n v : Nat) : ofLeBytes (leBytes n v) = v % 256 ^ n := by
  induction n generalizing v with
  | zero => simp [leBytes, ofLeBytes, Nat.mod_one]
  | succ n ih =>
    rw [leBytes, ofLeBytes, ih, toNat_ofNat_mod, Nat.pow_succ', Nat.mod_mul]

theorem ofLeBytes_lt (bs : List UInt8) : ofLeBytes bs < 256 ^ bs.length := by
  induction bs with
  | nil => simp [ofLeBytes]
  | cons b bs ih =>
    have hb : b.toNat < 256 := b.toNat_lt_size
    have hstep : 256 * (ofLeBytes bs + 1) ≤ 256 * 256 ^ bs.length := Nat.mul_le_mul_left _ ih
    rw [ofLeBytes, List.length_cons, Nat.pow_succ']
    omega

theorem leBytes_ofLeBytes (bs : List UInt8) : leBytes bs.length (ofLeBytes bs) = bs := by
  induction bs with
  | nil => rfl
  | cons b bs ih =>
    have hb : b.toNat < 256 := b.toNat_lt_size
    have hmod : (b.toNat + 256 * ofLeBytes bs) % 256 = b.toNat := by omega
    have hdiv : (b.toNat + 256 * ofLeBytes bs) / 256 = ofLeBytes bs := by omega
    rw [List.length_cons, leBytes, ofLeBytes, hmod, hdiv, ih]
    exact congrArg (· :: bs) (UInt8.toNat.inj (UInt8.toNat_ofNat_of_lt hb))

/-- Encoding `n + k` bytes is encoding the low `n`, then the rest of the number. -/
theorem leBytes_add (n k v : Nat) :
    leBytes (n + k) v = leBytes n v ++ leBytes k (v / 256 ^ n) := by
  induction n generalizing v with
  | zero => simp [leBytes]
  | succ n ih =>
    rw [Nat.succ_add, leBytes, leBytes, ih, Nat.div_div_eq_div_mul, ← Nat.pow_succ']
    rfl

theorem leBytes_zero (n : Nat) : leBytes n 0 = List.replicate n 0 := by
  induction n with
  | zero => rfl
  | succ n ih => rw [leBytes, ih]; rfl

/-- A number that fits in `n` bytes is zero-extended by further bytes: the high bytes of
its wider encoding are zero. -/
theorem leBytes_zeroExtend {n v : Nat} (k : Nat) (h : v < 256 ^ n) :
    leBytes (n + k) v = leBytes n v ++ List.replicate k 0 := by
  rw [leBytes_add, Nat.div_eq_of_lt h, leBytes_zero]

theorem take_leBytes {k n : Nat} (v : Nat) (h : k ≤ n) :
    (leBytes n v).take k = leBytes k v := by
  obtain ⟨j, rfl⟩ := Nat.exists_eq_add_of_le h
  rw [leBytes_add, List.take_append_of_le_length (by simp), List.take_of_length_le (by simp)]

/-! ### Store sizes -/

/-- The number of bytes an LLVM store of an `iN` value occupies: `⌈N / 8⌉`. -/
def storeSize (w : Nat) : Nat := (w + 7) / 8

theorem two_pow_le_storeSize (w : Nat) : 2 ^ w ≤ 256 ^ storeSize w := by
  rw [show (256 : Nat) = 2 ^ 8 from rfl, ← Nat.pow_mul]
  exact Nat.pow_le_pow_right (by decide) (by unfold storeSize; omega)

theorem storeSize_le_32 {w : Nat} (h : w ≤ 256) : storeSize w ≤ 32 := by
  unfold storeSize; omega

@[simp] theorem storeSize_256 : storeSize 256 = 32 := rfl

@[simp] theorem storeSize_32 : storeSize 32 = 4 := rfl

@[simp] theorem storeSize_64 : storeSize 64 = 8 := rfl

/-- An integer type of `n` whole bytes stores in `n` bytes. -/
@[simp] theorem storeSize_eight_mul (n : Nat) : storeSize (8 * n) = n := by
  unfold storeSize; omega

theorem two_pow_dvd_storeSize (w : Nat) : 2 ^ w ∣ 256 ^ storeSize w := by
  rw [show (256 : Nat) = 2 ^ 8 from rfl, ← Nat.pow_mul]
  exact Nat.pow_dvd_pow 2 (by unfold storeSize; omega)

/-- Loading `w` bits from the bytes a store of `n` wrote gives `n` back, cut to `w` bits. -/
theorem ofNat_ofLeBytes_leBytes (w n : Nat) :
    BitVec.ofNat w (ofLeBytes (leBytes (storeSize w) n)) = BitVec.ofNat w n := by
  apply BitVec.eq_of_toNat_eq
  simp only [BitVec.toNat_ofNat, ofLeBytes_leBytes]
  exact Nat.mod_mod_of_dvd n (two_pow_dvd_storeSize w)

/-! ### Words -/

/-- Thirty-two bytes: a storage key or word, or a 256-bit value operand, as the host reads
and writes it. -/
structure Word where
  bytes : List UInt8
  length_bytes : bytes.length = 32
deriving DecidableEq

namespace Word

theorem ext {x y : Word} (h : x.bytes = y.bytes) : x = y := by
  cases x; cases y; cases h; rfl

/-- The word holding `v` least significant byte first. -/
def ofNat (v : Nat) : Word := ⟨leBytes 32 v, length_leBytes 32 v⟩

/-- The number a word holds, read least significant byte first. -/
def toNat (x : Word) : Nat := ofLeBytes x.bytes

/-- The word with its bytes in the opposite order. -/
def reverse (x : Word) : Word := ⟨x.bytes.reverse, by rw [List.length_reverse, x.length_bytes]⟩

@[simp] theorem bytes_ofNat (v : Nat) : (ofNat v).bytes = leBytes 32 v := rfl

@[simp] theorem bytes_reverse (x : Word) : x.reverse.bytes = x.bytes.reverse := rfl

@[simp] theorem reverse_reverse (x : Word) : x.reverse.reverse = x :=
  ext (List.reverse_reverse _)

theorem toNat_ofNat (v : Nat) : (ofNat v).toNat = v % 2 ^ 256 := ofLeBytes_leBytes 32 v

/-- Thirty-two bytes read as a number and stored as a word again are the same bytes. -/
theorem bytes_ofNat_ofLeBytes {bs : List UInt8} (h : bs.length = 32) :
    (ofNat (ofLeBytes bs)).bytes = bs := by
  rw [bytes_ofNat, ← h, leBytes_ofLeBytes]

theorem ofNat_toNat (x : Word) : ofNat x.toNat = x :=
  ext (bytes_ofNat_ofLeBytes x.length_bytes)

theorem toNat_lt (x : Word) : x.toNat < 2 ^ 256 := by
  have h := ofLeBytes_lt x.bytes
  rwa [x.length_bytes] at h

end Word

end LachainTarget
