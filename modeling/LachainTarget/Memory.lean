import LachainTarget.Bytes

/-!
# Linear memory

The wasm instance's linear memory, one byte per address.  The generated code and the host
exchange data only through it: the code stores operands and passes pointers, the host reads
`n` bytes at a pointer or writes its results there.  `read` and `write` are those two
accesses; the lemmas below are read-after-write and the frame law for disjoint ranges.
-/

namespace LachainTarget

/-- Linear memory: the byte at each address. -/
def Mem : Type := Nat → UInt8

namespace Mem

/-- The `n` bytes starting at address `a`. -/
def read (m : Mem) (a n : Nat) : List UInt8 := (List.range n).map fun i => m (a + i)

/-- Memory after the bytes `bs` are written from address `a` on. -/
def write (m : Mem) (a : Nat) (bs : List UInt8) : Mem := fun i =>
  if a ≤ i then (bs[i - a]?).getD (m i) else m i

@[simp] theorem length_read (m : Mem) (a n : Nat) : (m.read a n).length = n := by
  simp [read]

@[simp] theorem read_zero (m : Mem) (a : Nat) : m.read a 0 = [] := rfl

theorem getElem_read (m : Mem) (a n i : Nat) (h : i < (m.read a n).length) :
    (m.read a n)[i] = m (a + i) := by
  simp [read]

theorem write_apply_of_lt (m : Mem) (a : Nat) (bs : List UInt8) {i : Nat} (h : i < a) :
    m.write a bs i = m i := by
  simp [write, Nat.not_le.2 h]

theorem write_apply_of_le (m : Mem) (a : Nat) (bs : List UInt8) {i : Nat}
    (h : a + bs.length ≤ i) : m.write a bs i = m i := by
  simp [write, List.getElem?_eq_none (show bs.length ≤ i - a by omega)]

theorem write_apply_add (m : Mem) (a : Nat) (bs : List UInt8) {i : Nat} (h : i < bs.length) :
    m.write a bs (a + i) = bs[i] := by
  simp [write, h]

@[simp] theorem write_nil (m : Mem) (a : Nat) : m.write a [] = m := by
  funext i; simp [write]

/-- Reading back exactly what was written. -/
@[simp] theorem read_write_self (m : Mem) (a : Nat) (bs : List UInt8) :
    (m.write a bs).read a bs.length = bs := by
  apply List.ext_getElem (by simp)
  intro i h _
  rw [getElem_read, write_apply_add _ _ _ (by simpa using h)]

/-- The frame law: a write changes no byte outside its range. -/
theorem read_write_of_disjoint (m : Mem) {a b n : Nat} (bs : List UInt8)
    (h : b + n ≤ a ∨ a + bs.length ≤ b) : (m.write a bs).read b n = m.read b n := by
  apply List.ext_getElem (by simp)
  intro i h1 _
  simp only [length_read] at h1
  rw [getElem_read, getElem_read]
  rcases h with h | h
  · exact write_apply_of_lt _ _ _ (by omega)
  · exact write_apply_of_le _ _ _ (by omega)

theorem read_add (m : Mem) (a n k : Nat) : m.read a (n + k) = m.read a n ++ m.read (a + n) k := by
  simp only [read, List.range_add, List.map_append, List.map_map]
  congr 1
  apply List.map_congr_left
  intro i _
  simp [Nat.add_assoc]

/-- Writing `bs ++ cs` is writing `bs`, then `cs` right after it. -/
theorem write_append (m : Mem) (a : Nat) (bs cs : List UInt8) :
    m.write a (bs ++ cs) = (m.write a bs).write (a + bs.length) cs := by
  funext i
  by_cases h1 : i < a + bs.length
  · rw [write_apply_of_lt _ _ _ h1]
    by_cases h2 : a ≤ i
    · simp [write, h2, List.getElem?_append_left (show i - a < bs.length by omega)]
    · simp [write, h2]
  · have h2 : a ≤ i := by omega
    simp only [write, if_pos h2, if_pos (Nat.not_lt.1 h1),
      List.getElem?_append_right (show bs.length ≤ i - a by omega),
      List.getElem?_eq_none (show bs.length ≤ i - a by omega), Option.getD_none]
    congr 2
    omega

/-- A shorter write over a longer one at the same address overlays its prefix. -/
theorem write_write_prefix (m : Mem) (a : Nat) (bs cs : List UInt8) :
    (m.write a bs).write a cs = m.write a (cs ++ bs.drop cs.length) := by
  funext i
  by_cases h1 : i < a
  · rw [write_apply_of_lt _ _ _ h1, write_apply_of_lt _ _ _ h1, write_apply_of_lt _ _ _ h1]
  by_cases h2 : i < a + cs.length
  · have hi : i - a < cs.length := by omega
    simp [write, Nat.not_lt.1 h1, List.getElem?_append_left hi, hi]
  · rw [write_apply_of_le _ _ _ (Nat.not_lt.1 h2)]
    simp only [write, if_pos (Nat.not_lt.1 h1),
      List.getElem?_append_right (show cs.length ≤ i - a by omega), List.getElem?_drop]
    congr 2
    omega

/-- Reading a prefix of what was written. -/
theorem read_write_take (m : Mem) (a : Nat) (bs : List UInt8) {k : Nat} (h : k ≤ bs.length) :
    (m.write a bs).read a k = bs.take k := by
  have hsplit := read_add (m.write a bs) a k (bs.length - k)
  rw [Nat.add_sub_cancel' h, read_write_self] at hsplit
  conv_rhs => rw [hsplit]
  rw [List.take_append_of_le_length (by simp), List.take_of_length_le (by simp)]

/-- The 32 bytes at `p`, as a host primitive reads a key, word or value operand. -/
def word (m : Mem) (p : Nat) : Word := ⟨m.read p 32, length_read _ _ _⟩

@[simp] theorem bytes_word (m : Mem) (p : Nat) : (m.word p).bytes = m.read p 32 := rfl

theorem read_write_of_length (m : Mem) (a : Nat) {bs : List UInt8} {n : Nat}
    (h : bs.length = n) : (m.write a bs).read a n = bs := by
  subst h; exact read_write_self m a bs

theorem read_write_of_le (m : Mem) {a b n : Nat} (bs : List UInt8) (h : b + n ≤ a) :
    (m.write a bs).read b n = m.read b n :=
  read_write_of_disjoint m bs (.inl h)

theorem word_write_of_le (m : Mem) {a p : Nat} (bs : List UInt8) (h : p + 32 ≤ a) :
    (m.write a bs).word p = m.word p :=
  Word.ext (read_write_of_le m bs h)

@[simp] theorem word_write_word (m : Mem) (a : Nat) (x : Word) : (m.write a x.bytes).word a = x :=
  Word.ext (read_write_of_length m a x.length_bytes)

@[simp] theorem word_write_leBytes (m : Mem) (a n : Nat) :
    (m.write a (leBytes 32 n)).word a = Word.ofNat n :=
  word_write_word m a (Word.ofNat n)

/-- `mem'` agrees with `mem` below `top`: code that wrote only into memory it allocated
itself. -/
def AgreeBelow (top : Nat) (mem mem' : Mem) : Prop := ∀ a < top, mem' a = mem a

theorem AgreeBelow.refl (top : Nat) (mem : Mem) : AgreeBelow top mem mem := fun _ _ => rfl

theorem AgreeBelow.trans {t t' : Nat} {m₁ m₂ m₃ : Mem} (h₁ : AgreeBelow t m₁ m₂)
    (h₂ : AgreeBelow t' m₂ m₃) (ht : t ≤ t') : AgreeBelow t m₁ m₃ :=
  fun a ha => (h₂ a (by omega)).trans (h₁ a ha)

theorem AgreeBelow.write {t a : Nat} {mem mem' : Mem} (bs : List UInt8)
    (h : AgreeBelow t mem mem') (ha : t ≤ a) : AgreeBelow t mem (mem'.write a bs) :=
  fun i hi => (write_apply_of_lt mem' a bs (by omega)).trans (h i hi)

theorem AgreeBelow.read {t : Nat} {mem mem' : Mem} (h : AgreeBelow t mem mem') {p n : Nat}
    (hp : p + n ≤ t) : mem'.read p n = mem.read p n := by
  simp only [Mem.read]
  exact List.map_congr_left fun i hi => h _ (by simp at hi; omega)

/-- `mem'` agrees with `mem` outside `[lo, hi)`: code that wrote only into the memory it
allocated, between the old frontier `lo` and the new one `hi`. -/
def AgreeOutside (lo hi : Nat) (mem mem' : Mem) : Prop :=
  ∀ a, a < lo ∨ hi ≤ a → mem' a = mem a

theorem AgreeOutside.refl (lo hi : Nat) (mem : Mem) : AgreeOutside lo hi mem mem :=
  fun _ _ => rfl

theorem AgreeOutside.mono {lo hi lo' hi' : Nat} {mem mem' : Mem} (h : AgreeOutside lo hi mem mem')
    (hlo : lo' ≤ lo) (hhi : hi ≤ hi') : AgreeOutside lo' hi' mem mem' :=
  fun a ha => h a (by omega)

theorem AgreeOutside.trans {lo hi : Nat} {m₁ m₂ m₃ : Mem} (h₁ : AgreeOutside lo hi m₁ m₂)
    (h₂ : AgreeOutside lo hi m₂ m₃) : AgreeOutside lo hi m₁ m₃ :=
  fun a ha => (h₂ a ha).trans (h₁ a ha)

/-- A write that stays inside `[lo, hi)` keeps the agreement outside it. -/
theorem AgreeOutside.write {lo hi a : Nat} {mem mem' : Mem} (bs : List UInt8)
    (h : AgreeOutside lo hi mem mem') (hlo : lo ≤ a) (hhi : a + bs.length ≤ hi) :
    AgreeOutside lo hi mem (mem'.write a bs) := by
  rintro i (hi' | hi')
  · exact (write_apply_of_lt mem' a bs (by omega)).trans (h i (.inl hi'))
  · exact (write_apply_of_le mem' a bs (by omega)).trans (h i (.inr hi'))

theorem AgreeOutside.agreeBelow {lo hi : Nat} {mem mem' : Mem} (h : AgreeOutside lo hi mem mem') :
    AgreeBelow lo mem mem' :=
  fun a ha => h a (.inl ha)

end Mem

end LachainTarget
