import LachainTarget.Host

/-!
# Storage access

The storage lowerings of the target.  Fixed-width values live in 32-byte words:
`set_storage` saves the value's bytes zero-extended to a word (directly when the value is
already 256 bits wide, else through a zeroed scratch word it overlays), `get_storage_int`
loads the word into scratch and reads the value's width back from its start, and
`storage_delete_single_slot` saves an all-zero word.  Strings go through the
variable-length primitives and come back as a fresh `struct.vector`.

Each lowering has one spec lemma; the storage run and the string round trip are proved from
those alone.

* **`getStorageString_setStorageString`** — a string saved and read back comes back as a
  fresh vector of exactly its bytes, when its length plus the header fits in 32 bits.
-/

namespace LachainTarget

/-- What saving the word `x` under `key` does to the machine. -/
def Machine.saveWord (m : Machine) (key x : Word) : Machine :=
  { m with storage := Function.update m.storage key x, trace := m.trace ++ [.saveStorage key x] }

/-! ### Fixed-width values -/

/-- `storage_delete_single_slot`: save a zeroed 256-bit word under the slot. -/
def storageDeleteSingleSlot (slot : Nat) : Code Unit := do
  let value ← alloca 32
  bzero8 value 4
  saveStorage slot value

/-- `set_storage` of the `w`-bit integer at `dest`. -/
def setStorage (w : Nat) (slot dest : Nat) : Code Unit :=
  if w = 256 then
    saveStorage slot dest
  else do
    let value ← alloca 32
    bzero8 value 4
    let val ← load w dest
    store value val
    saveStorage slot value

/-- `get_storage_int` at integer type `iw`. -/
def getStorageInt (w : Nat) (slot : Nat) : Code (BitVec w) := do
  let dest ← alloca 32
  loadStorage slot dest
  load w dest

/-- The `w`-bit value `get_storage_int` reads out of a stored word: its first bytes. -/
def Word.decode (w : Nat) (x : Word) : BitVec w :=
  BitVec.ofNat w (ofLeBytes (x.bytes.take (storeSize w)))

/-- A word saved for a value of width at most 256 decodes back to the value. -/
theorem Word.decode_ofNat {w : Nat} (hw : w ≤ 256) (n : Nat) :
    (Word.ofNat n).decode w = BitVec.ofNat w n := by
  rw [decode, bytes_ofNat, take_leBytes n (storeSize_le_32 hw), ofNat_ofLeBytes_leBytes]

/-- Overlaying the store bytes of `v` on a zeroed word zero-extends `v`. -/
theorem word_overlay_zero {w : Nat} (hw : w ≤ 256) (mem : Mem) (a : Nat) (v : BitVec w) :
    ((mem.write a (List.replicate 32 0)).write a (leBytes (storeSize w) v.toNat)).word a =
      Word.ofNat v.toNat := by
  have hs := storeSize_le_32 hw
  have hlt : v.toNat < 256 ^ storeSize w := Nat.lt_of_lt_of_le v.isLt (two_pow_le_storeSize w)
  apply Word.ext
  rw [Mem.bytes_word, Mem.write_write_prefix, length_leBytes, List.drop_replicate,
    ← leBytes_zeroExtend _ hlt, Nat.add_sub_cancel' hs, Word.bytes_ofNat,
    Mem.read_write_of_length _ _ (length_leBytes _ _)]

theorem storageDeleteSingleSlot_apply (slot : Nat) (h : Host) (m : Machine)
    (hslot : slot + 32 ≤ m.top) :
    storageDeleteSingleSlot slot h m =
      .next () ({ m with mem := m.mem.write m.top (Word.ofNat 0).bytes, top := m.top + 32 }.saveWord
        (m.mem.word slot) (Word.ofNat 0)) := by
  simp only [storageDeleteSingleSlot, Code.bind_apply, alloca, bzero8, saveStorage,
    Exit.next_bind, Machine.saveWord, Mem.word_write_of_le _ _ hslot]
  rw [show 8 * (4 : BitVec 32).toNat = 32 from rfl, ← leBytes_zero, ← Word.bytes_ofNat,
    Mem.word_write_word]

/-- `set_storage` saves the value zero-extended to a word, in both of its branches, and
writes no memory that was allocated before it. -/
theorem setStorage_apply {w : Nat} (hw : w ≤ 256) (slot dest : Nat) (v : BitVec w) (h : Host)
    (m : Machine) (hslot : slot + 32 ≤ m.top) (hdest : dest + storeSize w ≤ m.top)
    (hv : m.mem.Holds dest v) :
    ∃ m₁, m.Scratch m₁ ∧
      setStorage w slot dest h m =
        .next () (m₁.saveWord (m.mem.word slot) (Word.ofNat v.toNat)) := by
  by_cases h256 : w = 256
  · subst h256
    refine ⟨m, Machine.Scratch.refl m, ?_⟩
    rw [setStorage, if_pos rfl, saveStorage, Machine.saveWord,
      show m.mem.word dest = Word.ofNat v.toNat from Word.ext hv]
  · have hread := (Mem.read_write_of_le m.mem (List.replicate (8 * (4 : BitVec 32).toNat) 0)
      hdest).trans hv
    refine ⟨{ m with
        mem := (m.mem.write m.top (List.replicate 32 0)).write m.top (leBytes (storeSize w) v.toNat)
        top := m.top + 32 },
      ⟨_, _, rfl, by omega, ((Mem.AgreeOutside.refl _ _ _).write _ le_rfl (by simp)).write _
        le_rfl (by rw [length_leBytes]; have := storeSize_le_32 hw; omega)⟩, ?_⟩
    simp only [setStorage, if_neg h256, Code.bind_apply, alloca, bzero8, load, store, saveStorage,
      Exit.next_bind, hread, ofNat_ofLeBytes_leBytes, BitVec.ofNat_toNat, BitVec.setWidth_eq,
      Machine.saveWord, Mem.word_write_of_le _ _ hslot]
    rw [show 8 * (4 : BitVec 32).toNat = 32 from rfl, word_overlay_zero hw]

/-- `get_storage_int` returns the stored word decoded at its width. -/
theorem getStorageInt_apply {w : Nat} (hw : w ≤ 256) (slot : Nat) (h : Host) (m : Machine) :
    ∃ m₁, m.Scratch m₁ ∧
      getStorageInt w slot h m = .next ((m.storage (m.mem.word slot)).decode w) m₁ := by
  refine ⟨{ m with
      mem := m.mem.write m.top (m.storage (m.mem.word slot)).bytes
      top := m.top + 32 },
    ⟨_, _, rfl, by omega, (Mem.AgreeOutside.refl _ _ _).write _ le_rfl
      (by rw [Word.length_bytes])⟩, ?_⟩
  simp only [getStorageInt, Code.bind_apply, alloca, loadStorage, load, Exit.next_bind]
  rw [Mem.read_write_take _ _ _ (by rw [Word.length_bytes]; exact storeSize_le_32 hw)]
  rfl

/-! ### Strings -/

/-- `set_storage_string`: save the data of the vector at `dest` under the slot. -/
def setStorageString (slot dest : Nat) : Code Unit := do
  let len ← vectorLen dest
  let data := vectorBytes dest
  saveStorageString slot data len

/-- The lowering `get_storage_string` and `return_data` share: ask the host for a length,
allocate a `struct.vector` with that many data bytes, fill in its length and size fields,
and let the host copy the data in. -/
def readVector (size : Code (BitVec 32)) (copy : Nat → BitVec 32 → Code Unit) : Code Nat := do
  let length ← size
  let mallocLength := length + BitVec.ofNat 32 vectorHeader
  let p ← malloc mallocLength
  store (vectorField p 0) length
  store (vectorField p 1) length
  copy (vectorField p 2) length
  pure p

/-- `get_storage_string`. -/
def getStorageString (slot : Nat) : Code Nat :=
  readVector (getStorageStringSize slot) fun string _ => loadStorageString slot string

/-- The bytes of a `struct.vector` holding `b`: length and size fields both `|b|`, then
the data. -/
def vectorImage (b : List UInt8) : List UInt8 := leBytes 4 b.length ++ leBytes 4 b.length ++ b

theorem toNat_ofNat_length {n : Nat} (hlen : n + vectorHeader < 2 ^ 32) :
    (BitVec.ofNat 32 n).toNat = n := by
  rw [BitVec.toNat_ofNat, Nat.mod_eq_of_lt (by unfold vectorHeader at hlen; omega)]

/-- The shared vector lowering around a length query that answers `|b|` and a copy that
writes `b` into the data field: the result is a fresh vector of exactly header plus `|b|`
bytes holding `b`, and nothing outside it is written. -/
theorem readVector_apply (size : Code (BitVec 32)) (copy : Nat → BitVec 32 → Code Unit)
    (b : List UInt8) (h : Host) (m : Machine) (hlen : b.length + vectorHeader < 2 ^ 32)
    (hsize : size h m = .next (BitVec.ofNat 32 b.length) m)
    (hcopy : ∀ mem : Mem, Mem.AgreeBelow m.top m.mem mem →
      copy (m.top + vectorHeader) (BitVec.ofNat 32 b.length) h
          { m with mem := mem, top := m.top + (vectorHeader + b.length) } =
        .next () { m with
          mem := mem.write (m.top + vectorHeader) b
          top := m.top + (vectorHeader + b.length) }) :
    readVector size copy h m =
      .next m.top { m with
        mem := m.mem.write m.top (vectorImage b)
        top := m.top + (vectorHeader + b.length) } := by
  have htop : (BitVec.ofNat 32 b.length + BitVec.ofNat 32 vectorHeader).toNat =
      vectorHeader + b.length := by
    rw [BitVec.toNat_add, toNat_ofNat_length hlen, BitVec.toNat_ofNat]
    unfold vectorHeader at hlen ⊢; omega
  have hagree : Mem.AgreeBelow m.top m.mem
      ((m.mem.write m.top (leBytes 4 b.length)).write (m.top + 4) (leBytes 4 b.length)) :=
    ((Mem.AgreeBelow.refl _ _).write _ le_rfl).write _ (by omega)
  simp only [readVector, Code.bind_apply, hsize, malloc, store, vectorField, storeSize_32,
    toNat_ofNat_length hlen, htop, Exit.next_bind, hcopy _ hagree, Code.pure_apply]
  rw [vectorImage, Mem.write_append, Mem.write_append, length_leBytes, List.length_append,
    length_leBytes]
  rfl

/-- What `set_storage_string` hands the host for a vector holding `b`. -/
theorem setStorageString_apply (slot dest : Nat) (b : List UInt8) (h : Host) (m : Machine)
    (hlen : b.length + vectorHeader < 2 ^ 32) (hdest : m.mem.HoldsVector dest b) :
    setStorageString slot dest h m =
      .next () { m with
        strings := Function.update m.strings (m.mem.word slot) b
        trace := m.trace ++ [.saveStorageString (m.mem.word slot) b] } := by
  obtain ⟨hl, hd⟩ := hdest
  have hload : vectorLen dest h m = .next (BitVec.ofNat 32 b.length) m :=
    load_of_holds h (by rw [Mem.Holds, toNat_ofNat_length hlen]; exact hl)
  simp only [setStorageString, Code.bind_apply, hload, Exit.next_bind, saveStorageString,
    vectorBytes, toNat_ofNat_length hlen, hd]

/-- Saving the vector that holds `b` and reading the slot back yields a fresh vector whose
length and size fields are both `|b|` and whose data are `b`, allocated with exactly header
plus `|b|` bytes; no byte outside that allocation changes. -/
theorem getStorageString_setStorageString (slot dest : Nat) (b : List UInt8) (h : Host)
    (m : Machine) (hslot : slot + 32 ≤ m.top) (hlen : b.length + vectorHeader < 2 ^ 32)
    (hdest : m.mem.HoldsVector dest b) :
    (setStorageString slot dest >>= fun _ => getStorageString slot) h m =
      .next m.top { m with
        mem := m.mem.write m.top (vectorImage b)
        top := m.top + (vectorHeader + b.length)
        strings := Function.update m.strings (m.mem.word slot) b
        trace := m.trace ++ [.saveStorageString (m.mem.word slot) b] } := by
  rw [Code.bind_apply, setStorageString_apply slot dest b h m hlen hdest, Exit.next_bind]
  refine readVector_apply _ _ b h _ hlen (by simp [getStorageStringSize]) fun mem hmem => ?_
  have hkey : mem.word slot = m.mem.word slot := Word.ext (hmem.read hslot)
  simp only [loadStorageString]
  rw [hkey, Function.update_same]

/-- The string `[1, 2, 3]`, held in a vector at 32, saved under the key stored at 0 and read
back. -/
theorem getStorageString_setStorageString_abc :
    let m := { Machine.blank 64 with
      mem := ((Machine.blank 64).mem.write 0 [7]).write 32 (vectorImage [1, 2, 3]) }
    (setStorageString 0 32 >>= fun _ => getStorageString 0) (Host.replying 0 [] (Word.ofNat 0)) m =
      .next 64 { m with
        mem := m.mem.write 64 (vectorImage [1, 2, 3])
        top := 64 + (vectorHeader + 3)
        strings := Function.update m.strings (m.mem.word 0) [1, 2, 3]
        trace := m.trace ++ [.saveStorageString (m.mem.word 0) [1, 2, 3]] } :=
  getStorageString_setStorageString 0 32 [1, 2, 3] _ _ (by decide) (by decide)
    ⟨by decide, by decide⟩

end LachainTarget
