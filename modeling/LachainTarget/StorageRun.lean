import LachainTarget.Storage

/-!
# Runs of storage operations

A run is any sequence of fixed-width writes and deletes, each issued the way a caller hands
`set_storage` and `storage_delete_single_slot` their pointers: the 256-bit slot and the
value are first stored into fresh stack memory.  The abstract model of storage is a map
from slots to 256-bit values; `Realises` says the host's words encode it.

* `exec_realises` — one operation keeps the host storage a realisation of the abstract
  store, and hands `save_storage` exactly the word `StorageOp.saved` names;
* `runStorage_realises` — by induction, so does every run;
* **`storage_run_saves_and_reads_last_write`** — every word a run saves is its value
  zero-extended (or zero for a delete), and reading a slot back returns the value its last
  write stored at that width, or zero after a delete;
* **`storage_read_other_width`** — read at another width, the last write comes back
  zero-extended or cut, never mixed with an earlier value's bytes.
-/

namespace LachainTarget

/-- The storage key of a slot: the slot's 32 bytes as a store of the `i256` leaves them. -/
def slotKey (slot : BitVec 256) : Word := Word.ofNat slot.toNat

theorem slotKey_injective {a b : BitVec 256} (h : slotKey a = slotKey b) : a = b := by
  have := congrArg Word.toNat h
  rwa [slotKey, slotKey, Word.toNat_ofNat, Word.toNat_ofNat, Nat.mod_eq_of_lt a.isLt,
    Nat.mod_eq_of_lt b.isLt, ← BitVec.toNat_eq] at this

/-- A fixed-width storage operation: set a slot to a `w`-bit value, or delete it. -/
inductive StorageOp
  | set (slot : BitVec 256) (w : Nat) (v : BitVec w)
  | delete (slot : BitVec 256)

namespace StorageOp

/-- The slot an operation acts on. -/
def slot : StorageOp → BitVec 256
  | set slot _ _ => slot
  | delete slot => slot

/-- The width of the value an operation writes. -/
def width : StorageOp → Nat
  | set _ w _ => w
  | delete _ => 256

/-- One operation as its caller issues it: slot and value go into fresh stack memory, whose
addresses become the lowering's pointers. -/
def exec : StorageOp → Code Unit
  | set slot w v => do
    let s ← alloca 32
    store s slot
    let d ← alloca (storeSize w)
    store d v
    setStorage w s d
  | delete slot => do
    let s ← alloca 32
    store s slot
    storageDeleteSingleSlot s

/-- The `save_storage` call an operation makes: its slot's key and its value zero-extended to
a word, or the all-zero word. -/
def saved : StorageOp → Event
  | set slot _ v => .saveStorage (slotKey slot) (Word.ofNat v.toNat)
  | delete slot => .saveStorage (slotKey slot) (Word.ofNat 0)

/-- The abstract effect of an operation on the map from slots to 256-bit values. -/
def apply : StorageOp → (BitVec 256 → BitVec 256) → BitVec 256 → BitVec 256
  | set slot _ v, σ => Function.update σ slot (v.setWidth 256)
  | delete slot, σ => Function.update σ slot 0

end StorageOp

/-- A run of storage operations, one after the other. -/
def runStorage : List StorageOp → Code Unit
  | [] => pure ()
  | op :: ops => op.exec >>= fun _ => runStorage ops

/-- Read a slot back at width `w`, its caller storing the slot into fresh memory. -/
def readStorage (slot : BitVec 256) (w : Nat) : Code (BitVec w) := do
  let s ← alloca 32
  store s slot
  getStorageInt w s

/-- The host's words encode the abstract store: the word under each slot's key is the
slot's value. -/
def Realises (σ : BitVec 256 → BitVec 256) (storage : Word → Word) : Prop :=
  ∀ slot, storage (slotKey slot) = Word.ofNat (σ slot).toNat

/-- Every host storage realises the store read off it. -/
theorem realises_initial (storage : Word → Word) :
    Realises (fun slot => BitVec.ofNat 256 (storage (slotKey slot)).toNat) storage := by
  intro slot
  rw [BitVec.toNat_ofNat, Nat.mod_eq_of_lt (Word.toNat_lt _), Word.ofNat_toNat]

theorem Realises.update {σ : BitVec 256 → BitVec 256} {storage : Word → Word}
    (hR : Realises σ storage) (slot x : BitVec 256) :
    Realises (Function.update σ slot x)
      (Function.update storage (slotKey slot) (Word.ofNat x.toNat)) := by
  intro s
  by_cases hs : s = slot
  · subst hs; simp
  · rw [Function.update_noteq (fun h => hs (slotKey_injective h)), Function.update_noteq hs, hR]

/-- The key a caller stored at the frontier is the slot's key. -/
theorem word_slot (m : Machine) (slot : BitVec 256) (bs : List UInt8) :
    ((m.mem.write m.top (leBytes 32 slot.toNat)).write (m.top + 32) bs).word m.top =
      slotKey slot := by
  rw [Mem.word_write_of_le _ _ le_rfl, slotKey, ← Word.bytes_ofNat, Mem.word_write_word]

theorem exec_set {w : Nat} (hw : w ≤ 256) (slot : BitVec 256) (v : BitVec w) (h : Host)
    (m : Machine) : ∃ m₁, m.Scratch m₁ ∧
      (StorageOp.set slot w v).exec h m =
        .next () (m₁.saveWord (slotKey slot) (Word.ofNat v.toNat)) := by
  let m₂ : Machine := { m with
    mem := (m.mem.write m.top (leBytes 32 slot.toNat)).write (m.top + 32)
      (leBytes (storeSize w) v.toNat)
    top := m.top + 32 + storeSize w }
  obtain ⟨m₁, hs, heq⟩ := setStorage_apply hw m.top (m.top + 32) v h m₂ (by simp [m₂])
    (by simp [m₂]) (holds_write_store _ _ _)
  have h₂ : m.Scratch m₂ := ⟨_, _, rfl, by omega,
    ((Mem.AgreeOutside.refl _ _ _).write _ le_rfl (by simp)).write _ (by omega) (by simp)⟩
  refine ⟨m₁, h₂.trans hs, ?_⟩
  rw [show (StorageOp.set slot w v).exec h m = setStorage w m.top (m.top + 32) h m₂ from rfl,
    heq, show m₂.mem.word m.top = slotKey slot from word_slot m slot _]

theorem exec_delete (slot : BitVec 256) (h : Host) (m : Machine) : ∃ m₁, m.Scratch m₁ ∧
    (StorageOp.delete slot).exec h m = .next () (m₁.saveWord (slotKey slot) (Word.ofNat 0)) := by
  let m₂ : Machine := { m with mem := m.mem.write m.top (slotKey slot).bytes, top := m.top + 32 }
  refine ⟨_, (m.scratch_store 32 _ (Word.length_bytes _).le).trans
    (m₂.scratch_store 32 (Word.ofNat 0).bytes (Word.length_bytes _).le), ?_⟩
  rw [show (StorageOp.delete slot).exec h m = storageDeleteSingleSlot m.top h m₂ from rfl,
    storageDeleteSingleSlot_apply m.top h m₂ le_rfl,
    show m₂.mem.word m.top = slotKey slot from Mem.word_write_word _ _ _]

/-- One operation keeps the host storage a realisation of the abstract store, and hands
`save_storage` exactly `op.saved`. -/
theorem exec_realises {op : StorageOp} (hw : op.width ≤ 256) {σ : BitVec 256 → BitVec 256}
    (h : Host) {m : Machine} (hR : Realises σ m.storage) :
    ∃ m', op.exec h m = .next () m' ∧ Realises (op.apply σ) m'.storage ∧
      m'.trace = m.trace ++ [op.saved] := by
  cases op with
  | set slot w v =>
    obtain ⟨m₁, hs, heq⟩ := exec_set hw slot v h m
    have hv : (v.setWidth 256).toNat = v.toNat := by
      rw [BitVec.toNat_setWidth, Nat.mod_eq_of_lt (Nat.lt_of_lt_of_le v.isLt
        (Nat.pow_le_pow_right (by decide) hw))]
    refine ⟨_, heq, ?_, by simp [Machine.saveWord, hs.trace_eq, StorageOp.saved]⟩
    simpa [Machine.saveWord, hs.storage_eq, StorageOp.apply, hv] using
      hR.update slot (v.setWidth 256)
  | delete slot =>
    obtain ⟨m₁, hs, heq⟩ := exec_delete slot h m
    refine ⟨_, heq, ?_, by simp [Machine.saveWord, hs.trace_eq, StorageOp.saved]⟩
    simpa [Machine.saveWord, hs.storage_eq, StorageOp.apply] using hR.update slot 0

/-- A whole run keeps the realisation, and its `save_storage` calls are its operations'
`saved` events in order. -/
theorem runStorage_realises (ops : List StorageOp) (hw : ∀ op ∈ ops, op.width ≤ 256)
    (h : Host) {σ : BitVec 256 → BitVec 256} {m : Machine} (hR : Realises σ m.storage) :
    ∃ m', runStorage ops h m = .next () m' ∧
      Realises (ops.foldl (fun σ op => op.apply σ) σ) m'.storage ∧
      m'.trace = m.trace ++ ops.map StorageOp.saved := by
  induction ops generalizing σ m with
  | nil => exact ⟨m, rfl, hR, by simp⟩
  | cons op ops ih =>
    obtain ⟨m₁, h₁, hR₁, ht₁⟩ := exec_realises (hw op (List.mem_cons_self _ _)) h hR
    obtain ⟨m₂, h₂, hR₂, ht₂⟩ := ih (fun o ho => hw o (List.mem_cons_of_mem _ ho)) hR₁
    exact ⟨m₂, by simp [runStorage, h₁, h₂], hR₂, by simp [ht₂, ht₁]⟩

/-- Reading a slot back returns its abstract value cut to the width read. -/
theorem readStorage_realises {w : Nat} (hw : w ≤ 256) (slot : BitVec 256) (h : Host)
    {σ : BitVec 256 → BitVec 256} {m : Machine} (hR : Realises σ m.storage) :
    ∃ m', readStorage slot w h m = .next ((σ slot).setWidth w) m' := by
  let m₂ : Machine := { m with mem := m.mem.write m.top (slotKey slot).bytes, top := m.top + 32 }
  obtain ⟨m₁, -, heq⟩ := getStorageInt_apply hw m.top h m₂
  refine ⟨m₁, ?_⟩
  rw [show readStorage slot w h m = getStorageInt w m.top h m₂ from rfl, heq]
  simp [m₂, hR slot, Word.decode_ofNat hw]

/-- Operations on other slots leave a slot's abstract value alone. -/
theorem foldl_apply_of_ne (ops : List StorageOp) {slot : BitVec 256}
    (hne : ∀ op ∈ ops, op.slot ≠ slot) (σ : BitVec 256 → BitVec 256) :
    ops.foldl (fun σ op => op.apply σ) σ slot = σ slot := by
  induction ops generalizing σ with
  | nil => rfl
  | cons op ops ih =>
    rw [List.foldl_cons, ih (fun o ho => hne o (List.mem_cons_of_mem _ ho))]
    cases op <;> exact Function.update_noteq (hne _ (List.mem_cons_self _ _)).symm _ _

/-- The abstract value of a slot after a run whose last operation on it is `op`. -/
theorem foldl_apply_last (pre post : List StorageOp) (op : StorageOp) {slot : BitVec 256}
    (hne : ∀ o ∈ post, o.slot ≠ slot) (σ : BitVec 256 → BitVec 256) :
    (pre ++ op :: post).foldl (fun σ op => op.apply σ) σ slot =
      op.apply (pre.foldl (fun σ op => op.apply σ) σ) slot := by
  rw [List.foldl_append, List.foldl_cons, foldl_apply_of_ne post hne]

theorem width_le_of_mem_insert {pre post : List StorageOp} {op : StorageOp}
    (hws : ∀ o ∈ pre ++ post, o.width ≤ 256) (hop : op.width ≤ 256) :
    ∀ o ∈ pre ++ op :: post, o.width ≤ 256 := by
  intro o ho
  simp only [List.mem_append, List.mem_cons] at ho
  rcases ho with ho | rfl | ho
  · exact hws o (List.mem_append_left _ ho)
  · exact hop
  · exact hws o (List.mem_append_right _ ho)

/-- Reading a slot back after a run whose last operation on the slot is `op` returns what
`op` left in the abstract store, cut to the width read. -/
theorem readStorage_after_last (pre post : List StorageOp) (op : StorageOp) {w : Nat}
    (hw : w ≤ 256) (hop : op.width ≤ 256) (hws : ∀ o ∈ pre ++ post, o.width ≤ 256)
    (hne : ∀ o ∈ post, o.slot ≠ op.slot) (h : Host) (m : Machine) :
    ∃ m' m'', runStorage (pre ++ op :: post) h m = .next () m' ∧
      readStorage op.slot w h m' =
        .next ((op.apply (pre.foldl (fun σ op => op.apply σ)
          fun s => BitVec.ofNat 256 (m.storage (slotKey s)).toNat) op.slot).setWidth w) m'' := by
  obtain ⟨m', hrun, hR', -⟩ := runStorage_realises (pre ++ op :: post)
    (width_le_of_mem_insert hws hop) h (realises_initial m.storage)
  obtain ⟨m'', hread⟩ := readStorage_realises hw op.slot h hR'
  exact ⟨m', m'', hrun, by rw [hread, foldl_apply_last pre post op hne]⟩

/-- Every word a run hands `save_storage` is the written value zero-extended to 256 bits, or
the zero word for a delete; and reading a slot back at width `w` returns the value the last
operation on the slot wrote at that width, or zero at every width after a delete. -/
theorem storage_run_saves_and_reads_last_write (h : Host) (m : Machine) :
    (∀ ops : List StorageOp, (∀ op ∈ ops, op.width ≤ 256) →
      ∃ m', runStorage ops h m = .next () m' ∧
        m'.trace = m.trace ++ ops.map StorageOp.saved) ∧
    (∀ (pre post : List StorageOp) (slot : BitVec 256) (w : Nat) (v : BitVec w),
      w ≤ 256 → (∀ op ∈ pre ++ post, op.width ≤ 256) →
      (∀ op ∈ post, op.slot ≠ slot) →
      ∃ m' m'', runStorage (pre ++ .set slot w v :: post) h m = .next () m' ∧
        readStorage slot w h m' = .next v m'') ∧
    (∀ (pre post : List StorageOp) (slot : BitVec 256) (w : Nat),
      w ≤ 256 → (∀ op ∈ pre ++ post, op.width ≤ 256) →
      (∀ op ∈ post, op.slot ≠ slot) →
      ∃ m' m'', runStorage (pre ++ .delete slot :: post) h m = .next () m' ∧
        readStorage slot w h m' = .next 0 m'') := by
  refine ⟨fun ops hw => ?_, fun pre post slot w v hw hws hne => ?_,
    fun pre post slot w hw hws hne => ?_⟩
  · obtain ⟨m', hrun, -, htrace⟩ := runStorage_realises ops hw h (realises_initial m.storage)
    exact ⟨m', hrun, htrace⟩
  · obtain ⟨m', m'', hrun, hread⟩ :=
      readStorage_after_last pre post (.set slot w v) hw hw hws hne h m
    exact ⟨m', m'', hrun, by
      simpa [StorageOp.apply, StorageOp.slot, BitVec.setWidth_setWidth_of_le _ hw] using hread⟩
  · obtain ⟨m', m'', hrun, hread⟩ :=
      readStorage_after_last pre post (.delete slot) hw le_rfl hws hne h m
    exact ⟨m', m'', hrun, by simpa [StorageOp.apply, StorageOp.slot] using hread⟩

/-- A byte written to slot 0 and slot 1 deleted: the run saves both words; slot 0 reads
back as the byte, and after a later delete of slot 0 it reads back as zero at full width. -/
theorem storage_run_saves_and_reads_last_write_blank :
    (∃ m', runStorage [.set 0 8 5, .delete 1] (Host.replying 0 [] (Word.ofNat 0))
        (Machine.blank 0) = .next () m' ∧
      m'.trace = [] ++ [StorageOp.set 0 8 5, .delete 1].map StorageOp.saved) ∧
    (∃ m' m'', runStorage ([] ++ .set 0 8 5 :: [.delete 1]) (Host.replying 0 [] (Word.ofNat 0))
        (Machine.blank 0) = .next () m' ∧
      readStorage 0 8 (Host.replying 0 [] (Word.ofNat 0)) m' = .next 5 m'') ∧
    (∃ m' m'', runStorage ([.set 0 8 5] ++ .delete 0 :: []) (Host.replying 0 [] (Word.ofNat 0))
        (Machine.blank 0) = .next () m' ∧
      readStorage 0 256 (Host.replying 0 [] (Word.ofNat 0)) m' = .next 0 m'') :=
  ⟨(storage_run_saves_and_reads_last_write _ _).1 _ (by decide),
    (storage_run_saves_and_reads_last_write _ _).2.1 [] [.delete 1] 0 8 5 (by decide) (by decide)
      (by decide),
    (storage_run_saves_and_reads_last_write _ _).2.2 [.set 0 8 5] [] 0 256 (by decide) (by decide)
      (by decide)⟩

/-- A value written at width `w` reads back at any width `w'` as the value zero-extended or
cut to `w'`: the write replaces the whole 256-bit word, so a narrow write leaves none of the
high bytes of an earlier, wider one, and a narrow read sees only the low bytes. -/
theorem storage_read_other_width (pre post : List StorageOp) (slot : BitVec 256) {w w' : Nat}
    (v : BitVec w) (hw : w ≤ 256) (hw' : w' ≤ 256) (hws : ∀ op ∈ pre ++ post, op.width ≤ 256)
    (hne : ∀ op ∈ post, op.slot ≠ slot) (h : Host) (m : Machine) :
    ∃ m' m'', runStorage (pre ++ .set slot w v :: post) h m = .next () m' ∧
      readStorage slot w' h m' = .next (v.setWidth w') m'' := by
  obtain ⟨m', m'', hrun, hread⟩ :=
    readStorage_after_last pre post (.set slot w v) hw' hw hws hne h m
  exact ⟨m', m'', hrun, by
    simpa [StorageOp.apply, StorageOp.slot, BitVec.setWidth_setWidth_of_le _ hw'] using hread⟩

/-- All ones written at full width, then a byte 5 over it: the slot reads back at full width
as 5, with none of the ones left. -/
theorem storage_read_other_width_narrow_over_wide :
    ∃ m' m'', runStorage ([.set 0 256 (-1)] ++ .set 0 8 5 :: [])
        (Host.replying 0 [] (Word.ofNat 0)) (Machine.blank 0) = .next () m' ∧
      readStorage 0 256 (Host.replying 0 [] (Word.ofNat 0)) m' =
        .next ((5 : BitVec 8).setWidth 256) m'' :=
  storage_read_other_width [.set 0 256 (-1)] [] 0 5 (by decide) (by decide) (by decide)
    (by decide) _ _

end LachainTarget
