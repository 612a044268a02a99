import LachainTarget.Memory

/-!
# The machine the generated code runs on

The backend emits LLVM IR; this module gives that code its runtime meaning.  A piece of
generated code is a `Code` action: it reads the host's answers (`Host`) and changes the
`Machine` (linear memory, the allocation frontier, the host's storage, and the `trace` of
everything handed to the host).  It ends in one of three ways: control falls through to the
next instruction (`Exit.next`), `system_halt` ends the invocation (`Exit.halt`), or an
`unreachable` instruction traps (`Exit.trap`).

The LLVM instructions the backend builds (`alloca`, `store`, `load`, `unreachable`) and the
runtime-library helpers it calls (`__malloc`, `__bzero8`, `__memcpy`, the byte-order
converters) are defined here; the host primitives follow in `Host`.
-/

namespace LachainTarget

/-- The kinds of external call (`ast::CallTy`). -/
inductive CallTy
  | regular
  | static
  | delegate
  deriving DecidableEq, Repr

/-- The digests the target lowers (`HashTy`). -/
inductive HashTy
  | keccak256
  | ripemd160
  | sha256
  deriving DecidableEq, Repr

/-- The context getters that take one result pointer (`get_address`, `get_sender`, ...). -/
inductive Getter
  | address
  | sender
  | gasLeft
  | txGasPrice
  | txOrigin
  | blockNumber
  | blockGasLimit
  | blockDifficulty
  | blockCoinbaseAddress
  | blockTimestamp
  | chainId
  deriving DecidableEq, Repr

/-- The bytes a getter's answer takes, for addresses `addressLength` bytes wide: the slot
`builtin` allocates for it (`u64` counters, `u256` prices and difficulty, addresses). -/
def Getter.width (addressLength : Nat) : Getter → Nat
  | .address | .sender | .txOrigin | .blockCoinbaseAddress => addressLength
  | .gasLeft | .blockNumber | .blockGasLimit | .blockTimestamp | .chainId => 8
  | .txGasPrice | .blockDifficulty => 32

/-- What the generated code hands the host: one entry per host call that consumes data, with
every operand read out of memory as the host reads it. -/
inductive Event
  | saveStorage (key value : Word)
  | saveStorageString (key : Word) (data : List UInt8)
  | invoke (callty : CallTy) (address input : List UInt8) (value : Word) (gas : List UInt8)
  | transfer (address : List UInt8) (value : Word)
  | create (value : Word) (input : List UInt8)
  | create2 (value : Word) (input : List UInt8) (salt : Word)
  | writeLog (data : List UInt8)
  | recover (hash : Word) (v : BitVec 8) (r s : Word)
  deriving DecidableEq

/-- The bytes each digest primitive writes. -/
def HashTy.len : HashTy → Nat
  | .keccak256 => 32
  | .ripemd160 => 20
  | .sha256 => 32

/-- Everything the host answers.  The status of a call or creation, the address a creation
writes and the last call's return data may depend on all the host has been handed so far.
Each fixed-size answer has its width: a digest its digest's length, a getter's answer its
slot's, and an address `addressLength` bytes. -/
structure Host where
  callData : List UInt8
  returnData : List Event → List UInt8
  msgValue : Word
  balance : List UInt8 → Word
  blockHash : List UInt8 → Word
  /-- The width in bytes of the host's addresses. -/
  addressLength : Nat
  context : Getter → List UInt8
  length_context : ∀ g, (context g).length = g.width addressLength
  status : List Event → BitVec 32
  created : List Event → List UInt8
  length_created : ∀ t, (created t).length = addressLength
  digest : HashTy → List UInt8 → List UInt8
  length_digest : ∀ k d, (digest k d).length = k.len
  recovered : Word → BitVec 8 → Word → Word → List UInt8
  length_recovered : ∀ hash v r s, (recovered hash v r s).length = addressLength

/-- The parts of `ast::Namespace` the backend reads. -/
structure Namespace where
  addressLength : Nat

/-- The width in bytes of a value: "lachain value is always 256 bits". -/
def Namespace.valueLength (_ : Namespace) : Nat := 32

/-- The state the generated code changes. -/
structure Machine where
  mem : Mem
  /-- The first address that no `alloca` or `__malloc` has handed out. -/
  top : Nat
  storage : Word → Word
  strings : Word → List UInt8
  trace : List Event
  /-- The data the last `set_return` handed over. -/
  returned : List UInt8
  /-- The globals `calldata_len` and `calldata_data` the prelude fills in. -/
  calldataLen : BitVec 32
  calldataData : Nat

/-- A machine with zeroed memory and its frontier at `top`, with nothing stored, traced or
returned yet: the start state of the concrete runs below. -/
def Machine.blank (top : Nat) : Machine where
  mem := fun _ => 0
  top := top
  storage := fun _ => Word.ofNat 0
  strings := fun _ => []
  trace := []
  returned := []
  calldataLen := 0
  calldataData := 0

/-- How a piece of generated code hands control on. -/
inductive Exit (α : Type)
  /-- Control falls through to the next instruction. -/
  | next (a : α) (m : Machine)
  /-- `system_halt` ended the invocation with this status. -/
  | halt (code : BitVec 32) (m : Machine)
  /-- An `unreachable` instruction was executed and the instance trapped. -/
  | trap (m : Machine)

/-- Run the continuation if control fell through. -/
def Exit.bind {α β : Type} : Exit α → (α → Machine → Exit β) → Exit β
  | .next a m, k => k a m
  | .halt code m, _ => .halt code m
  | .trap m, _ => .trap m

@[simp] theorem Exit.next_bind {α β : Type} (a : α) (m : Machine)
    (k : α → Machine → Exit β) : (Exit.next a m).bind k = k a m := rfl

@[simp] theorem Exit.halt_bind {α β : Type} (code : BitVec 32) (m : Machine)
    (k : α → Machine → Exit β) : (Exit.halt code m).bind k = .halt code m := rfl

@[simp] theorem Exit.trap_bind {α β : Type} (m : Machine) (k : α → Machine → Exit β) :
    (Exit.trap m).bind k = .trap m := rfl

/-- The machine an exit leaves, whichever way control left. -/
def Exit.machine {α : Type} : Exit α → Machine
  | .next _ m => m
  | .halt _ m => m
  | .trap m => m

/-- The 32-byte value operand of the events that carry one: calls, transfers, creations. -/
def Event.valueOperand : Event → Option Word
  | .invoke _ _ _ value _ => some value
  | .transfer _ value => some value
  | .create value _ => some value
  | .create2 value _ _ => some value
  | _ => none

/-- The value operand of the last event a run handed the host. -/
def Exit.valueOperand {α : Type} (x : Exit α) : Option Word :=
  x.machine.trace.getLast?.bind Event.valueOperand

/-- Generated code: what it does from a machine, given the host's answers. -/
def Code (α : Type) : Type := Host → Machine → Exit α

instance : Monad Code where
  pure a := fun _ m => .next a m
  bind c f := fun h m => (c h m).bind fun a => f a h

@[simp] theorem Code.pure_apply {α : Type} (a : α) (h : Host) (m : Machine) :
    (pure a : Code α) h m = .next a m := rfl

@[simp] theorem Code.bind_apply {α β : Type} (c : Code α) (f : α → Code β) (h : Host)
    (m : Machine) : (c >>= f) h m = (c h m).bind fun a => f a h := rfl

/-! ### Scratch use -/

/-- `m'` is `m` after code that used only memory it allocated itself: the frontier moved up,
no byte outside the span between the old and the new frontier changed, and every other field
is `m`'s. -/
def Machine.Scratch (m m' : Machine) : Prop :=
  ∃ mem top, m' = { m with mem := mem, top := top } ∧ m.top ≤ top ∧
    Mem.AgreeOutside m.top top m.mem mem

theorem Machine.Scratch.refl (m : Machine) : m.Scratch m :=
  ⟨m.mem, m.top, rfl, le_rfl, Mem.AgreeOutside.refl _ _ _⟩

theorem Machine.Scratch.trans {m₁ m₂ m₃ : Machine} (h₁ : m₁.Scratch m₂)
    (h₂ : m₂.Scratch m₃) : m₁.Scratch m₃ := by
  obtain ⟨mem₂, top₂, rfl, ht₂, ha₂⟩ := h₁
  obtain ⟨mem₃, top₃, rfl, ht₃, ha₃⟩ := h₂
  exact ⟨mem₃, top₃, rfl, le_trans ht₂ ht₃,
    (ha₂.mono le_rfl ht₃).trans (ha₃.mono ht₂ le_rfl)⟩

theorem Machine.Scratch.storage_eq {m m' : Machine} (h : m.Scratch m') :
    m'.storage = m.storage := by
  obtain ⟨_, _, rfl, _⟩ := h; rfl

theorem Machine.Scratch.trace_eq {m m' : Machine} (h : m.Scratch m') : m'.trace = m.trace := by
  obtain ⟨_, _, rfl, _⟩ := h; rfl

/-- Storing `x` into fresh memory and nothing after it: scratch use only. -/
theorem Machine.scratch_store (m : Machine) (n : Nat) (bs : List UInt8) (h : bs.length ≤ n) :
    m.Scratch { m with mem := m.mem.write m.top bs, top := m.top + n } :=
  ⟨_, _, rfl, by omega, (Mem.AgreeOutside.refl _ _ _).write _ le_rfl (by omega)⟩

/-! ### LLVM instructions -/

/-- `build_alloca`: a fresh stack slot of `n` bytes, holding whatever memory held there. -/
def alloca (n : Nat) : Code Nat := fun _ m => .next m.top { m with top := m.top + n }

/-- `build_store` of a `w`-bit integer. -/
def store {w : Nat} (p : Nat) (v : BitVec w) : Code Unit := fun _ m =>
  .next () { m with mem := m.mem.write p (leBytes (storeSize w) v.toNat) }

/-- `build_load` of a `w`-bit integer. -/
def load (w : Nat) (p : Nat) : Code (BitVec w) := fun _ m =>
  .next (BitVec.ofNat w (ofLeBytes (m.mem.read p (storeSize w)))) m

/-- `build_unreachable`: the wasm `unreachable` instruction traps. -/
def unreachable {α : Type} : Code α := fun _ m => .trap m

/-- The memory at `p` holds the `w`-bit value `v`, as a store of `v` leaves it. -/
def Mem.Holds {w : Nat} (mem : Mem) (p : Nat) (v : BitVec w) : Prop :=
  mem.read p (storeSize w) = leBytes (storeSize w) v.toNat

theorem load_of_holds {w p : Nat} {v : BitVec w} (h : Host) {m : Machine}
    (hv : m.mem.Holds p v) : load w p h m = .next v m := by
  simp only [load, show m.mem.read p (storeSize w) = _ from hv, ofNat_ofLeBytes_leBytes,
    BitVec.ofNat_toNat, BitVec.setWidth_eq]

theorem holds_write_store {w : Nat} (mem : Mem) (p : Nat) (v : BitVec w) :
    (mem.write p (leBytes (storeSize w) v.toNat)).Holds p v :=
  Mem.read_write_of_length _ _ (length_leBytes _ _)

/-! ### Runtime library

The helpers below live in the backend's C runtime library, which is not part of this
repository's sources; each is modelled from the spec. -/

/-- Modelled from the spec: `__malloc` hands out `n` bytes of the invocation's arena, which
"is never explicitly freed". -/
def malloc (n : BitVec 32) : Code Nat := fun _ m =>
  .next m.top { m with top := m.top + n.toNat }

/-- Modelled from the spec: `__init_heap` creates the arena.  Here the allocation frontier
`top` already is that arena, so there is nothing left for it to set up. -/
def initHeap : Code Unit := pure ()

/-- Modelled from the spec: `__bzero8 p n` zeroes `n` blocks of eight bytes at `p`
("zero a 256-bit scratch word" is `__bzero8 p 4`). -/
def bzero8 (p : Nat) (n : BitVec 32) : Code Unit := fun _ m =>
  .next () { m with mem := m.mem.write p (List.replicate (8 * n.toNat) 0) }

/-- Modelled from the spec: `__memcpy dst src n` copies `n` bytes. -/
def memcpy (dst src : Nat) (n : BitVec 32) : Code Unit := fun _ m =>
  .next () { m with mem := m.mem.write dst (m.mem.read src n.toNat) }

/-- Modelled from the spec: `__be32toleN src dst n`, the "byte-order-reversal primitive"
of the value operands, writes the first `n` bytes of the 32-byte word at `src` read from
its far end. -/
def be32toleN (src dst : Nat) (n : BitVec 32) : Code Unit := fun _ m =>
  .next () { m with mem := m.mem.write dst ((m.mem.read src 32).reverse.take n.toNat) }

/-- Modelled from the spec: `__beNtoleN src dst n` reverses the `n` bytes at `src` into
`dst`, the reversal that hashing applies to a digest. -/
def beNtoleN (src dst : Nat) (n : BitVec 32) : Code Unit := fun _ m =>
  .next () { m with mem := m.mem.write dst (m.mem.read src n.toNat).reverse }

/-- Modelled from the spec: `struct.vector`, the EncodedBuffer, is a 32-bit length, a
32-bit size and then the data, so its header is 8 bytes. -/
def vectorHeader : Nat := 8

/-- The address of field `i` of the `struct.vector` at `v`, as `build_gep(v, [0, i])`
computes it. -/
def vectorField (v : Nat) : Fin 3 → Nat
  | 0 => v
  | 1 => v + 4
  | 2 => v + vectorHeader

/-- Modelled from the spec: `vector_len` loads the length field. -/
def vectorLen (v : Nat) : Code (BitVec 32) := load 32 (vectorField v 0)

/-- Modelled from the spec: `vector_bytes` is the address of the data. -/
def vectorBytes (v : Nat) : Nat := vectorField v 2

/-- The `struct.vector` at `v` holds `b`: its length field is `|b|` and its data are `b`. -/
def Mem.HoldsVector (mem : Mem) (v : Nat) (b : List UInt8) : Prop :=
  mem.read (vectorField v 0) 4 = leBytes 4 b.length ∧ mem.read (vectorField v 2) b.length = b

end LachainTarget
