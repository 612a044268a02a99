import LachainTarget.Encode

/-!
# External calls, value transfers and contract creation

The three families that hand the host a 256-bit value operand.  `external_call` and
`value_transfer` store the value, byte-reverse it with `__be32toleN` into a second scratch
word and pass that; `create_contract` stores the value and passes it as it is.  Every site
ends in the same status test (`checkSuccess`): with a success output the comparison is
handed back, without one a nonzero status reverts with no data.  In `create_contract` the
host's status is bound to an inner `ret` that shadows the constant the test compares, so
the test never sees it.

* `checkSuccess_status` — the status test is `statusOutcome`, the required handling of a
  status, in both success modes;
* `externalCall_status`, `valueTransfer_status` — the event each hands the host (the value
  byte-reversed), and that the outcome is the required one for the host's answer to it;
* `checkSuccess_true` — on the constant comparison `create_contract` makes, the test always
  reports success;
* `createContract_apply` — the creation event (code blob then encoded constructor
  arguments, the value unreversed) and a status test on the constant zero;
* **`createContract_ignores_status`** — a failed creation is reported as a success;
* **`encode_layout`** — the buffer layout of `encode`, the creation input, and the buffer
  `abi_encode` fills from the operands it hands the encoder.
-/

namespace LachainTarget

/-- The status test that closes every call and creation site, on `is_success`: with a
success output the comparison is handed back; without one a true comparison continues at
the success block and a false one reverts with no data. -/
def checkSuccess (success : Bool) (isSuccess : Bool) : Code (Option Bool) :=
  if success then pure (some isSuccess)
  else if isSuccess then pure none
  else assertFailure 0 0

/-- What a call or creation site must make of the host's status `r`: with a success output,
hand back whether `r = 0`; without one, continue when `r = 0` and otherwise revert through
`assert_failure` with no data. -/
def statusOutcome (success : Bool) (r : BitVec 32) (m : Machine) : Exit (Option Bool) :=
  if success then .next (some (r == 0)) m
  else if r = 0 then .next none m
  else .halt 1 { m with returned := [] }

/-- The outcome keeps the trace the site built, whichever way it goes. -/
theorem statusOutcome_trace (success : Bool) (r : BitVec 32) (m : Machine) :
    (statusOutcome success r m).machine.trace = m.trace := by
  unfold statusOutcome; split_ifs <;> rfl

/-- The status test, applied to the comparison of the host's status with zero, is the
required outcome in both success modes and for every status. -/
theorem checkSuccess_status (success : Bool) (r : BitVec 32) (h : Host) (m : Machine) :
    checkSuccess success (r == 0) h m = statusOutcome success r m := by
  cases success
  · simp only [checkSuccess, statusOutcome, beq_iff_eq, Bool.false_eq_true, if_false]
    split_ifs <;> rfl
  · rfl

/-- On a true comparison, the one `create_contract`'s test always sees, the status test
reports success in both modes. -/
theorem checkSuccess_true (success : Bool) (h : Host) (m : Machine) :
    checkSuccess success true h m = .next (if success then some true else none) m := by
  cases success <;> rfl

/-! ### Calls and transfers -/

/-- `external_call` of kind `callty`. -/
def externalCall (ns : Namespace) (success : Bool) (payload : Nat) (payloadLen : BitVec 32)
    (address : Nat) (gas : BitVec 64) (value : BitVec 256) (callty : CallTy) :
    Code (Option Bool) := do
  let valueBePtr ← alloca ns.valueLength
  store valueBePtr value
  let valueLePtr ← alloca ns.valueLength
  let typeSize := ns.valueLength
  be32toleN valueBePtr valueLePtr (BitVec.ofNat 32 typeSize)
  let gasPtr ← alloca 8
  store gasPtr gas
  let ret ← invokeContract ns callty address payloadLen payload valueLePtr gasPtr
  checkSuccess success (ret == 0)

/-- `value_transfer`: send `value` to `address`. -/
def valueTransfer (ns : Namespace) (success : Bool) (address : Nat) (value : BitVec 256) :
    Code (Option Bool) := do
  let valueBePtr ← alloca ns.valueLength
  store valueBePtr value
  let valueLePtr ← alloca ns.valueLength
  let typeSize := ns.valueLength
  be32toleN valueBePtr valueLePtr (BitVec.ofNat 32 typeSize)
  let ret ← transfer ns address valueLePtr
  checkSuccess success (ret == 0)

/-- The value word `__be32toleN` leaves in the second scratch word: the stored value's bytes
from the far end. -/
theorem word_be32toleN (mem : Mem) (a n : Nat) :
    (mem.write a ((leBytes 32 n).reverse.take 32)).word a = (Word.ofNat n).reverse := by
  rw [List.take_of_length_le (by simp), ← Word.bytes_ofNat, ← Word.bytes_reverse,
    Mem.word_write_word]

/-- Every status the host returns for the call is handled as required: the outcome of
`external_call` is `statusOutcome` of exactly that status. -/
theorem externalCall_status (ns : Namespace) (success : Bool) (payload : Nat)
    (payloadLen : BitVec 32) (address : Nat) (gas : BitVec 64) (value : BitVec 256)
    (callty : CallTy) (h : Host) (m : Machine) (haddr : address + ns.addressLength ≤ m.top)
    (hpayload : payload + payloadLen.toNat ≤ m.top) :
    ∃ m₁, m.Scratch m₁ ∧
      let e := Event.invoke callty (m.mem.read address ns.addressLength)
        (m.mem.read payload payloadLen.toNat) (Word.ofNat value.toNat).reverse
        (leBytes 8 gas.toNat)
      externalCall ns success payload payloadLen address gas value callty h m =
        statusOutcome success (h.status (m.trace ++ [e]))
          { m₁ with trace := m.trace ++ [e] } := by
  let mem₁ := m.mem.write m.top (leBytes 32 value.toNat)
  let mem₂ := mem₁.write (m.top + 32) ((leBytes 32 value.toNat).reverse.take 32)
  let mem₃ := mem₂.write (m.top + 32 + 32) (leBytes 8 gas.toNat)
  have hagree : Mem.AgreeOutside m.top (m.top + 32 + 32 + 8) m.mem mem₃ := by
    refine (((Mem.AgreeOutside.refl _ _ _).write _ le_rfl ?_).write _ ?_ ?_).write _ ?_ ?_ <;>
      (try simp only [List.length_take, List.length_reverse, length_leBytes]) <;> omega
  refine ⟨{ m with mem := mem₃, top := m.top + 32 + 32 + 8 }, ⟨_, _, rfl, by omega, hagree⟩,
    ?_⟩
  simp only [externalCall, Code.bind_apply, alloca, store, be32toleN, invokeContract,
    emitWithStatus, Exit.next_bind, Namespace.valueLength, storeSize_256, storeSize_64,
    BitVec.toNat_ofNat, Nat.reduceMod, Nat.reducePow]
  rw [Mem.read_write_of_length _ m.top (length_leBytes 32 value.toNat),
    hagree.agreeBelow.read haddr, hagree.agreeBelow.read hpayload,
    Mem.read_write_of_length _ _ (length_leBytes _ _), Mem.word_write_of_le _ _ le_rfl,
    word_be32toleN, checkSuccess_status]

/-- Every status the host returns for the transfer is handled as required. -/
theorem valueTransfer_status (ns : Namespace) (success : Bool) (address : Nat)
    (value : BitVec 256) (h : Host) (m : Machine) (haddr : address + ns.addressLength ≤ m.top) :
    ∃ m₁, m.Scratch m₁ ∧
      let e := Event.transfer (m.mem.read address ns.addressLength)
        (Word.ofNat value.toNat).reverse
      valueTransfer ns success address value h m =
        statusOutcome success (h.status (m.trace ++ [e]))
          { m₁ with trace := m.trace ++ [e] } := by
  let mem₂ := (m.mem.write m.top (leBytes 32 value.toNat)).write (m.top + 32)
    ((leBytes 32 value.toNat).reverse.take 32)
  have hagree : Mem.AgreeOutside m.top (m.top + 32 + 32) m.mem mem₂ := by
    refine ((Mem.AgreeOutside.refl _ _ _).write _ le_rfl ?_).write _ ?_ ?_ <;>
      (try simp only [List.length_take, List.length_reverse, length_leBytes]) <;> omega
  refine ⟨{ m with mem := mem₂, top := m.top + 32 + 32 }, ⟨_, _, rfl, by omega, hagree⟩,
    ?_⟩
  simp only [valueTransfer, Code.bind_apply, alloca, store, be32toleN, transfer,
    emitWithStatus, Exit.next_bind, Namespace.valueLength, storeSize_256,
    BitVec.toNat_ofNat, Nat.reduceMod, Nat.reducePow]
  rw [Mem.read_write_of_length _ m.top (length_leBytes 32 value.toNat),
    hagree.agreeBelow.read haddr, word_be32toleN, checkSuccess_status]

/-! ### Creation -/

/-- `emit_global_string`: a constant global holding `data`.  The loader places it in memory
no allocation hands out; the model takes that memory from the frontier and writes the bytes
there. -/
def emitGlobalString (data : List UInt8) : Code Nat := fun _ m =>
  .next m.top { m with mem := m.mem.write m.top data, top := m.top + data.length }

/-- An encoder of the concrete runs that writes nothing. -/
def emptyEncoder (_ : EncoderInput) : Encoder := ⟨0, [], rfl⟩

/-- An encoder of the concrete runs whose output is the two bytes `ab cd`. -/
def twoByteEncoder (_ : EncoderInput) : Encoder := ⟨2, [0xab, 0xcd], rfl⟩

section

-- `EncoderBuilder::new`, the shared encoder this repository does not contain.
variable (newEncoder : EncoderInput → Encoder) (ns : Namespace)

/-- `create_contract`: `wasm` is the code the driver compiled for the contract being created
and `tys` its constructor's parameter types.  The host's status is bound to a fresh `_ret`
in each branch, as the source binds it to an inner `ret`, and the test reads the outer
`ret`, the constant zero. -/
def createContract (success : Bool) (wasm : List UInt8) (tys : List Ty) (address : Nat)
    (args : List Nat) (value salt : Option (BitVec 256)) : Code (Option Bool) := do
  let code ← emitGlobalString wasm
  let (input, inputLen) ← encode newEncoder (some (code, wasm.length)) false [] args tys
  let valuePtr ← alloca ns.valueLength
  store valuePtr (match value with
    | some v => v
    | none => 0)
  let ret : BitVec 32 := 0
  match salt with
  | some salt => do
    let saltPtr ← alloca ns.valueLength
    store saltPtr salt
    let _ret ← create2 valuePtr input inputLen saltPtr address
    pure ()
  | none => do
    let _ret ← create valuePtr input inputLen address
    pure ()
  checkSuccess success (ret == 0)

/-- The event a creation hands the host: the value as stored, the creation input, and the
salt for `create2`. -/
def creationEvent (value : BitVec 256) (input : List UInt8) : Option (BitVec 256) → Event
  | some salt => .create2 (Word.ofNat value.toNat) input (Word.ofNat salt.toNat)
  | none => .create (Word.ofNat value.toNat) input

/-- A creation hands the host the value as stored and the contract code followed by the
encoded constructor arguments, and then reports success whatever the host answers. -/
theorem createContract_apply (success : Bool) (wasm : List UInt8) (tys : List Ty)
    (address : Nat) (args : List Nat) (value salt : Option (BitVec 256)) (h : Host) (m : Machine)
    (hlen : wasm.length + (newEncoder ⟨false, [], args, tys⟩).encodedLength.toNat < 2 ^ 32) :
    ∃ m', createContract newEncoder ns success wasm tys address args value salt h m =
        .next (if success then some true else none) m' ∧
      m'.trace = m.trace ++ [creationEvent (value.getD 0)
        (wasm ++ (newEncoder ⟨false, [], args, tys⟩).output) salt] := by
  have hmod :
      (wasm.length + (newEncoder ⟨false, [], args, tys⟩).encodedLength.toNat) % 4294967296 =
        wasm.length + (newEncoder ⟨false, [], args, tys⟩).encodedLength.toNat :=
    Nat.mod_eq_of_lt hlen
  have hin : ∀ (mem : Mem) (a : Nat),
      (mem.write a (wasm ++ (newEncoder ⟨false, [], args, tys⟩).output)).read a
        (wasm.length + (newEncoder ⟨false, [], args, tys⟩).encodedLength.toNat) =
          wasm ++ (newEncoder ⟨false, [], args, tys⟩).output :=
    fun mem a => Mem.read_write_of_length _ _ (by simp [Encoder.length_output])
  simp only [createContract, Code.bind_apply, emitGlobalString, Exit.next_bind]
  rw [encode_some_apply newEncoder wasm _ false [] args tys h _ (Mem.read_write_self _ _ _) hlen]
  cases value <;> cases salt <;>
    simp (disch := omega) [alloca, store, create, create2, emitWithStatus, writeCreated,
      checkSuccess_true, Namespace.valueLength, creationEvent, hmod, hin, Mem.read_write_of_le,
      Mem.word_write_of_le]

/-- Whatever status the host returns for the creation, `create_contract` reports success:
with a success output it hands back `true`, without one it continues.  For a nonzero status
that is never the required outcome. -/
theorem createContract_ignores_status (success : Bool) (wasm : List UInt8) (tys : List Ty)
    (address : Nat) (args : List Nat) (value salt : Option (BitVec 256)) (h : Host) (m : Machine)
    (hlen : wasm.length + (newEncoder ⟨false, [], args, tys⟩).encodedLength.toNat < 2 ^ 32)
    (hr : h.status (m.trace ++ [creationEvent (value.getD 0)
      (wasm ++ (newEncoder ⟨false, [], args, tys⟩).output) salt]) ≠ 0) :
    ∃ m', createContract newEncoder ns success wasm tys address args value salt h m =
        .next (if success then some true else none) m' ∧
      ∀ m'', createContract newEncoder ns success wasm tys address args value salt h m ≠
        statusOutcome success (h.status m'.trace) m'' := by
  obtain ⟨m', he, ht⟩ :=
    createContract_apply newEncoder ns success wasm tys address args value salt h m hlen
  refine ⟨m', he, fun m'' => ?_⟩
  rw [he, ht]
  have hb := beq_eq_false_iff_ne.mpr hr
  cases success <;> simp only [statusOutcome, hb, hr, if_true, if_false, Bool.false_eq_true] <;>
    simp

/-- A plain creation of an empty contract, without a success output, against a host that
fails every creation: the code continues at the success block. -/
theorem createContract_ignores_status_blank :
    ∃ m', createContract emptyEncoder ⟨20⟩ false [] [] 0 [] none none
          (Host.replying 1 [] (Word.ofNat 0)) (Machine.blank 0) = .next none m' ∧
      ∀ m'', createContract emptyEncoder ⟨20⟩ false [] [] 0 [] none none
          (Host.replying 1 [] (Word.ofNat 0)) (Machine.blank 0) ≠ statusOutcome false 1 m'' :=
  createContract_ignores_status emptyEncoder ⟨20⟩ false [] [] 0 [] none none _ _
    (by decide) (by decide)

/-- The encoding adapter's layout.  With a prefix: one fresh buffer of exactly the prefix
plus the encoded length, holding the prefix then the encoder's output, and nothing else
written; without one, the same with no prefix.  A creation's input is the contract code
followed by the encoded constructor arguments.  A selector is handed to the encoder as a
packed value in front of the arguments, with `uint32` in front of their types. -/
theorem encode_layout :
    (∀ (c : List UInt8) (code : Nat) (load : Bool) (packed args : List Nat) (tys : List Ty)
        (h : Host) (m : Machine), m.mem.read code c.length = c →
      c.length + (newEncoder ⟨load, packed, args, tys⟩).encodedLength.toNat < 2 ^ 32 →
      encode newEncoder (some (code, c.length)) load packed args tys h m =
        .next (m.top, BitVec.ofNat 32
            (c.length + (newEncoder ⟨load, packed, args, tys⟩).encodedLength.toNat))
          { m with
            mem := m.mem.write m.top (c ++ (newEncoder ⟨load, packed, args, tys⟩).output)
            top := m.top +
              (c.length + (newEncoder ⟨load, packed, args, tys⟩).encodedLength.toNat) }) ∧
    (∀ (load : Bool) (packed args : List Nat) (tys : List Ty) (h : Host) (m : Machine),
      encode newEncoder none load packed args tys h m =
        .next (m.top, (newEncoder ⟨load, packed, args, tys⟩).encodedLength)
          { m with
            mem := m.mem.write m.top (newEncoder ⟨load, packed, args, tys⟩).output
            top := m.top + (newEncoder ⟨load, packed, args, tys⟩).encodedLength.toNat }) ∧
    (∀ (success : Bool) (wasm : List UInt8) (tys : List Ty) (address : Nat) (args : List Nat)
        (value salt : Option (BitVec 256)) (h : Host) (m : Machine),
      wasm.length + (newEncoder ⟨false, [], args, tys⟩).encodedLength.toNat < 2 ^ 32 →
      ∃ m', createContract newEncoder ns success wasm tys address args value salt h m =
          .next (if success then some true else none) m' ∧
        m'.trace = m.trace ++ [creationEvent (value.getD 0)
          (wasm ++ (newEncoder ⟨false, [], args, tys⟩).output) salt]) ∧
    (∀ (selector : Nat) (load : Bool) (args : List Nat) (tys : List Ty) (h : Host) (m : Machine),
      abiEncode newEncoder (some selector) load args tys h m =
        .next (m.top, (newEncoder ⟨load, [selector], args, .uint 32 :: tys⟩).encodedLength)
          { m with
            mem := m.mem.write m.top (newEncoder ⟨load, [selector], args, .uint 32 :: tys⟩).output
            top := m.top +
              (newEncoder ⟨load, [selector], args, .uint 32 :: tys⟩).encodedLength.toNat }) :=
  ⟨encode_some_apply newEncoder, encode_none_apply newEncoder, createContract_apply newEncoder ns,
    abiEncode_some_apply newEncoder⟩

/-- The layout at the code blob `[1, 2]` held at address 0, under an encoder whose output is
`[0xab, 0xcd]`: the creation of that contract with one `uint8` argument and value 5, and
`abi_encode` of that argument behind the selector 9. -/
theorem encode_layout_code_blob :
    let m := { Machine.blank 8 with mem := (Machine.blank 8).mem.write 0 [1, 2] }
    encode twoByteEncoder (some (0, [1, 2].length)) false [] [7] [.uint 8]
        (Host.replying 0 [] (Word.ofNat 0)) m =
      .next (8, BitVec.ofNat 32 4) { m with mem := m.mem.write 8 [1, 2, 0xab, 0xcd], top := 12 } ∧
    (∃ m', createContract twoByteEncoder ⟨20⟩ true [1, 2] [.uint 8] 0 [7] (some 5) none
        (Host.replying 0 [] (Word.ofNat 0)) m = .next (some true) m' ∧
      m'.trace = [creationEvent 5 [1, 2, 0xab, 0xcd] none]) ∧
    abiEncode twoByteEncoder (some 9) false [7] [.uint 8] (Host.replying 0 [] (Word.ofNat 0)) m =
      .next (8, 2) { m with mem := m.mem.write 8 [0xab, 0xcd], top := 10 } :=
  ⟨(encode_layout twoByteEncoder ⟨20⟩).1 [1, 2] 0 false [] [7] [.uint 8] _ _ (by decide)
      (by decide),
    (encode_layout twoByteEncoder ⟨20⟩).2.2.1 true [1, 2] [.uint 8] 0 [7] (some 5) none _ _
      (by decide),
    (encode_layout twoByteEncoder ⟨20⟩).2.2.2 9 false [7] [.uint 8] _ _⟩

end

end LachainTarget
