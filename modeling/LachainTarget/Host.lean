import LachainTarget.Machine

/-!
# Host primitives and termination

`declare_externals` declares the fixed set of host functions the generated code may call.
Each is given its meaning here as a `Code` action: it reads its pointer operands out of
linear memory as the host does, records what it consumes in the trace, and writes its
results back to memory.  Names follow the declared import names.

The termination lowerings (`assert_failure`, `return_abi`, `return_empty_abi`,
`return_code`) close the module: every one of them funnels into `set_return` and the
non-returning `system_halt`, and so ends the invocation without reaching the `unreachable`
marker behind it.
-/

namespace LachainTarget

/-! ### Storage -/

/-- `save_storage(keyOffset, valueOffset)`. -/
def saveStorage (key value : Nat) : Code Unit := fun _ m =>
  .next () { m with
    storage := Function.update m.storage (m.mem.word key) (m.mem.word value)
    trace := m.trace ++ [.saveStorage (m.mem.word key) (m.mem.word value)] }

/-- `load_storage(keyOffset, resultOffset)`. -/
def loadStorage (key result : Nat) : Code Unit := fun _ m =>
  .next () { m with mem := m.mem.write result (m.storage (m.mem.word key)).bytes }

/-- `save_storage_string(keyOffset, valueOffset, valueLength)`. -/
def saveStorageString (key value : Nat) (length : BitVec 32) : Code Unit := fun _ m =>
  .next () { m with
    strings := Function.update m.strings (m.mem.word key) (m.mem.read value length.toNat)
    trace := m.trace ++ [.saveStorageString (m.mem.word key) (m.mem.read value length.toNat)] }

/-- `load_storage_string(keyOffset, resultOffset)`. -/
def loadStorageString (key result : Nat) : Code Unit := fun _ m =>
  .next () { m with mem := m.mem.write result (m.strings (m.mem.word key)) }

/-- `get_storage_string_size(keyOffset)`. -/
def getStorageStringSize (key : Nat) : Code (BitVec 32) := fun _ m =>
  .next (BitVec.ofNat 32 (m.strings (m.mem.word key)).length) m

/-! ### Call data and return data -/

/-- `get_call_size()`. -/
def getCallSize : Code (BitVec 32) := fun h m => .next (BitVec.ofNat 32 h.callData.length) m

/-- `copy_call_value(from, to, offset)`: the call data bytes from `from` up to `to`. -/
def copyCallValue (fromOffset toOffset : BitVec 32) (offset : Nat) : Code Unit := fun h m =>
  let data := (h.callData.drop fromOffset.toNat).take (toOffset.toNat - fromOffset.toNat)
  .next () { m with mem := m.mem.write offset data }

/-- `get_return_size()`: the length of the last call's return data. -/
def getReturnSize : Code (BitVec 32) := fun h m =>
  .next (BitVec.ofNat 32 (h.returnData m.trace).length) m

/-- `copy_return_value(resultOffset, dataOffset, length)`. -/
def copyReturnValue (result : Nat) (dataOffset length : BitVec 32) : Code Unit := fun h m =>
  let data := ((h.returnData m.trace).drop dataOffset.toNat).take length.toNat
  .next () { m with mem := m.mem.write result data }

/-! ### Calls, transfers and creation

Each of these hands the host an event, then answers with the status the host returns for
the trace that ends in that event. -/

/-- Record `e` and return the host's status for it. -/
def emitWithStatus (e : Event) : Code (BitVec 32) := fun h m =>
  .next (h.status (m.trace ++ [e])) { m with trace := m.trace ++ [e] }

/-- `invoke_contract`, `invoke_static_contract` or `invoke_delegate_contract`
`(callSignatureOffset, inputLength, inputOffset, valueOffset, gasOffset)`. -/
def invokeContract (ns : Namespace) (callty : CallTy) (address : Nat) (inputLength : BitVec 32)
    (input value gas : Nat) : Code (BitVec 32) := fun h m =>
  emitWithStatus (.invoke callty (m.mem.read address ns.addressLength)
    (m.mem.read input inputLength.toNat) (m.mem.word value) (m.mem.read gas 8)) h m

/-- `transfer(callSignatureOffset, valueOffset)`. -/
def transfer (ns : Namespace) (address value : Nat) : Code (BitVec 32) := fun h m =>
  emitWithStatus (.transfer (m.mem.read address ns.addressLength) (m.mem.word value)) h m

/-- After a creation event: the host writes the new contract's address at `result`. -/
def writeCreated (result : Nat) : Code Unit := fun h m =>
  .next () { m with mem := m.mem.write result (h.created m.trace) }

/-- `create(valueOffset, dataOffset, dataLength, resultOffset)`. -/
def create (value data : Nat) (dataLength : BitVec 32) (result : Nat) : Code (BitVec 32) :=
  fun h m =>
  (emitWithStatus (.create (m.mem.word value) (m.mem.read data dataLength.toNat)) >>= fun r =>
    writeCreated result >>= fun _ => pure r) h m

/-- `create2(valueOffset, dataOffset, dataLength, saltOffset, resultOffset)`. -/
def create2 (value data : Nat) (dataLength : BitVec 32) (salt result : Nat) : Code (BitVec 32) :=
  fun h m =>
  (emitWithStatus (.create2 (m.mem.word value) (m.mem.read data dataLength.toNat) (m.mem.word salt))
    >>= fun r => writeCreated result >>= fun _ => pure r) h m

/-! ### Context -/

/-- `get_msgvalue(dataOffset)`. -/
def getMsgvalue (data : Nat) : Code Unit := fun h m =>
  .next () { m with mem := m.mem.write data h.msgValue.bytes }

/-- The single-pointer context getters: the host writes its answer at the pointer. -/
def getContext (g : Getter) (data : Nat) : Code Unit := fun h m =>
  .next () { m with mem := m.mem.write data (h.context g) }

/-- `get_external_balance(addressOffset, resultOffset)`. -/
def getExternalBalance (ns : Namespace) (address result : Nat) : Code Unit := fun h m =>
  .next () { m with
    mem := m.mem.write result (h.balance (m.mem.read address ns.addressLength)).bytes }

/-- `get_block_hash(numberOffset, dataOffset)`. -/
def getBlockHash (number data : Nat) : Code Unit := fun h m =>
  .next () { m with mem := m.mem.write data (h.blockHash (m.mem.read number 8)).bytes }

/-! ### Logs and cryptography -/

/-- `write_log(offset, length)`. -/
def writeLog (offset : Nat) (length : BitVec 32) : Code Unit := fun _ m =>
  .next () { m with trace := m.trace ++ [.writeLog (m.mem.read offset length.toNat)] }

/-- `crypto_keccak256`, `crypto_ripemd160` or `crypto_sha256`
`(dataOffset, dataLength, resultOffset)`: the host writes the digest at `result`. -/
def cryptoHash (k : HashTy) (data : Nat) (length : BitVec 32) (result : Nat) : Code Unit :=
  fun h m =>
  .next () { m with mem := m.mem.write result (h.digest k (m.mem.read data length.toNat)) }

/-- `crypto_recover(hashOffset, v, rOffset, sOffset, resultOffset)`. -/
def cryptoRecover (hash : Nat) (v : BitVec 8) (r s result : Nat) : Code Unit := fun h m =>
  .next () { m with
    trace := m.trace ++ [.recover (m.mem.word hash) v (m.mem.word r) (m.mem.word s)]
    mem := m.mem.write result (h.recovered (m.mem.word hash) v (m.mem.word r) (m.mem.word s)) }

/-! ### Termination -/

/-- `set_return(offset, length)`. -/
def setReturn (offset : Nat) (length : BitVec 32) : Code Unit := fun _ m =>
  .next () { m with returned := m.mem.read offset length.toNat }

/-- `system_halt(haltCode)`, declared `noreturn`. -/
def systemHalt (code : BitVec 32) : Code Unit := fun _ m => .halt code m

/-- `assert_failure`: revert with the given data. -/
def assertFailure {α : Type} (data : Nat) (len : BitVec 32) : Code α := do
  setReturn data len
  systemHalt 1
  unreachable

/-- `return_abi`: return the given data. -/
def returnAbi {α : Type} (data : Nat) (length : BitVec 32) : Code α := do
  setReturn data length
  systemHalt 0
  unreachable

/-- `return_empty_abi`: return without data. -/
def returnEmptyAbi {α : Type} : Code α := do
  setReturn 0 0
  systemHalt 0
  unreachable

/-- `return_code`: "lachain start cannot return any value", so every return code reverts
with no data. -/
def returnCode {α : Type} (_ret : BitVec 32) : Code α := assertFailure 0 0

/-! ### A host for concrete runs -/

/-- A host that answers every call and creation with the status `r`, holds the call data
`callData` and the transferred value `msgValue`, has 20-byte addresses, and answers every
other query with zeros of the answer's width. -/
def Host.replying (r : BitVec 32) (callData : List UInt8) (msgValue : Word) : Host where
  callData := callData
  returnData := fun _ => []
  msgValue := msgValue
  balance := fun _ => Word.ofNat 0
  blockHash := fun _ => Word.ofNat 0
  addressLength := 20
  context := fun g => List.replicate (g.width 20) 0
  length_context := fun _ => List.length_replicate _ _
  status := fun _ => r
  created := fun _ => List.replicate 20 0
  length_created := fun _ => List.length_replicate _ _
  digest := fun k _ => List.replicate k.len 0
  length_digest := fun _ _ => List.length_replicate _ _
  recovered := fun _ _ _ _ => List.replicate 20 0
  length_recovered := fun _ _ _ _ => List.length_replicate _ _

end LachainTarget
