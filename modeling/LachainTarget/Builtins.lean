import LachainTarget.Calls
import LachainTarget.Storage

/-!
# Builtins, digests, return data and events

The expression lowerings that read what the host answers: `value_transferred`, the
builtins of `builtin` (a family of single-pointer getters, and the lowerings of
`address(this)`, `blockhash`, `balance` and `ecrecover`), `return_data`, the digests of
`hash` and `keccak256_hash`, and `send_event`.

Values come in as the host writes them and are loaded without conversion, so a word reads
back little-endian.  `hash` reverses the host's digest before loading it; `ecrecover` stores
its operands natively.

* `valueTransferred_apply`, `hash_apply`, `ecrecover_apply`, `returnData_apply` — one spec
  lemma per lowering;
* `builtin_frame` — every builtin falls through, writes only memory it allocates, and hands
  the host nothing but `ecrecover`'s operands;
* `valueTransferred_reads_back` — the word `create_contract` hands the host for `v` reads
  back as `v`; the byte-reversed word the calls hand it reads back as `v` only when its
  bytes read the same reversed;
* **`value_operand_reads_back_only_at_create`** — so the calls and the creations hand the
  host different words for `v`, and only the creation's reads back as `v`;
* **`keccak256Hash_reverses_hash`** — the bytes `keccak256_hash` writes are those of the
  number `hash` yields, back to front;
* **`ecrecover_hash_operand_reversed`** — `ecrecover(hash(m), v, r, s)` hands
  `crypto_recover` the host's digest of `m` reversed;
* **`sendEvent_eq_iff`** — two emissions hand the host the same log exactly when their data
  bytes agree, whatever their events and topics.
-/

namespace LachainTarget

/-! ### The transferred value -/

/-- `value_transferred`: "lachain value is always 256 bits". -/
def valueTransferred (ns : Namespace) : Code (BitVec 256) := do
  let value ← alloca ns.valueLength
  getMsgvalue value
  load 256 value

/-- `value_transferred` reads the host's value word as a little-endian number. -/
theorem valueTransferred_apply (ns : Namespace) (h : Host) (m : Machine) :
    valueTransferred ns h m =
      .next (BitVec.ofNat 256 h.msgValue.toNat)
        { m with mem := m.mem.write m.top h.msgValue.bytes, top := m.top + 32 } := by
  simp only [valueTransferred, Code.bind_apply, alloca, getMsgvalue, load, Exit.next_bind,
    storeSize_256, Namespace.valueLength]
  rw [Mem.read_write_of_length _ _ h.msgValue.length_bytes]
  rfl

/-- A 256-bit number read out of a word is `v` exactly when the word is `v`'s bytes. -/
theorem ofNat_toNat_eq_iff (x : Word) (v : BitVec 256) :
    BitVec.ofNat 256 x.toNat = v ↔ x = Word.ofNat v.toNat := by
  constructor
  · rintro rfl
    rw [BitVec.toNat_ofNat, Nat.mod_eq_of_lt x.toNat_lt, Word.ofNat_toNat]
  · rintro rfl
    rw [Word.toNat_ofNat, Nat.mod_eq_of_lt v.isLt, BitVec.ofNat_toNat, BitVec.setWidth_eq]

/-- Written back through `get_msgvalue`, the word `create_contract` passes for `v` reads as
`v`, and the byte-reversed word `external_call` and `value_transfer` pass reads as `v` only
when reversing leaves it unchanged. -/
theorem valueTransferred_reads_back (ns : Namespace) (v : BitVec 256) (h : Host) (m : Machine) :
    (∃ m', valueTransferred ns { h with msgValue := Word.ofNat v.toNat } m = .next v m') ∧
    ((∃ m', valueTransferred ns { h with msgValue := (Word.ofNat v.toNat).reverse } m =
        .next v m') ↔ (Word.ofNat v.toNat).reverse = Word.ofNat v.toNat) := by
  simp [valueTransferred_apply, ofNat_toNat_eq_iff]

/-- The value operand is not one function of `v`: an external call and a value transfer hand
the host one word, a creation another, and written back through `get_msgvalue` only the
creation's word reads as `v`, for every `v` whose bytes do not read the same reversed. -/
theorem value_operand_reads_back_only_at_create (ns : Namespace)
    (newEncoder : EncoderInput → Encoder) (success : Bool) (payload : Nat)
    (payloadLen : BitVec 32) (address : Nat) (gas : BitVec 64) (callty : CallTy)
    (wasm : List UInt8) (tys : List Ty) (args : List Nat) (salt : Option (BitVec 256))
    (v : BitVec 256) (h : Host) (m : Machine) (haddr : address + ns.addressLength ≤ m.top)
    (hpayload : payload + payloadLen.toNat ≤ m.top)
    (hlen : wasm.length + (newEncoder ⟨false, [], args, tys⟩).encodedLength.toNat < 2 ^ 32)
    (hv : (Word.ofNat v.toNat).reverse ≠ Word.ofNat v.toNat) :
    ∃ wCall wCreate : Word,
      (externalCall ns success payload payloadLen address gas v callty h m).valueOperand =
        some wCall ∧
      (valueTransfer ns success address v h m).valueOperand = some wCall ∧
      (createContract newEncoder ns success wasm tys address args (some v) salt h
        m).valueOperand = some wCreate ∧
      (∃ m', valueTransferred ns { h with msgValue := wCreate } m = .next v m') ∧
      ¬ ∃ m', valueTransferred ns { h with msgValue := wCall } m = .next v m' := by
  obtain ⟨_, -, hcall⟩ :=
    externalCall_status ns success payload payloadLen address gas v callty h m haddr hpayload
  obtain ⟨_, -, htransfer⟩ := valueTransfer_status ns success address v h m haddr
  obtain ⟨_, hcreate, htrace⟩ :=
    createContract_apply newEncoder ns success wasm tys address args (some v) salt h m hlen
  have hread := valueTransferred_reads_back ns v h m
  refine ⟨(Word.ofNat v.toNat).reverse, Word.ofNat v.toNat, ?_, ?_, ?_, hread.1,
    mt hread.2.mp hv⟩
  · simp [hcall, Exit.valueOperand, statusOutcome_trace, Event.valueOperand]
  · simp [htransfer, Exit.valueOperand, statusOutcome_trace, Event.valueOperand]
  · cases salt <;>
      simp [hcreate, Exit.valueOperand, Exit.machine, htrace, creationEvent, Event.valueOperand]

/-- At `v = 1`, for a call of a four-byte payload and the creation of a two-byte contract:
the calls hand the host the bytes of `2 ^ 248`, the creation those of `1`. -/
theorem value_operand_reads_back_only_at_create_one :
    (Word.ofNat (1 : BitVec 256).toNat).reverse ≠ Word.ofNat (1 : BitVec 256).toNat ∧
    ∃ wCall wCreate : Word,
      (externalCall ⟨20⟩ false 20 4 0 0 1 .regular (Host.replying 0 [] (Word.ofNat 0))
        (Machine.blank 64)).valueOperand = some wCall ∧
      (valueTransfer ⟨20⟩ false 0 1 (Host.replying 0 [] (Word.ofNat 0))
        (Machine.blank 64)).valueOperand = some wCall ∧
      (createContract twoByteEncoder ⟨20⟩ false [1, 2] [.uint 8] 0 [7] (some 1) none
        (Host.replying 0 [] (Word.ofNat 0)) (Machine.blank 64)).valueOperand = some wCreate ∧
      (∃ m', valueTransferred ⟨20⟩ { Host.replying 0 [] (Word.ofNat 0) with msgValue := wCreate }
        (Machine.blank 64) = .next 1 m') ∧
      ¬ ∃ m', valueTransferred ⟨20⟩ { Host.replying 0 [] (Word.ofNat 0) with msgValue := wCall }
        (Machine.blank 64) = .next 1 m' :=
  have hv : (Word.ofNat (1 : BitVec 256).toNat).reverse ≠ Word.ofNat (1 : BitVec 256).toNat := by
    decide
  ⟨hv, value_operand_reads_back_only_at_create ⟨20⟩ twoByteEncoder false 20 4 0 0 .regular
    [1, 2] [.uint 8] [7] none 1 _ _ (by decide) (by decide) (by decide) hv⟩

/-! ### Builtins -/

/-- The lowering `single_value_stack!` expands to: a fresh `w`-bit slot, the host primitive
`func` writes its answer there, and the slot is loaded. -/
def singleValueStack (w : Nat) (func : Nat → Code Unit) : Code (BitVec w) := do
  let value ← alloca (storeSize w)
  func value
  load w value

/-- The builtins the target lowers, each with its evaluated operands. -/
inductive Builtin (ns : Namespace)
  | blockNumber
  | gasLimit
  | timestamp
  | chainId
  | blockDifficulty
  | blockCoinbase
  | gasleft
  | sender
  | value
  | origin
  | gasprice
  | getAddress
  | blockHash (number : BitVec 64)
  | balance (addr : BitVec (8 * ns.addressLength))
  | ecrecover (hash : BitVec 256) (v : BitVec 8) (r s : BitVec 256)

/-- The width of the integer each builtin yields. -/
def Builtin.width {ns : Namespace} : Builtin ns → Nat
  | .blockNumber | .gasLimit | .timestamp | .chainId | .gasleft => 64
  | .blockDifficulty | .blockHash _ => 256
  | .value | .gasprice | .balance _ => 8 * ns.valueLength
  | .blockCoinbase | .sender | .origin | .getAddress | .ecrecover .. => 8 * ns.addressLength

/-- `builtin`. -/
def builtin (ns : Namespace) : (b : Builtin ns) → Code (BitVec b.width)
  | .blockNumber => singleValueStack 64 (getContext .blockNumber)
  | .gasLimit => singleValueStack 64 (getContext .blockGasLimit)
  | .timestamp => singleValueStack 64 (getContext .blockTimestamp)
  | .chainId => singleValueStack 64 (getContext .chainId)
  | .blockDifficulty => singleValueStack 256 (getContext .blockDifficulty)
  | .blockCoinbase => singleValueStack (8 * ns.addressLength) (getContext .blockCoinbaseAddress)
  | .gasleft => singleValueStack 64 (getContext .gasLeft)
  | .sender => singleValueStack (8 * ns.addressLength) (getContext .sender)
  | .value => singleValueStack (8 * ns.valueLength) getMsgvalue
  | .origin => singleValueStack (8 * ns.addressLength) (getContext .txOrigin)
  | .gasprice => singleValueStack (8 * ns.valueLength) (getContext .txGasPrice)
  | .getAddress => do
    let value ← alloca ns.addressLength
    getContext .address value
    load (8 * ns.addressLength) value
  | .blockHash number => do
    let blockNumberPtr ← alloca 8
    store blockNumberPtr number
    let value ← alloca 32
    getBlockHash blockNumberPtr value
    load 256 value
  | .balance addr => do
    let address ← alloca ns.addressLength
    store address addr
    let balance ← alloca ns.valueLength
    getExternalBalance ns address balance
    load (8 * ns.valueLength) balance
  | .ecrecover hashInt v rInt sInt => do
    let hash ← alloca ns.valueLength
    store hash hashInt
    let r ← alloca ns.valueLength
    store r rInt
    let s ← alloca ns.valueLength
    store s sInt
    let result ← alloca ns.addressLength
    cryptoRecover hash v r s result
    load (8 * ns.addressLength) result

/-- `ecrecover` stores the hash, `r` and `s` natively and hands `crypto_recover` their
little-endian words; besides its four fresh slots it writes only the recovered address, which
the host writes into the last of them. -/
theorem ecrecover_apply (ns : Namespace) (hash : BitVec 256) (v : BitVec 8) (r s : BitVec 256)
    (h : Host) (m : Machine) :
    ∃ x mem, Mem.AgreeOutside m.top (m.top + 32 + 32 + 32 + h.addressLength) m.mem mem ∧
      builtin ns (.ecrecover hash v r s) h m =
        .next x { m with
          mem := mem
          top := m.top + 32 + 32 + 32 + ns.addressLength
          trace := m.trace ++
            [.recover (Word.ofNat hash.toNat) v (Word.ofNat r.toNat) (Word.ofNat s.toNat)] } := by
  simp only [builtin, Code.bind_apply, alloca, store, cryptoRecover, load, Exit.next_bind,
    Namespace.valueLength, storeSize_256]
  rw [Mem.word_write_of_le _ _ (by omega), Mem.word_write_of_le _ _ (by omega),
    Mem.word_write_leBytes, Mem.word_write_of_le _ _ (by omega), Mem.word_write_leBytes,
    Mem.word_write_leBytes]
  refine ⟨_, _, ?_, rfl⟩
  refine ((((Mem.AgreeOutside.refl _ _ _).write _ le_rfl ?_).write _ ?_ ?_).write _ ?_ ?_).write _
    ?_ ?_ <;> (try simp only [length_leBytes, h.length_recovered]) <;> omega

/-- `hash`: the host writes the digest into a `hashlen`-byte array, `__beNtoleN` reverses it
into a `bytesN` temporary, and the temporary is loaded. -/
def hash (k : HashTy) (input : Nat) (inputLen : BitVec 32) : Code (BitVec (8 * k.len)) := do
  let res ← alloca k.len
  cryptoHash k input inputLen res
  let temp ← alloca k.len
  beNtoleN res temp (BitVec.ofNat 32 k.len)
  load (8 * k.len) temp

/-- `keccak256_hash`: the digest is written to `dest` as the host produces it. -/
def keccak256Hash (src : Nat) (length : BitVec 32) (dest : Nat) : Code Unit :=
  cryptoHash .keccak256 src length dest

theorem toNat_ofNat_len (k : HashTy) : (BitVec.ofNat 32 k.len).toNat = k.len := by
  cases k <;> rfl

/-- `hash` yields the host's digest read from its far end. -/
theorem hash_apply (k : HashTy) (input : Nat) (inputLen : BitVec 32) (h : Host) (m : Machine) :
    hash k input inputLen h m =
      let d := h.digest k (m.mem.read input inputLen.toNat)
      .next (BitVec.ofNat (8 * k.len) (ofLeBytes d.reverse))
        { m with
          mem := (m.mem.write m.top d).write (m.top + k.len) d.reverse
          top := m.top + k.len + k.len } := by
  simp only [hash, Code.bind_apply, alloca, cryptoHash, beNtoleN, load, Exit.next_bind,
    toNat_ofNat_len, storeSize_eight_mul]
  rw [Mem.read_write_of_length _ _ (h.length_digest _ _),
    Mem.read_write_of_length _ _ (by rw [List.length_reverse, h.length_digest])]

/-- The two keccak-256 lowerings disagree in byte order: for every input, the 32 bytes
`keccak256_hash` leaves at `dest` are the little-endian bytes of the number `hash` yields for
the same input, back to front. -/
theorem keccak256Hash_reverses_hash (src : Nat) (length : BitVec 32) (dest : Nat) (h : Host)
    (m : Machine) :
    ∃ x m₁ m₂, hash .keccak256 src length h m = .next x m₁ ∧
      keccak256Hash src length dest h m = .next () m₂ ∧
      m₂.mem.read dest 32 = (leBytes 32 x.toNat).reverse := by
  let d := h.digest .keccak256 (m.mem.read src length.toNat)
  have hlen : d.reverse.length = 32 := by rw [List.length_reverse, h.length_digest]; rfl
  have hbytes : leBytes 32 (ofLeBytes d.reverse) = d.reverse := by
    have := leBytes_ofLeBytes d.reverse; rwa [hlen] at this
  refine ⟨_, _, _, hash_apply _ _ _ h m, rfl, ?_⟩
  rw [BitVec.toNat_ofNat, Nat.mod_eq_of_lt (lt_of_lt_of_le (ofLeBytes_lt _) (by rw [hlen]; decide)),
    hbytes, List.reverse_reverse]
  exact Mem.read_write_of_length _ _ (h.length_digest _ _)

/-- For a 32-byte digest, `ecrecover(hash(m), v, r, s)` hands `crypto_recover` a hash
operand whose bytes are the host's digest of `m` reversed. -/
theorem ecrecover_hash_operand_reversed (ns : Namespace) (k : HashTy) (hk : k.len = 32)
    (input : Nat) (inputLen : BitVec 32) (v : BitVec 8) (r s : BitVec 256) (h : Host)
    (m : Machine) :
    ∃ x m' w, (hash k input inputLen >>= fun d =>
        builtin ns (.ecrecover (d.cast (by rw [hk])) v r s) :
          Code (BitVec (8 * ns.addressLength))) h m = .next x m' ∧
      m'.trace = m.trace ++ [.recover w v (Word.ofNat r.toNat) (Word.ofNat s.toNat)] ∧
      w.bytes = (h.digest k (m.mem.read input inputLen.toNat)).reverse := by
  obtain ⟨x, m₁, hs, he⟩ := ecrecover_apply ns
    ((BitVec.ofNat (8 * k.len)
      (ofLeBytes (h.digest k (m.mem.read input inputLen.toNat)).reverse)).cast (by rw [hk])) v r s h
    { m with
      mem := (m.mem.write m.top (h.digest k (m.mem.read input inputLen.toNat))).write
        (m.top + k.len) (h.digest k (m.mem.read input inputLen.toNat)).reverse
      top := m.top + k.len + k.len }
  refine ⟨x, _, _, by rw [Code.bind_apply, hash_apply, Exit.next_bind, he], rfl, ?_⟩
  have hlen : (h.digest k (m.mem.read input inputLen.toNat)).reverse.length = 32 := by
    rw [List.length_reverse, h.length_digest, hk]
  rw [BitVec.toNat_cast, BitVec.toNat_ofNat,
    Nat.mod_eq_of_lt (lt_of_lt_of_le (ofLeBytes_lt _) (by rw [hlen, hk]; decide)),
    Word.bytes_ofNat_ofLeBytes hlen]

/-- The keccak-256 digest of the empty message. -/
def keccakEmpty : List UInt8 :=
  [0xc5, 0xd2, 0x46, 0x01, 0x86, 0xf7, 0x23, 0x3c, 0x92, 0x7e, 0x7d, 0xb2, 0xdc, 0xc7, 0x03, 0xc0,
    0xe5, 0x00, 0xb6, 0x53, 0xca, 0x82, 0x27, 0x3b, 0x7b, 0xfa, 0xd8, 0x04, 0x5d, 0x85, 0xa4, 0x70]

/-- A host whose keccak-256 of the empty message is the real digest. -/
def keccakHost : Host :=
  { Host.replying 0 [] (Word.ofNat 0) with
    digest := fun k d => if k = .keccak256 ∧ d = [] then keccakEmpty else List.replicate k.len 0
    length_digest := fun k d => by
      dsimp only
      split
      · next hk => rw [hk.1]; rfl
      · exact List.length_replicate _ _ }

/-- At the empty message: `crypto_recover` is handed the digest
`c5d2…a470` back to front, not the digest. -/
theorem ecrecover_keccak_empty :
    ∃ x m' w, (hash .keccak256 0 0 >>= fun d =>
        builtin ⟨20⟩ (.ecrecover (d.cast rfl) 27 0 0) :
          Code (BitVec (8 * 20))) keccakHost (Machine.blank 0) = .next x m' ∧
      m'.trace = [.recover w 27 (Word.ofNat 0) (Word.ofNat 0)] ∧ w.bytes ≠ keccakEmpty := by
  obtain ⟨x, m', w, he, ht, hw⟩ :=
    ecrecover_hash_operand_reversed ⟨20⟩ .keccak256 rfl 0 0 27 0 0 keccakHost (Machine.blank 0)
  exact ⟨x, m', w, he, ht, by rw [hw]; decide⟩

/-! ### Return data -/

/-- `return_data`: a fresh `struct.vector` holding the last call's return data. -/
def returnData : Code Nat :=
  readVector getReturnSize fun data length => copyReturnValue data 0 length

/-- `return_data` yields a fresh vector of exactly header plus length bytes holding the last
call's return data, and writes nothing outside it. -/
theorem returnData_apply (h : Host) (m : Machine)
    (hlen : (h.returnData m.trace).length + vectorHeader < 2 ^ 32) :
    returnData h m =
      .next m.top { m with
        mem := m.mem.write m.top (vectorImage (h.returnData m.trace))
        top := m.top + (vectorHeader + (h.returnData m.trace).length) } :=
  readVector_apply _ _ _ h m hlen rfl fun _ _ => by
    simp [copyReturnValue, toNat_ofNat_length hlen]

/-- A host whose last call returned `[1, 2, 3]`, over memory already holding data below the
frontier: the vector is allocated at the frontier and holds its header and the three bytes. -/
theorem returnData_apply_three_bytes :
    let h := { Host.replying 0 [] (Word.ofNat 0) with returnData := fun _ => [1, 2, 3] }
    let m := { Machine.blank 8 with mem := (Machine.blank 8).mem.write 0 [9, 9, 9, 9] }
    returnData h m =
      .next 8 { m with
        mem := m.mem.write 8 (vectorImage [1, 2, 3])
        top := 8 + (vectorHeader + 3) } :=
  returnData_apply _ _ (by decide)

/-! ### Events -/

/-- `send_event`: the log is the data; the event number and the topics are not passed. -/
def sendEvent (_eventNo : Nat) (data : Nat) (dataLen : BitVec 32)
    (_topics : List (Nat × BitVec 32)) : Code Unit :=
  writeLog data dataLen

/-- Two emissions that differ in their event and their topics, over the same data, hand
the host the same log. -/
theorem sendEvent_ignores_event_and_topics :
    sendEvent 0 0 0 [] = sendEvent 1 0 0 [(0, 32)] := rfl

/-- From the same state, two emissions have the same effect exactly when the data bytes
they log agree, whatever their events and topics. -/
theorem sendEvent_eq_iff (eventNo eventNo' data data' : Nat) (dataLen dataLen' : BitVec 32)
    (topics topics' : List (Nat × BitVec 32)) (h : Host) (m : Machine) :
    sendEvent eventNo data dataLen topics h m = sendEvent eventNo' data' dataLen' topics' h m ↔
      m.mem.read data dataLen.toNat = m.mem.read data' dataLen'.toNat := by
  simp [sendEvent, writeLog]

end LachainTarget
