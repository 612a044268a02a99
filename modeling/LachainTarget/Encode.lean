import LachainTarget.Host

/-!
# The ABI codec adapter

`encode` wraps the shared ABI encoder, which is not part of this repository: it asks the
encoder for the payload's length, adds the length of an optional constant prefix (the code
blob of a contract being created), allocates one buffer of exactly that size, copies the
prefix in and lets the encoder fill the rest.  `abi_encode` puts a selector in front by
handing it to the encoder as a packed `uint32`.

* `encode_some_apply`, `encode_none_apply` — the buffer is fresh, exactly prefix plus payload
  long, holds the prefix followed by the encoder's output, and nothing else is written;
* `abiEncode_some_apply` — with a selector, the encoder is handed `[selector]` as packed
  values and `uint32` in front of the argument types, and its output fills the buffer.

The layout theorem that collects these with the creation input and `abi_encode`'s selector
is `encode_layout`, in `Calls`.
-/

namespace LachainTarget

/-- The source types the backend names itself (`ast::Type::Uint`, `ast::Type::Bytes`); any
other type only passes through it to the encoder. -/
inductive Ty
  | uint (bits : Nat)
  | bytes (len : Nat)
  | other (name : String)
  deriving DecidableEq, Repr

/-- What `EncoderBuilder::new` is given: whether to load the arguments, the packed values,
the arguments, and one type for each packed value and argument. -/
structure EncoderInput where
  load : Bool
  packed : List Nat
  args : List Nat
  tys : List Ty

/-- The external encoder built for one argument list: the length `encoded_length()`
computes and the bytes `finish` writes.  That `finish` writes exactly `encoded_length()`
bytes is the assumption the adapter relies on, carried as a field. -/
structure Encoder where
  encodedLength : BitVec 32
  output : List UInt8
  length_output : output.length = encodedLength.toNat

/-- `finish`: the encoder writes its output at `data`. -/
def Encoder.finish (e : Encoder) (data : Nat) : Code Unit := fun _ m =>
  .next () { m with mem := m.mem.write data e.output }

section

-- `EncoderBuilder::new`, the shared encoder this repository does not contain.
variable (newEncoder : EncoderInput → Encoder)

/-- `encode`: one buffer holding the optional constant prefix `(code, len)` followed by the
encoded arguments; returns the buffer and its length. -/
def encode (constant : Option (Nat × Nat)) (load : Bool) (packed args : List Nat)
    (tys : List Ty) : Code (Nat × BitVec 32) := do
  let encoder := newEncoder ⟨load, packed, args, tys⟩
  let length := match constant with
    | some (_, len) => encoder.encodedLength + BitVec.ofNat 32 len
    | none => encoder.encodedLength
  let encodedData ← malloc length
  let data ← match constant with
    | some (code, codeLen) => do
      memcpy encodedData code (BitVec.ofNat 32 codeLen)
      pure (encodedData + codeLen)
    | none => pure encodedData
  encoder.finish data
  pure (encodedData, length)

/-- `abi_encode`: with a selector, the selector goes first as a packed `uint32`. -/
def abiEncode (selector : Option Nat) (load : Bool) (args : List Nat) (tys : List Ty) :
    Code (Nat × BitVec 32) :=
  match selector with
  | some selector => encode newEncoder none load [selector] args (.uint 32 :: tys)
  | none => encode newEncoder none load [] args tys

/-- With the code blob `c` at `code` as prefix: a fresh buffer of exactly `|c|` plus the
encoded length, holding `c` then the encoder's output, and no other byte written. -/
theorem encode_some_apply (c : List UInt8) (code : Nat) (load : Bool) (packed args : List Nat)
    (tys : List Ty) (h : Host) (m : Machine) (hcode : m.mem.read code c.length = c)
    (hlen : c.length + (newEncoder ⟨load, packed, args, tys⟩).encodedLength.toNat < 2 ^ 32) :
    encode newEncoder (some (code, c.length)) load packed args tys h m =
      .next (m.top, BitVec.ofNat 32
          (c.length + (newEncoder ⟨load, packed, args, tys⟩).encodedLength.toNat))
        { m with
          mem := m.mem.write m.top (c ++ (newEncoder ⟨load, packed, args, tys⟩).output)
          top := m.top +
            (c.length + (newEncoder ⟨load, packed, args, tys⟩).encodedLength.toNat) } := by
  set e := newEncoder ⟨load, packed, args, tys⟩ with he
  have hc : (BitVec.ofNat 32 c.length).toNat = c.length := by
    rw [BitVec.toNat_ofNat, Nat.mod_eq_of_lt (by omega)]
  have hsum :
      (e.encodedLength + BitVec.ofNat 32 c.length).toNat = c.length + e.encodedLength.toNat := by
    rw [BitVec.toNat_add, hc, Nat.mod_eq_of_lt (by omega), Nat.add_comm]
  simp only [encode, ← he, Code.bind_apply, malloc, memcpy, Encoder.finish, Exit.next_bind,
    Code.pure_apply, hsum, hc, hcode]
  have hval : e.encodedLength + BitVec.ofNat 32 c.length =
      BitVec.ofNat 32 (c.length + e.encodedLength.toNat) :=
    BitVec.eq_of_toNat_eq (by rw [hsum, BitVec.toNat_ofNat, Nat.mod_eq_of_lt hlen])
  rw [Mem.write_append, hval]

/-- Without a prefix: a fresh buffer of exactly the encoded length holding the output. -/
theorem encode_none_apply (load : Bool) (packed args : List Nat) (tys : List Ty) (h : Host)
    (m : Machine) :
    encode newEncoder none load packed args tys h m =
      .next (m.top, (newEncoder ⟨load, packed, args, tys⟩).encodedLength)
        { m with
          mem := m.mem.write m.top (newEncoder ⟨load, packed, args, tys⟩).output
          top := m.top + (newEncoder ⟨load, packed, args, tys⟩).encodedLength.toNat } := rfl

/-- With a selector: the encoder is handed the selector as a packed `uint32` in front of the
arguments and their types, and its output fills a fresh buffer of exactly its length. -/
theorem abiEncode_some_apply (selector : Nat) (load : Bool) (args : List Nat) (tys : List Ty)
    (h : Host) (m : Machine) :
    abiEncode newEncoder (some selector) load args tys h m =
      .next (m.top, (newEncoder ⟨load, [selector], args, .uint 32 :: tys⟩).encodedLength)
        { m with
          mem := m.mem.write m.top (newEncoder ⟨load, [selector], args, .uint 32 :: tys⟩).output
          top := m.top +
            (newEncoder ⟨load, [selector], args, .uint 32 :: tys⟩).encodedLength.toNat } :=
  encode_none_apply newEncoder load [selector] args (.uint 32 :: tys) h m

end

end LachainTarget
