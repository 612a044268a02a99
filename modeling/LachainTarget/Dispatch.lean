import LachainTarget.Builtins

/-!
# The entry point: prelude and function dispatch

`function_dispatch` emits `start`, the contract's only entry point: the runtime prelude, then
the selector dispatch over the contract's functions.  The prelude aborts every value
transfer first when `function_abort_value_transfers` is set (`build` sets it through
`set_early_value_aborts`), then copies the call data into a fresh buffer.  The dispatcher
checks the transferred value for the functions the predicate
`!function_abort_value_transfers && nonpayable` selects.

The dispatch loop and the value abort are emitted by code shared between targets, which is
not part of this repository; both are modelled from the spec.  A function's argument decoding
and body are one opaque `Code Empty` per function: they never fall through, since every path
through a body ends in a termination primitive.

* `abortIfValueTransfer_apply`, `runtimePrelude_apply`, `emitFunctionDispatch_apply` — one
  spec lemma per lowering;
* **`functionDispatch_value_abort`** — a nonpayable function called with value halts with
  status 1 and no data before anything is decoded, whatever its body; a payable one is
  reached whatever the value, when the flag is set only for contracts without payable
  functions;
* `emitFunctionDispatch_cases` — every path through the dispatcher reverts with no data or
  runs a selected row past its value check;
* **`functionDispatch_runs_only_selected`** — so does every path through `start`, for every
  table, body, host and setting of the early abort.
-/

namespace LachainTarget

/-! ### Runtime prelude -/

/-- The store into the global `calldata_len`. -/
def storeCalldataLen (len : BitVec 32) : Code Unit := fun _ m =>
  .next () { m with calldataLen := len }

/-- The store into the global `calldata_data`. -/
def storeCalldataData (p : Nat) : Code Unit := fun _ m =>
  .next () { m with calldataData := p }

/-- Modelled from the spec: `abort_if_value_transfer` reverts with no data when the invocation
carries a nonzero value ("unpayable-value abort → (1, empty)"). -/
def abortIfValueTransfer (ns : Namespace) : Code Unit := do
  let value ← valueTransferred ns
  if value ≠ 0 then assertFailure 0 0

/-- `runtime_prelude`: the call data buffer and its length. -/
def runtimePrelude (ns : Namespace) (functionAbortValueTransfers : Bool) :
    Code (Nat × BitVec 32) := do
  if functionAbortValueTransfers then abortIfValueTransfer ns
  initHeap
  let argsLength ← getCallSize
  storeCalldataLen argsLength
  let args ← malloc argsLength
  storeCalldataData args
  copyCallValue 0 argsLength args
  pure (args, argsLength)

/-- The machine after reading a value word: the word sits in a fresh 32-byte slot. -/
def Machine.withValue (m : Machine) (h : Host) : Machine :=
  { m with mem := m.mem.write m.top h.msgValue.bytes, top := m.top + 32 }

/-- The value abort falls through on a zero value word and otherwise reverts with no data. -/
theorem abortIfValueTransfer_apply (ns : Namespace) (h : Host) (m : Machine) :
    abortIfValueTransfer ns h m =
      if h.msgValue = Word.ofNat 0 then .next () (m.withValue h)
      else .halt 1 { m.withValue h with returned := [] } := by
  have hv : (BitVec.ofNat 256 h.msgValue.toNat = 0) ↔ h.msgValue = Word.ofNat 0 :=
    ofNat_toNat_eq_iff _ 0
  simp only [abortIfValueTransfer, Code.bind_apply, valueTransferred_apply, Exit.next_bind, ne_eq]
  by_cases h0 : h.msgValue = Word.ofNat 0
  · simp only [hv.mpr h0, not_true_eq_false, if_false, if_pos h0]; rfl
  · simp only [mt hv.mp h0, not_false_eq_true, if_true, if_neg h0]; rfl

/-- The machine the prelude leaves: the call data copied into a fresh buffer at the old
frontier, which the two globals record. -/
def Machine.withCalldata (m : Machine) (h : Host) : Machine :=
  { m with
    mem := m.mem.write m.top h.callData
    top := m.top + h.callData.length
    calldataLen := BitVec.ofNat 32 h.callData.length
    calldataData := m.top }

/-- Without the early abort, the prelude copies the call data into a fresh buffer and
returns it with its length. -/
theorem runtimePrelude_apply (ns : Namespace) (h : Host) (m : Machine)
    (hcall : h.callData.length < 2 ^ 32) :
    runtimePrelude ns false h m =
      .next (m.top, BitVec.ofNat 32 h.callData.length) (m.withCalldata h) := by
  have hlen : (BitVec.ofNat 32 h.callData.length).toNat = h.callData.length :=
    Nat.mod_eq_of_lt hcall
  simp only [runtimePrelude, Bool.false_eq_true, if_false, Code.bind_apply, initHeap, getCallSize,
    storeCalldataLen, malloc, storeCalldataData, copyCallValue, Code.pure_apply, Exit.next_bind,
    hlen, BitVec.ofNat_eq_ofNat, BitVec.toNat_ofNat, Nat.zero_mod, List.drop_zero, Nat.sub_zero,
    List.take_length]
  rfl

/-- With the early abort and a nonzero value, the prelude reverts with no data. -/
theorem runtimePrelude_abort (ns : Namespace) (h : Host) (m : Machine)
    (hv : h.msgValue ≠ Word.ofNat 0) :
    runtimePrelude ns true h m = .halt 1 { m.withValue h with returned := [] } := by
  simp only [runtimePrelude, Code.bind_apply, abortIfValueTransfer_apply, hv, if_false,
    if_true, Exit.halt_bind]

/-! ### Function dispatch -/

/-- A row of the dispatch table: a four-byte selector, the function's payability, and the
function, which decodes its arguments and runs its body. -/
structure DispatchEntry (Fn : Type) where
  selector : List UInt8
  length_selector : selector.length = 4
  nonpayable : Bool
  function : Fn

/-- The selector: the first four bytes of the call data buffer. -/
def loadSelector (argsdata : Nat) : Code (List UInt8) := fun _ m =>
  .next (m.mem.read argsdata 4) m

/-- Modelled from the spec: `emit_function_dispatch`.  Call data shorter than a selector, or
a selector no row matches, reverts with empty data.  On a match, when `abortValue` holds for
the row a nonzero value reverts before anything is decoded; then the row's function decodes
the rest of the call data and runs. -/
def emitFunctionDispatch {Fn : Type} (ns : Namespace) (table : List (DispatchEntry Fn))
    (argsdata : Nat) (argslen : BitVec 32) (abortValue : DispatchEntry Fn → Bool)
    (run : Fn → Nat → BitVec 32 → Code Empty) : Code Empty :=
  if argslen.toNat < 4 then assertFailure 0 0
  else do
    let selector ← loadSelector argsdata
    match table.find? (fun e => e.selector == selector) with
    | none => assertFailure 0 0
    | some e => do
      if abortValue e then abortIfValueTransfer ns
      run e.function (argsdata + 4) (argslen - 4)

/-- `function_dispatch`: the body of `start`. -/
def functionDispatch {Fn : Type} (ns : Namespace) (functionAbortValueTransfers : Bool)
    (table : List (DispatchEntry Fn)) (run : Fn → Nat → BitVec 32 → Code Empty) :
    Code Empty := do
  let (argsdata, argslen) ← runtimePrelude ns functionAbortValueTransfers
  emitFunctionDispatch ns table argsdata argslen
    (fun func => !functionAbortValueTransfers && func.nonpayable) run

section

variable {Fn : Type} (ns : Namespace) (table : List (DispatchEntry Fn))
  (run : Fn → Nat → BitVec 32 → Code Empty) (h : Host) (m : Machine)

/-- Over call data whose first four bytes select the row `f`, the dispatcher runs the value
check the predicate asks for and then `f`'s function on the rest of the call data. -/
theorem emitFunctionDispatch_apply (abortValue : DispatchEntry Fn → Bool) (f : DispatchEntry Fn)
    (hcall : h.callData.length < 2 ^ 32) (h4 : 4 ≤ h.callData.length)
    (hsel : table.find? (fun e => e.selector == h.callData.take 4) = some f) :
    emitFunctionDispatch ns table m.top (BitVec.ofNat 32 h.callData.length) abortValue run h
        (m.withCalldata h) =
      (if abortValue f then
          abortIfValueTransfer ns >>= fun _ =>
            run f.function (m.top + 4) (BitVec.ofNat 32 h.callData.length - 4)
        else run f.function (m.top + 4) (BitVec.ofNat 32 h.callData.length - 4))
        h (m.withCalldata h) := by
  have hlen : ¬ (BitVec.ofNat 32 h.callData.length).toNat < 4 := by
    rw [BitVec.toNat_ofNat, Nat.mod_eq_of_lt hcall]; omega
  simp only [emitFunctionDispatch, hlen, if_false, Code.bind_apply, loadSelector, Exit.next_bind,
    Machine.withCalldata, Mem.read_write_take _ _ _ h4]
  rw [hsel]
  rfl

/-- Whatever its body, a nonpayable function called with a nonzero value halts with status 1
and no data before its arguments are decoded.  When the flag is set only for contracts with
no payable function, a payable function is reached whatever the value. -/
theorem functionDispatch_value_abort (functionAbortValueTransfers : Bool) (f : DispatchEntry Fn)
    (hcall : h.callData.length < 2 ^ 32) (h4 : 4 ≤ h.callData.length)
    (hsel : table.find? (fun e => e.selector == h.callData.take 4) = some f) :
    (f.nonpayable = true → h.msgValue ≠ Word.ofNat 0 →
      ∃ m' : Machine, ∀ run : Fn → Nat → BitVec 32 → Code Empty,
        functionDispatch ns functionAbortValueTransfers table run h m =
          .halt 1 { m' with returned := [] }) ∧
    ((functionAbortValueTransfers = true → ∀ e ∈ table, e.nonpayable = true) →
      f.nonpayable = false →
      ∃ m', ∀ run : Fn → Nat → BitVec 32 → Code Empty,
        functionDispatch ns functionAbortValueTransfers table run h m =
          run f.function (m.top + 4) (BitVec.ofNat 32 h.callData.length - 4) h m') := by
  constructor
  · intro hf hv
    cases functionAbortValueTransfers
    · refine ⟨(m.withCalldata h).withValue h, fun run => ?_⟩
      simp only [functionDispatch, Code.bind_apply, runtimePrelude_apply ns h m hcall,
        Exit.next_bind, emitFunctionDispatch_apply ns table run h m _ f hcall h4 hsel, hf,
        Bool.not_false, Bool.true_and, if_true, abortIfValueTransfer_apply, hv, if_false,
        Exit.halt_bind]
    · exact ⟨m.withValue h, fun run => by
        simp only [functionDispatch, Code.bind_apply, runtimePrelude_abort ns h m hv,
          Exit.halt_bind]⟩
  · intro hflag hf
    have hoff : functionAbortValueTransfers = false := by
      cases functionAbortValueTransfers
      · rfl
      · rw [hflag rfl f (List.mem_of_find?_eq_some hsel)] at hf; cases hf
    subst hoff
    refine ⟨m.withCalldata h, fun run => ?_⟩
    simp only [functionDispatch, Code.bind_apply, runtimePrelude_apply ns h m hcall,
      Exit.next_bind, emitFunctionDispatch_apply ns table run h m _ f hcall h4 hsel, hf,
      Bool.and_false, Bool.false_eq_true, if_false]

end

/-- The call data `[1, 2, 3, 4]` sent with the value 5: a nonpayable row it selects is
refused by the prelude's early abort, and a payable row it selects is reached. -/
theorem functionDispatch_value_abort_rows :
    (∃ m' : Machine, ∀ run : Nat → Nat → BitVec 32 → Code Empty,
      functionDispatch ⟨20⟩ true [⟨[1, 2, 3, 4], rfl, true, 0⟩] run
          (Host.replying 0 [1, 2, 3, 4] (Word.ofNat 5)) (Machine.blank 0) =
        .halt 1 { m' with returned := [] }) ∧
    ∃ m', ∀ run : Nat → Nat → BitVec 32 → Code Empty,
      functionDispatch ⟨20⟩ false [⟨[1, 2, 3, 4], rfl, false, 0⟩] run
          (Host.replying 0 [1, 2, 3, 4] (Word.ofNat 5)) (Machine.blank 0) =
        run 0 (0 + 4) (BitVec.ofNat 32 4 - 4) (Host.replying 0 [1, 2, 3, 4] (Word.ofNat 5)) m' :=
  ⟨(functionDispatch_value_abort ⟨20⟩ [⟨[1, 2, 3, 4], rfl, true, 0⟩]
      (Host.replying 0 [1, 2, 3, 4] (Word.ofNat 5)) (Machine.blank 0) true
      ⟨[1, 2, 3, 4], rfl, true, 0⟩ (by decide) (by decide) rfl).1 rfl (by decide),
    (functionDispatch_value_abort ⟨20⟩ [⟨[1, 2, 3, 4], rfl, false, 0⟩]
      (Host.replying 0 [1, 2, 3, 4] (Word.ofNat 5)) (Machine.blank 0) false
      ⟨[1, 2, 3, 4], rfl, false, 0⟩ (by decide) (by decide) rfl).2 (by simp) rfl⟩

/-! ### Every path through `start` -/

section

variable {Fn : Type} (ns : Namespace) (table : List (DispatchEntry Fn))
  (run : Fn → Nat → BitVec 32 → Code Empty) (h : Host) (m : Machine)

/-- With the early abort and a zero value, the prelude is the plain prelude above the value
word it read. -/
theorem runtimePrelude_zero (hv : h.msgValue = Word.ofNat 0) :
    runtimePrelude ns true h m = runtimePrelude ns false h (m.withValue h) := by
  simp only [runtimePrelude, Code.bind_apply, abortIfValueTransfer_apply, hv, if_true,
    Exit.next_bind, Bool.false_eq_true, if_false, Code.pure_apply]

/-- Call data shorter than a selector, or a selector no row matches: the dispatcher reverts
with no data. -/
theorem emitFunctionDispatch_unmatched (abortValue : DispatchEntry Fn → Bool)
    (hcall : h.callData.length < 2 ^ 32)
    (hnone : 4 ≤ h.callData.length →
      table.find? (fun e => e.selector == h.callData.take 4) = none) :
    emitFunctionDispatch ns table m.top (BitVec.ofNat 32 h.callData.length) abortValue run h
        (m.withCalldata h) = .halt 1 { m.withCalldata h with returned := [] } := by
  have hlen : (BitVec.ofNat 32 h.callData.length).toNat = h.callData.length :=
    Nat.mod_eq_of_lt hcall
  by_cases h4 : 4 ≤ h.callData.length
  · have hsel : (m.withCalldata h).mem.read m.top 4 = h.callData.take 4 :=
      Mem.read_write_take _ _ _ h4
    simp only [emitFunctionDispatch, hlen, Nat.not_lt.mpr h4, if_false, Code.bind_apply,
      loadSelector, Exit.next_bind, hsel, hnone h4]
    rfl
  · simp only [emitFunctionDispatch, hlen, Nat.lt_of_not_le h4, if_true]
    rfl

/-- Every path through the dispatcher either reverts with no data, or runs the function of a
row whose selector is the call data's first four bytes, once the row's value check has passed,
on the call data buffer the prelude filled, which lies below the frontier. -/
theorem emitFunctionDispatch_cases (abortValue : DispatchEntry Fn → Bool)
    (hcall : h.callData.length < 2 ^ 32) :
    (∃ m' : Machine, emitFunctionDispatch ns table m.top (BitVec.ofNat 32 h.callData.length)
        abortValue run h (m.withCalldata h) = .halt 1 { m' with returned := [] }) ∨
    ∃ e ∈ table, e.selector = h.callData.take 4 ∧
      (abortValue e = true → h.msgValue = Word.ofNat 0) ∧
      ∃ m' : Machine, m'.calldataData + h.callData.length ≤ m'.top ∧
        m'.mem.read m'.calldataData h.callData.length = h.callData ∧
        emitFunctionDispatch ns table m.top (BitVec.ofNat 32 h.callData.length) abortValue run h
            (m.withCalldata h) =
          run e.function (m'.calldataData + 4) (BitVec.ofNat 32 h.callData.length - 4) h m' := by
  have hread : (m.withCalldata h).mem.read m.top h.callData.length = h.callData :=
    Mem.read_write_of_length _ _ rfl
  by_cases hfound : ∃ e, table.find? (fun e => e.selector == h.callData.take 4) = some e ∧
      4 ≤ h.callData.length
  · obtain ⟨e, he, h4⟩ := hfound
    have hsel : e.selector = h.callData.take 4 := by simpa using List.find?_some he
    rw [emitFunctionDispatch_apply ns table run h m abortValue e hcall h4 he]
    cases hv : abortValue e
    · exact .inr ⟨e, List.mem_of_find?_eq_some he, hsel, by simp [hv], m.withCalldata h,
        le_rfl, hread, rfl⟩
    · by_cases h0 : h.msgValue = Word.ofNat 0
      · refine .inr ⟨e, List.mem_of_find?_eq_some he, hsel, fun _ => h0,
          (m.withCalldata h).withValue h, Nat.le_add_right _ _, ?_, ?_⟩
        · exact (Mem.read_write_of_le _ _ le_rfl).trans hread
        · simp only [if_true, Code.bind_apply, abortIfValueTransfer_apply, h0, Exit.next_bind]
          rfl
      · exact .inl ⟨(m.withCalldata h).withValue h, by simp only [if_true, Code.bind_apply,
          abortIfValueTransfer_apply, h0, if_false, Exit.halt_bind]⟩
  · refine .inl ⟨_, emitFunctionDispatch_unmatched ns table run h m abortValue hcall fun h4 => ?_⟩
    cases hf : table.find? (fun e => e.selector == h.callData.take 4) with
    | none => rfl
    | some e => exact absurd ⟨e, hf, h4⟩ hfound

/-- **No function runs unless selected and paid for correctly.**  For every table, every body,
every host whose call data fits the 32-bit length and either setting of the early abort,
`start` either reverts with no data or runs the function of a row of the table whose selector
is the call data's first four bytes; when the early abort is set or the row is nonpayable,
only with a zero value; and the function is handed the call data past the selector, in the
buffer the `calldata_data` global records, below the frontier its body allocates from. -/
theorem functionDispatch_runs_only_selected (functionAbortValueTransfers : Bool)
    (hcall : h.callData.length < 2 ^ 32) :
    (∃ m' : Machine, functionDispatch ns functionAbortValueTransfers table run h m =
        .halt 1 { m' with returned := [] }) ∨
    ∃ e ∈ table, e.selector = h.callData.take 4 ∧
      ((functionAbortValueTransfers || e.nonpayable) = true → h.msgValue = Word.ofNat 0) ∧
      ∃ m' : Machine, m'.calldataData + h.callData.length ≤ m'.top ∧
        m'.mem.read m'.calldataData h.callData.length = h.callData ∧
        functionDispatch ns functionAbortValueTransfers table run h m =
          run e.function (m'.calldataData + 4) (BitVec.ofNat 32 h.callData.length - 4) h m' := by
  cases functionAbortValueTransfers
  · simp only [functionDispatch, Code.bind_apply, runtimePrelude_apply ns h m hcall,
      Exit.next_bind, Bool.not_false, Bool.true_and, Bool.false_or]
    exact emitFunctionDispatch_cases ns table run h m _ hcall
  · by_cases h0 : h.msgValue = Word.ofNat 0
    · simp only [functionDispatch, Code.bind_apply, runtimePrelude_zero ns h m h0,
        runtimePrelude_apply ns h _ hcall, Exit.next_bind]
      rcases emitFunctionDispatch_cases ns table run h (m.withValue h) _ hcall with
        hhalt | ⟨e, he, hsel, -, m', hbuf, hread, hrun⟩
      · exact .inl hhalt
      · exact .inr ⟨e, he, hsel, fun _ => h0, m', hbuf, hread, hrun⟩
    · exact .inl ⟨m.withValue h, by simp only [functionDispatch, Code.bind_apply,
        runtimePrelude_abort ns h m h0, Exit.halt_bind]⟩

end

/-- Two rows, and a body that returns the call data it is handed: the call data
`[5, 6, 7, 8, 9]`, sent with no value, selects the second row, whose function returns the one
byte past the selector with status 0. -/
theorem functionDispatch_runs_only_selected_second_row :
    let table : List (DispatchEntry Nat) :=
      [⟨[1, 2, 3, 4], rfl, true, 0⟩, ⟨[5, 6, 7, 8], rfl, false, 1⟩]
    let run : Nat → Nat → BitVec 32 → Code Empty := fun _ data len => returnAbi data len
    let h := Host.replying 0 [5, 6, 7, 8, 9] (Word.ofNat 0)
    let m := { Machine.blank 8 with mem := (Machine.blank 8).mem.write 0 [0xff, 0xff] }
    ((∃ m' : Machine,
        functionDispatch ⟨20⟩ true table run h m = .halt 1 { m' with returned := [] }) ∨
      ∃ e ∈ table, e.selector = h.callData.take 4 ∧
        ((true || e.nonpayable) = true → h.msgValue = Word.ofNat 0) ∧
        ∃ m' : Machine, m'.calldataData + h.callData.length ≤ m'.top ∧
          m'.mem.read m'.calldataData h.callData.length = h.callData ∧
          functionDispatch ⟨20⟩ true table run h m =
            run e.function (m'.calldataData + 4) (BitVec.ofNat 32 h.callData.length - 4) h m') ∧
    ∃ m', functionDispatch ⟨20⟩ true table run h m = .halt 0 m' ∧ m'.returned = [9] :=
  ⟨functionDispatch_runs_only_selected ⟨20⟩ _ _ _ _ true (by decide), _, rfl, rfl⟩

end LachainTarget
