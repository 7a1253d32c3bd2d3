import ZkVerify.Frame.Prelude

/-!
# Dispatching calls

The vocabulary in which every pallet answers a call: origins, dispatch errors, the
information returned after a dispatch.  A call ends in one of three ways.  It
succeeds; it returns an error, and then the storage is rolled back; or it panics,
and then the block it is in cannot be built.  The last two are the constructors of
`Abort`, so a dispatchable is a function into `Except (Abort E P)`, where `E` is the
error type of the pallet and `P` lists the places where it can panic.
-/

namespace Frame

/-- The origin of a call. -/
inductive RawOrigin (A : Type)
  | root
  | signed (who : A)
  | none
deriving DecidableEq

/-- What a currency answers when it refuses. -/
inductive TokenError
  | fundsUnavailable
  | belowMinimum
  | cannotCreate
deriving DecidableEq, Repr

/-- What checked arithmetic answers when it fails. -/
inductive ArithmeticError
  | underflow
  | overflow
  | divisionByZero
deriving DecidableEq, Repr

/-- `DispatchError`, with the errors `E` of the pallet. -/
inductive DispatchError (E : Type)
  | other
  | badOrigin
  | module (error : E)
  | token (error : TokenError)
  | arithmetic (error : ArithmeticError)
deriving DecidableEq, Repr

/-- The cost of a computation. -/
structure Weight where
  refTime : ℕ
  proofSize : ℕ
deriving DecidableEq, Repr

/-- `+` on weights. -/
def Weight.add (v w : Weight) : Weight :=
  ⟨wrappingAdd u64Max v.refTime w.refTime, wrappingAdd u64Max v.proofSize w.proofSize⟩

/-- `compose` on weights: the times add up, the proofs overlap. -/
def Weight.compose (v w : Weight) : Weight :=
  ⟨saturatingAdd u64Max v.refTime w.refTime, max v.proofSize w.proofSize⟩

/-- Whether the caller pays for a call. -/
inductive Pays
  | yes
  | no
deriving DecidableEq, Repr

/-- What is known about a call once it was dispatched. -/
structure PostDispatchInfo where
  actualWeight : Option Weight
  paysFee : Pays
deriving DecidableEq, Repr

/-- `().into()`: the announced weight, paid by the caller. -/
def PostDispatchInfo.default : PostDispatchInfo := ⟨none, .yes⟩

/-- An error together with what is known about the call. -/
structure DispatchErrorWithPostInfo (E : Type) where
  postInfo : PostDispatchInfo
  error : DispatchError E
deriving DecidableEq, Repr

/-- How a call ends that does not succeed. -/
inductive Abort (E P : Type)
  | error (error : DispatchErrorWithPostInfo E)
  | panic (panic : P)
deriving DecidableEq, Repr

section

variable {E P α : Type}

/-- An error without further information, `error.into()`. -/
def Abort.of (e : DispatchError E) : Abort E P := .error ⟨.default, e⟩

/-- A computation that can panic, inside a dispatchable. -/
def unwind (c : Except P α) : Except (Abort E P) α :=
  match c with
  | .ok a => .ok a
  | .error p => .error (.panic p)

/-- A computation that can return an error, followed by `?` inside a dispatchable. -/
def raise (c : Except (DispatchError E) α) : Except (Abort E P) α :=
  match c with
  | .ok a => .ok a
  | .error e => .error (.of e)

/-- `ensure_signed`. -/
def ensureSigned {A : Type} : RawOrigin A → Except (Abort E P) A
  | .signed who => .ok who
  | _ => .error (.of .badOrigin)

/-- `ensure_root`. -/
def ensureRoot {A : Type} : RawOrigin A → Except (Abort E P) Unit
  | .root => .ok ()
  | _ => .error (.of .badOrigin)

/-- `ensure_signed_or_root`: the account, or none for root. -/
def ensureSignedOrRoot {A : Type} : RawOrigin A → Except (Abort E P) (Option A)
  | .root => .ok none
  | .signed who => .ok (some who)
  | .none => .error (.of .badOrigin)

/-- `ensure_none`. -/
def ensureNone {A : Type} : RawOrigin A → Except (Abort E P) Unit
  | .none => .ok ()
  | _ => .error (.of .badOrigin)

@[simp] theorem unwind_ok (a : α) : unwind (.ok a : Except P α) = (.ok a : Except (Abort E P) α) :=
  rfl

@[simp] theorem raise_ok (a : α) :
    raise (.ok a : Except (DispatchError E) α) = (.ok a : Except (Abort E P) α) := rfl

theorem unwind_eq_ok {c : Except P α} {a : α} :
    (unwind c : Except (Abort E P) α) = .ok a ↔ c = .ok a := by
  cases c <;> simp [unwind]

theorem ensureSigned_eq_ok {A : Type} {origin : RawOrigin A} {who : A} :
    (ensureSigned origin : Except (Abort E P) A) = .ok who ↔ origin = .signed who := by
  cases origin <;> simp [ensureSigned]

theorem raise_eq_ok {c : Except (DispatchError E) α} {a : α} :
    (raise c : Except (Abort E P) α) = .ok a ↔ c = .ok a := by
  cases c <;> simp [raise]

end

end Frame
