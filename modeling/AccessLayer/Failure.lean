/-!
Failures of the access layer. Every failure carries a code naming the layer it comes from and a
message; the C-style status of a failure is read off its code. A failure without a code of its
own has the unknown code.
-/
namespace AccessLayer

/-- The layer a failure comes from. `other` keeps a code name given by a caller. -/
inductive ErrorCode where
  /-- A malformed or inconsistent access request. -/
  | context
  /-- A failure while resolving or performing storage work. -/
  | backend
  /-- A failure of the table of open contexts. -/
  | lowlevel
  /-- A failure that carries no code. -/
  | unknown
  | other (name : String)
  deriving Repr, DecidableEq, Inhabited

namespace ErrorCode

/-- The name of each code. -/
def name : ErrorCode → String
  | .context => "CONTEXT_ERR"
  | .backend => "BACKEND_ERR"
  | .lowlevel => "LOWLEVEL_ERR"
  | .unknown => "UNKNOWN_ERR"
  | .other s => s

/-- The code with a given name. -/
def ofName (s : String) : ErrorCode :=
  if s = "CONTEXT_ERR" then .context
  else if s = "BACKEND_ERR" then .backend
  else if s = "LOWLEVEL_ERR" then .lowlevel
  else if s = "UNKNOWN_ERR" then .unknown
  else .other s

/-- The status of the C-style interface: -2, -3 and -4 for the three layers, -1 otherwise. -/
def status : ErrorCode → Int
  | .context => -2
  | .backend => -3
  | .lowlevel => -4
  | _ => -1

end ErrorCode

/-- A failure: its code and its message. -/
structure Failure where
  code : ErrorCode
  message : String
  deriving Repr, DecidableEq, Inhabited

namespace Failure

/-- A context failure. -/
def context (message : String) : Failure := ⟨.context, message⟩

/-- A backend failure. -/
def backend (message : String) : Failure := ⟨.backend, message⟩

/-- A failure of the table of open contexts. -/
def lowlevel (message : String) : Failure := ⟨.lowlevel, message⟩

/-- A failure that carries no code. -/
def plain (message : String) : Failure := ⟨.unknown, message⟩

/-- The failure with `note: ` put before its message; the code is kept. -/
def wrap (f : Failure) (note : String) : Failure := ⟨f.code, note ++ ": " ++ f.message⟩

/-- The status of the C-style interface for a failure, zero for success. -/
def statusOf (r : Option Failure) : Int :=
  match r with
  | none => 0
  | some f => f.code.status

end Failure

/-- How a request ends without a result: a reported failure, or a broken expectation (an index
outside a list, a call made without a value it requires) that stops the request with a reason. -/
inductive Fault where
  | failure (f : Failure)
  | halt (reason : String)
  deriving Repr, DecidableEq, Inhabited

/-- The reason given when an index or a count leaves the range of a list. -/
def Fault.outOfRange : Fault := .halt "runtime error"

instance : Coe Failure Fault := ⟨Fault.failure⟩

/-- A computation that may fail with a reported failure only, seen as one that may fault. -/
def Except.faulting {α : Type} (r : Except Failure α) : Except Fault α :=
  r.mapError Fault.failure

/-- A computation that may fault, run as a step on any state, which it leaves alone. -/
def Except.toStep {σ α : Type} (r : Except Fault α) : EStateM Fault σ α := fun s =>
  match r with
  | .ok a => .ok a s
  | .error e => .error e s

/-- A computation that may fail, run as a step on any state. -/
def Except.toCall {σ α : Type} (r : Except Failure α) : EStateM Fault σ α :=
  Except.toStep (Except.faulting r)

/-- A step that fails with a reported failure. -/
def Failure.raise {σ α : Type} (f : Failure) : EStateM Fault σ α := fun s => .error (.failure f) s

/-- A step on the part of a larger state that `view` shows, put back by `update` whether the
step succeeds or faults. -/
def EStateM.focus {ε σ τ α : Type} (view : σ → τ) (update : σ → τ → σ) (m : EStateM ε τ α) :
    EStateM ε σ α := fun s =>
  match m (view s) with
  | .ok a t => .ok a (update s t)
  | .error e t => .error e (update s t)

end AccessLayer
