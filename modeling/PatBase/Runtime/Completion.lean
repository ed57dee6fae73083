/-
# PatBase.Runtime.Completion -- what an operation hands its receiver

Error codes and the completion signals of the operations in pat/runtime.  Libuv
reports a failure as a negative number; most callbacks wrap it with the category
of libuv_errors.h in a `std::system_error` and pass that on as an exception.
-/
import PatBase.Lib.Signals

namespace PatBase.Runtime

set_option autoImplicit false

universe v x

/-- `io::IoError` -/
inductive IoError where
  | kSuccess
  | kEOF
  | kClosedPipe
  | kNoProgress
  | kShortBuffer
  | kShortWrite
  | kUnexpectedEOF
  deriving DecidableEq, Repr

inductive Category where
  /-- `LibUVErrCategory` -/
  | libUV
  /-- `IoErrorCategory` -/
  | io
  deriving DecidableEq, Repr

/-- `std::error_code` -/
structure ErrorCode where
  value : Int
  category : Category
  deriving DecidableEq, Repr

/-- `io::make_error_code` -/
def IoError.makeErrorCode (error : IoError) : ErrorCode :=
  ⟨error.ctorIdx, .io⟩

/-- The argument of a `set_error`. -/
inductive Failure where
  /-- `std::make_exception_ptr(std::system_error(code))` -/
  | exception (code : ErrorCode)
  /-- A bare `std::error_code`. -/
  | code (code : ErrorCode)
  deriving DecidableEq, Repr

/-- The argument of a `set_value`. -/
inductive Value where
  | unit
  | count (bytes : Nat)
  | file (descriptor : Nat)
  | addresses (res : Nat)
  deriving DecidableEq, Repr

inductive Completion where
  | setValue (value : Value)
  | setError (failure : Failure)
  deriving DecidableEq, Repr

/-- The completion, among the values and exceptions of a pipeline. -/
def Completion.signal {V : Type v} {X : Type x} (value : Value → V) (failure : Failure → X) :
    Completion → Lib.Signals.Signal V X
  | .setValue v => .value (value v)
  | .setError f => .error (failure f)

theorem Completion.signal_ne_done {V : Type v} {X : Type x} {value : Value → V}
    {failure : Failure → X}
    (completion : Completion) : completion.signal value failure ≠ .done := by
  cases completion <;> simp [signal]

def uvEOF : Int := -4095

/-- A libuv status as an exception. -/
def uvError (status : Int) : Completion :=
  .setError (.exception ⟨status, .libUV⟩)

/-- The callback shape that most operations share: a negative result is an error,
any other is the value. -/
def complete (value : Int → Value) (result : Int) : Completion :=
  if result < 0 then uvError result else .setValue (value result)

end PatBase.Runtime
