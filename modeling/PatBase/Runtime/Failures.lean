/-
# PatBase.Runtime.Failures -- how the callbacks report a failure

Nine callbacks are handed a result by libuv: those of the eight operations and that
of the `uv_shutdown` of a Close.  All but one turn a negative result into a
`std::system_error` with exactly that value; the file write reports whatever `errno`
holds, and as a bare code.
-/
import PatBase.Runtime.StreamHandle

namespace PatBase.Runtime

open StreamHandle

set_option autoImplicit false

/-- The callbacks with a result. -/
inductive Reporter where
  | operation (kind : Kind)
  /-- The `uv_shutdown` step of `_stream_close::_op::start`. -/
  | shutdown
  deriving DecidableEq, Repr

namespace Reporter

/-- `r.First report signal`: handed `report`, the callback makes this the first
completion signal of its operation. -/
inductive First : Reporter → Report → Option Completion → Prop where
  | operation (kind : Kind) (report : Report) :
      First (.operation kind) report (some (kind.operation.callback report))
  | shutdown (s : State) (op : Nat) (report : Report) (asked : s.shutdown = some op)
      (pending : s.signals (.close op) = []) :
      First .shutdown report
        (((shutdownCallback s op report.result).signals (.close op)).head?.map Prod.fst)

/-- A failure as it should reach the receiver. -/
def faithful (r : Reporter) (result : Int) : Completion :=
  if r = .operation .streamRead ∧ result = uvEOF then
    .setError (.exception IoError.kEOF.makeErrorCode)
  else uvError result

variable {r : Reporter} {report : Report} {signal : Option Completion}

theorem streamReadResult_negative {nread : Int} (negative : nread < 0) :
    Operation.streamReadResult nread = faithful (.operation .streamRead) nread := by
  simp only [Operation.streamReadResult, if_pos negative, faithful, true_and]

theorem faithful_of_ne (other : r ≠ .operation .streamRead) (result : Int) :
    faithful r result = uvError result :=
  if_neg fun both => other both.1

theorem callback_faithful {kind : Kind} (negative : report.result < 0) (other : kind ≠ .write) :
    kind.operation.callback report = faithful (.operation kind) report.result := by
  cases kind with
  | write => exact absurd rfl other
  | streamRead => exact streamReadResult_negative negative
  | «open» | read | close | getaddrinfo | tcpConnect | streamWrite =>
      rw [faithful_of_ne (by decide)]
      exact if_pos negative

/-- The file write reports a bare code, whatever `errno` is. -/
theorem write_unfaithful (negative : report.result < 0) :
    Operation.writeOp.callback report = .setError (.code ⟨report.errno, .libUV⟩) :=
  if_pos negative

/-- A failed shutdown signals its error before anything else. -/
theorem shutdownCallback_first {s : State} {op : Nat} {status : Int} (failed : status < 0)
    (pending : s.signals (.close op) = []) :
    ((shutdownCallback s op status).signals (.close op)).head?.map Prod.fst =
      some (uvError status) := by
  by_cases active : s.handle.phase = .active
  · have result : (shutdownCallback s op status).signals (.close op) =
        s.signals (.close op) ++ [(uvError status, s.handle.phase)] := by
      simp only [shutdownCallback, if_pos failed]
      split
      · exact signal_signals_self
      · rename_i closing
        exact absurd active closing
    rw [result, pending]
    rfl
  · rw [shutdownCallback_cancelled failed active, pending]
    rfl

/-- **Failures are reported faithfully by every callback but the file write's**, and
by none as a value. -/
theorem failure_faithful_iff (negative : report.result < 0) (first : r.First report signal) :
    (signal = some (r.faithful report.result) ↔ r ≠ .operation .write) ∧
      ∀ value, signal ≠ some (.setValue value) := by
  have error : ∀ r result value, faithful r result ≠ .setValue value := by
    intro r result value
    unfold faithful uvError
    split <;> simp
  cases first with
  | operation kind report =>
      by_cases write : kind = .write
      · obtain rfl := write
        rw [show Kind.write.operation = Operation.writeOp from rfl, write_unfaithful negative,
          faithful_of_ne (by decide)]
        simp [uvError]
      · rw [callback_faithful negative write]
        refine ⟨by simp [write], ?_⟩
        intro value same
        exact error _ _ value (Option.some.inj same)
  | shutdown s op report asked pending =>
      rw [shutdownCallback_first negative pending, faithful_of_ne (by decide)]
      simp [uvError]

/-- A file read that fails with `UV_EIO`. -/
theorem failure_faithful_iff_read :
    (some (Operation.readOp.callback ⟨-5, 0, 11⟩) =
        some ((operation .read).faithful (-5)) ↔ operation .read ≠ .operation .write) ∧
      ∀ value, some (Operation.readOp.callback ⟨-5, 0, 11⟩) ≠ some (.setValue value) :=
  failure_faithful_iff (r := .operation .read) (by decide) (.operation .read ⟨-5, 0, 11⟩)

/-- A file write that fails with `UV_ENOSPC` while `errno` is `EAGAIN`. -/
theorem write_reports_errno :
    Operation.writeOp.callback ⟨-28, 0, 11⟩ = .setError (.code ⟨11, .libUV⟩) ∧
      Operation.writeOp.callback ⟨-28, 0, 11⟩ ≠ (operation .write).faithful (-28) := by
  decide

end Reporter

end PatBase.Runtime
