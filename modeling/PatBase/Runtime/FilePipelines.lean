/-
# PatBase.Runtime.FilePipelines -- a File that one pipeline uses

`FileTransfer` lets the workers serve overlapping transfers of a File in any order.  A
pipeline waits for each of its senders, and the callback of a transfer runs only when its
system call has returned: so its transfers never overlap, whatever other pipelines do to
the same path through Files of their own, meanwhile and in between.

* `pipeline_transfers_in_order`: in every execution of every pipeline whose File nobody else
  uses, the transfers are served as they were started; where the writers append, the results
  of its Reads are the file from its start, and the file grows by its Writes.
-/
import PatBase.Lib.Trails
import PatBase.Runtime.FileTransfer

namespace PatBase.Runtime.FilePipelines

open PatBase.Lib.Machine PatBase.Lib.Numbered PatBase.Lib.Signals PatBase.Lib.Trails
open PatBase.Runtime.FileTransfer

set_option autoImplicit false

universe u v w

/-! ## What the senders do -/

/-- What workers, the loop thread and the users of other Files do. -/
def Elsewhere (file : Nat) : Act → Prop
  | .start request _ => request.file ≠ file
  | _ => True

section Completes

variable {L : Type u} {V : Type v} {X : Type w}

/-- The steps of each sender from its start to its completion; `request` is the transfer
that a sender makes. -/
inductive Completes (flags : Nat → Flags) (request : L → Option Request) (file : Nat)
    (value : Value → V) (failure : Failure → X) :
    L → State → List Act → Signal V X → State → Prop where
  | other {l : L} {s s' : State} {acts : List Act} {signal : Signal V X}
      (nothing : request l = none) (elsewhere : ∀ a ∈ acts, Elsewhere file a) :
      Completes flags request file value failure l s acts signal s'
  /-- The `schedule()` in front of it finds that stop was requested. -/
  | cancelled {l : L} {s s' : State} {acts : List Act} {r : Request} (makes : request l = some r)
      (elsewhere : ∀ a ∈ acts, Elsewhere file a) :
      Completes flags request file value failure l s acts .done s'
  | transfer {l : L} {s t s' : State} {before after : List Act} {r : Request} {rc : Int}
      {completion : Completion} (makes : request l = some r)
      (elsewhere : ∀ a ∈ before ++ after, Elsewhere file a)
      (scheduled : run (step flags) s before = some t)
      (completed : (s'.completions t.started).head? = some completion) :
      Completes flags request file value failure l s (before ++ .start r rc :: after)
        (completion.signal value failure) s'

end Completes

/-! ## The states between the senders -/

/-- No system call for the File is outstanding. -/
def Clear (flags : Nat → Flags) (content : List UInt8) (file : Nat) (s : State) : Prop :=
  Served flags content s ∧ ∀ op, s.stage op = .submitted → (s.ops op).file ≠ file

/-- None but that of `op`. -/
def ClearBut (flags : Nat → Flags) (content : List UInt8) (file op : Nat) (s : State) : Prop :=
  Served flags content s ∧ ∀ op', s.stage op' = .submitted → (s.ops op').file = file → op' = op

section Senders

variable {flags : Nat → Flags} {content : List UInt8} {s s' : State} {a : Act} {acts : List Act}
  {file op : Nat} {request : Request} {rc : Int}

theorem elsewhere_chained (elsewhere : Elsewhere file a) : Chained file s a := by
  cases a with
  | start request rc => exact fun same => absurd same elsewhere
  | serve op n => trivial
  | fail op result => trivial
  | callback op errno => trivial

/-- Requests of the File are submitted by nobody else. -/
theorem submitted_elsewhere (elsewhere : Elsewhere file a) (taken : step flags s a = some s')
    (submitted : s'.stage op = .submitted) (own : (s'.ops op).file = file) :
    s.stage op = .submitted ∧ (s.ops op).file = file := by
  cases Step.of_step taken with
  | start request rc =>
      by_cases new : op = s.started
      · subst new
        have request' : (start s request rc).ops s.started = request := Function.update_self ..
        rw [request'] at own
        exact absurd own elsewhere
      · have stage : (start s request rc).stage op = s.stage op := Function.update_of_ne new ..
        have ops : (start s request rc).ops op = s.ops op := Function.update_of_ne new ..
        exact ⟨stage.symm.trans submitted, ops ▸ own⟩
  | serve other n served' moves =>
      rw [serve_stage] at submitted
      rw [serve_ops] at own
      by_cases same : op = other
      · rw [same, Function.update_self] at submitted
        cases submitted
      · rw [Function.update_of_ne same] at submitted
        exact ⟨submitted, own⟩
  | fail other result was failed =>
      by_cases same : op = other
      · simp [fail, same] at submitted
      · exact ⟨by simpa [fail, same] using submitted, own⟩
  | callback other result errno returned =>
      by_cases same : op = other
      · simp [callback, same] at submitted
      · exact ⟨by simpa [callback, same] using submitted, own⟩

theorem clear_kept (clear : Clear flags content file s) (elsewhere : Elsewhere file a)
    (taken : step flags s a = some s') : Chained file s a ∧ Clear flags content file s' := by
  refine ⟨elsewhere_chained elsewhere, step_served clear.1 taken, fun op submitted own => ?_⟩
  obtain ⟨before, own'⟩ := submitted_elsewhere elsewhere taken submitted own
  exact clear.2 op before own'

theorem clearBut_kept (clear : ClearBut flags content file op s) (elsewhere : Elsewhere file a)
    (taken : step flags s a = some s') : Chained file s a ∧ ClearBut flags content file op s' := by
  refine ⟨elsewhere_chained elsewhere, step_served clear.1 taken, fun op' submitted own => ?_⟩
  obtain ⟨before, own'⟩ := submitted_elsewhere elsewhere taken submitted own
  exact clear.2 op' before own'

theorem start_clearBut (clear : Clear flags content file s) :
    Chained file s (.start request rc) ∧
      ClearBut flags content file s.started (start s request rc) := by
  refine ⟨fun _ op _ submitted => clear.2 op submitted, start_served clear.1,
    fun op' submitted own => ?_⟩
  by_contra new
  have stage : (start s request rc).stage op' = s.stage op' := Function.update_of_ne new ..
  have ops : (start s request rc).ops op' = s.ops op' := Function.update_of_ne new ..
  exact clear.2 op' (stage.symm.trans submitted) (ops ▸ own)

/-- An operation that has completed is not submitted any more. -/
theorem ClearBut.completed (clear : ClearBut flags content file op s)
    (completed : s.completions op ≠ []) : Clear flags content file s := by
  refine ⟨clear.1, fun op' submitted own => ?_⟩
  obtain rfl := clear.2 op' submitted own
  have staged := clear.1.staged op'
  rw [submitted] at staged
  exact completed staged.1

theorem transfer_kept {t : State} {before after : List Act} (clear : Clear flags content file s)
    (elsewhere : ∀ a ∈ before ++ after, Elsewhere file a)
    (scheduled : run (step flags) s before = some t)
    (reached : run (step flags) s (before ++ .start request rc :: after) = some s')
    (completed : s'.completions t.started ≠ []) :
    Along (step flags) (Chained file) s (before ++ .start request rc :: after) ∧
      Clear flags content file s' := by
  obtain ⟨front, waiting⟩ := along_kept (D := Chained file) (I := Clear flags content file)
    (fun _ _ _ clear elsewhere taken => clear_kept clear elsewhere taken)
    (fun a member => elsewhere a (List.mem_append_left _ member)) clear scheduled
  obtain ⟨t', scheduled', rest⟩ := run_append_eq_some.mp reached
  obtain rfl := Option.some.inj (scheduled.symm.trans scheduled')
  obtain ⟨u, taken, later⟩ := run_cons_eq_some.mp rest
  obtain rfl : start t request rc = u := Option.some.inj taken
  obtain ⟨meets, started⟩ : Chained file t (.start request rc) ∧
      ClearBut flags content file t.started (start t request rc) := start_clearBut waiting
  obtain ⟨back, ended⟩ := along_kept (D := Chained file)
    (I := ClearBut flags content file t.started)
    (fun _ _ _ clear elsewhere taken => clearBut_kept clear elsewhere taken)
    (fun a member => elsewhere a (List.mem_append_right _ member)) started later
  exact ⟨along_append front scheduled (along_cons meets taken back), ended.completed completed⟩

end Senders

/-! ## Executions -/

theorem completes_kept {flags : Nat → Flags} {L : Type u} {V : Type v} {X : Type w}
    {request : L → Option Request} {file : Nat} {value : Value → V} {failure : Failure → X}
    {content : List UInt8} {s s' : State} {l : L} {acts : List Act} {signal : Signal V X}
    (clear : Clear flags content file s) (moved : run (step flags) s acts = some s')
    (completed : Completes flags request file value failure l s acts signal s') :
    Along (step flags) (Chained file) s acts ∧ Clear flags content file s' := by
  have idle : (∀ a ∈ acts, Elsewhere file a) →
      Along (step flags) (Chained file) s acts ∧ Clear flags content file s' := fun elsewhere =>
    along_kept (fun _ _ _ clear elsewhere taken => clear_kept clear elsewhere taken) elsewhere
      clear moved
  cases completed with
  | other nothing elsewhere => exact idle elsewhere
  | cancelled makes elsewhere => exact idle elsewhere
  | transfer makes elsewhere scheduled completed =>
      refine transfer_kept clear elsewhere scheduled moved fun none_ => ?_
      rw [none_] at completed
      cases completed

/-- **A File that one pipeline uses.**  In every execution of every pipeline, its transfers
of a File that nobody else uses are served in the order in which they were started.  Where
all who wrote append, what its Reads got, Read by Read, is the file from its start, if the
File wrote nothing; and if no other File writes, the file grows by what its Writes put,
Write by Write.  Where it does not append and no other File writes, the file is what its
transfers moved, one by one, and then what it was behind that. -/
theorem pipeline_transfers_in_order {flags : Nat → Flags} {L : Type u} {V : Type v} {X : Type w}
    {request : L → Option Request} {file : Nat} {value : Value → V} {failure : Failure → X}
    {content : List UInt8} {p : Pipeline L V X} {signal : Signal V X} {t : Trail State Act L V X}
    (executed : Exec (Goes (step flags) (Completes flags request file value failure)) p
      (.start (init content)) signal t) :
    run (step flags) (init content) t.acts = some t.state ∧
      Transferred flags content file t.state := by
  have clear : Clear flags content file (init content) := ⟨init_served, nofun⟩
  obtain ⟨reached, chained, -⟩ := executed_along_of_invariant
    (fun _ _ _ _ _ clear moved completed => completes_kept clear moved completed) clear executed
  obtain ⟨served, order⟩ := chained_run chained reached
  exact ⟨reached, order.transferred served⟩

/-- A Read and, when it has completed, another. -/
def twoReads : Pipeline Request Value Failure :=
  (Pipeline.leaf (.read 0 2)).andLet fun _ => .leaf (.read 0 2)

/-- Another File is written to meanwhile. -/
def tailing : List Act :=
  [.start (.write 1 [3, 4]) 0, .start (.read 0 2) 0, .serve 0 1, .serve 1 2, .callback 1 0,
    .start (.read 0 2) 0, .serve 2 1, .callback 2 0]

def left (steps : Nat) (calls : List (Request × Signal Value Failure)) :
    Trail State Act Request Value Failure :=
  ⟨(run (step twoWriters) (init [1, 2]) (tailing.take steps)).getD (init [1, 2]),
    tailing.take steps, calls⟩

theorem pipeline_transfers_in_order_twoReads :
    ∃ t, Exec (Goes (step twoWriters) (Completes twoWriters some 0 id id)) twoReads
        (.start (init [1, 2])) (.value (.count 1)) t ∧ t.acts = tailing ∧
      (List.range t.state.started).flatMap (numbered t.state.log (got 0)) = [1, 2, 3] ∧
      (List.range t.state.started).flatMap (numbered t.state.log (got 0)) <+: t.state.content := by
  have first : Goes (step twoWriters) (Completes twoWriters some 0 id id) (.read 0 2)
      (.start (init [1, 2])) (.value (.count 2)) (left 5 [(.read 0 2, .value (.count 2))]) :=
    ⟨tailing.take 5, rfl, @Completes.transfer _ _ _ twoWriters some 0 id id _ _ _ _
      [.start (.write 1 [3, 4]) 0] [.serve 0 1, .serve 1 2, .callback 1 0] _ 0
      (.setValue (.count 2)) rfl (by simp [Elsewhere, Request.file]) rfl rfl, rfl, rfl⟩
  have second : Goes (step twoWriters) (Completes twoWriters some 0 id id) (.read 0 2)
      (left 5 [(.read 0 2, .value (.count 2))]) (.value (.count 1))
      (left 8 [(.read 0 2, .value (.count 2)), (.read 0 2, .value (.count 1))]) :=
    ⟨tailing.drop 5, rfl, @Completes.transfer _ _ _ twoWriters some 0 id id _ _ _ _ []
      [.serve 2 1, .callback 2 0] _ 0 (.setValue (.count 1)) rfl (by simp [Elsewhere]) rfl rfl,
      rfl, rfl⟩
  have executed : Exec (Goes (step twoWriters) (Completes twoWriters some 0 id id)) twoReads
      (.start (init [1, 2])) (.value (.count 1))
      (left 8 [(.read 0 2, .value (.count 2)), (.read 0 2, .value (.count 1))]) :=
    Exec.andLet (.leaf first) (.leaf second)
  obtain ⟨-, -, reads, -, -⟩ := pipeline_transfers_in_order executed
  exact ⟨_, executed, rfl, by decide, reads (by decide) (by decide)⟩

end PatBase.Runtime.FilePipelines
