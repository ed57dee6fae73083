/-
# PatBase.Runtime.FileTransfer -- the bytes that Files read and write on one path

read.h and write.h with the bytes, for any number of `File`s that are open on one path
with any flags.  `start()` hands `uv_fs_read` or `uv_fs_write` a request with offset -1 and
looks at no result; a worker of libuv's pool makes the system call `read` or `write`, and
the loop thread runs the callback.

The workers and the kernel are the environment.  A system call takes effect at once.
Requests are served in any order, whichever was submitted first, and their callbacks run in
any order too.  The Reads and
the Writes of a File share the one offset of its open file, which a call moves by what it
moved: a read gets nothing only at the end of the file or into an empty span; a write goes
to the offset, or with `O_APPEND` to the end, and moves its message or the front of it.

* `files_share_one_file`: in every run the transfers are the events of a
  `PatBase.Lib.OpenFile`, in the order in which they were served, and each completion
  reports its own; where all who wrote append, the file is a log of the Writes.
* `chained_transfers_in_order`: the transfers of a File that never overlap are served in
  the order they were started.
-/
import PatBase.Lib.Numbered
import PatBase.Lib.OpenFile
import PatBase.Runtime.Operation
import Mathlib.Data.List.Nodup
import Mathlib.Data.List.Range

namespace PatBase.Runtime.FileTransfer

open PatBase.Lib PatBase.Lib.Machine PatBase.Lib.Numbered
open PatBase.Lib.OpenFile (Behind Event Writers)

set_option autoImplicit false

/-! ## State -/

/-- What the `flags` of `File::Open` say: `UV_FS_O_RDONLY`, `UV_FS_O_WRONLY` or
`UV_FS_O_RDWR`, and `UV_FS_O_APPEND`. -/
structure Flags where
  readable : Bool
  writable : Bool
  append : Bool
  deriving DecidableEq, Repr

/-- A Read into a span of `len` bytes, or a Write of `msg`, on an open file. -/
inductive Request where
  | read (file len : Nat)
  | write (file : Nat) (msg : List UInt8)
  deriving DecidableEq, Repr

def Request.file : Request → Nat
  | .read file _ => file
  | .write file _ => file

def Request.operation : Request → Operation
  | .read _ _ => Operation.readOp
  | .write _ _ => Operation.writeOp

inductive Stage where
  /-- Started, if at all, and refused by libuv. -/
  | idle
  /-- Libuv has the request; the system call is still to be made. -/
  | submitted
  /-- The system call returned this; the callback is still to run. -/
  | returned (result : Int)
  | called (result : Int)
  deriving DecidableEq, Repr

/-- An event of the file, and the operation whose system call it was. -/
abbrev Entry := Nat × Event Nat UInt8

structure State where
  content : List UInt8
  /-- The offsets of the open files. -/
  offset : Nat → Nat
  started : Nat
  ops : Nat → Request
  stage : Nat → Stage
  completions : Nat → List Completion
  /-- What the kernel has served, in that order. -/
  log : List Entry

inductive Act where
  /-- A Read or Write is started; `uv_fs_read` or `uv_fs_write` returns `rc`. -/
  | start (request : Request) (rc : Int)
  /-- The system call of `op` moves `n` bytes. -/
  | serve (op n : Nat)
  | fail (op : Nat) (result : Int)
  /-- The callback of `op`, with `errno` on the loop thread at that moment. -/
  | callback (op : Nat) (errno : Int)
  deriving DecidableEq, Repr

/-- The files have just been opened. -/
def init (content : List UInt8) : State where
  content := content
  offset := fun _ => 0
  started := 0
  ops := fun _ => .read 0 0
  stage := fun _ => .idle
  completions := fun _ => []
  log := []

/-! ## Steps -/

section Steps

variable (flags : Nat → Flags)

/-- `_read::_op::start` and `_write::_op::start`, which drop the result of the call. -/
def start (s : State) (request : Request) (rc : Int) : State :=
  { s with
    started := s.started + 1
    ops := Function.update s.ops s.started request
    stage := Function.update s.stage s.started (if 0 ≤ rc then .submitted else .idle) }

/-- The kernel may move `n` bytes. -/
def Moves (s : State) (n : Nat) : Request → Prop
  | .read file len =>
      (flags file).readable = true ∧ n ≤ len ∧ n ≤ s.content.length - s.offset file ∧
        (n = 0 → len = 0 ∨ s.content.length ≤ s.offset file)
  | .write file msg => (flags file).writable = true ∧ n ≤ msg.length

instance (s : State) (n : Nat) (request : Request) : Decidable (Moves flags s n request) :=
  match request with
  | .read _ _ => inferInstanceAs (Decidable (_ ∧ _))
  | .write _ _ => inferInstanceAs (Decidable (_ ∧ _))

/-- What it moves. -/
def event (s : State) (n : Nat) : Request → Event Nat UInt8
  | .read file len =>
      if n = 0 ∧ len ≠ 0 then .ended file
      else .read file ((s.content.drop (s.offset file)).take n)
  | .write file msg => .write file (msg.take n)

/-- The system call of `op`; one that moves nothing has no effect on the file. -/
def serve (s : State) (op n : Nat) : State :=
  let served := { s with
    stage := Function.update s.stage op (.returned n)
    log := s.log ++ [(op, event s n (s.ops op))] }
  if n = 0 then served
  else
    match s.ops op with
    | .read file _ =>
        { served with offset := Function.update s.offset file (s.offset file + n) }
    | .write file msg =>
        let offset := if (flags file).append then s.content.length else s.offset file
        { served with
          -- a hole, if there were one, would be filled with zeros
          content := s.content.take offset ++ List.replicate (offset - s.content.length) 0 ++
            msg.take n ++ s.content.drop (offset + n)
          offset := Function.update s.offset file (offset + n) }

def fail (s : State) (op : Nat) (result : Int) : State :=
  { s with stage := Function.update s.stage op (.returned result) }

/-- The callback. -/
def callback (s : State) (op : Nat) (result errno : Int) : State :=
  { s with
    stage := Function.update s.stage op (.called result)
    completions := Function.update s.completions op
      (s.completions op ++ [(s.ops op).operation.callback ⟨result, 0, errno⟩]) }

def step (s : State) : Act → Option State
  | .start request rc => some (start s request rc)
  | .serve op n =>
      if s.stage op = .submitted ∧ Moves flags s n (s.ops op) then some (serve flags s op n)
      else none
  | .fail op result =>
      if s.stage op = .submitted ∧ result < 0 then some (fail s op result) else none
  | .callback op errno =>
      match s.stage op with
      | .returned result => some (callback s op result errno)
      | _ => none

/-- What each action does, and what holds where it is enabled. -/
inductive Step (s : State) : Act → State → Prop where
  | start (request : Request) (rc : Int) : Step s (.start request rc) (start s request rc)
  | serve (op n : Nat) (submitted : s.stage op = .submitted)
      (moves : Moves flags s n (s.ops op)) : Step s (.serve op n) (serve flags s op n)
  | fail (op : Nat) (result : Int) (submitted : s.stage op = .submitted) (failed : result < 0) :
      Step s (.fail op result) (fail s op result)
  | callback (op : Nat) (result errno : Int) (returned : s.stage op = .returned result) :
      Step s (.callback op errno) (callback s op result errno)

variable {flags}

theorem Step.of_step {s s' : State} {a : Act} (taken : step flags s a = some s') :
    Step flags s a s' := by
  cases a with
  | start request rc =>
      cases taken
      exact .start request rc
  | serve op n =>
      simp only [step, Option.ite_none_right_eq_some, Option.some.injEq] at taken
      obtain ⟨⟨submitted, moves⟩, rfl⟩ := taken
      exact .serve op n submitted moves
  | fail op result =>
      simp only [step, Option.ite_none_right_eq_some, Option.some.injEq] at taken
      obtain ⟨⟨submitted, failed⟩, rfl⟩ := taken
      exact .fail op result submitted failed
  | callback op errno =>
      simp only [step] at taken
      split at taken
      · rename_i result returned
        cases taken
        exact .callback op result errno returned
      · cases taken

end Steps

/-! ## The log -/

/-- The events of the file, in the order they were served. -/
def State.events (s : State) : List (Event Nat UInt8) := s.log.map Prod.snd

/-- The file, and where each File is in it. -/
def State.file (s : State) : OpenFile Nat UInt8 := ⟨s.content, s.offset⟩

/-- The Files that were opened to append. -/
def appends (flags : Nat → Flags) (file : Nat) : Bool := (flags file).append

/-- All who wrote append. -/
def State.Appending (flags : Nat → Flags) (s : State) : Prop :=
  Writers (fun file => appends flags file = true) s.events

/-- `file` has written nothing. -/
def State.Silent (s : State) (file : Nat) : Prop := Writers (· ≠ file) s.events

/-- No other File has. -/
def State.Sole (s : State) (file : Nat) : Prop := Writers (· = file) s.events

instance (flags : Nat → Flags) (s : State) : Decidable (s.Appending flags) :=
  inferInstanceAs (Decidable (Writers _ _))

instance (s : State) (file : Nat) : Decidable (s.Silent file) :=
  inferInstanceAs (Decidable (Writers _ _))

instance (s : State) (file : Nat) : Decidable (s.Sole file) :=
  inferInstanceAs (Decidable (Writers _ _))

/-- The event answers the request: it moves `n` bytes of it. -/
def Answers : Request → Event Nat UInt8 → Nat → Prop
  | .read file len, e, n =>
      (∃ bytes, e = .read file bytes ∧ bytes.length = n ∧ n ≤ len) ∨ e = .ended file ∧ n = 0
  | .write file msg, e, n => e = .write file (msg.take n) ∧ n ≤ msg.length

section Serve

variable {flags : Nat → Flags} {s : State} {op n : Nat}

theorem moves_answers (moves : Moves flags s n (s.ops op)) :
    Answers (s.ops op) (event s n (s.ops op)) n := by
  cases request : s.ops op with
  | read file len =>
      simp only [request, Moves] at moves
      obtain ⟨-, fits, there, -⟩ := moves
      show Answers (.read file len) (if n = 0 ∧ len ≠ 0 then _ else _) n
      split
      · rename_i nothing
        exact .inr ⟨rfl, nothing.1⟩
      · refine .inl ⟨_, rfl, ?_, fits⟩
        rw [List.length_take, List.length_drop]
        omega
  | write file msg =>
      simp only [request, Moves] at moves
      exact ⟨rfl, moves.2⟩

/-- A system call is a step of the file. -/
theorem serve_file (moves : Moves flags s n (s.ops op)) :
    OpenFile.step (appends flags) s.file (event s n (s.ops op)) =
      some (serve flags s op n).file := by
  cases request : s.ops op with
  | read file len =>
      simp only [request, Moves] at moves
      obtain ⟨-, fits, there, nothing⟩ := moves
      have result : (serve flags s op n).file =
          ⟨s.content, Function.update s.offset file (s.offset file + n)⟩ := by
        unfold serve
        split
        · rename_i zero
          rw [zero, Nat.add_zero, Function.update_eq_self]
          rfl
        · simp only [request, State.file]
      rw [result]
      by_cases ended : n = 0 ∧ len ≠ 0
      · obtain ⟨rfl, asked⟩ := ended
        have behind : s.content.length ≤ s.offset file := by
          rcases nothing rfl with empty | behind
          · exact absurd empty asked
          · exact behind
        rw [event, if_pos ⟨rfl, asked⟩, Nat.add_zero, Function.update_eq_self]
        exact if_pos behind
      · have length : ((s.content.drop (s.offset file)).take n).length = n := by
          rw [List.length_take, List.length_drop]
          omega
        simp only [event, if_neg ended, OpenFile.step, State.file, length, if_true]
  | write file msg =>
      simp only [request, Moves] at moves
      have length : (msg.take n).length = n := List.length_take_of_le moves.2
      by_cases zero : n = 0
      · have nothing : msg.take n = [] := by rw [zero, List.take_zero]
        have same : (serve flags s op n).file = s.file := by
          rw [serve, if_pos zero]
          rfl
        rw [same, event, nothing, OpenFile.step, if_pos rfl]
      · have some_ : msg.take n ≠ [] := by
          intro nothing
          rw [nothing] at length
          exact zero length.symm
        rw [event, OpenFile.step, if_neg some_, length]
        simp only [serve, if_neg zero, request, State.file, OpenFile.overwrite, OpenFile.target,
          appends, length]
        rfl

/-- Beside the file it changes the stage of its operation and the log, and nothing else. -/
theorem serve_frame : ∃ content offset, serve flags s op n =
    ⟨content, offset, s.started, s.ops, Function.update s.stage op (.returned n), s.completions,
      s.log ++ [(op, event s n (s.ops op))]⟩ := by
  unfold serve
  by_cases nothing : n = 0
  · exact ⟨s.content, s.offset, if_pos nothing⟩
  · simp only [if_neg nothing]
    cases s.ops op with
    | read file len => exact ⟨_, _, rfl⟩
    | write file msg => exact ⟨_, _, rfl⟩

theorem serve_ops : (serve flags s op n).ops = s.ops := by
  obtain ⟨_, _, same⟩ := @serve_frame flags s op n
  rw [same]

theorem serve_started : (serve flags s op n).started = s.started := by
  obtain ⟨_, _, same⟩ := @serve_frame flags s op n
  rw [same]

theorem serve_stage : (serve flags s op n).stage = Function.update s.stage op (.returned n) := by
  obtain ⟨_, _, same⟩ := @serve_frame flags s op n
  rw [same]

theorem serve_completions : (serve flags s op n).completions = s.completions := by
  obtain ⟨_, _, same⟩ := @serve_frame flags s op n
  rw [same]

theorem serve_log : (serve flags s op n).log = s.log ++ [(op, event s n (s.ops op))] := by
  obtain ⟨_, _, same⟩ := @serve_frame flags s op n
  rw [same]

end Serve

/-! ## The invariant -/

/-- What the stage of an operation says about its completions and the log. -/
def Staged (s : State) (op : Nat) : Stage → Prop
  | .idle => s.completions op = [] ∧ op ∉ s.log.map Prod.fst
  | .submitted => s.completions op = [] ∧ op ∉ s.log.map Prod.fst ∧ op < s.started
  | .returned result =>
      s.completions op = [] ∧ (op ∈ s.log.map Prod.fst → 0 ≤ result) ∧
        (0 ≤ result → ∃ e, (op, e) ∈ s.log ∧ Answers (s.ops op) e result.toNat)
  | .called result =>
      (∃ errno, s.completions op = [(s.ops op).operation.callback ⟨result, 0, errno⟩]) ∧
        (op ∈ s.log.map Prod.fst → 0 ≤ result) ∧
        (0 ≤ result → ∃ e, (op, e) ∈ s.log ∧ Answers (s.ops op) e result.toNat)

/-- The log is a run of the file from its content before, each operation has at most one
event in it, and its completion reports that one. -/
structure Served (flags : Nat → Flags) (content : List UInt8) (s : State) : Prop where
  file : run (OpenFile.step (appends flags)) ⟨content, fun _ => 0⟩ s.events = some s.file
  once : (s.log.map Prod.fst).Nodup
  started : ∀ op, s.started ≤ op → s.stage op = .idle
  staged : ∀ op, Staged s op (s.stage op)

section Steps

variable {flags : Nat → Flags} {content : List UInt8} {s s' : State} {a : Act} {op n : Nat}
  {request : Request} {rc result errno : Int}

theorem init_served : Served flags content (init content) :=
  ⟨rfl, List.nodup_nil, fun _ _ => rfl, fun _ => ⟨rfl, List.not_mem_nil⟩⟩

/-- An operation is unaffected where its own data are. -/
theorem Staged.congr {stage : Stage} (staged : Staged s op stage)
    (completions : s'.completions op = s.completions op) (ops : s'.ops op = s.ops op)
    (started : s.started ≤ s'.started)
    (log : ∀ e, (op, e) ∈ s'.log ↔ (op, e) ∈ s.log) : Staged s' op stage := by
  have members : op ∈ s'.log.map Prod.fst ↔ op ∈ s.log.map Prod.fst := by
    simp only [List.mem_map, Prod.exists, exists_and_right, exists_eq_right, log]
  cases stage with
  | idle => exact ⟨completions.trans staged.1, fun there => staged.2 (members.mp there)⟩
  | submitted =>
      obtain ⟨none_, outside, before⟩ := staged
      exact ⟨completions.trans none_, fun there => outside (members.mp there),
        Nat.lt_of_lt_of_le before started⟩
  | returned result =>
      obtain ⟨none_, nonneg, answered⟩ := staged
      refine ⟨completions.trans none_, fun there => nonneg (members.mp there), fun some_ => ?_⟩
      obtain ⟨e, there, answers⟩ := answered some_
      exact ⟨e, (log e).mpr there, ops ▸ answers⟩
  | called result =>
      obtain ⟨⟨errno, one⟩, nonneg, answered⟩ := staged
      refine ⟨⟨errno, ?_⟩, fun there => nonneg (members.mp there), fun some_ => ?_⟩
      · rw [completions, ops, one]
      · obtain ⟨e, there, answers⟩ := answered some_
        exact ⟨e, (log e).mpr there, ops ▸ answers⟩

theorem start_served (served : Served flags content s) :
    Served flags content (start s request rc) := by
  have idle := served.started s.started (Nat.le_refl _)
  have fresh := served.staged s.started
  rw [idle] at fresh
  refine ⟨served.file, served.once, fun op after => ?_, fun op => ?_⟩
  · have ne : op ≠ s.started := Nat.ne_of_gt after
    show Function.update s.stage s.started _ op = .idle
    rw [Function.update_of_ne ne]
    exact served.started op (Nat.le_of_lt after)
  · by_cases new : op = s.started
    · subst new
      show Staged _ s.started (Function.update s.stage s.started _ s.started)
      rw [Function.update_self]
      split
      · exact ⟨fresh.1, fresh.2, Nat.lt_succ_self _⟩
      · exact fresh
    · show Staged _ op (Function.update s.stage s.started _ op)
      rw [Function.update_of_ne new]
      exact (served.staged op).congr rfl (Function.update_of_ne new ..) (Nat.le_succ _)
        fun _ => Iff.rfl

/-- The system call of an operation touches no other. -/
theorem serve_served (served : Served flags content s) (submitted : s.stage op = .submitted)
    (moves : Moves flags s n (s.ops op)) : Served flags content (serve flags s op n) := by
  have own := served.staged op
  rw [submitted] at own
  obtain ⟨none_, outside, before⟩ := own
  refine ⟨?file, ?once, ?started, fun other => ?_⟩
  case file =>
    have events : (serve flags s op n).events = s.events ++ [event s n (s.ops op)] := by
      rw [State.events, serve_log, List.map_append]
      rfl
    rw [events]
    exact run_snoc_eq_some.mpr ⟨s.file, served.file, serve_file moves⟩
  case once =>
    rw [serve_log, List.map_append, List.map_singleton]
    refine List.nodup_append.mpr ⟨served.once, List.pairwise_singleton .., ?_⟩
    rintro other old _ new rfl
    obtain rfl := List.mem_singleton.mp new
    exact outside old
  case started =>
    intro other after
    rw [serve_started] at after
    have ne : other ≠ op := by omega
    rw [serve_stage, Function.update_of_ne ne]
    exact served.started other after
  by_cases same : other = op
  · subst same
    have there : (other, event s n (s.ops other)) ∈ (serve flags s other n).log := by
      rw [serve_log]
      exact List.mem_append_right _ (List.mem_singleton_self _)
    have answers := moves_answers moves
    rw [serve_stage, Function.update_self]
    refine ⟨by rw [serve_completions]; exact none_, fun _ => Int.natCast_nonneg n, fun _ =>
      ⟨_, there, ?_⟩⟩
    rw [serve_ops, Int.toNat_natCast]
    exact answers
  · rw [serve_stage, Function.update_of_ne same]
    refine (served.staged other).congr (by rw [serve_completions]) (by rw [serve_ops])
      (Nat.le_of_eq serve_started.symm) fun e => ?_
    rw [serve_log, List.mem_append, List.mem_singleton, Prod.mk.injEq]
    simp only [same, false_and, or_false]

theorem fail_served (served : Served flags content s) (submitted : s.stage op = .submitted)
    (failed : result < 0) : Served flags content (fail s op result) := by
  have own := served.staged op
  rw [submitted] at own
  obtain ⟨none_, outside, before⟩ := own
  refine ⟨served.file, served.once, fun other after => ?_, fun other => ?_⟩
  · have ne : other ≠ op := by
      rintro rfl
      exact absurd after (Nat.not_le_of_gt before)
    show Function.update s.stage op _ other = .idle
    rw [Function.update_of_ne ne]
    exact served.started other after
  · by_cases same : other = op
    · subst same
      show Staged _ other (Function.update s.stage other _ other)
      rw [Function.update_self]
      exact ⟨none_, fun there => absurd there outside, fun some_ => by omega⟩
    · show Staged _ other (Function.update s.stage op _ other)
      rw [Function.update_of_ne same]
      exact (served.staged other).congr rfl rfl (Nat.le_refl _) fun _ => Iff.rfl

theorem callback_served (served : Served flags content s)
    (returned : s.stage op = .returned result) :
    Served flags content (callback s op result errno) := by
  have own := served.staged op
  rw [returned] at own
  obtain ⟨none_, nonneg, answered⟩ := own
  refine ⟨served.file, served.once, fun other after => ?_, fun other => ?_⟩
  · have ne : other ≠ op := by
      rintro rfl
      cases returned.symm.trans (served.started other after)
    show Function.update s.stage op _ other = .idle
    rw [Function.update_of_ne ne]
    exact served.started other after
  · by_cases same : other = op
    · subst same
      show Staged _ other (Function.update s.stage other _ other)
      rw [Function.update_self]
      refine ⟨⟨errno, ?_⟩, nonneg, answered⟩
      show Function.update s.completions other _ other = _
      rw [Function.update_self, none_]
      rfl
    · show Staged _ other (Function.update s.stage op _ other)
      rw [Function.update_of_ne same]
      exact (served.staged other).congr (Function.update_of_ne same ..) rfl (Nat.le_refl _)
        fun _ => Iff.rfl

theorem step_served (served : Served flags content s) (taken : step flags s a = some s') :
    Served flags content s' := by
  cases Step.of_step taken with
  | start request rc => exact start_served served
  | serve op n submitted moves => exact serve_served served submitted moves
  | fail op result submitted failed => exact fail_served served submitted failed
  | callback op result errno returned => exact callback_served served returned

end Steps

/-! ## What the callers see -/

/-- The Reads and Writes of all the Files together. -/
structure Shared (flags : Nat → Flags) (content : List UInt8) (s : State) : Prop where
  once : (s.log.map Prod.fst).Nodup
  completes : ∀ op, (s.completions op).length ≤ 1
  value : ∀ op v, .setValue v ∈ s.completions op →
    ∃ e n, (op, e) ∈ s.log ∧ v = .count n ∧ Answers (s.ops op) e n
  /-- An operation that fails has moved nothing. -/
  error : ∀ op failure, .setError failure ∈ s.completions op → op ∉ s.log.map Prod.fst
  grows : s.Appending flags →
    s.content = content ++ s.events.flatMap Event.written
  /-- What a File has read that has written nothing is the file from its start. -/
  reads : s.Appending flags → ∀ file, s.Silent file →
    s.events.flatMap (Event.delivered file) <+: s.content
  /-- What a File reads after a Write of its own stands behind that Write. -/
  readsOn : s.Appending flags → ∀ file before bytes after,
    s.events = before ++ .write file bytes :: after → bytes ≠ [] →
      Writers (· ≠ file) after →
        content ++ before.flatMap Event.written ++ bytes ++
          after.flatMap (Event.delivered file) <+: s.content
  /-- A Read that finds no byte for its span has come behind all there was. -/
  ended : ∀ file before after, s.events = before ++ .ended file :: after →
    Writers (fun file => appends flags file = true) before → Writers (· ≠ file) before →
      before.flatMap (Event.delivered file) = content ++ before.flatMap Event.written
  /-- A File that does not append and is the only one to write goes over what was there. -/
  rewrites : ∀ file, appends flags file = false → s.Sole file →
    s.content = s.events.flatMap (Event.passed file) ++
      content.drop (s.events.flatMap (Event.passed file)).length

/-- Whatever a request completes with says whether it failed. -/
theorem callback_cases (request : Request) (result errno : Int) :
    (0 ≤ result ∧
        request.operation.callback ⟨result, 0, errno⟩ = .setValue (.count result.toNat)) ∨
      result < 0 ∧
        ∃ failure, request.operation.callback ⟨result, 0, errno⟩ = .setError failure := by
  by_cases negative : result < 0
  · right
    refine ⟨negative, ?_⟩
    cases request with
    | read file len => exact ⟨_, if_pos negative⟩
    | write file msg => exact ⟨_, if_pos negative⟩
  · left
    refine ⟨by omega, ?_⟩
    cases request with
    | read file len => exact if_neg negative
    | write file msg => exact if_neg negative

section Callers

variable {flags : Nat → Flags} {content : List UInt8} {s : State} {acts : List Act}

theorem run_served (reached : run (step flags) (init content) acts = some s) :
    Served flags content s :=
  run_invariant (fun _ _ _ served taken => step_served served taken) init_served reached

theorem Served.completion (served : Served flags content s) (op : Nat) :
    s.completions op = [] ∨
      ∃ result errno, s.completions op = [(s.ops op).operation.callback ⟨result, 0, errno⟩] ∧
        (op ∈ s.log.map Prod.fst → 0 ≤ result) ∧
        (0 ≤ result → ∃ e, (op, e) ∈ s.log ∧ Answers (s.ops op) e result.toNat) := by
  have staged := served.staged op
  cases stage : s.stage op with
  | idle =>
      rw [stage] at staged
      exact .inl staged.1
  | submitted =>
      rw [stage] at staged
      exact .inl staged.1
  | returned result =>
      rw [stage] at staged
      exact .inl staged.1
  | called result =>
      rw [stage] at staged
      obtain ⟨⟨errno, one⟩, nonneg, answered⟩ := staged
      exact .inr ⟨result, errno, one, nonneg, answered⟩

theorem Served.shared (served : Served flags content s) : Shared flags content s := by
  have start : ∀ file, Behind file [] (⟨content, fun _ => 0⟩ : OpenFile Nat UInt8) :=
    fun _ => ⟨Nat.zero_le _, rfl⟩
  refine ⟨served.once, ?completes, ?value, ?error, ?grows, ?reads, ?readsOn, ?ended, ?rewrites⟩
  case grows => exact fun appending => OpenFile.run_content appending served.file
  case reads =>
    intro appending file silent
    exact (OpenFile.run_delivered (start file) appending silent served.file).stands
  case readsOn =>
    intro appending file before bytes after split some_ silent
    have reached := served.file
    unfold State.Appending at appending
    rw [split] at reached appending
    exact OpenFile.run_since some_ appending silent reached
  case ended =>
    intro file before after split appending silent
    have reached := served.file
    rw [split] at reached
    exact OpenFile.run_ended (start file) appending silent reached
  case rewrites =>
    intro file sequential sole
    exact (OpenFile.run_rewrites rfl sequential sole served.file).1
  case completes =>
    intro op
    rcases served.completion op with none_ | ⟨_, _, one, -⟩
    · rw [none_]
      exact Nat.zero_le _
    · rw [one]
      exact Nat.le_refl _
  case value =>
    intro op v member
    rcases served.completion op with none_ | ⟨result, errno, one, -, answered⟩
    · rw [none_] at member
      cases member
    · rw [one, List.mem_singleton] at member
      rcases callback_cases (s.ops op) result errno with ⟨ok, counts⟩ | ⟨-, _, fails⟩
      · obtain ⟨e, there, answers⟩ := answered ok
        rw [counts, Completion.setValue.injEq] at member
        exact ⟨e, _, there, member, answers⟩
      · cases member.trans fails
  case error =>
    intro op failure member there
    rcases served.completion op with none_ | ⟨result, errno, one, nonneg, -⟩
    · rw [none_] at member
      cases member
    · rw [one, List.mem_singleton] at member
      rcases callback_cases (s.ops op) result errno with ⟨-, counts⟩ | ⟨negative, -⟩
      · cases member.trans counts
      · have ok := nonneg there
        omega

end Callers

/-- **The Files of a path share one file.**  In every interleaving of Reads and Writes on
any number of Files, opened with any flags and served by any number of workers in any
order, every operation completes at most once, with the count of the bytes it moved or an
error, and then it moved none.  Where all who wrote append, the file is what it was, and
behind it the front of every Write that was served, in that order and each in one piece;
what a File has read, put together in the order its Reads were served, is the file from
its start, and after a Write of its own it goes on behind that.  Where one File writes and
does not append, the file is what this File read and wrote, in that order, and behind it
what it was. -/
theorem files_share_one_file {flags : Nat → Flags} {content : List UInt8} {acts : List Act}
    {s : State} (reached : run (step flags) (init content) acts = some s) :
    Shared flags content s :=
  (run_served reached).shared

/-- One File that appends, one that does both, and others to read. -/
def twoWriters : Nat → Flags
  | 1 => ⟨false, true, true⟩
  | 2 => ⟨true, true, true⟩
  | _ => ⟨true, false, false⟩

/-- Two Reads of one File are served the other way round, behind a Write; another File
writes, and reads on. -/
def overtaken : List Act :=
  [.start (.write 1 [3, 4]) 0, .start (.read 0 2) 0, .start (.read 0 2) 0, .serve 0 1, .serve 2 2,
    .serve 1 1, .start (.write 2 [5]) 0, .serve 3 1, .start (.write 1 [6]) 0, .serve 4 1,
    .start (.read 2 2) 0, .serve 5 1, .callback 1 0, .callback 0 0, .callback 2 0]

theorem files_share_one_file_overtaken :
    ∃ s, run (step twoWriters) (init [1, 2]) overtaken = some s ∧
      s.content = [1, 2] ++ s.events.flatMap Event.written ∧ s.content = [1, 2, 3, 5, 6] ∧
      s.events.flatMap (Event.delivered 0) = [1, 2, 3] ∧
      s.events.flatMap (Event.delivered 0) <+: s.content := by
  have reached : run (step twoWriters) (init [1, 2]) overtaken = some _ := rfl
  obtain ⟨-, -, -, -, grows, reads, -⟩ := files_share_one_file reached
  exact ⟨_, reached, grows (by decide), rfl, rfl, reads (by decide) 0 (by decide)⟩

/-- A File that reads and appends passes over what it had not read when it wrote. -/
example : (run (step twoWriters) (init [1, 2, 3]) [.start (.read 2 1) 0, .serve 0 1,
    .start (.write 2 [4]) 0, .serve 1 1, .start (.read 2 9) 0, .serve 2 0]).map State.events =
      some [.read 2 [1], .write 2 [4], .ended 2] := by
  decide

/-- One that does not append writes where it has read to. -/
example : (run (step fun _ => ⟨true, true, false⟩) (init [1, 2, 3]) [.start (.read 0 1) 0,
    .serve 0 1, .start (.write 0 [9]) 0, .serve 1 1]).map State.content = some [1, 9, 3] := by
  decide

/-! ## Transfers that never overlap -/

/-- A transfer of `file` is started when no system call for it is outstanding. -/
def Chained (file : Nat) (s : State) : Act → Prop
  | .start request _ =>
      request.file = file → ∀ op < s.started, s.stage op = .submitted → (s.ops op).file ≠ file
  | _ => True

instance (file : Nat) (s : State) (a : Act) : Decidable (Chained file s a) :=
  match a with
  | .start _ _ => inferInstanceAs (Decidable (_ → _))
  | .serve _ _ => .isTrue trivial
  | .fail _ _ => .isTrue trivial
  | .callback _ _ => .isTrue trivial

/-- The entry is of a transfer of `file`. -/
def State.isOf (s : State) (file : Nat) (entry : Entry) : Bool := (s.ops entry.1).file = file

/-- The transfers of `file` were served as they were started, and the one that is still to
be served is the last. -/
structure InOrder (file : Nat) (s : State) : Prop where
  increasing : (s.log.filter (s.isOf file)).Pairwise fun e e' => e.1 < e'.1
  single : ∀ op op', s.stage op = .submitted → s.stage op' = .submitted →
    (s.ops op).file = file → (s.ops op').file = file → op = op'
  ahead : ∀ e ∈ s.log, (s.ops e.1).file = file → ∀ op, s.stage op = .submitted →
    (s.ops op).file = file → e.1 < op

section Chained

variable {flags : Nat → Flags} {content : List UInt8} {s s' : State} {a : Act}
  {file op n : Nat} {request : Request} {rc result errno : Int}

/-- What has been served was started. -/
theorem Served.bound (served : Served flags content s) {e : Entry} (member : e ∈ s.log) :
    e.1 < s.started := by
  by_contra after
  have idle := served.started e.1 (Nat.le_of_not_lt after)
  have staged := served.staged e.1
  rw [idle] at staged
  exact staged.2 (List.mem_map_of_mem member)

theorem Served.submitted_lt (served : Served flags content s)
    (submitted : s.stage op = .submitted) : op < s.started := by
  have staged := served.staged op
  rw [submitted] at staged
  exact staged.2.2

/-- Every event answers its request. -/
theorem Served.answers (served : Served flags content s) {e : Entry} (member : e ∈ s.log) :
    ∃ n, Answers (s.ops e.1) e.2 n := by
  have keyed : e.1 ∈ s.log.map Prod.fst := List.mem_map_of_mem member
  have staged := served.staged e.1
  have own : ∃ e', (e.1, e') ∈ s.log ∧ ∃ n, Answers (s.ops e.1) e' n := by
    cases stage : s.stage e.1 with
    | idle =>
        rw [stage] at staged
        exact absurd keyed staged.2
    | submitted =>
        rw [stage] at staged
        exact absurd keyed staged.2.1
    | returned result =>
        rw [stage] at staged
        obtain ⟨e', there, answers⟩ := staged.2.2 (staged.2.1 keyed)
        exact ⟨e', there, _, answers⟩
    | called result =>
        rw [stage] at staged
        obtain ⟨e', there, answers⟩ := staged.2.2 (staged.2.1 keyed)
        exact ⟨e', there, _, answers⟩
  obtain ⟨e', there, answers⟩ := own
  have same : (e.1, e') = e := List.inj_on_of_nodup_map served.once there member rfl
  rw [← same]
  exact answers

/-- An event is of the File that its request is of. -/
theorem Served.user (served : Served flags content s) {e : Entry} (member : e ∈ s.log) :
    e.2.user = (s.ops e.1).file := by
  obtain ⟨n, answers⟩ := served.answers member
  cases request : s.ops e.1 with
  | read reader len =>
      rw [request] at answers
      rcases answers with ⟨bytes, event, -⟩ | ⟨event, -⟩
      · rw [event]
        rfl
      · rw [event]
        rfl
  | write writer msg =>
      rw [request] at answers
      rw [answers.1]
      rfl

/-- The transfers of other Files are not of `file`. -/
theorem Served.user_ne (served : Served flags content s) {e : Entry} (member : e ∈ s.log)
    (other : s.isOf file e = false) : e.2.user ≠ file := by
  rw [served.user member]
  exact of_decide_eq_false other

/-- Nobody else writes. -/
theorem Served.silent (served : Served flags content s) (sole : s.Sole file) {e : Entry}
    (member : e ∈ s.log) (other : s.isOf file e = false) : e.2.written = [] := by
  have apart := served.user_ne member other
  cases event : e.2 with
  | write writer bytes =>
      exact absurd (sole e.2 (List.mem_map_of_mem member) (event ▸ rfl)) apart
  | read reader bytes => rfl
  | ended reader => rfl

theorem InOrder.congr (order : InOrder file s) (log : s'.log = s.log) (ops : s'.ops = s.ops)
    (stage : ∀ op, s'.stage op = .submitted → s.stage op = .submitted) : InOrder file s' := by
  have same : s'.isOf file = s.isOf file := by
    funext entry
    simp only [State.isOf, ops]
  refine ⟨?_, fun op op' first second => ?_, fun e member own op still => ?_⟩
  · rw [log, same]
    exact order.increasing
  · rw [ops]
    exact order.single op op' (stage op first) (stage op' second)
  · rw [log] at member
    rw [ops] at own ⊢
    exact order.ahead e member own op (stage op still)

theorem start_inOrder (served : Served flags content s) (order : InOrder file s)
    (chained : Chained file s (.start request rc)) : InOrder file (start s request rc) := by
  have kept : ∀ op < s.started, (start s request rc).ops op = s.ops op := by
    intro op before
    exact Function.update_of_ne (Nat.ne_of_lt before) ..
  have old : ∀ op ≠ s.started, (start s request rc).stage op = s.stage op := by
    intro op ne
    exact Function.update_of_ne ne ..
  have new : (start s request rc).ops s.started = request := Function.update_self ..
  -- the request that is still to be served is the one just started, or none is new
  have only : ∀ op, (start s request rc).stage op = .submitted →
      ((start s request rc).ops op).file = file →
      op = s.started ∨ op < s.started ∧ s.stage op = .submitted ∧ (s.ops op).file = file := by
    intro op submitted own
    by_cases fresh : op = s.started
    · exact .inl fresh
    · rw [old op fresh] at submitted
      have before := served.submitted_lt submitted
      rw [kept op before] at own
      exact .inr ⟨before, submitted, own⟩
  have alone : ∀ op, op < s.started → s.stage op = .submitted → (s.ops op).file = file →
      ((start s request rc).ops s.started).file ≠ file := by
    intro op before submitted own same
    rw [new] at same
    exact chained same op before submitted own
  refine ⟨?increasing, ?single, ?ahead⟩
  case increasing =>
    have same : s.log.filter ((start s request rc).isOf file) = s.log.filter (s.isOf file) := by
      apply List.filter_congr
      intro e member
      simp only [State.isOf, kept e.1 (served.bound member)]
    show (s.log.filter ((start s request rc).isOf file)).Pairwise _
    rw [same]
    exact order.increasing
  case single =>
    intro op op' first second own own'
    rcases only op first own with rfl | ⟨before, submitted, owned⟩
    · rcases only op' second own' with rfl | ⟨before', submitted', owned'⟩
      · rfl
      · exact absurd own (alone op' before' submitted' owned')
    · rcases only op' second own' with rfl | ⟨-, submitted', owned'⟩
      · exact absurd own' (alone op before submitted owned)
      · exact order.single op op' submitted submitted' owned owned'
  case ahead =>
    intro e member own op submitted owned
    have before := served.bound (e := e) member
    rw [kept e.1 before] at own
    rcases only op submitted owned with rfl | ⟨-, submitted', owned'⟩
    · exact before
    · exact order.ahead e member own op submitted' owned'

theorem serve_inOrder (order : InOrder file s) (submitted : s.stage op = .submitted) :
    InOrder file (serve flags s op n) := by
  have same : (serve flags s op n).isOf file = s.isOf file := by
    funext entry
    simp only [State.isOf, serve_ops]
  have still : ∀ other, (serve flags s op n).stage other = .submitted →
      other ≠ op ∧ s.stage other = .submitted := by
    intro other later
    rw [serve_stage] at later
    by_cases here : other = op
    · rw [here, Function.update_self] at later
      cases later
    · rw [Function.update_of_ne here] at later
      exact ⟨here, later⟩
  refine ⟨?increasing, ?single, ?ahead⟩
  case increasing =>
    rw [same, serve_log, List.filter_append]
    refine List.pairwise_append.mpr ⟨order.increasing, ?_, fun e member e' served => ?_⟩
    · exact (List.pairwise_singleton ..).filter _
    · obtain ⟨last, own'⟩ := List.mem_filter.mp served
      obtain rfl := List.mem_singleton.mp last
      obtain ⟨logged, own⟩ := List.mem_filter.mp member
      exact order.ahead e logged (of_decide_eq_true own) op submitted (of_decide_eq_true own')
  case single =>
    intro other other' first second
    rw [serve_ops]
    exact order.single other other' (still other first).2 (still other' second).2
  case ahead =>
    intro e member own other later
    obtain ⟨ne, waits⟩ := still other later
    rw [serve_ops] at own ⊢
    rw [serve_log] at member
    intro owned
    rcases List.mem_append.mp member with logged | last
    · exact order.ahead e logged own other waits owned
    · obtain rfl := List.mem_singleton.mp last
      exact absurd (order.single other op waits submitted owned own) ne

theorem step_inOrder (served : Served flags content s) (order : InOrder file s)
    (chained : Chained file s a) (taken : step flags s a = some s') : InOrder file s' := by
  cases Step.of_step taken with
  | start request rc => exact start_inOrder served order chained
  | serve op n submitted moves => exact serve_inOrder order submitted
  | fail op result submitted failed =>
      refine order.congr rfl rfl fun other later => ?_
      by_cases same : other = op
      · simp [fail, same] at later
      · simpa [fail, same] using later
  | callback op result errno returned =>
      refine order.congr rfl rfl fun other later => ?_
      by_cases same : other = op
      · simp [callback, same] at later
      · simpa [callback, same] using later

end Chained

/-- What a Read of `file` got. -/
def got (file : Nat) (entry : Entry) : List UInt8 := entry.2.delivered file

/-- What a Write wrote. -/
def put (entry : Entry) : List UInt8 := entry.2.written

/-- What a transfer of `file` moved its offset over. -/
def moved (file : Nat) (entry : Entry) : List UInt8 := entry.2.passed file

theorem chained_run {flags : Nat → Flags} {content : List UInt8} {acts : List Act} {s : State}
    {file : Nat} (chained : Along (step flags) (Chained file) (init content) acts)
    (reached : run (step flags) (init content) acts = some s) :
    Served flags content s ∧ InOrder file s := by
  refine chained.invariant (I := fun s => Served flags content s ∧ InOrder file s) ?_
    ⟨init_served, List.Pairwise.nil, nofun, nofun⟩ reached
  rintro s a s' ⟨served, order⟩ meets taken
  exact ⟨step_served served taken, step_inOrder served order meets taken⟩

/-- The transfers of `file`, one by one as they were started: its Reads and Writes were
served in that order. -/
structure Transferred (flags : Nat → Flags) (content : List UInt8) (file : Nat) (s : State) :
    Prop where
  inOrder : (s.log.filter (s.isOf file)).Pairwise fun e e' => e.1 < e'.1
  /-- Where all who wrote append and `file` wrote nothing, it has read the file. -/
  reads : s.Appending flags → s.Silent file →
    (List.range s.started).flatMap (numbered s.log (got file)) <+: s.content
  /-- Where `file` alone wrote, its Writes stand in the file behind what it was, or what it
  read and wrote stands there before the rest of what it was. -/
  appended : appends flags file = true → s.Sole file →
    s.content = content ++ (List.range s.started).flatMap (numbered s.log put)
  rewritten : appends flags file = false → s.Sole file →
    s.content = (List.range s.started).flatMap (numbered s.log (moved file)) ++
      content.drop ((List.range s.started).flatMap (numbered s.log (moved file))).length

theorem InOrder.transferred {flags : Nat → Flags} {content : List UInt8} {s : State} {file : Nat}
    (order : InOrder file s) (served : Served flags content s) :
    Transferred flags content file s := by
  have shared := served.shared
  -- what the transfers give, by their numbers
  have together : ∀ give : Entry → List UInt8,
      (∀ e ∈ s.log, s.isOf file e = false → give e = []) →
        (List.range s.started).flatMap (numbered s.log give) = s.log.flatMap give :=
    fun give silent => flatMap_range silent (order.increasing.imp Nat.le_of_lt)
      fun e member => served.bound member
  refine ⟨order.increasing, ?reads, ?appended, ?rewritten⟩
  case reads =>
    intro appending silent
    have reads := shared.reads appending file silent
    rw [State.events, List.flatMap_map] at reads
    rw [together (got file) fun e member other =>
      Event.delivered_of_ne (served.user_ne member other)]
    exact reads
  case appended =>
    intro append sole
    have appending : s.Appending flags := by
      intro e member writes
      rw [sole e member writes]
      exact append
    have grows := shared.grows appending
    rw [State.events, List.flatMap_map] at grows
    rw [together put fun e member other => served.silent sole member other]
    exact grows
  case rewritten =>
    intro sequential sole
    have rewrites := shared.rewrites file sequential sole
    rw [State.events, List.flatMap_map] at rewrites
    rw [together (moved file) fun e member other =>
      Event.passed_of_ne (served.user_ne member other)]
    exact rewrites

/-- **Chained transfers keep their order.**  If no transfer of a File is started while a
system call for another is outstanding, its transfers are served in the order in which
they were started.  Where all who wrote append, what the File has read, Read by Read as
they were started, is the file from its start, if it wrote nothing; and if no other File
wrote, the file grows by its Writes, as they were started.  Where it does not append and
no other File wrote, the file is what its transfers moved, as they were started, and then
what it was behind that. -/
theorem chained_transfers_in_order {flags : Nat → Flags} {content : List UInt8} {acts : List Act}
    {s : State} {file : Nat} (chained : Along (step flags) (Chained file) (init content) acts)
    (reached : run (step flags) (init content) acts = some s) :
    Transferred flags content file s := by
  obtain ⟨served, order⟩ := chained_run chained reached
  exact order.transferred served

/-- A File is written to while another reads it twice, one Read behind the other. -/
def tailed : List Act :=
  [.start (.write 1 [3, 4]) 0, .start (.read 0 2) 0, .serve 1 1, .serve 0 2, .callback 1 0,
    .start (.read 0 2) 0, .callback 0 0, .serve 2 2, .callback 2 0]

theorem chained_transfers_in_order_tailed :
    ∃ s, run (step twoWriters) (init [1, 2]) tailed = some s ∧
      (List.range s.started).flatMap (numbered s.log (got 0)) = [1, 2, 3] ∧
      (List.range s.started).flatMap (numbered s.log (got 0)) <+: s.content := by
  have reached : run (step twoWriters) (init [1, 2]) tailed = some _ := rfl
  have along : Along (step twoWriters) (Chained 0) (init [1, 2]) tailed := by decide
  obtain ⟨-, reads, -, -⟩ := chained_transfers_in_order along reached
  exact ⟨_, reached, by decide, reads (by decide) (by decide)⟩

/-- Two Reads that overlap get the file the other way round. -/
example : (run (step twoWriters) (init [1, 2, 3]) [.start (.read 0 2) 0, .start (.read 0 2) 0,
    .serve 1 2, .serve 0 1]).map (fun s =>
      (List.range s.started).flatMap (numbered s.log (got 0))) = some [3, 1, 2] := by
  decide

end PatBase.Runtime.FileTransfer
