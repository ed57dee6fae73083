/-
# PatBase.Runtime.FileTest -- the file test of test.cc

`main` appends a message to a file and closes it, then opens the file again, reads from
its start and closes it.  The `File` of each half lives as long as the sender that the
`let` after `Open` returned, and its destructor runs before the `let` completes.  The
pipeline is the one the source builds, over `PatBase.Lib.Signals`, and its senders
complete with what `Operation` makes of a report.

`file_test_spec`: what such an execution leaves behind.  No descriptor stays open, however
it ends; but each Close that went well is followed by a second `close` of the same
number, by the destructor.
-/
import PatBase.Lib.Signals
import PatBase.Runtime.Operation

namespace PatBase.Runtime.FileTest

open PatBase.Lib.Signals

set_option autoImplicit false

/-! ## The pipeline -/

inductive Leaf where
  /-- `File::Open` with `UV_FS_O_CREAT | UV_FS_O_APPEND | UV_FS_O_WRONLY`. -/
  | openAppend
  /-- `File::Open` with `UV_FS_O_RDONLY`. -/
  | openRead
  | write
  | read
  | close
  /-- `~File` -/
  | destroy
  deriving DecidableEq

def Leaf.operation : Leaf → Operation
  | .openAppend | .openRead => Operation.openOp
  | .write => Operation.writeOp
  | .read => Operation.readOp
  | .close | .destroy => Operation.closeOp

/-- A `let` after an Open: the File lives until the transfer and the Close have completed. -/
def fileSession (opened transfer : Leaf) : Pipeline Leaf Value Failure :=
  .letValueWith opened .destroy ((Pipeline.leaf transfer).andLet fun _ => .leaf .close)

/-- `waitable` -/
def waitable : Pipeline Leaf Value Failure :=
  (fileSession .openAppend .write).andLet fun _ => fileSession .openRead .read

/-! ## What the senders do -/

structure State where
  /-- What `/tmp/test.out` holds. -/
  content : List UInt8
  /-- The open descriptors that the pipeline was given. -/
  table : List Nat
  /-- `fd_` of the live File. -/
  file : Option Nat
  /-- What the Read got. -/
  buf : List UInt8
  /-- The Closes that have freed their number. -/
  released : Nat
  /-- The calls of `close` with a number that was not open, or by then a stranger's. -/
  surplus : Nat
  /-- The senders that have completed, with their signals. -/
  log : List (Leaf × Signal Value Failure)

def init (content : List UInt8) : State := ⟨content, [], none, [], 0, 0, []⟩

def State.logs (s : State) (l : Leaf) (signal : Signal Value Failure) : State :=
  { s with log := s.log ++ [(l, signal)] }

/-- The completion of `l` by a libuv result. -/
def reports (l : Leaf) (result errno : Int) : Signal Value Failure :=
  (l.operation.callback ⟨result, 0, errno⟩).signal id id

/-- The destructor: `if (fd_ != -1) close(fd_)`. -/
def destroyed (s : State) (fd : Nat) : State :=
  { s with
    file := none
    table := s.table.erase fd
    surplus := if fd ∈ s.table then s.surplus else s.surplus + 1 }

/-- The completions of each sender, for the message `msg` and a span of its size. -/
inductive Perform (msg : List UInt8) : Leaf → State → Signal Value Failure → State → Prop where
  /-- The `schedule()` in front of an operation finds that stop was requested. -/
  | cancelled {l : Leaf} (s : State) (started : l ≠ .destroy) :
      Perform msg l s .done (s.logs l .done)
  /-- The system call fails, and does nothing. -/
  | failed {l : Leaf} (s : State) (result errno : Int) (started : l ≠ .destroy)
      (negative : result < 0) :
      Perform msg l s (reports l result errno) (s.logs l (reports l result errno))
  | opened {l : Leaf} (s : State) (fd : Nat) (errno : Int)
      (opens : l = .openAppend ∨ l = .openRead) (free : fd ∉ s.table) :
      Perform msg l s (reports l fd errno)
        ({ s with table := fd :: s.table, file := some fd }.logs l (reports l fd errno))
  | wrote (s : State) (n : Nat) (errno : Int) (fits : n ≤ msg.length) :
      Perform msg .write s (reports .write n errno)
        ({ s with content := s.content ++ msg.take n }.logs .write (reports .write n errno))
  | got (s : State) (n : Nat) (errno : Int) (fits : n ≤ msg.length)
      (there : n ≤ s.content.length) :
      Perform msg .read s (reports .read n errno)
        ({ s with buf := s.content.take n }.logs .read (reports .read n errno))
  /-- The kernel frees the number, whether or not it reports an error. -/
  | closed {s : State} {fd : Nat} (result errno : Int) (live : s.file = some fd)
      (own : fd ∈ s.table) :
      Perform msg .close s (reports .close result errno)
        ({ s with table := s.table.erase fd, released := s.released + 1 }.logs .close
          (reports .close result errno))
  | destroy {s : State} {fd : Nat} (live : s.file = some fd) :
      Perform msg .destroy s (.value .unit) ((destroyed s fd).logs .destroy (.value .unit))

/-! ## Assertions -/

/-- An error that was signalled is the one that is on its way. -/
def Faithful (signal : Signal Value Failure) (s : State) : Prop :=
  ∀ l x, (l, .error x) ∈ s.log → signal = .error x

/-- No File, and no descriptor, after `r` Closes. -/
structure Idle (r : Nat) (s : State) : Prop where
  table : s.table = []
  file : s.file = none
  released : s.released = r
  surplus : s.surplus = r

/-- A File with its descriptor. -/
def Held (r : Nat) (s : State) : Prop :=
  ∃ fd, s.file = some fd ∧ s.table = [fd] ∧ s.released = r ∧ s.surplus = r

/-- A File whose Close has freed the number it still holds. -/
def Freed (r : Nat) (s : State) : Prop :=
  ∃ fd, s.file = some fd ∧ s.table = [] ∧ s.released = r + 1 ∧ s.surplus = r

/-- It is about the data and the senders that have completed. -/
def OfData (P : State → Prop) : Prop :=
  ∀ s s', s'.content = s.content → s'.buf = s.buf → s.log ⊆ s'.log → P s → P s'

/-- Data before and after a transfer that completes with a value. -/
def Transferred (P T : State → Prop) (signal : Signal Value Failure) (s : State) : Prop :=
  (P s ∨ T s) ∧ ∀ v, signal = .value v → T s

/-- After one half: its File is gone, and was closed twice if its Close freed the number. -/
def HalfDone (P T : State → Prop) (r : Nat) (signal : Signal Value Failure) (s : State) : Prop :=
  Faithful signal s ∧ Transferred P T signal s ∧
    (Idle (r + 1) s ∨ Idle r s ∧ ∀ v, signal ≠ .value v)

section Senders

variable {msg : List UInt8} {s s' : State} {l : Leaf} {v : Value} {r : Nat} {result errno : Int}
  {signal : Signal Value Failure} {P T : State → Prop}

theorem reports_of_nonneg (nonneg : 0 ≤ result) : ∃ v, reports l result errno = .value v := by
  have notNegative : ¬ result < 0 := by omega
  cases l <;> simp [reports, Leaf.operation, Operation.openOp, Operation.readOp, Operation.writeOp,
    Operation.closeOp, complete, notNegative, Completion.signal]

theorem reports_of_neg (l : Leaf) (errno : Int) (negative : result < 0) :
    ∃ x, reports l result errno = .error x := by
  cases l <;> simp [reports, Leaf.operation, Operation.openOp, Operation.readOp, Operation.writeOp,
    Operation.closeOp, complete, negative, Completion.signal, uvError]

theorem reports_count (n : Nat) (counts : l = .write ∨ l = .read) :
    reports l n errno = .value (.count n) := by
  have notNegative : ¬ (n : Int) < 0 := by omega
  rcases counts with rfl | rfl <;> simp [reports, Leaf.operation, Operation.readOp,
    Operation.writeOp, complete, notNegative, Completion.signal]

/-- The log of a value gets another signal. -/
theorem Faithful.logs (faithful : Faithful (.value v) s) :
    Faithful signal (State.logs s l signal) := by
  intro l' x member
  rcases List.mem_append.mp member with old | new
  · cases faithful l' x old
  · exact (Prod.mk.inj (List.mem_singleton.mp new)).2.symm

theorem Faithful.congr (faithful : Faithful signal s) (log : s'.log = s.log) :
    Faithful signal s' := by
  unfold Faithful
  rw [log]
  exact faithful

/-- A sender that leaves the data alone. -/
theorem OfData.after (data : OfData P) (holds : P s) (content : s'.content = s.content)
    (buf : s'.buf = s.buf) (log : s'.log = s.log) : P (s'.logs l signal) :=
  data s _ content buf (log ▸ List.subset_append_left ..) holds

theorem OfData.or (first : OfData P) (second : OfData T) : OfData fun s => P s ∨ T s := by
  intro s s' content buf log holds
  exact holds.imp (first s s' content buf log) (second s s' content buf log)

/-- The Open of one half. -/
theorem open_spec {opened : Leaf} (opens : opened = .openAppend ∨ opened = .openRead)
    (data : OfData P) (idle : Idle r s) (faithful : Faithful (.value v) s) (before : P s) :
    wp (Perform msg) (.leaf opened)
      (fun signal s' => Faithful signal s' ∧ P s' ∧
        ((∃ v, signal = .value v) ∧ Held r s' ∨ (∀ v, signal ≠ .value v) ∧ Idle r s')) s := by
  have kept : ∀ {signal : Signal Value Failure} {l : Leaf}, P (s.logs l signal) :=
    data.after before rfl rfl rfl
  intro signal s' ran
  cases ran with
  | cancelled _ started =>
      exact ⟨faithful.logs, kept, .inr ⟨nofun, idle.table, idle.file, idle.released, idle.surplus⟩⟩
  | failed _ result errno started negative =>
      obtain ⟨x, error⟩ := reports_of_neg opened errno negative
      refine ⟨faithful.logs, kept, .inr ⟨fun v value => ?_, idle.table, idle.file, idle.released,
        idle.surplus⟩⟩
      cases error.symm.trans value
  | opened _ fd errno _ free =>
      refine ⟨(faithful.congr rfl).logs, data.after before rfl rfl rfl,
        .inl ⟨reports_of_nonneg (Int.natCast_nonneg fd), fd, rfl, ?_, idle.released,
          idle.surplus⟩⟩
      show fd :: s.table = [fd]
      rw [idle.table]
  | wrote => rcases opens with h | h <;> cases h
  | got => rcases opens with h | h <;> cases h
  | closed => rcases opens with h | h <;> cases h
  | destroy => rcases opens with h | h <;> cases h

/-- The Close of one half frees the number, or fails and leaves it to the destructor. -/
theorem close_spec (dataT : OfData T) (held : Held r s)
    (faithful : Faithful (.value v) s) (transferred : T s) :
    wp (Perform msg) (.leaf .close)
      (fun signal s' => Faithful signal s' ∧ Transferred P T signal s' ∧
        (Held r s' ∧ (∀ v, signal ≠ .value v) ∨ Freed r s')) s := by
  obtain ⟨fd, file, table, released, surplus⟩ := held
  intro signal s' ran
  cases ran with
  | cancelled _ started =>
      have after : T (s.logs .close .done) := dataT.after transferred rfl rfl rfl
      exact ⟨faithful.logs, ⟨.inr after, fun _ _ => after⟩,
        .inl ⟨⟨fd, file, table, released, surplus⟩, nofun⟩⟩
  | failed _ result errno started negative =>
      obtain ⟨x, error⟩ := reports_of_neg .close errno negative
      have after : T (s.logs .close (reports .close result errno)) :=
        dataT.after transferred rfl rfl rfl
      refine ⟨faithful.logs, ⟨.inr after, fun _ _ => after⟩,
        .inl ⟨⟨fd, file, table, released, surplus⟩, fun v value => ?_⟩⟩
      cases error.symm.trans value
  | opened _ fd errno opens free => rcases opens with h | h <;> cases h
  | @closed _ own result errno live there =>
      obtain rfl := Option.some.inj (file.symm.trans live)
      refine ⟨(faithful.congr rfl).logs, ⟨.inr ?_, fun _ _ => ?_⟩, .inr ⟨fd, file, ?_, ?_, surplus⟩⟩
      · exact dataT.after transferred rfl rfl rfl
      · exact dataT.after transferred rfl rfl rfl
      · show s.table.erase fd = []
        rw [table]
        simp
      · show s.released + 1 = r + 1
        rw [released]

/-- The end of the File: it closes the number a second time if the Close has freed it. -/
theorem destroy_spec (data : OfData fun s => P s ∨ T s) (dataT : OfData T)
    (faithful : Faithful signal s) (transferred : Transferred P T signal s)
    (ended : Held r s ∧ (∀ v, signal ≠ .value v) ∨ Freed r s) :
    wp (Perform msg) (.leaf .destroy) (fun _ => HalfDone P T r signal) s := by
  intro signal' s' ran
  cases ran with
  | cancelled _ started => exact absurd rfl started
  | failed _ result errno started negative => exact absurd rfl started
  | opened _ fd errno opens free => rcases opens with h | h <;> cases h
  | @destroy _ fd live =>
      refine ⟨?_, ⟨?_, fun v value => ?_⟩, ?_⟩
      · intro l x member
        rcases List.mem_append.mp member with old | new
        · exact faithful l x old
        · cases (Prod.mk.inj (List.mem_singleton.mp new)).2
      · exact data.after transferred.1 rfl rfl rfl
      · exact dataT.after (transferred.2 v value) rfl rfl rfl
      · rcases ended with ⟨⟨own, file, table, released, surplus⟩, noValue⟩ |
          ⟨own, file, table, released, surplus⟩
        · obtain rfl := Option.some.inj (file.symm.trans live)
          refine .inr ⟨⟨?_, rfl, released, ?_⟩, noValue⟩
          · show s.table.erase own = []
            rw [table]
            simp
          · show (if own ∈ s.table then s.surplus else s.surplus + 1) = r
            rw [table, if_pos (List.mem_singleton_self _)]
            exact surplus
        · obtain rfl := Option.some.inj (file.symm.trans live)
          refine .inl ⟨?_, rfl, released, ?_⟩
          · show s.table.erase own = []
            rw [table]
            rfl
          · show (if own ∈ s.table then s.surplus else s.surplus + 1) = r + 1
            rw [table, if_neg List.not_mem_nil, surplus]

/-- **One half**, whatever its transfer does to the data. -/
theorem fileSession_spec {opened transfer : Leaf}
    (opens : opened = .openAppend ∨ opened = .openRead) (dataP : OfData P) (dataT : OfData T)
    (moves : ∀ v s, Held r s → Faithful (.value v) s → P s →
      wp (Perform msg) (.leaf transfer)
        (fun signal s' => Held r s' ∧ Faithful signal s' ∧ Transferred P T signal s') s)
    (idle : Idle r s) (faithful : Faithful (.value v) s) (before : P s) :
    wp (Perform msg) (fileSession opened transfer) (HalfDone P T r) s := by
  refine wp_letValueWith (R := fun signal s' => Faithful signal s' ∧ Transferred P T signal s' ∧
      (Held r s' ∧ (∀ v, signal ≠ .value v) ∨ Freed r s'))
    (open_spec opens dataP idle faithful before) ?body ?error ?done ?destroyed
  case body =>
    rintro v s' ⟨faithful, before, ⟨-, held⟩ | ⟨noValue, -⟩⟩
    · refine wp_andLet (moves v s' held faithful before) ?_ ?_ ?_
      · rintro v s'' ⟨held, faithful, transferred⟩
        exact close_spec dataT held faithful (transferred.2 v rfl)
      · rintro x s'' ⟨held, faithful, transferred⟩
        exact ⟨faithful, transferred, .inl ⟨held, nofun⟩⟩
      · rintro s'' ⟨held, faithful, transferred⟩
        exact ⟨faithful, transferred, .inl ⟨held, nofun⟩⟩
    · exact absurd rfl (noValue v)
  case error =>
    rintro x s' ⟨faithful, before, ⟨⟨v, impossible⟩, -⟩ | ⟨noValue, idle⟩⟩
    · cases impossible
    · exact ⟨faithful, ⟨.inl before, nofun⟩, .inr ⟨idle, nofun⟩⟩
  case done =>
    rintro s' ⟨faithful, before, ⟨⟨v, impossible⟩, -⟩ | ⟨noValue, idle⟩⟩
    · cases impossible
    · exact ⟨faithful, ⟨.inl before, nofun⟩, .inr ⟨idle, nofun⟩⟩
  case destroyed =>
    rintro signal s' ⟨faithful, transferred, ended⟩
    exact destroy_spec (dataP.or dataT) dataT faithful transferred ended

/-! ## Data -/

/-- Before the Write, in a file that holds `content`. -/
def Before (content : List UInt8) (s : State) : Prop := s.content = content ∧ s.buf = []

/-- The Write has appended the front of the message. -/
def Written (content msg : List UInt8) (s : State) : Prop :=
  ∃ n ≤ msg.length, s.content = content ++ msg.take n ∧ s.buf = [] ∧
    (.write, .value (.count n)) ∈ s.log

/-- The Read has got the front of the file. -/
def ReadBack (content msg : List UInt8) (s : State) : Prop :=
  ∃ n ≤ msg.length, ∃ k ≤ msg.length, s.content = content ++ msg.take n ∧
    s.buf = s.content.take k ∧ k ≤ s.content.length ∧
    (.write, .value (.count n)) ∈ s.log ∧ (.read, .value (.count k)) ∈ s.log

variable {content : List UInt8}

theorem before_ofData : OfData (Before content) := by
  rintro s s' sameContent sameBuf - ⟨holds, empty⟩
  exact ⟨sameContent.trans holds, sameBuf.trans empty⟩

theorem written_ofData : OfData (Written content msg) := by
  rintro s s' sameContent sameBuf log ⟨n, fits, holds, empty, wrote⟩
  exact ⟨n, fits, sameContent.trans holds, sameBuf.trans empty, log wrote⟩

theorem readBack_ofData : OfData (ReadBack content msg) := by
  rintro s s' sameContent sameBuf log ⟨n, fits, k, asked, holds, got, there, wrote, read⟩
  refine ⟨n, fits, k, asked, sameContent.trans holds, ?_, ?_, log wrote, log read⟩
  · rw [sameBuf, sameContent, got]
  · rw [sameContent]
    exact there

/-- A transfer that is cancelled or fails does nothing. -/
theorem transfer_nothing (data : OfData P) (held : Held r s) (faithful : Faithful (.value v) s)
    (before : P s) (noValue : ∀ v, signal ≠ .value v) :
    Held r (s.logs l signal) ∧ Faithful signal (s.logs l signal) ∧
      Transferred P T signal (s.logs l signal) :=
  ⟨held, faithful.logs, .inl (data.after before rfl rfl rfl), fun v value =>
    absurd value (noValue v)⟩

theorem failed_noValue (negative : result < 0) : ∀ v, reports l result errno ≠ .value v := by
  obtain ⟨x, error⟩ := reports_of_neg l errno negative
  intro v value
  cases error.symm.trans value

theorem write_spec (held : Held r s) (faithful : Faithful (.value v) s)
    (before : Before content s) :
    wp (Perform msg) (.leaf .write) (fun signal s' => Held r s' ∧ Faithful signal s' ∧
      Transferred (Before content) (Written content msg) signal s') s := by
  intro signal s' ran
  cases ran with
  | cancelled _ started => exact transfer_nothing before_ofData held faithful before nofun
  | failed _ result errno started negative =>
      exact transfer_nothing before_ofData held faithful before (failed_noValue negative)
  | opened _ fd errno opens free => rcases opens with h | h <;> cases h
  | wrote _ n errno fits =>
      have written : Written content msg
          ({ s with content := s.content ++ msg.take n }.logs .write (reports .write n errno)) := by
        refine ⟨n, fits, ?_, before.2, ?_⟩
        · show s.content ++ msg.take n = content ++ msg.take n
          rw [before.1]
        · rw [reports_count n (.inl rfl)]
          exact List.mem_append_right _ (List.mem_singleton_self _)
      exact ⟨held, (faithful.congr rfl).logs, .inr written, fun _ _ => written⟩

theorem read_spec (held : Held r s) (faithful : Faithful (.value v) s)
    (before : Written content msg s) :
    wp (Perform msg) (.leaf .read) (fun signal s' => Held r s' ∧ Faithful signal s' ∧
      Transferred (Written content msg) (ReadBack content msg) signal s') s := by
  intro signal s' ran
  cases ran with
  | cancelled _ started => exact transfer_nothing written_ofData held faithful before nofun
  | failed _ result errno started negative =>
      exact transfer_nothing written_ofData held faithful before (failed_noValue negative)
  | opened _ fd errno opens free => rcases opens with h | h <;> cases h
  | got _ k errno asked there =>
      obtain ⟨n, fits, holds, -, wrote⟩ := before
      have readBack : ReadBack content msg
          ({ s with buf := s.content.take k }.logs .read (reports .read k errno)) := by
        refine ⟨n, fits, k, asked, holds, rfl, there, List.mem_append_left _ wrote, ?_⟩
        rw [reports_count k (.inr rfl)]
        exact List.mem_append_right _ (List.mem_singleton_self _)
      exact ⟨held, (faithful.congr rfl).logs, .inr readBack, fun _ _ => readBack⟩

end Senders

/-! ## The test -/

/-- What an execution that completes with `signal` leaves behind. -/
structure Settled (content msg : List UInt8) (signal : Signal Value Failure) (s : State) :
    Prop where
  closed : s.table = [] ∧ s.file = none
  /-- Every Close that freed its number is followed by a second `close` of it. -/
  surplus : s.surplus = s.released ∧ s.released ≤ 2
  /-- The file grows by the front of the message, and the Read gets the front of it. -/
  data : ∃ n ≤ msg.length, s.content = content ++ msg.take n ∧ s.buf <+: s.content
  value : ∀ v, signal = .value v → s.released = 2 ∧ ReadBack content msg s
  error : ∀ l x, (l, .error x) ∈ s.log → signal = .error x

section Test

variable {content msg : List UInt8} {s : State} {signal : Signal Value Failure}

theorem Before.data (before : Before content s) :
    ∃ n ≤ msg.length, s.content = content ++ msg.take n ∧ s.buf <+: s.content := by
  refine ⟨0, Nat.zero_le _, ?_, ?_⟩
  · rw [before.1, List.take_zero, List.append_nil]
  · rw [before.2]
    exact List.nil_prefix

theorem Written.data (written : Written content msg s) :
    ∃ n ≤ msg.length, s.content = content ++ msg.take n ∧ s.buf <+: s.content := by
  obtain ⟨n, fits, holds, empty, -⟩ := written
  refine ⟨n, fits, holds, ?_⟩
  rw [empty]
  exact List.nil_prefix

theorem ReadBack.data (readBack : ReadBack content msg s) :
    ∃ n ≤ msg.length, s.content = content ++ msg.take n ∧ s.buf <+: s.content := by
  obtain ⟨n, fits, k, -, holds, got, -⟩ := readBack
  refine ⟨n, fits, holds, ?_⟩
  rw [got]
  exact List.take_prefix _ _

/-- A half that completes without a value ends the test, the second half does anyway. -/
theorem HalfDone.settled {P T : State → Prop} {r : Nat} (done : HalfDone P T r signal s)
    (atMost : r ≤ 1) (data : P s ∨ T s → ∃ n ≤ msg.length, s.content = content ++ msg.take n ∧
      s.buf <+: s.content)
    (value : ∀ v, signal = .value v → r = 1 ∧ (T s → ReadBack content msg s)) :
    Settled content msg signal s := by
  obtain ⟨faithful, ⟨moved, got⟩, idle⟩ := done
  refine ⟨?_, ?_, data moved, fun v completed => ?_, faithful⟩
  · rcases idle with idle | ⟨idle, -⟩
    · exact ⟨idle.table, idle.file⟩
    · exact ⟨idle.table, idle.file⟩
  · rcases idle with ⟨-, -, released, surplus⟩ | ⟨⟨-, -, released, surplus⟩, -⟩
    · omega
    · omega
  · obtain ⟨rfl, readBack⟩ := value v completed
    refine ⟨?_, readBack (got v completed)⟩
    rcases idle with idle | ⟨-, noValue⟩
    · exact idle.released
    · exact absurd completed (noValue v)

theorem waitable_spec : wp (Perform msg) waitable (Settled content msg) (init content) := by
  have first : wp (Perform msg) (fileSession .openAppend .write)
      (HalfDone (Before content) (Written content msg) 0) (init content) := by
    apply fileSession_spec (v := .unit) (.inl rfl) before_ofData written_ofData
    · intro v s held faithful before
      exact write_spec held faithful before
    · exact ⟨rfl, rfl, rfl, rfl⟩
    · exact fun _ _ member => absurd member List.not_mem_nil
    · exact ⟨rfl, rfl⟩
  have data : ∀ s, Before content s ∨ Written content msg s →
      ∃ n ≤ msg.length, s.content = content ++ msg.take n ∧ s.buf <+: s.content := by
    rintro s (before | written)
    · exact before.data
    · exact written.data
  refine wp_andLet first ?value ?error ?done
  case error =>
    intro x s half
    exact half.settled (Nat.zero_le _) (data s) nofun
  case done =>
    intro s half
    exact half.settled (Nat.zero_le _) (data s) nofun
  case value =>
    rintro v s ⟨faithful, ⟨-, written⟩, idle⟩
    have idle' : Idle 1 s := by
      rcases idle with idle | ⟨-, noValue⟩
      · exact idle
      · exact absurd rfl (noValue v)
    have second : wp (Perform msg) (fileSession .openRead .read)
        (HalfDone (Written content msg) (ReadBack content msg) 1) s := by
      apply fileSession_spec (.inr rfl) written_ofData readBack_ofData
      · intro v s held faithful before
        exact read_spec held faithful before
      · exact idle'
      · exact faithful
      · exact written v rfl
    refine wp_mono (fun signal s half => half.settled (Nat.le_refl _) ?_ ?_) second
    · rintro (written | readBack)
      · exact written.data
      · exact readBack.data
    · exact fun _ _ => ⟨rfl, id⟩

end Test

/-- **The file test.**  In every execution that completes, whichever of its senders fail,
are cancelled or move only some of the bytes: no descriptor and no File is left; the
number of every Close that freed one is closed again by the destructor, so a run that
completes with a value closes both numbers twice; the file has grown by the front of the
message, and what was read is the front of the file, as long as the counts say; and an
error is the first that was signalled. -/
theorem file_test_spec {content msg : List UInt8} {signal : Signal Value Failure} {s : State}
    (executed : Exec (Perform msg) waitable (init content) signal s) :
    Settled content msg signal s :=
  wp_iff.mp waitable_spec signal s executed

/-- Everything goes well, in a file that was empty. -/
theorem file_test_spec_hi :
    ∃ s, Exec (Perform [104, 105]) waitable (init []) (.value .unit) s ∧ s.buf = [104, 105] ∧
      s.released = 2 ∧ s.surplus = 2 := by
  have executed : ∃ s, Exec (Perform [104, 105]) waitable (init []) (.value .unit) s ∧
      s.buf = [104, 105] := by
    apply Exists.intro
    apply And.intro
    · apply Exec.andLet
      · apply Exec.letValueWith
        · exact Perform.opened _ 3 0 (.inl rfl) List.not_mem_nil
        · apply Exec.andLet
          · exact Exec.leaf (Perform.wrote _ 2 0 (Nat.le_refl _))
          · exact Exec.leaf (Perform.closed 0 0 rfl List.mem_cons_self)
        · exact Perform.destroy rfl
      · apply Exec.letValueWith
        · exact Perform.opened _ 3 0 (.inr rfl) (by decide)
        · apply Exec.andLet
          · exact Exec.leaf (Perform.got _ 2 0 (Nat.le_refl _) (by decide))
          · exact Exec.leaf (Perform.closed 0 0 rfl List.mem_cons_self)
        · exact Perform.destroy rfl
    · rfl
  obtain ⟨s, executed, got⟩ := executed
  obtain ⟨-, ⟨surplus, -⟩, -, value, -⟩ := file_test_spec executed
  obtain ⟨released, -⟩ := value .unit rfl
  exact ⟨s, executed, got, released, surplus.trans released⟩

end PatBase.Runtime.FileTest
