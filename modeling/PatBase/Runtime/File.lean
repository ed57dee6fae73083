/-
# PatBase.Runtime.File -- who closes a descriptor

file.{h,cc} over a kernel that reissues closed numbers.  A `File` holds a number;
`Write`, `Read` and `Close` are `const` and copy it into a sender, so a File still
holds the number after its `Close`, and its destructor and move assignment close it
again.  `Descriptor.opened` is the open a number came from; no step reads it.

* `closes_own_descriptor`: in every run that closes each opened descriptor once, and
  uses it only before, every close and every use hits the descriptor that the
  `File`'s `Open` returned; in any run, destroying a `File` that still holds a number
  its `Close` has closed is a wrong close.

`closes_a_strangers_file` is such a run, in which the number has been reissued.
-/
import PatBase.Lib.Machine
import PatBase.Lib.Objects

namespace PatBase.Runtime.File

open PatBase.Lib.Machine PatBase.Lib.Objects

set_option autoImplicit false
set_option linter.unusedSectionVars false

/-! ## State -/

/-- A descriptor number, `-1` for none, and the open that returned it. -/
structure Descriptor where
  fd : Int
  opened : Nat
  deriving DecidableEq, Repr

/-- The senders of a `File`. -/
inductive Request where
  | write
  | read
  | close
  deriving DecidableEq, Repr

inductive Stage where
  | created
  /-- `uv_fs_write`, `uv_fs_read` or `uv_fs_close` has been called. -/
  | submitted
  /-- The system call has been made. -/
  | ran
  | completed
  deriving DecidableEq, Repr

structure Sender where
  request : Request
  /-- `descriptor = fd_` -/
  descriptor : Descriptor
  stage : Stage
  deriving DecidableEq, Repr

structure State where
  /-- The kernel's table: the open that a number stands for. -/
  table : Int → Option Nat
  opens : Nat
  /-- Results of opens whose callback has yet to run. -/
  opening : List Descriptor
  /-- `fd_` of the live `File`s. -/
  files : Nat → Option Descriptor
  senders : Nat → Option Sender
  /-- The opens whose descriptor some Close, destructor or assignment is to close. -/
  closed : List Nat
  /-- Closes and uses of another descriptor than the one meant. -/
  wrong : Nat
  stale : Nat

inductive Act where
  /-- The kernel opens a file under the number `fd`. -/
  | openRuns (fd : Int)
  /-- The callback of an open: `NewFile`. -/
  | newFile (descriptor : Descriptor) (file : Nat)
  /-- `File::Write`, `File::Read` or `File::Close` is called. -/
  | create (sender : Nat) (request : Request) (file : Nat)
  /-- The sender is started and makes its libuv call. -/
  | start (sender : Nat)
  /-- The thread pool makes the system call. -/
  | run (sender : Nat)
  | finish (sender : Nat)
  /-- `File(File&&)` -/
  | moveConstruct (other this : Nat)
  /-- `operator=(File&&)` -/
  | moveAssign (other this : Nat)
  | destroy (file : Nat)
  deriving DecidableEq, Repr

def init : State where
  table := fun _ => none
  opens := 0
  opening := []
  files := fun _ => none
  senders := fun _ => none
  closed := []
  wrong := 0
  stale := 0

/-! ## Steps -/

/-- The system call `close`. -/
def closeFd (s : State) (descriptor : Descriptor) : State :=
  { s with
    table := Function.update s.table descriptor.fd none
    wrong :=
      if s.table descriptor.fd = some descriptor.opened then s.wrong else s.wrong + 1 }

/-- A system call `read` or `write`. -/
def useFd (s : State) (descriptor : Descriptor) : State :=
  { s with
    stale :=
      if s.table descriptor.fd = some descriptor.opened then s.stale else s.stale + 1 }

/-- `if (fd_ != -1) close(fd_)`, in the destructor and in the assignment. -/
def release (s : State) (descriptor : Descriptor) : State :=
  if descriptor.fd ≠ -1 then
    closeFd { s with closed := descriptor.opened :: s.closed } descriptor
  else s

/-- `fd_ = other.fd_` and `other.fd_ = -1`. -/
def take (s : State) (other this : Nat) (descriptor : Descriptor) : State :=
  { s with
    files := Function.update (Function.update s.files this (some descriptor)) other
      (some { descriptor with fd := -1 }) }

/-- The libuv call of a sender. -/
def submit (s : State) (id : Nat) (sender : Sender) : State :=
  { s with
    senders := Function.update s.senders id (some { sender with stage := .submitted })
    closed :=
      if sender.request = .close then sender.descriptor.opened :: s.closed else s.closed }

/-- The sender `id` gets to another stage. -/
def advance (s : State) (id : Nat) (sender : Sender) (stage : Stage) : State :=
  { s with senders := Function.update s.senders id (some { sender with stage := stage }) }

/-- The system call of a sender. -/
def runs (s : State) (id : Nat) (sender : Sender) : State :=
  match sender.request with
  | .close => closeFd (advance s id sender .ran) sender.descriptor
  | .write => useFd (advance s id sender .ran) sender.descriptor
  | .read => useFd (advance s id sender .ran) sender.descriptor

def step (s : State) : Act → Option State
  | .openRuns fd =>
      if 0 ≤ fd ∧ s.table fd = none then
        some { s with
          table := Function.update s.table fd (some s.opens)
          opens := s.opens + 1
          opening := ⟨fd, s.opens⟩ :: s.opening }
      else none
  | .newFile descriptor file =>
      if descriptor ∈ s.opening ∧ s.files file = none then
        some { s with
          opening := s.opening.erase descriptor
          files := Function.update s.files file (some descriptor) }
      else none
  | .create id request file =>
      match s.files file, s.senders id with
      | some descriptor, none =>
          some { s with
            senders := Function.update s.senders id (some ⟨request, descriptor, .created⟩) }
      | _, _ => none
  | .start id =>
      match s.senders id with
      | some sender => if sender.stage = .created then some (submit s id sender) else none
      | none => none
  | .run id =>
      match s.senders id with
      | some sender => if sender.stage = .submitted then some (runs s id sender) else none
      | none => none
  | .finish id =>
      match s.senders id with
      | some sender =>
          if sender.stage = .ran then some (advance s id sender .completed) else none
      | none => none
  | .moveConstruct other this =>
      match s.files other, s.files this with
      | some descriptor, none => some (take s other this descriptor)
      | _, _ => none
  | .moveAssign other this =>
      match s.files other, s.files this with
      | some descriptor, some held =>
          some (if other = this then s else take (release s held) other this descriptor)
      | _, _ => none
  | .destroy file =>
      match s.files file with
      | some descriptor =>
          some { release s descriptor with files := Function.update s.files file none }
      | none => none

/-- What each action does, and what holds where it is enabled. -/
inductive Step (s : State) : Act → State → Prop where
  | openRuns (fd : Int) (valid : 0 ≤ fd) (free : s.table fd = none) :
      Step s (.openRuns fd) { s with
        table := Function.update s.table fd (some s.opens)
        opens := s.opens + 1
        opening := ⟨fd, s.opens⟩ :: s.opening }
  | newFile (descriptor : Descriptor) (file : Nat) (opened : descriptor ∈ s.opening)
      (free : s.files file = none) :
      Step s (.newFile descriptor file) { s with
        opening := s.opening.erase descriptor
        files := Function.update s.files file (some descriptor) }
  | create (id : Nat) (request : Request) (file : Nat) (descriptor : Descriptor)
      (holds : s.files file = some descriptor) (free : s.senders id = none) :
      Step s (.create id request file) { s with
        senders := Function.update s.senders id (some ⟨request, descriptor, .created⟩) }
  | start (id : Nat) (sender : Sender) (has : s.senders id = some sender)
      (created : sender.stage = .created) : Step s (.start id) (submit s id sender)
  | run (id : Nat) (sender : Sender) (has : s.senders id = some sender)
      (submitted : sender.stage = .submitted) : Step s (.run id) (runs s id sender)
  | finish (id : Nat) (sender : Sender) (has : s.senders id = some sender)
      (ran : sender.stage = .ran) : Step s (.finish id) (advance s id sender .completed)
  | moveConstruct (other this : Nat) (descriptor : Descriptor)
      (given : s.files other = some descriptor) (free : s.files this = none) :
      Step s (.moveConstruct other this) (take s other this descriptor)
  | moveAssign (other this : Nat) (descriptor held : Descriptor)
      (given : s.files other = some descriptor) (holds : s.files this = some held) :
      Step s (.moveAssign other this)
        (if other = this then s else take (release s held) other this descriptor)
  | destroy (file : Nat) (held : Descriptor) (holds : s.files file = some held) :
      Step s (.destroy file)
        { release s held with files := Function.update s.files file none }

theorem Step.of_step {s s' : State} {a : Act} (taken : step s a = some s') : Step s a s' := by
  cases a with
  | openRuns fd =>
      simp only [step, Option.ite_none_right_eq_some, Option.some.injEq] at taken
      obtain ⟨⟨valid, free⟩, rfl⟩ := taken
      exact .openRuns fd valid free
  | newFile descriptor file =>
      simp only [step, Option.ite_none_right_eq_some, Option.some.injEq] at taken
      obtain ⟨⟨opened, free⟩, rfl⟩ := taken
      exact .newFile descriptor file opened free
  | create id request file =>
      simp only [step] at taken
      split at taken
      · rename_i descriptor holds free
        cases taken
        exact .create id request file descriptor holds free
      · cases taken
  | start id =>
      simp only [step] at taken
      split at taken
      · rename_i sender has
        simp only [Option.ite_none_right_eq_some, Option.some.injEq] at taken
        obtain ⟨created, rfl⟩ := taken
        exact .start id sender has created
      · cases taken
  | run id =>
      simp only [step] at taken
      split at taken
      · rename_i sender has
        simp only [Option.ite_none_right_eq_some, Option.some.injEq] at taken
        obtain ⟨submitted, rfl⟩ := taken
        exact .run id sender has submitted
      · cases taken
  | finish id =>
      simp only [step] at taken
      split at taken
      · rename_i sender has
        simp only [Option.ite_none_right_eq_some, Option.some.injEq] at taken
        obtain ⟨ran, rfl⟩ := taken
        exact .finish id sender has ran
      · cases taken
  | moveConstruct other this =>
      simp only [step] at taken
      split at taken
      · rename_i descriptor given free
        cases taken
        exact .moveConstruct other this descriptor given free
      · cases taken
  | moveAssign other this =>
      simp only [step] at taken
      split at taken
      · rename_i descriptor held given holds
        cases taken
        exact .moveAssign other this descriptor held given holds
      · cases taken
  | destroy file =>
      simp only [step] at taken
      split at taken
      · rename_i held holds
        cases taken
        exact .destroy file held holds
      · cases taken

/-! ## What is assumed and what is promised -/

/-- A system call on the descriptor of this open is still to come. -/
def InFlight (s : State) (opened : Nat) : Prop :=
  ∃ id sender, s.senders id = some sender ∧ sender.stage = .submitted ∧
    sender.descriptor.opened = opened

/-- Nothing closes the descriptor yet or is using it. -/
def Closable (s : State) (descriptor : Descriptor) : Prop :=
  descriptor.opened ∉ s.closed ∧ ¬ InFlight s descriptor.opened

/-- Each descriptor is closed once -- by one Close, or by the destructor of or an
assignment to the `File` that holds it --, with no use of it under way or to come. -/
def ClosedOnce (s : State) : Act → Prop
  | .start id => ∀ sender, s.senders id = some sender →
      sender.descriptor.fd ≠ -1 ∧ sender.descriptor.opened ∉ s.closed ∧
        (sender.request = .close → ¬ InFlight s sender.descriptor.opened)
  | .moveAssign other this => other ≠ this → ∀ held, s.files this = some held →
      held.fd ≠ -1 → Closable s held
  | .destroy file => ∀ held, s.files file = some held → held.fd ≠ -1 → Closable s held
  | _ => True

/-- Every close and every use so far was of the descriptor meant. -/
def Lawful (s : State) : Prop :=
  s.wrong = 0 ∧ s.stale = 0

/-! ## The invariant -/

/-- A descriptor is open under its number, or its closing is accounted for. -/
def Known (s : State) (descriptor : Descriptor) : Prop :=
  descriptor.fd ≠ -1 →
    s.table descriptor.fd = some descriptor.opened ∨ descriptor.opened ∈ s.closed

structure Kept (s : State) : Prop where
  opening : ∀ descriptor ∈ s.opening, Known s descriptor
  files : ∀ file descriptor, s.files file = some descriptor → Known s descriptor
  senders : ∀ id sender, s.senders id = some sender → Known s sender.descriptor
  submitted : ∀ id sender, s.senders id = some sender → sender.stage = .submitted →
    s.table sender.descriptor.fd = some sender.descriptor.opened
  /-- A Close under way has the descriptor to itself. -/
  closing : ∀ id sender, s.senders id = some sender → sender.stage = .submitted →
    sender.request = .close → sender.descriptor.opened ∈ s.closed ∧
      ∀ other another, s.senders other = some another → another.stage = .submitted →
        another.descriptor.opened = sender.descriptor.opened → other = id
  lawful : Lawful s

section Steps

variable {s s' : State} {a : Act} {id file : Nat} {sender : Sender}
  {descriptor held : Descriptor}

theorem closeFd_known (known : Known s descriptor) (own : s.table held.fd = some held.opened)
    (closing : held.opened ∈ s.closed) : Known (closeFd s held) descriptor := by
  intro real
  rcases known real with open_ | closed
  · by_cases same : descriptor.fd = held.fd
    · right
      rw [same, own] at open_
      rw [← Option.some.inj open_]
      exact closing
    · left
      exact (Function.update_of_ne same ..).trans open_
  · exact .inr closed

/-- Closing a descriptor under its own number, with no system call on it to come. -/
theorem closeFd_kept (kept : Kept s) (own : s.table held.fd = some held.opened)
    (closing : held.opened ∈ s.closed) (idle : ¬ InFlight s held.opened) :
    Kept (closeFd s held) := by
  refine ⟨fun d member => closeFd_known (kept.opening d member) own closing,
    fun f d has => closeFd_known (kept.files f d has) own closing,
    fun i x has => closeFd_known (kept.senders i x has) own closing, ?submitted, kept.closing,
    ?wrong, kept.lawful.2⟩
  case submitted =>
    intro i x has submitted
    have open_ := kept.submitted i x has submitted
    have apart : x.descriptor.fd ≠ held.fd := by
      intro same
      rw [same, own] at open_
      exact idle ⟨i, x, has, submitted, (Option.some.inj open_).symm⟩
    exact (Function.update_of_ne apart ..).trans open_
  case wrong => exact (if_pos own).trans kept.lawful.1

/-- More closings accounted for. -/
theorem Kept.account (kept : Kept s) (opened : Nat) :
    Kept { s with closed := opened :: s.closed } := by
  have known : ∀ d, Known s d → Known { s with closed := opened :: s.closed } d :=
    fun d before real => (before real).imp_right (List.mem_cons_of_mem _)
  exact ⟨fun d member => known d (kept.opening d member),
    fun f d has => known d (kept.files f d has), fun i x has => known _ (kept.senders i x has),
    kept.submitted,
    fun i x has submitted close => (kept.closing i x has submitted close).imp_left
      (List.mem_cons_of_mem _),
    kept.lawful⟩

theorem release_files : (release s held).files = s.files := by
  unfold release
  split
  · rfl
  · rfl

theorem release_kept (kept : Kept s) (known : Known s held)
    (closable : held.fd ≠ -1 → Closable s held) : Kept (release s held) := by
  by_cases real : held.fd ≠ -1
  · obtain ⟨fresh, idle⟩ := closable real
    have own : s.table held.fd = some held.opened := (known real).resolve_right fresh
    rw [release, if_pos real]
    exact closeFd_kept (kept.account held.opened) own List.mem_cons_self idle
  · rw [release, if_neg real]
    exact kept

/-- What the live `File`s hold is known. -/
theorem Kept.withFiles (kept : Kept s) {files : Nat → Option Descriptor}
    (known : ∀ file descriptor, files file = some descriptor → Known s descriptor) :
    Kept { s with files := files } :=
  ⟨kept.opening, known, kept.senders, kept.submitted, kept.closing, kept.lawful⟩

theorem take_kept (kept : Kept s) (known : Known s descriptor) (other this : Nat) :
    Kept (take s other this descriptor) := by
  refine kept.withFiles fun f d has => ?_
  rcases update_eq_some has with ⟨-, rfl⟩ | ⟨-, has⟩
  · exact fun real => absurd rfl real
  · rcases update_eq_some has with ⟨-, rfl⟩ | ⟨-, has⟩
    · exact known
    · exact kept.files f d has

/-- A sender that has no system call to come. -/
theorem Kept.withSender (kept : Kept s) (known : Known s sender.descriptor)
    (idle : sender.stage ≠ .submitted) :
    Kept { s with senders := Function.update s.senders id (some sender) } := by
  refine ⟨kept.opening, kept.files, ?senders, ?submitted, ?closing, kept.lawful⟩
  case senders =>
    intro i x has
    rcases update_eq_some has with ⟨-, rfl⟩ | ⟨-, before⟩
    · exact known
    · exact kept.senders i x before
  case submitted =>
    intro i x has submitted
    rcases update_eq_some has with ⟨-, rfl⟩ | ⟨-, before⟩
    · exact absurd submitted idle
    · exact kept.submitted i x before submitted
  case closing =>
    intro i x has submitted close
    rcases update_eq_some has with ⟨-, rfl⟩ | ⟨-, before⟩
    · exact absurd submitted idle
    · obtain ⟨accounted, alone⟩ := kept.closing i x before submitted close
      refine ⟨accounted, fun j y has' submitted' same => ?_⟩
      rcases update_eq_some has' with ⟨-, rfl⟩ | ⟨-, before'⟩
      · exact absurd submitted' idle
      · exact alone j y before' submitted' same

theorem submit_kept (kept : Kept s) (has : s.senders id = some sender)
    (real : sender.descriptor.fd ≠ -1) (fresh : sender.descriptor.opened ∉ s.closed)
    (alone : sender.request = .close → ¬ InFlight s sender.descriptor.opened) :
    Kept (submit s id sender) := by
  have own : s.table sender.descriptor.fd = some sender.descriptor.opened :=
    (kept.senders id sender has real).resolve_right fresh
  have more : ∀ opened ∈ s.closed, opened ∈ (submit s id sender).closed := by
    intro opened member
    by_cases close : sender.request = .close
    · simp only [submit, close, if_true]
      exact List.mem_cons_of_mem _ member
    · simp only [submit, close, if_false]
      exact member
  have known : ∀ d, Known s d → Known (submit s id sender) d :=
    fun d before real => (before real).imp_right (more _)
  refine ⟨fun d member => known d (kept.opening d member),
    fun f d has => known d (kept.files f d has), ?senders, ?submitted, ?closing, kept.lawful⟩
  case senders =>
    intro i x has'
    rcases update_eq_some has' with ⟨-, rfl⟩ | ⟨-, before⟩
    · exact known _ (kept.senders id sender has)
    · exact known _ (kept.senders i x before)
  case submitted =>
    intro i x has' submitted
    rcases update_eq_some has' with ⟨-, rfl⟩ | ⟨-, before⟩
    · exact own
    · exact kept.submitted i x before submitted
  case closing =>
    intro i x has' submitted close
    rcases update_eq_some has' with ⟨rfl, rfl⟩ | ⟨other, before⟩
    · constructor
      · have close' : sender.request = .close := close
        simp only [submit, close', if_true]
        exact List.mem_cons_self
      · intro j y has'' submitted' same
        rcases update_eq_some has'' with ⟨here, -⟩ | ⟨-, before'⟩
        · exact here
        · exact absurd ⟨j, y, before', submitted', same⟩ (alone close)
    · obtain ⟨accounted, alone'⟩ := kept.closing i x before submitted close
      refine ⟨more _ accounted, fun j y has'' submitted' same => ?_⟩
      rcases update_eq_some has'' with ⟨-, rfl⟩ | ⟨-, before'⟩
      · have same' : sender.descriptor.opened = x.descriptor.opened := same
        exact absurd (same' ▸ accounted) fresh
      · exact alone' j y before' submitted' same

theorem runs_kept (kept : Kept s) (has : s.senders id = some sender)
    (submitted : sender.stage = .submitted) : Kept (runs s id sender) := by
  have own := kept.submitted id sender has submitted
  have advanced : Kept (advance s id sender .ran) :=
    kept.withSender (kept.senders id sender has) nofun
  have used : Kept (useFd (advance s id sender .ran) sender.descriptor) :=
    ⟨advanced.opening, advanced.files, advanced.senders, advanced.submitted, advanced.closing,
      advanced.lawful.1, (if_pos own).trans advanced.lawful.2⟩
  unfold runs
  split
  · rename_i close
    obtain ⟨accounted, alone⟩ := kept.closing id sender has submitted close
    apply closeFd_kept advanced own accounted
    rintro ⟨i, x, has', submitted', same⟩
    rcases update_eq_some has' with ⟨-, rfl⟩ | ⟨other, before⟩
    · cases submitted'
    · exact other (alone i x before submitted' same)
  · exact used
  · exact used

/-- A number that the kernel gives out was free, so no descriptor in use is under it. -/
theorem openRuns_kept {fd : Int} (kept : Kept s) (free : s.table fd = none) :
    Kept { s with
      table := Function.update s.table fd (some s.opens)
      opens := s.opens + 1
      opening := ⟨fd, s.opens⟩ :: s.opening } := by
  have elsewhere : ∀ d : Descriptor, s.table d.fd = some d.opened →
      Function.update s.table fd (some s.opens) d.fd = some d.opened := by
    intro d open_
    have apart : d.fd ≠ fd := by
      intro same
      rw [same, free] at open_
      cases open_
    rw [Function.update_of_ne apart]
    exact open_
  refine ⟨?opening, ?files, ?senders, ?submitted, kept.closing, kept.lawful⟩
  case opening =>
    intro d member real
    rcases List.mem_cons.mp member with rfl | old
    · exact .inl (Function.update_self ..)
    · exact (kept.opening d old real).imp_left (elsewhere d)
  case files =>
    intro f d has real
    exact (kept.files f d has real).imp_left (elsewhere d)
  case senders =>
    intro i x has real
    exact (kept.senders i x has real).imp_left (elsewhere _)
  case submitted =>
    intro i x has submitted
    exact elsewhere _ (kept.submitted i x has submitted)

/-- **A step that closes each descriptor once** closes and uses the right ones. -/
theorem step_kept (kept : Kept s) (once : ClosedOnce s a) (taken : step s a = some s') :
    Kept s' := by
  cases Step.of_step taken with
  | openRuns fd valid free => exact openRuns_kept kept free
  | newFile descriptor file opened free =>
      refine ⟨fun d among => kept.opening d (List.mem_of_mem_erase among), fun f d has => ?_,
        kept.senders, kept.submitted, kept.closing, kept.lawful⟩
      rcases update_eq_some has with ⟨-, rfl⟩ | ⟨-, has⟩
      · exact kept.opening _ opened
      · exact kept.files f d has
  | create id request file descriptor holds free =>
      exact kept.withSender (kept.files file descriptor holds) nofun
  | start id sender has created =>
      obtain ⟨real, fresh, alone⟩ := once sender has
      exact submit_kept kept has real fresh alone
  | run id sender has submitted => exact runs_kept kept has submitted
  | finish id sender has ran => exact kept.withSender (kept.senders id sender has) nofun
  | moveConstruct other this descriptor given free =>
      exact take_kept kept (kept.files other descriptor given) other this
  | moveAssign other this descriptor held given holds =>
      split
      · exact kept
      · rename_i apart
        have released := release_kept kept (kept.files this held holds) (once apart held holds)
        refine take_kept released (released.files other descriptor ?_) other this
        rw [release_files]
        exact given
  | destroy file held holds =>
      have released := release_kept kept (kept.files file held holds) (once held holds)
      refine released.withFiles fun f d has => released.files f d ?_
      rw [release_files]
      exact of_erased has

/-! ## A `File` after its Close -/

/-- Numbers are reissued, opens are not: what a Close has closed never comes back. -/
structure Numbered (s : State) : Prop where
  opening : ∀ descriptor ∈ s.opening, descriptor.opened < s.opens
  files : ∀ file descriptor, s.files file = some descriptor → descriptor.opened < s.opens
  senders : ∀ id sender, s.senders id = some sender → sender.descriptor.opened < s.opens
  closed : ∀ id sender, s.senders id = some sender → sender.request = .close →
    sender.stage = .ran ∨ sender.stage = .completed →
    s.table sender.descriptor.fd ≠ some sender.descriptor.opened

/-- Closing a number brings no open back. -/
theorem closeFd_table {fd : Int} {opened : Nat} (gone : s.table fd ≠ some opened) :
    (closeFd s descriptor).table fd ≠ some opened := by
  by_cases same : fd = descriptor.fd
  · rw [same]
    show Function.update s.table descriptor.fd none descriptor.fd ≠ _
    simp
  · show Function.update s.table descriptor.fd none fd ≠ _
    rw [Function.update_of_ne same]
    exact gone

theorem closeFd_numbered (numbered : Numbered s) (descriptor : Descriptor) :
    Numbered (closeFd s descriptor) :=
  ⟨numbered.opening, numbered.files, numbered.senders,
    fun i x has close done => closeFd_table (numbered.closed i x has close done)⟩

theorem release_numbered (numbered : Numbered s) (held : Descriptor) :
    Numbered (release s held) := by
  unfold release
  split
  · refine closeFd_numbered ?_ held
    exact ⟨numbered.opening, numbered.files, numbered.senders, numbered.closed⟩
  · exact numbered

theorem Numbered.withFiles (numbered : Numbered s) {files : Nat → Option Descriptor}
    (below : ∀ file descriptor, files file = some descriptor → descriptor.opened < s.opens) :
    Numbered { s with files := files } :=
  ⟨numbered.opening, below, numbered.senders, numbered.closed⟩

theorem take_numbered (numbered : Numbered s) (below : descriptor.opened < s.opens)
    (other this : Nat) : Numbered (take s other this descriptor) := by
  refine numbered.withFiles fun f d has => ?_
  rcases update_eq_some has with ⟨-, rfl⟩ | ⟨-, has⟩
  · exact below
  · rcases update_eq_some has with ⟨-, rfl⟩ | ⟨-, has⟩
    · exact below
    · exact numbered.files f d has

theorem Numbered.withSender (numbered : Numbered s) (below : sender.descriptor.opened < s.opens)
    (gone : sender.request = .close → sender.stage = .ran ∨ sender.stage = .completed →
      s.table sender.descriptor.fd ≠ some sender.descriptor.opened) :
    Numbered { s with senders := Function.update s.senders id (some sender) } := by
  refine ⟨numbered.opening, numbered.files, fun i x has => ?_, fun i x has close done => ?_⟩
  · rcases update_eq_some has with ⟨-, rfl⟩ | ⟨-, before⟩
    · exact below
    · exact numbered.senders i x before
  · rcases update_eq_some has with ⟨-, rfl⟩ | ⟨-, before⟩
    · exact gone close done
    · exact numbered.closed i x before close done

theorem runs_numbered (numbered : Numbered s) (has : s.senders id = some sender) :
    Numbered (runs s id sender) := by
  have below := numbered.senders id sender has
  have used : sender.request ≠ .close →
      Numbered (useFd (advance s id sender .ran) sender.descriptor) := by
    intro other
    have advanced : Numbered (advance s id sender .ran) :=
      numbered.withSender below fun close => absurd close other
    exact ⟨advanced.opening, advanced.files, advanced.senders, advanced.closed⟩
  unfold runs
  split
  · have closed := closeFd_numbered numbered sender.descriptor
    refine closed.withSender below fun _ _ => ?_
    show Function.update s.table sender.descriptor.fd none sender.descriptor.fd ≠ _
    simp
  · rename_i write
    exact used (by simp [write])
  · rename_i read
    exact used (by simp [read])

theorem openRuns_numbered {fd : Int} (numbered : Numbered s) :
    Numbered { s with
      table := Function.update s.table fd (some s.opens)
      opens := s.opens + 1
      opening := ⟨fd, s.opens⟩ :: s.opening } := by
  refine ⟨?opening, ?files, ?senders, ?closed⟩
  case opening =>
    intro d member
    rcases List.mem_cons.mp member with rfl | old
    · exact Nat.lt_succ_self _
    · exact Nat.lt_succ_of_lt (numbered.opening d old)
  case files =>
    intro f d has
    exact Nat.lt_succ_of_lt (numbered.files f d has)
  case senders =>
    intro i x has
    exact Nat.lt_succ_of_lt (numbered.senders i x has)
  case closed =>
    intro i x has close done
    show Function.update s.table fd (some s.opens) x.descriptor.fd ≠ _
    by_cases same : x.descriptor.fd = fd
    · rw [same, Function.update_self]
      intro again
      have below := numbered.senders i x has
      exact absurd (Option.some.inj again) (Nat.ne_of_gt below)
    · rw [Function.update_of_ne same]
      exact numbered.closed i x has close done

/-- A sender that has made no system call has closed nothing. -/
theorem not_done {stage : Stage} (early : stage = .created ∨ stage = .submitted) :
    ¬ (stage = .ran ∨ stage = .completed) := by
  rcases early with rfl | rfl <;> decide

theorem step_numbered (numbered : Numbered s) (taken : step s a = some s') : Numbered s' := by
  cases Step.of_step taken with
  | openRuns fd => exact openRuns_numbered numbered
  | newFile descriptor file opened free =>
      refine ⟨fun d among => numbered.opening d (List.mem_of_mem_erase among), fun f d has => ?_,
        numbered.senders, numbered.closed⟩
      rcases update_eq_some has with ⟨-, rfl⟩ | ⟨-, has⟩
      · exact numbered.opening _ opened
      · exact numbered.files f d has
  | create id request file descriptor holds free =>
      refine numbered.withSender (numbered.files file descriptor holds) fun _ done => ?_
      exact absurd done (not_done (.inl rfl))
  | start id sender has created =>
      have submitted : Numbered (advance s id sender .submitted) := by
        refine numbered.withSender (numbered.senders id sender has) fun _ done => ?_
        exact absurd done (not_done (.inr rfl))
      exact ⟨submitted.opening, submitted.files, submitted.senders, submitted.closed⟩
  | run id sender has submitted => exact runs_numbered numbered has
  | finish id sender has ran =>
      exact numbered.withSender (numbered.senders id sender has) fun close _ =>
        numbered.closed id sender has close (.inl ran)
  | moveConstruct other this descriptor given free =>
      exact take_numbered numbered (numbered.files other descriptor given) other this
  | moveAssign other this descriptor held given holds =>
      split
      · exact numbered
      · have released := release_numbered numbered held
        refine take_numbered released (released.files other descriptor ?_) other this
        rw [release_files]
        exact given
  | destroy file held holds =>
      have released := release_numbered numbered held
      refine released.withFiles fun f d has => released.files f d ?_
      rw [release_files]
      exact of_erased has

theorem destroy_wrong (has : s.files file = some held) (real : held.fd ≠ -1)
    (gone : s.table held.fd ≠ some held.opened) (taken : step s (.destroy file) = some s') :
    s'.wrong = s.wrong + 1 := by
  simp only [step, has, Option.some.injEq] at taken
  obtain rfl := taken
  show (release s held).wrong = s.wrong + 1
  rw [release, if_pos real]
  exact if_neg gone

end Steps

/-! ## Runs -/

theorem init_kept : Kept init :=
  ⟨nofun, nofun, nofun, nofun, nofun, rfl, rfl⟩

theorem init_numbered : Numbered init :=
  ⟨nofun, nofun, nofun, nofun⟩

theorem run_numbered {acts : List Act} {s : State} (reached : run step init acts = some s) :
    Numbered s :=
  run_invariant (fun _ _ _ numbered taken => step_numbered numbered taken) init_numbered reached

/-- **A descriptor is closed by its own `File` alone** in every run that closes each
one once; in any run, a `File` that is destroyed while it holds a number its Close has
closed closes that number a second time, whosever it is by then. -/
theorem closes_own_descriptor {acts : List Act} {s : State}
    (reached : run step init acts = some s) :
    (Along step ClosedOnce init acts → ∀ d, Visits step init acts d → Lawful d) ∧
    (∀ id sender file s', s.senders id = some sender → sender.request = .close →
      sender.stage = .completed → sender.descriptor.fd ≠ -1 →
      s.files file = some sender.descriptor → step s (.destroy file) = some s' →
      s'.wrong = s.wrong + 1) := by
  constructor
  · intro once d visited
    exact (once.invariant_visited
      (fun s a s' kept onceStep taken => step_kept kept onceStep taken) init_kept visited).lawful
  · intro id sender file s' has close completed real holds taken
    have gone := (run_numbered reached).closed id sender has close (.inr completed)
    exact destroy_wrong holds real gone taken

/-- A file is opened, written and destroyed. -/
theorem closes_own_descriptor_write :
    ∃ s, run step init [.openRuns 3, .newFile ⟨3, 0⟩ 0, .create 0 .write 0, .start 0, .run 0,
        .finish 0, .destroy 0] = some s ∧ Lawful s := by
  have once : Along step ClosedOnce init [.openRuns 3, .newFile ⟨3, 0⟩ 0, .create 0 .write 0,
      .start 0, .run 0, .finish 0, .destroy 0] := by
    refine along_cons trivial rfl (along_cons trivial rfl (along_cons trivial rfl ?_))
    refine along_cons (fun sender has => ?_) rfl (along_cons trivial rfl
      (along_cons trivial rfl (along_cons (fun held holds _ => ?_) rfl trivial)))
    · cases has
      exact ⟨by decide, List.not_mem_nil, nofun⟩
    · cases holds
      refine ⟨List.not_mem_nil, fun ⟨id, sender, has, submitted, _⟩ => ?_⟩
      cases id with
      | zero =>
          cases has
          cases submitted
      | succ id => cases has
  exact ⟨_, rfl, (closes_own_descriptor rfl).1 once _ (visits_last rfl)⟩

/-- What the test program does: Close a `File` and destroy it.  Another thread has
opened a file under the same number in between, and loses it. -/
theorem closes_a_strangers_file :
    ∃ s, run step init [.openRuns 3, .newFile ⟨3, 0⟩ 0, .create 0 .close 0, .start 0, .run 0,
        .finish 0, .openRuns 3, .newFile ⟨3, 1⟩ 1, .destroy 0] = some s ∧
      s.files 1 = some ⟨3, 1⟩ ∧ s.table 3 = none ∧ s.wrong = 1 ∧ ¬ Lawful s :=
  ⟨_, rfl, rfl, rfl, rfl, fun lawful => absurd lawful.1 (by decide)⟩

end PatBase.Runtime.File
