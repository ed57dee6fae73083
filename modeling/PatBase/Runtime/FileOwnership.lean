/-
# PatBase.Runtime.FileOwnership -- moves hand a descriptor on

The runs of `PatBase.Runtime.File` without an explicit Close: `File`s are created,
moved, assigned to each other and to themselves, and destroyed, in any order.  An open
descriptor is then at every moment either still in the hands of `Open` or held by
exactly one live `File` (`Owned`), and only that `File` closes it.

An assignment destroys what the target held and moves the source in: `take_release`
turns it into these two, so each of the three members needs one lemma.
-/
import PatBase.Runtime.File

namespace PatBase.Runtime.File

open PatBase.Lib.Machine PatBase.Lib.Objects

set_option autoImplicit false
set_option linter.unusedSectionVars false

/-! ## Who holds what -/

/-- What a `File` with this descriptor owns: nothing if its number is `-1`. -/
def Descriptor.owned (descriptor : Descriptor) : Option Descriptor :=
  if descriptor.fd ≠ -1 then some descriptor else none

theorem owned_eq_some {d e : Descriptor} : d.owned = some e ↔ d = e ∧ d.fd ≠ -1 := by
  simp only [Descriptor.owned, Option.ite_none_right_eq_some, Option.some.injEq]
  exact And.comm

/-- `file` is alive and its `fd_` is the number of this descriptor. -/
abbrev HeldBy (s : State) (file : Nat) (descriptor : Descriptor) : Prop :=
  Holds Descriptor.owned s.files file descriptor

theorem heldBy_iff {s : State} {file : Nat} {d : Descriptor} :
    HeldBy s file d ↔ s.files file = some d ∧ d.fd ≠ -1 := by
  constructor
  · rintro ⟨e, has, owns⟩
    obtain ⟨rfl, real⟩ := owned_eq_some.mp owns
    exact ⟨has, real⟩
  · rintro ⟨has, real⟩
    exact ⟨d, has, owned_eq_some.mpr ⟨rfl, real⟩⟩

theorem heldBy_eq {s : State} {file : Nat} {d held : Descriptor}
    (has : s.files file = some held) (holds : HeldBy s file d) : d = held :=
  Option.some.inj ((heldBy_iff.mp holds).1.symm.trans has)

/-- An explicit `File::Close`. -/
def Act.isClose : Act → Bool
  | .create _ .close _ => true
  | _ => false

/-- Every open descriptor has exactly one owner, a live `File` or an open whose
callback has yet to run. -/
structure Owned (s : State) : Prop where
  files : ∀ file d, HeldBy s file d → s.table d.fd = some d.opened
  exclusive : Exclusive Descriptor.owned s.files
  opening : ∀ d ∈ s.opening, d.fd ≠ -1 ∧ s.table d.fd = some d.opened ∧ ∀ file, ¬ HeldBy s file d
  distinct : s.opening.Nodup
  conserved : ∀ d : Descriptor, s.table d.fd = some d.opened →
    d ∈ s.opening ∨ ∃ file, HeldBy s file d
  noClose : ∀ id sender, s.senders id = some sender → sender.request ≠ .close
  wrong : s.wrong = 0

section Steps

variable {s s' : State} {a : Act} {id file : Nat} {sender : Sender}
  {descriptor held : Descriptor}

/-- Descriptors of one number are one descriptor while the number is open. -/
theorem same_descriptor {d e : Descriptor} (left : s.table d.fd = some d.opened)
    (right : s.table e.fd = some e.opened) (same : d.fd = e.fd) : d = e := by
  rw [same, right] at left
  obtain ⟨fd, opened⟩ := d
  obtain ⟨fd', opened'⟩ := e
  cases same
  cases left
  rfl

theorem Owned.withSender (owned : Owned s) (other : sender.request ≠ .close) :
    Owned { s with senders := Function.update s.senders id (some sender) } := by
  refine ⟨owned.files, owned.exclusive, owned.opening, owned.distinct, owned.conserved, ?_,
    owned.wrong⟩
  intro i x has
  rcases update_eq_some has with ⟨-, rfl⟩ | ⟨-, before⟩
  · exact other
  · exact owned.noClose i x before

theorem openRuns_owned {fd : Int} (owned : Owned s) (valid : 0 ≤ fd) (free : s.table fd = none) :
    Owned { s with
      table := Function.update s.table fd (some s.opens)
      opens := s.opens + 1
      opening := ⟨fd, s.opens⟩ :: s.opening } := by
  have apart : ∀ d : Descriptor, s.table d.fd = some d.opened → d.fd ≠ fd := by
    intro d open_ same
    rw [same, free] at open_
    cases open_
  have elsewhere : ∀ d : Descriptor, s.table d.fd = some d.opened →
      Function.update s.table fd (some s.opens) d.fd = some d.opened :=
    fun d open_ => (Function.update_of_ne (apart d open_) ..).trans open_
  refine ⟨fun f d holds => elsewhere d (owned.files f d holds), owned.exclusive, ?opening,
    ?distinct, ?conserved, owned.noClose, owned.wrong⟩
  case opening =>
    intro d member
    rcases List.mem_cons.mp member with rfl | old
    · refine ⟨fun negative => ?_, Function.update_self .., fun f holds => ?_⟩
      · have negative : fd = -1 := negative
        omega
      · exact apart _ (owned.files f _ holds) rfl
    · obtain ⟨real, open_, free'⟩ := owned.opening d old
      exact ⟨real, elsewhere d open_, free'⟩
  case distinct =>
    refine List.nodup_cons.mpr ⟨fun again => ?_, owned.distinct⟩
    exact apart _ (owned.opening _ again).2.1 rfl
  case conserved =>
    intro d open_
    by_cases same : d.fd = fd
    · left
      have now : Function.update s.table fd (some s.opens) d.fd = some d.opened := open_
      rw [same, Function.update_self] at now
      obtain ⟨number, opened⟩ := d
      cases same
      cases now
      exact List.mem_cons_self
    · have before : s.table d.fd = some d.opened := by
        rw [← open_]
        exact (Function.update_of_ne same ..).symm
      exact (owned.conserved d before).imp_left (List.mem_cons_of_mem _)

/-- `NewFile` takes over what the open returned. -/
theorem newFile_owned (owned : Owned s) (opened : descriptor ∈ s.opening)
    (free : s.files file = none) :
    Owned { s with
      opening := s.opening.erase descriptor
      files := Function.update s.files file (some descriptor) } := by
  obtain ⟨real, open_, unheld⟩ := owned.opening descriptor opened
  refine ⟨?files, ?exclusive, ?opening, owned.distinct.erase _, ?conserved, owned.noClose,
    owned.wrong⟩
  case files =>
    intro f d holds
    rcases holds_update.mp holds with ⟨-, owns⟩ | ⟨-, before⟩
    · obtain ⟨rfl, -⟩ := owned_eq_some.mp owns
      exact open_
    · exact owned.files f d before
  case exclusive =>
    refine owned.exclusive.acquire fun f d _ owns holds => ?_
    obtain ⟨rfl, -⟩ := owned_eq_some.mp owns
    exact unheld f holds
  case opening =>
    intro d member
    obtain ⟨other, member⟩ := owned.distinct.mem_erase_iff.mp member
    obtain ⟨real', open', unheld'⟩ := owned.opening d member
    refine ⟨real', open', fun f holds => ?_⟩
    rcases holds_update.mp holds with ⟨-, owns⟩ | ⟨-, before⟩
    · exact other (owned_eq_some.mp owns).1.symm
    · exact unheld' f before
  case conserved =>
    intro d open'
    by_cases same : d = descriptor
    · exact .inr ⟨file, holds_update.mpr (.inl ⟨rfl, owned_eq_some.mpr ⟨same.symm, real⟩⟩)⟩
    · rcases owned.conserved d open' with member | ⟨f, holds⟩
      · exact .inl (owned.distinct.mem_erase_iff.mpr ⟨same, member⟩)
      · refine .inr ⟨f, holds_update.mpr (.inr ⟨?_, holds⟩)⟩
        rintro rfl
        exact not_holds free holds

/-- The move constructor: `this` holds what `other` held, and `other` nothing. -/
theorem take_owned {other this : Nat} (owned : Owned s) (given : s.files other = some descriptor)
    (free : s.files this = none) : Owned (take s other this descriptor) := by
  have apart : other ≠ this := by
    rintro rfl
    rw [given] at free
    cases free
  have empty : Descriptor.owned { descriptor with fd := -1 } = none := rfl
  have moved : ∀ {f d}, HeldBy (take s other this descriptor) f d →
      ∃ f', HeldBy s f' d := by
    intro f d holds
    rcases (holds_handOver apart given empty).mp holds with ⟨-, before⟩ | ⟨-, -, before⟩
    · exact ⟨other, before⟩
    · exact ⟨f, before⟩
  refine ⟨?files, owned.exclusive.handOver apart given empty, ?opening, owned.distinct,
    ?conserved, owned.noClose, owned.wrong⟩
  case files =>
    intro f d holds
    obtain ⟨f', before⟩ := moved holds
    exact owned.files f' d before
  case opening =>
    intro d member
    obtain ⟨real, open_, unheld⟩ := owned.opening d member
    refine ⟨real, open_, fun f holds => ?_⟩
    obtain ⟨f', before⟩ := moved holds
    exact unheld f' before
  case conserved =>
    intro d open_
    apply (owned.conserved d open_).imp_right
    rintro ⟨f, holds⟩
    by_cases source : f = other
    · exact ⟨this, (holds_handOver apart given empty).mpr (.inl ⟨rfl, source ▸ holds⟩)⟩
    · refine ⟨f, (holds_handOver apart given empty).mpr (.inr ⟨?_, source, holds⟩)⟩
      rintro rfl
      exact not_holds free holds

/-- The destructor of a `File` that holds `-1`. -/
theorem forget_owned (owned : Owned s) (holds : s.files file = some held) (empty : held.fd = -1) :
    Owned { s with files := Function.update s.files file none } := by
  refine ⟨fun f d before => owned.files f d (holds_erase.mp before).2, owned.exclusive.erase,
    ?opening, owned.distinct, ?conserved, owned.noClose, owned.wrong⟩
  case opening =>
    intro d member
    obtain ⟨real, open_, unheld⟩ := owned.opening d member
    exact ⟨real, open_, fun f before => unheld f (holds_erase.mp before).2⟩
  case conserved =>
    intro d open_
    apply (owned.conserved d open_).imp_right
    rintro ⟨f, holds'⟩
    refine ⟨f, holds_erase.mpr ⟨?_, holds'⟩⟩
    rintro rfl
    obtain rfl := heldBy_eq holds holds'
    exact (heldBy_iff.mp holds').2 empty

/-- The destructor: what the `File` held, and nobody else, is closed. -/
theorem destroy_owned (owned : Owned s) (holds : s.files file = some held) :
    Owned { release s held with files := Function.update s.files file none } := by
  by_cases real : held.fd ≠ -1
  · have mine : HeldBy s file held := heldBy_iff.mpr ⟨holds, real⟩
    have open_ := owned.files file held mine
    -- whoever else has an open descriptor has another number
    have elsewhere : ∀ d : Descriptor, s.table d.fd = some d.opened → d ≠ held →
        Function.update s.table held.fd none d.fd = some d.opened := by
      intro d open' other
      have apart : d.fd ≠ held.fd := fun same => other (same_descriptor open' open_ same)
      rw [Function.update_of_ne apart]
      exact open'
    rw [release, if_pos real]
    refine ⟨?files, owned.exclusive.erase, ?opening, owned.distinct, ?conserved, owned.noClose,
      (if_pos open_).trans owned.wrong⟩
    case files =>
      intro f d holds'
      obtain ⟨other, before⟩ := holds_erase.mp holds'
      apply elsewhere d (owned.files f d before)
      rintro rfl
      exact other (owned.exclusive f file d before mine)
    case opening =>
      intro d member
      obtain ⟨real', open', unheld⟩ := owned.opening d member
      refine ⟨real', elsewhere d open' ?_, fun f holds' => unheld f (holds_erase.mp holds').2⟩
      rintro rfl
      exact unheld file mine
    case conserved =>
      intro d open'
      by_cases same : d.fd = held.fd
      · have now : Function.update s.table held.fd none d.fd = some d.opened := open'
        rw [same, Function.update_self] at now
        cases now
      · have before : s.table d.fd = some d.opened := by
          rw [← open']
          exact (Function.update_of_ne same ..).symm
        apply (owned.conserved d before).imp_right
        rintro ⟨f, holds'⟩
        refine ⟨f, holds_erase.mpr ⟨?_, holds'⟩⟩
        rintro rfl
        exact same (congrArg Descriptor.fd (heldBy_eq holds holds'))
  · rw [release, if_neg real]
    exact forget_owned owned holds (not_not.mp real)

/-- `operator=` between two `File`s destroys what the target held, then moves. -/
theorem take_release {other this : Nat} :
    take (release s held) other this descriptor =
      take { release s held with files := Function.update s.files this none } other this
        descriptor := by
  simp only [take, release_files, Function.update_idem]

/-- Without an explicit Close every open descriptor keeps exactly one owner. -/
theorem step_owned (owned : Owned s) (implicit : a.isClose = false)
    (taken : step s a = some s') : Owned s' := by
  cases Step.of_step taken with
  | openRuns fd valid free => exact openRuns_owned owned valid free
  | newFile descriptor file opened free => exact newFile_owned owned opened free
  | create id request file descriptor holds free =>
      apply owned.withSender
      rintro rfl
      cases implicit
  | start id sender has created =>
      have submitted : Owned (advance s id sender .submitted) :=
        owned.withSender (owned.noClose id sender has)
      exact ⟨submitted.files, submitted.exclusive, submitted.opening, submitted.distinct,
        submitted.conserved, submitted.noClose, submitted.wrong⟩
  | run id sender has submitted =>
      have other := owned.noClose id sender has
      have advanced : Owned (advance s id sender .ran) := owned.withSender other
      have used : Owned (useFd (advance s id sender .ran) sender.descriptor) :=
        ⟨advanced.files, advanced.exclusive, advanced.opening, advanced.distinct,
          advanced.conserved, advanced.noClose, advanced.wrong⟩
      unfold runs
      split
      · rename_i close
        exact absurd close other
      · exact used
      · exact used
  | finish id sender has ran => exact owned.withSender (owned.noClose id sender has)
  | moveConstruct other this descriptor given free => exact take_owned owned given free
  | moveAssign other this descriptor held given holds =>
      split
      · exact owned
      · rename_i apart
        rw [take_release]
        refine take_owned (destroy_owned owned holds) ?_ (Function.update_self ..)
        exact (Function.update_of_ne apart ..).trans given
  | destroy file held holds => exact destroy_owned owned holds

/-- `NewFile` has taken this descriptor over. -/
def Issued (acts : List Act) (descriptor : Descriptor) : Prop :=
  ∃ file, .newFile descriptor file ∈ acts

/-- What a step does to the results of opens that wait for their callback. -/
theorem step_opening (taken : step s a = some s') :
    (∃ fd, a = .openRuns fd ∧ s'.opening = ⟨fd, s.opens⟩ :: s.opening ∧
        s'.opens = s.opens + 1) ∨
      (∃ d file, a = .newFile d file ∧ d ∈ s.opening ∧ s'.opening = s.opening.erase d ∧
        s'.opens = s.opens) ∨
      ((∀ d file, a ≠ .newFile d file) ∧ s'.opening = s.opening ∧ s'.opens = s.opens) := by
  have released : ∀ held, (release s held).opening = s.opening ∧
      (release s held).opens = s.opens := by
    intro held
    unfold release
    split
    · exact ⟨rfl, rfl⟩
    · exact ⟨rfl, rfl⟩
  cases Step.of_step taken with
  | openRuns fd valid free => exact .inl ⟨fd, rfl, rfl, rfl⟩
  | newFile descriptor file opened free =>
      exact .inr (.inl ⟨descriptor, file, rfl, opened, rfl, rfl⟩)
  | create id request file descriptor holds free => exact .inr (.inr ⟨nofun, rfl, rfl⟩)
  | start id sender has created => exact .inr (.inr ⟨nofun, rfl, rfl⟩)
  | run id sender has submitted =>
      refine .inr (.inr ⟨nofun, ?_, ?_⟩)
      · unfold runs
        split <;> rfl
      · unfold runs
        split <;> rfl
  | finish id sender has ran => exact .inr (.inr ⟨nofun, rfl, rfl⟩)
  | moveConstruct other this descriptor given free => exact .inr (.inr ⟨nofun, rfl, rfl⟩)
  | moveAssign other this descriptor held given holds =>
      refine .inr (.inr ⟨nofun, ?_⟩)
      split
      · exact ⟨rfl, rfl⟩
      · exact released held
  | destroy file held holds => exact .inr (.inr ⟨nofun, released held⟩)

/-- Whether `file` has been moved from and nothing has come to it since. -/
def movedFrom (file : Nat) (before : Bool) : Act → Bool
  | .newFile _ this => if this = file then false else before
  | .moveConstruct other this =>
      if other = file then true else if this = file then false else before
  | .moveAssign other this =>
      if other = this then before
      else if other = file then true
      else if this = file then false
      else before
  | .destroy this => if this = file then false else before
  | _ => before

theorem take_movedFrom {other this : Nat} {before : Bool}
    (kept : before = true → ∃ d, s.files file = some d ∧ d.fd = -1)
    (away : (if other = file then true else if this = file then false else before) = true) :
    ∃ d, (take s other this descriptor).files file = some d ∧ d.fd = -1 := by
  by_cases source : other = file
  · rw [← source]
    exact ⟨_, Function.update_self .., rfl⟩
  · rw [if_neg source] at away
    by_cases target : this = file
    · rw [if_pos target] at away
      cases away
    · rw [if_neg target] at away
      obtain ⟨d, has, negative⟩ := kept away
      refine ⟨d, ?_, negative⟩
      exact (Function.update_of_ne (Ne.symm source) ..).trans
        ((Function.update_of_ne (Ne.symm target) ..).trans has)

theorem step_movedFrom {before : Bool}
    (kept : before = true → ∃ d, s.files file = some d ∧ d.fd = -1)
    (taken : step s a = some s') (away : movedFrom file before a = true) :
    ∃ d, s'.files file = some d ∧ d.fd = -1 := by
  cases Step.of_step taken with
  | openRuns fd valid free => exact kept away
  | newFile descriptor this opened free =>
      simp only [movedFrom, Bool.if_false_left, Bool.and_eq_true, Bool.not_eq_true',
        decide_eq_false_iff_not] at away
      obtain ⟨other, away⟩ := away
      obtain ⟨d, has, negative⟩ := kept away
      exact ⟨d, (Function.update_of_ne (Ne.symm other) ..).trans has, negative⟩
  | create id request from_ descriptor holds free => exact kept away
  | start id sender has created => exact kept away
  | run id sender has submitted =>
      obtain ⟨d, has', negative⟩ := kept away
      refine ⟨d, ?_, negative⟩
      unfold runs
      split <;> exact has'
  | finish id sender has ran => exact kept away
  | moveConstruct other this descriptor given free => exact take_movedFrom kept away
  | moveAssign other this descriptor held given holds =>
      by_cases same : other = this
      · rw [movedFrom, if_pos same] at away
        rw [if_pos same]
        exact kept away
      · rw [movedFrom, if_neg same] at away
        rw [if_neg same]
        refine take_movedFrom (fun before => ?_) away
        rw [release_files]
        exact kept before
  | destroy this held holds =>
      simp only [movedFrom, Bool.if_false_left, Bool.and_eq_true, Bool.not_eq_true',
        decide_eq_false_iff_not] at away
      obtain ⟨other, away⟩ := away
      obtain ⟨d, has, negative⟩ := kept away
      exact ⟨d, (Function.update_of_ne (Ne.symm other) ..).trans has, negative⟩

end Steps

/-! ## Runs -/

theorem init_owned : Owned init where
  files := fun _ _ holds => absurd holds (not_holds rfl)
  exclusive := exclusive_none
  opening := nofun
  distinct := List.nodup_nil
  conserved := nofun
  noClose := nofun
  wrong := rfl

section Runs

variable {acts : List Act} {s : State}

theorem run_owned (reached : run step init acts = some s)
    (implicit : ∀ a ∈ acts, a.isClose = false) : Owned s :=
  (along_of_forall implicit).invariant
    (fun _ _ _ owned implicit taken => step_owned owned implicit taken) init_owned reached

/-- What has been issued is no longer waiting to be, and is never opened again. -/
theorem issued_not_opening (reached : run step init acts = some s)
    (implicit : ∀ a ∈ acts, a.isClose = false) {d : Descriptor} (issued : Issued acts d) :
    d ∉ s.opening ∧ d.opened < s.opens := by
  refine run_history (P := fun acts s => (∀ a ∈ acts, a.isClose = false) → Issued acts d →
    d ∉ s.opening ∧ d.opened < s.opens) ?start ?extend reached implicit issued
  case start =>
    rintro - ⟨file, member⟩
    cases member
  case extend =>
    intro before t a t' prior ih taken implicit ⟨file, member⟩
    have implicit' : ∀ b ∈ before, b.isClose = false :=
      fun b member => implicit b (List.mem_append_left _ member)
    have distinct := (run_owned prior implicit').distinct
    have numbered := run_numbered prior
    rcases step_opening taken with ⟨fd, rfl, opening, opens⟩ |
      ⟨e, file', rfl, opened, opening, opens⟩ | ⟨other, opening, opens⟩
    · rw [opening, opens]
      have earlier : Issued before d := by
        rcases List.mem_append.mp member with member | last
        · exact ⟨file, member⟩
        · cases List.mem_singleton.mp last
      obtain ⟨away, below⟩ := ih implicit' earlier
      refine ⟨fun again => ?_, Nat.lt_succ_of_lt below⟩
      rcases List.mem_cons.mp again with rfl | again
      · exact Nat.lt_irrefl _ below
      · exact away again
    · rw [opening, opens]
      rcases List.mem_append.mp member with member | last
      · obtain ⟨away, below⟩ := ih implicit' ⟨file, member⟩
        exact ⟨fun again => away (List.mem_of_mem_erase again), below⟩
      · cases List.mem_singleton.mp last
        exact ⟨fun again => (distinct.mem_erase_iff.mp again).1 rfl, numbered.opening _ opened⟩
    · rw [opening, opens]
      rcases List.mem_append.mp member with member | last
      · exact ih implicit' ⟨file, member⟩
      · exact absurd (List.mem_singleton.mp last).symm (other d file)

theorem movedFrom_holds_nothing (reached : run step init acts = some s) {file : Nat}
    (away : acts.foldl (movedFrom file) false = true) :
    ∃ d, s.files file = some d ∧ d.fd = -1 := by
  refine run_history (P := fun acts s => acts.foldl (movedFrom file) false = true →
    ∃ d, s.files file = some d ∧ d.fd = -1) nofun ?_ reached away
  intro before t a t' _ kept taken away
  rw [List.foldl_append, List.foldl_cons, List.foldl_nil] at away
  exact step_movedFrom kept taken away

/-- **Moves keep ownership unique and conserved.**  After any run without an explicit
Close no two live `File`s hold one number; whatever `NewFile` got is held by exactly one
live `File` while it is open; a moved-from `File` holds `-1`; every close so far was of
the `File`'s own descriptor, and the next assignment or destructor closes one that its
`File` alone holds. -/
theorem ownership_conserved (reached : run step init acts = some s)
    (implicit : ∀ a ∈ acts, a.isClose = false) :
    (∀ file other d e, s.files file = some d → s.files other = some e → d.fd ≠ -1 →
      d.fd = e.fd → file = other) ∧
    (∀ d, Issued acts d → s.table d.fd = some d.opened → ∃! file, s.files file = some d) ∧
    (∀ file, acts.foldl (movedFrom file) false = true →
      ∃ d, s.files file = some d ∧ d.fd = -1) ∧
    s.wrong = 0 ∧
    (∀ file held a s', a = .destroy file ∨ (∃ other, a = .moveAssign other file ∧ other ≠ file) →
      step s a = some s' → s.files file = some held → held.fd ≠ -1 →
      s.table held.fd = some held.opened ∧
        ∀ other e, s.files other = some e → e.fd = held.fd → other = file) := by
  have owned := run_owned reached implicit
  have unique : ∀ file other d e, s.files file = some d → s.files other = some e → d.fd ≠ -1 →
      d.fd = e.fd → file = other := by
    intro file other d e has has' real same
    have holds : HeldBy s file d := heldBy_iff.mpr ⟨has, real⟩
    have holds' : HeldBy s other e := heldBy_iff.mpr ⟨has', same ▸ real⟩
    obtain rfl := same_descriptor (owned.files file d holds) (owned.files other e holds') same
    exact owned.exclusive file other d holds holds'
  refine ⟨unique, ?issued, fun file => movedFrom_holds_nothing reached, owned.wrong, ?closes⟩
  case issued =>
    intro d issued open_
    obtain ⟨away, -⟩ := issued_not_opening reached implicit issued
    obtain ⟨file, holds⟩ := (owned.conserved d open_).resolve_left away
    obtain ⟨has, real⟩ := heldBy_iff.mp holds
    exact ⟨file, has, fun other has' => unique other file d d has' has real rfl⟩
  case closes =>
    intro file held a s' _ _ has real
    refine ⟨owned.files file held (heldBy_iff.mpr ⟨has, real⟩), fun other e has' same => ?_⟩
    exact unique other file e held has' has (same ▸ real) same

/-- Two files are opened, the second assigned over the first and to itself, moved on
and destroyed; the kernel gives the first number out again meanwhile. -/
theorem ownership_conserved_two :
    ∃ acts s, run step init acts = some s ∧ acts.length = 9 ∧ s.files 1 = some ⟨-1, 1⟩ ∧
      (∀ d, Issued acts d → s.table d.fd = some d.opened → ∃! file, s.files file = some d) ∧
      s.wrong = 0 := by
  have conserved := @ownership_conserved [.openRuns 3, .newFile ⟨3, 0⟩ 0, .openRuns 4,
    .newFile ⟨4, 1⟩ 1, .moveAssign 0 0, .moveAssign 1 0, .openRuns 3, .newFile ⟨3, 2⟩ 2,
    .moveConstruct 0 5] _ rfl (by decide)
  exact ⟨_, _, rfl, rfl, rfl, conserved.2.1, conserved.2.2.2.1⟩

end Runs

end PatBase.Runtime.File
