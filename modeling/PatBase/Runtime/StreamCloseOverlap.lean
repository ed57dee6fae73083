/-
# PatBase.Runtime.StreamCloseOverlap -- Closes that do not wait for one another

Every Close overwrites the `data` slot before it looks at the handle, and completes
at once on a handle that is only closing.  `Doomed` lists what a Close started too
early leads to; it lasts until libuv has run all callbacks, and by then one of them
has completed a wrong operation, or an operation twice, or too early.

* `closes_sound_iff_apart`: for any number of Closes, each completes once, through
  its own callback and after the handle is closed, exactly when each Close but the
  first was started after the close callback had run.

`overlapping_closes` is the error path and the normal path both closing.
-/
import PatBase.Runtime.StreamClose

namespace PatBase.Runtime.StreamHandle

open PatBase.Lib.Machine

set_option autoImplicit false
set_option linter.unusedSectionVars false

variable {s s' : State} {op : Nat} {rc status : Int} {a : Act} {acts : List Act}

/-! ## What is assumed and what is promised -/

/-- Only Closes are started, each once.  Libuv accepts a shutdown on an active handle
without one; it fails a shutdown exactly when `uv_close` has cancelled it. -/
def Closes (s : State) : Act → Prop
  | .startClose op rc =>
      .close op ∉ s.started ∧
        (s.Unsent → (0 ≤ rc ↔ s.shutdown = none ∧ s.handle.phase = .active))
  | .shutdownCallback status => 0 ≤ status ↔ s.handle.phase = .active
  | .closeCallback => True
  | .traffic _ _ => True
  | _ => False

/-- A Close is the first one, or finds the handle closed. -/
def Apart (s : State) : Act → Prop
  | .startClose _ _ => s.started = [] ∨ s.handle.phase = .closed
  | _ => True

/-- Each Close completes at most once -- once, when libuv owes no callback --, through
a callback of its own, and successfully only on a closed handle. -/
structure Sound (s : State) : Prop where
  once : ∀ target, (s.signals target).length ≤ 1
  quiet : Quiet s → ∀ target ∈ s.started, (s.signals target).length = 1
  own : s.strays = 0
  closed : ∀ target, ∀ completion ∈ s.signals target,
    completion.1 = .setValue .unit → completion.2 = .closed

/-- A handle that is closing or closed is not writable. -/
def Sealed (s : State) : Prop :=
  s.handle.phase ≠ .active → s.handle.writable = false

theorem Orderly.sound (orderly : Orderly s) : Sound s := by
  cases orderly with
  | idle idle =>
      refine ⟨fun target => ?_, fun _ target member => ?_, idle.strays, fun target => ?_⟩
      · simp [idle.unsignalled]
      · rw [idle.started] at member
        cases member
      · simp [idle.unsignalled]
  | shutting op pending shutdown phase =>
      refine ⟨fun target => ?_, fun quiet => ?_, pending.strays, fun target => ?_⟩
      · simp [pending.unsignalled]
      · cases shutdown.symm.trans quiet.1
      · simp [pending.unsignalled]
  | closing op pending shutdown phase =>
      refine ⟨fun target => ?_, fun quiet => absurd phase (quiet.2 op), pending.strays,
        fun target => ?_⟩
      · simp [pending.unsignalled]
      · simp [pending.unsignalled]
  | closed closed =>
      refine ⟨fun target => ?_, fun _ target member => ?_, closed.strays, fun target => ?_⟩
      · by_cases member : target ∈ s.started
        · simp [closed.completed target member]
        · simp [closed.unsignalled target member]
      · simp [closed.completed target member]
      · by_cases member : target ∈ s.started
        · simp [closed.completed target member]
        · simp [closed.unsignalled target member]

/-- Unsent data is only on an active handle. -/
theorem Sealed.active (sealed_ : Sealed s) (unsent : s.Unsent) : s.handle.phase = .active := by
  by_contra notActive
  cases unsent.1.symm.trans (sealed_ notActive)

theorem Sealed.sent (sealed_ : Sealed s) (notActive : s.handle.phase ≠ .active) : ¬ s.Unsent :=
  fun unsent => notActive (sealed_.active unsent)

theorem startClose_sealed (sealed_ : Sealed s) : Sealed (startClose s op rc) := by
  rcases startClose_cases s op rc with
    ⟨-, -, result⟩ | ⟨-, -, result⟩ | ⟨-, -, result⟩ | ⟨-, -, result⟩
  · rw [result]
    exact sealed_
  · rw [result]
    exact sealed_
  · rw [result]
    exact fun _ => rfl
  · rw [result]
    exact sealed_

theorem step_sealed (sealed_ : Sealed s) (closes : Closes s a) (taken : step s a = some s') :
    Sealed s' := by
  cases Step.of_step taken with
  | startClose op rc => exact startClose_sealed sealed_
  | shutdownCallback op status =>
      rw [Sealed, shutdownCallback_handle]
      split
      · exact fun _ => rfl
      · exact sealed_
  | closeCallback op closing =>
      obtain ⟨-, -, -, -, writable⟩ := closeCallback_frame s op
      intro _
      rw [writable]
      exact sealed_ (by simp [closing])
  | traffic writable size active => exact fun notActive => absurd active notActive
  | _ => cases closes

/-! ## Closes started apart -/

/-- A shutdown is pending on an active handle only. -/
def Shutting (s : State) : Prop :=
  s.shutdown ≠ none → s.handle.phase = .active

theorem startClose_apart (orderly : Orderly s) (sealed_ : Sealed s) (shutting : Shutting s)
    (closes : Closes s (.startClose op rc)) (apart : Apart s (.startClose op rc)) :
    Orderly (startClose s op rc) ∧ Shutting (startClose s op rc) := by
  obtain ⟨fresh, refusal⟩ := closes
  have free : s.shutdown = none := by
    cases orderly with
    | idle idle => exact idle.shutdown
    | shutting other pending shutdown phase =>
        have active := shutting (by simp [shutdown])
        rcases apart with unused | closed
        · cases unused.symm.trans pending.started
        · cases closed.symm.trans active
    | closing other pending shutdown phase => exact shutdown
    | closed closed => exact closed.shutdown
  constructor
  · cases orderly with
    | idle idle =>
        exact idle.startClose fun unsent => (refusal unsent).mpr ⟨free, sealed_.active unsent⟩
    | shutting other pending shutdown => cases free.symm.trans shutdown
    | closing other pending shutdown phase =>
        rcases apart with unused | closed
        · cases unused.symm.trans pending.started
        · cases closed.symm.trans phase
    | closed closed =>
        have sent := sealed_.sent (by simp [closed.phase])
        exact .closed (closed.startClose sent fresh)
  · intro asked
    by_cases unsent : s.Unsent
    · rw [startClose_phase unsent]
      exact sealed_.active unsent
    · rw [startClose_sent unsent] at asked
      exact absurd free asked

theorem step_apart (orderly : Orderly s) (sealed_ : Sealed s) (shutting : Shutting s)
    (closes : Closes s a) (apart : Apart s a) (taken : step s a = some s') :
    Orderly s' ∧ Shutting s' := by
  cases Step.of_step taken with
  | startClose op rc => exact startClose_apart orderly sealed_ shutting closes apart
  | shutdownCallback op status asked =>
      have succeeds : 0 ≤ status := closes.mpr (shutting (by simp [asked]))
      refine ⟨shutdownCallback_orderly orderly asked succeeds, fun still => ?_⟩
      exact absurd (shutdownCallback_frame s op status).2.1 still
  | closeCallback op closing =>
      refine ⟨closeCallback_orderly orderly closing, fun asked => ?_⟩
      rw [(closeCallback_frame s op).2.1] at asked
      cases closing.symm.trans (shutting asked)
  | traffic writable size active =>
      have own : LibuvStep 0 (.traffic writable size) := trivial
      exact ⟨step_orderly orderly own (fun _ => Int.le_refl 0) taken, fun _ => active⟩
  | _ => cases closes

/-! ## A Close started too early -/

/-- What a Close that is not apart leads to, until libuv has run its callbacks. -/
inductive Doomed (s : State) : Prop where
  /-- A callback completed another operation than its own. -/
  | stray (reached : 0 < s.strays)
  | twice (target : Target) (again : 2 ≤ (s.signals target).length)
  /-- A Close succeeded on a handle not closed yet. -/
  | early (target : Target) (completion : Completion × Phase)
      (member : completion ∈ s.signals target) (succeeded : completion.1 = .setValue .unit)
      (open_ : completion.2 ≠ .closed)
  /-- `uv_close` will cancel the shutdown of `op`, whose callback then signals twice. -/
  | cancelled (op : Nat) (shutdown : s.shutdown = some op) (phase : s.handle.phase ≠ .active)
  /-- `op` waits for its shutdown, and the slot is another's. -/
  | overwritten (op : Nat) (shutdown : s.shutdown = some op) (member : .close op ∈ s.started)
      (slot : s.handle.data ≠ some (.close op))
  /-- `op` waits for its close callback, and the slot is another's. -/
  | misdirected (op : Nat) (phase : s.handle.phase = .closing op)
      (member : .close op ∈ s.started) (slot : s.handle.data ≠ some (.close op))

theorem Doomed.not_sound (doomed : Doomed s) (quiet : Quiet s) : ¬ Sound s := by
  intro sound
  cases doomed with
  | stray reached => exact absurd sound.own (Nat.ne_of_gt reached)
  | twice target again => exact absurd (sound.once target) (Nat.not_le.mpr again)
  | early target completion member succeeded open_ =>
      exact open_ (sound.closed target completion member succeeded)
  | cancelled op shutdown phase => cases quiet.1.symm.trans shutdown
  | overwritten op shutdown member slot => cases quiet.1.symm.trans shutdown
  | misdirected op phase member slot => exact quiet.2 op phase

/-- A Close is started on a handle that is not closed, after another one. -/
theorem startClose_doomed (orderly : Orderly s) (sealed_ : Sealed s) (shutting : Shutting s)
    (closes : Closes s (.startClose op rc)) (early : ¬ Apart s (.startClose op rc)) :
    Doomed (startClose s op rc) := by
  obtain ⟨fresh, refusal⟩ := closes
  rw [Apart, not_or] at early
  obtain ⟨used, notClosed⟩ := early
  cases orderly with
  | idle idle => exact absurd idle.started used
  | closed closed => exact absurd closed.phase notClosed
  | shutting other pending shutdown phase =>
      have active := shutting (by simp [shutdown])
      by_cases unsent : s.Unsent
      · have refused : ¬ 0 ≤ rc := fun accepted => by
          cases ((refusal unsent).mp accepted).1.symm.trans shutdown
        rw [startClose_refused unsent refused]
        refine .overwritten other shutdown ?_ ?_
        · show .close other ∈ s.started ++ [.close op]
          rw [pending.started]
          exact List.mem_cons_self
        · intro same
          have same' : op = other := Target.close.inj (Option.some.inj same)
          rw [pending.started, same'] at fresh
          exact fresh (List.mem_singleton_self _)
      · rw [startClose_active unsent active]
        exact .cancelled other shutdown nofun
  | closing other pending shutdown phase =>
      have notActive : s.handle.phase ≠ .active := by
        simp [phase]
      rw [startClose_closing (sealed_.sent notActive) notActive]
      refine .misdirected other phase ?_ ?_
      · show .close other ∈ s.started ++ [.close op]
        rw [pending.started]
        exact List.mem_cons_self
      · intro same
        have same' : op = other := Target.close.inj (Option.some.inj same)
        rw [pending.started, same'] at fresh
        exact fresh (List.mem_singleton_self _)

theorem startClose_keeps_doomed (doomed : Doomed s) (sealed_ : Sealed s)
    (closes : Closes s (.startClose op rc)) : Doomed (startClose s op rc) := by
  obtain ⟨strays, signals⟩ := startClose_grows s op rc
  obtain ⟨fresh, refusal⟩ := closes
  have kept : ∀ target, target ∈ s.started → target ∈ (startClose s op rc).started := by
    intro target member
    rw [startClose_started]
    exact List.mem_append_left _ member
  have other : ∀ waiting, .close waiting ∈ s.started →
      (startClose s op rc).handle.data ≠ some (.close waiting) := by
    intro waiting member same
    rw [startClose_data] at same
    cases same
    exact fresh member
  have closing : s.handle.phase ≠ .active → startClose s op rc =
      signal (takeSlot s (.close op)) (.close op) (.setValue .unit) := fun notActive =>
    startClose_closing (sealed_.sent notActive) notActive
  cases doomed with
  | stray reached => exact .stray (Nat.lt_of_lt_of_le reached strays)
  | twice target again => exact .twice target (Nat.le_trans again (signals target).length_le)
  | early target completion member succeeded open_ =>
      exact .early target completion ((signals target).subset member) succeeded open_
  | cancelled waiting shutdown phase =>
      rw [closing phase]
      exact .cancelled waiting shutdown phase
  | overwritten waiting shutdown member slot =>
      by_cases unsent : s.Unsent
      · have refused : ¬ 0 ≤ rc := fun accepted => by
          cases ((refusal unsent).mp accepted).1.symm.trans shutdown
        refine .overwritten waiting ?_ (kept _ member) (other waiting member)
        rw [startClose_refused unsent refused]
        exact shutdown
      · refine .overwritten waiting ?_ (kept _ member) (other waiting member)
        rw [startClose_sent unsent]
        exact shutdown
  | misdirected waiting phase member slot =>
      refine .misdirected waiting ?_ (kept _ member) (other waiting member)
      rw [closing (by simp [phase])]
      exact phase

theorem shutdownCallback_keeps_doomed (doomed : Doomed s) (asked : s.shutdown = some op)
    (closes : Closes s (.shutdownCallback status)) : Doomed (shutdownCallback s op status) := by
  obtain ⟨strays, signals⟩ := shutdownCallback_grows s op status
  obtain ⟨started, -, data, -⟩ := shutdownCallback_frame s op status
  have cancelled : s.handle.phase ≠ .active →
      Doomed (shutdownCallback s op status) := by
    intro notActive
    refine .twice (.close op) ?_
    rw [shutdownCallback_cancelled (Int.not_le.mp fun ok => notActive (closes.mp ok)) notActive]
    simp
  cases doomed with
  | stray reached => exact .stray (Nat.lt_of_lt_of_le reached strays)
  | twice target again => exact .twice target (Nat.le_trans again (signals target).length_le)
  | early target completion member succeeded open_ =>
      exact .early target completion ((signals target).subset member) succeeded open_
  | cancelled waiting shutdown phase => exact cancelled phase
  | overwritten waiting shutdown member slot =>
      obtain rfl : op = waiting := Option.some.inj (asked.symm.trans shutdown)
      by_cases active : s.handle.phase = .active
      · refine .misdirected op ?_ (started ▸ member) (data ▸ slot)
        rw [shutdownCallback_handle, if_pos active]
      · exact cancelled active
  | misdirected waiting phase member slot => exact cancelled (by simp [phase])

theorem closeCallback_keeps_doomed (doomed : Doomed s) (closing : s.handle.phase = .closing op) :
    Doomed (closeCallback s op) := by
  obtain ⟨strays, signals⟩ := closeCallback_grows s op
  obtain ⟨started, shutdown', phase', data, -⟩ := closeCallback_frame s op
  cases doomed with
  | stray reached => exact .stray (Nat.lt_of_lt_of_le reached strays)
  | twice target again => exact .twice target (Nat.le_trans again (signals target).length_le)
  | early target completion member succeeded open_ =>
      exact .early target completion ((signals target).subset member) succeeded open_
  | cancelled waiting shutdown phase =>
      exact .cancelled waiting (shutdown'.trans shutdown) (by simp [phase'])
  | overwritten waiting shutdown member slot =>
      exact .overwritten waiting (shutdown'.trans shutdown) (started ▸ member) (data ▸ slot)
  | misdirected waiting phase member slot =>
      obtain rfl : op = waiting := Phase.closing.inj (closing.symm.trans phase)
      refine .stray ?_
      rw [closeCallback_strays slot]
      exact Nat.succ_pos _

/-- **There is no way back** from a Close started too early. -/
theorem step_doomed (doomed : Doomed s) (sealed_ : Sealed s) (closes : Closes s a)
    (taken : step s a = some s') : Doomed s' := by
  cases Step.of_step taken with
  | startClose op rc => exact startClose_keeps_doomed doomed sealed_ closes
  | shutdownCallback op status asked => exact shutdownCallback_keeps_doomed doomed asked closes
  | closeCallback op closing => exact closeCallback_keeps_doomed doomed closing
  | traffic writable size active =>
      cases doomed with
      | stray reached => exact .stray reached
      | twice target again => exact .twice target again
      | early target completion member succeeded open_ =>
          exact .early target completion member succeeded open_
      | cancelled waiting shutdown phase => exact absurd active phase
      | overwritten waiting shutdown member slot => exact .overwritten waiting shutdown member slot
      | misdirected waiting phase member slot => cases phase.symm.trans active
  | _ => cases closes

/-! ## Runs -/

/-- The handle before the first Close: any that libuv is not already closing. -/
structure Startable (handle : Handle) : Prop where
  settled : ∀ op, handle.phase ≠ .closing op
  shut : handle.phase ≠ .active → handle.writable = false

theorem run_orderly_or_doomed {handle : Handle} (startable : Startable handle)
    (meets : Along step Closes (State.ofHandle handle) acts)
    (reached : run step (State.ofHandle handle) acts = some s) :
    Sealed s ∧
      ((Along step Apart (State.ofHandle handle) acts ∧ Orderly s ∧ Shutting s) ∨
        (¬ Along step Apart (State.ofHandle handle) acts ∧ Doomed s)) := by
  induction acts using List.reverseRecOn generalizing s with
  | nil =>
      cases reached
      exact ⟨startable.shut, .inl ⟨trivial, .idle (idle_ofHandle startable.settled),
        fun asked => absurd rfl asked⟩⟩
  | append_singleton earlier a ih =>
      obtain ⟨before, prior, taken⟩ := run_snoc_eq_some.mp reached
      obtain ⟨meetsBefore, closes⟩ := (along_snoc prior).mp meets
      obtain ⟨sealed_, state⟩ := ih meetsBefore prior
      refine ⟨step_sealed sealed_ closes taken, ?_⟩
      rw [along_snoc prior]
      rcases state with ⟨apartBefore, orderly, shutting⟩ | ⟨early, doomed⟩
      · by_cases apart : Apart before a
        · exact .inl ⟨⟨apartBefore, apart⟩,
            step_apart orderly sealed_ shutting closes apart taken⟩
        · refine .inr ⟨fun both => apart both.2, ?_⟩
          cases a with
          | startClose op rc =>
              cases taken
              exact startClose_doomed orderly sealed_ shutting closes apart
          | _ => exact absurd trivial apart
      · exact .inr ⟨fun both => early both.1, step_doomed doomed sealed_ closes taken⟩

/-- **When overlapping Closes are safe**: Closes of which each but the first starts
after the close callback has run are sound in every state; when libuv has run all
callbacks of any other Closes, one of them has gone wrong. -/
theorem closes_sound_iff_apart {handle : Handle} (startable : Startable handle)
    (meets : Along step Closes (State.ofHandle handle) acts)
    (reached : run step (State.ofHandle handle) acts = some s) :
    (Along step Apart (State.ofHandle handle) acts →
      ∀ d, Visits step (State.ofHandle handle) acts d → Sound d) ∧
    (Quiet s → (Sound s ↔ Along step Apart (State.ofHandle handle) acts)) := by
  have safe : Along step Apart (State.ofHandle handle) acts →
      ∀ d, Visits step (State.ofHandle handle) acts d → Sound d := by
    rintro apart d ⟨before, after, rfl, here⟩
    rcases (run_orderly_or_doomed startable meets.append_left here).2 with
      ⟨-, orderly, -⟩ | ⟨early, -⟩
    · exact orderly.sound
    · exact absurd apart.append_left early
  refine ⟨safe, fun quiet => ⟨fun sound => ?_, fun apart => safe apart s (visits_last reached)⟩⟩
  rcases (run_orderly_or_doomed startable meets reached).2 with ⟨apart, -⟩ | ⟨-, doomed⟩
  · exact apart
  · exact absurd sound (doomed.not_sound quiet)

/-- The second Close of a socket starts after the close callback. -/
theorem closes_sound_iff_apart_two :
    ∃ s, run step (State.ofHandle ⟨none, true, 0, .active, none, true⟩)
        [.startClose 0 0, .closeCallback, .startClose 1 0] = some s ∧
      (Sound s ↔ Along step Apart (State.ofHandle ⟨none, true, 0, .active, none, true⟩)
        [.startClose 0 0, .closeCallback, .startClose 1 0]) := by
  have startable : Startable ⟨none, true, 0, .active, none, true⟩ :=
    ⟨fun _ => nofun, fun shut => absurd rfl shut⟩
  have meets : Along step Closes (State.ofHandle ⟨none, true, 0, .active, none, true⟩)
      [.startClose 0 0, .closeCallback, .startClose 1 0] := by
    refine along_cons ⟨List.not_mem_nil, fun unsent => absurd unsent.2 (by decide)⟩ rfl
      (along_cons trivial rfl (along_cons ⟨by decide, fun unsent => ?_⟩ rfl trivial))
    cases unsent.1
  exact ⟨_, rfl, (closes_sound_iff_apart startable meets rfl).2 ⟨rfl, fun _ => nofun⟩⟩

/-- The error path and the normal path both close: the second Close completes at once,
the close callback completes it again, and the first never completes. -/
theorem overlapping_closes :
    ∃ s, run step (State.ofHandle ⟨none, true, 0, .active, none, true⟩)
        [.startClose 0 0, .startClose 1 0, .closeCallback] = some s ∧
      s.signals (.close 0) = [] ∧
      s.signals (.close 1) = [(.setValue .unit, .closing 0), (.setValue .unit, .closed)] ∧
      s.strays = 1 ∧ ¬ Sound s :=
  ⟨_, rfl, rfl, rfl, rfl, fun sound => absurd sound.own (by decide)⟩

end PatBase.Runtime.StreamHandle
