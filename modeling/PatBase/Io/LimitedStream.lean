/-
# PatBase.Io.LimitedStream -- limiters over one stream, with Reads that overlap

Over a `TCPSocket&` the `Read` of a `LimitedReader` returns a sender.  The limiter
charges its budget when the sender is made; the stream Read is started later, in any
order, or never, and completes later still, or never, with no more bytes than it asked
for.  Any number of limiters share the stream here, and others may read it directly.

* `Ledger`: what a limiter has left and what the senders it made ask for make up its
  limit, whatever has become of them.
* `limits_hold_on_a_stream`: so no limiter lets more than its limit through; it has
  delivered all that is off its budget exactly if no sender is left lying and each Read
  got all it asked for; and it throws as soon as its limit is asked for, not delivered.
* `frames_on_a_stream`: limiters that take turns in starting their Reads cut the stream
  into consecutive frames, also where their Reads overlap.
-/
import Mathlib.Algebra.GroupWithZero.Nat
import PatBase.Io.LimitedReader
import PatBase.Lib.Numbered
import PatBase.Runtime.StreamRead

namespace PatBase.Io.LimitedStream

open PatBase.Lib PatBase.Lib.Machine PatBase.Lib.Numbered PatBase.Bytes PatBase.Runtime

set_option autoImplicit false

/-! ## `Read` over an `AsyncReader` -/

/-- `LimitedReader::Read`: it throws, or passes this span on and keeps this budget. -/
def readSender (n : SizeT) (buf : Span) : Except ErrorCode (Span × SizeT) :=
  if n.1 = 0 then .error IoError.kEOF.makeErrorCode
  else
    let passed := (⟨(), n⟩ : LimitedReader Unit).clamp buf
    .ok (passed, n.sub passed.sizeT)

/-- A sender that the `Read` of a limiter returned. -/
structure Made where
  limiter : Nat
  span : Span

structure State where
  stream : StreamRead.State
  /-- `n_` of each limiter. -/
  n : Nat → SizeT
  /-- The senders that are not started. -/
  idle : List Made
  /-- The limiter whose sender became this stream Read. -/
  owner : Nat → Option Nat
  /-- The limiters whose `Read` threw, in order. -/
  thrown : List Nat

inductive Act where
  /-- `Read(buf)` of a limiter. -/
  | read (limiter : Nat) (buf : Span)
  /-- The `k`-th of the idle senders is connected and started; `uv_read_start` returns `rc`. -/
  | start (k : Nat) (rc : Int)
  /-- The stream, its peer, and those who read it without a limiter. -/
  | stream (a : StreamRead.Act)

def init (limits : Nat → SizeT) : State where
  stream := StreamRead.init
  n := limits
  idle := []
  owner := fun _ => none
  thrown := []

/-- `Read`, as one of the limiters. -/
def read (s : State) (limiter : Nat) (buf : Span) : State :=
  match readSender (s.n limiter) buf with
  | .error _ => { s with thrown := s.thrown ++ [limiter] }
  | .ok (passed, n) =>
      { s with n := Function.update s.n limiter n, idle := s.idle ++ [⟨limiter, passed⟩] }

/-- The `k`-th idle sender has become the next Read of the stream. -/
def start (s : State) (k : Nat) (made : Made) (stream : StreamRead.State) : State :=
  { s with
    stream := stream
    idle := s.idle.eraseIdx k
    owner := Function.update s.owner s.stream.started (some made.limiter) }

def step (s : State) : Act → Option State
  | .read limiter buf => some (read s limiter buf)
  | .start k rc =>
      match s.idle[k]? with
      | none => none
      | some made =>
          (StreamRead.step s.stream (.startRead made.span rc)).map (start s k made)
  | .stream a => (StreamRead.step s.stream a).map fun stream => { s with stream := stream }

namespace State

/-- The stream Reads of a limiter, in the order in which they were started. -/
def readsOf (s : State) (limiter : Nat) : List Nat :=
  (List.range s.stream.started).filter fun op => s.owner op = some limiter

/-- What the idle senders of a limiter ask for. -/
def promised (s : State) (limiter : Nat) : Nat :=
  ((s.idle.filter fun made => made.limiter = limiter).map fun made => made.span.size).sum

/-- What the started Reads of a limiter asked for. -/
def asked (s : State) (limiter : Nat) : Nat :=
  ((s.readsOf limiter).map fun op => (s.stream.reads op).given.length).sum

/-- The bytes that came through a limiter. -/
def deliveredBy (s : State) (limiter : Nat) : List UInt8 :=
  (s.readsOf limiter).flatMap fun op => (s.stream.reads op).got

end State

section ReadSender

variable {n : SizeT} {buf : Span}

/-- The limiter over a reader that answers at once does the same and then reads. -/
theorem read_eq_readSender {σ : Type} (reader : Reader ErrorCode σ) (r : σ) :
    LimitedReader.read reader true ⟨r, n⟩ buf =
      match readSender n buf with
      | .error code => (.refused (.thrown code), ⟨r, n⟩)
      | .ok (passed, n') =>
          (.wrapped (reader.read r passed).count
            ((reader.read r passed).span ++ buf.1.drop passed.size),
            ⟨(reader.read r passed).reader, n'⟩) := by
  unfold LimitedReader.read readSender
  by_cases spent : n.1 = 0
  · simp only [spent, if_true]
    rfl
  · simp only [spent, if_false]
    rfl

theorem readSender_spent (spent : n.1 = 0) :
    readSender n buf = .error IoError.kEOF.makeErrorCode := if_pos spent

/-- A sender asks for what is taken off the budget. -/
theorem readSender_within (buf : Span) (left : n.1 ≠ 0) :
    ∃ passed n', readSender n buf = .ok (passed, n') ∧ n'.1 + passed.size = n.1 := by
  refine ⟨_, _, if_neg left, ?_⟩
  have size := LimitedReader.clamp_size buf (l := (⟨(), n⟩ : LimitedReader Unit))
  simp only at size
  rw [SizeT.sub_of_le (by rw [Span.sizeT_val, size]; omega), Span.sizeT_val]
  omega

end ReadSender

/-! ## The stream below -/

section Stream

variable {t t' : StreamRead.State} {a : StreamRead.Act}

/-- The span of a Read stays what it was started with. -/
theorem given_kept (tidy : StreamRead.Tidy t) (taken : StreamRead.step t a = some t') :
    t.started ≤ t'.started ∧
      ∀ op < t.started, (t'.reads op).given = (t.reads op).given := by
  cases StreamRead.Step.of_step taken with
  | startRead span rc accepts point =>
      refine ⟨Nat.le_succ _, fun op less => ?_⟩
      have other : op ≠ t.started := Nat.ne_of_lt less
      simp [StreamRead.startRead, other]
  | readCallback nread op length offered fits waiting eof =>
      obtain ⟨slot, reading, -⟩ := tidy.offered op length offered
      rw [StreamRead.readCallback_answer slot (tidy.pending op slot reading)]
      refine ⟨Nat.le_refl _, fun op' _ => ?_⟩
      by_cases same : op' = op
      · simp [same, StreamRead.Read.answer]
      · simp [same]
  | _ => exact ⟨Nat.le_refl _, fun _ _ => rfl⟩

/-- A sender becomes the next Read. -/
theorem start_stream {span : Span} {rc : Int}
    (taken : StreamRead.step t (.startRead span rc) = some t') :
    t'.started = t.started + 1 ∧ (t'.reads t.started).given = span.1 := by
  cases StreamRead.Step.of_step taken with
  | startRead accepts point => exact ⟨rfl, by simp [StreamRead.startRead]⟩

end Stream

/-! ## The ledger -/

/-- What a limiter has left, what its idle senders ask for and what its Reads asked for. -/
structure Ledger (limits : Nat → SizeT) (s : State) : Prop where
  tidy : StreamRead.Tidy s.stream
  unstarted : ∀ op, s.stream.started ≤ op → s.owner op = none
  balance : ∀ i, s.promised i + s.asked i + (s.n i).1 = (limits i).1
  spent : ∀ i ∈ s.thrown, (s.n i).1 = 0

section Ledger

variable {limits : Nat → SizeT} {s s' : State} {a : Act}

theorem init_ledger : Ledger limits (init limits) where
  tidy := StreamRead.init_tidy
  unstarted _ _ := rfl
  balance i := by simp [State.promised, State.asked, State.readsOf, init, StreamRead.init]
  spent := by simp [init]

theorem read_ledger {limiter : Nat} {buf : Span} (ledger : Ledger limits s) :
    Ledger limits (read s limiter buf) := by
  by_cases spent : (s.n limiter).1 = 0
  · rw [read, readSender_spent spent]
    refine ⟨ledger.tidy, ledger.unstarted, ledger.balance, fun i member => ?_⟩
    obtain earlier | last := List.mem_append.mp member
    · exact ledger.spent i earlier
    · rw [List.mem_singleton.mp last]
      exact spent
  · obtain ⟨passed, n', sender, charged⟩ := readSender_within buf spent
    rw [read, sender]
    refine ⟨ledger.tidy, ledger.unstarted, fun i => ?balance, fun i member => ?spent⟩
    case balance =>
      have balance := ledger.balance i
      by_cases own : i = limiter
      · subst own
        simp only [State.promised, State.asked, State.readsOf, Function.update_self,
          List.filter_append, List.map_append, List.sum_append] at balance ⊢
        simp only [decide_true, List.filter_cons_of_pos, List.filter_nil, List.map_cons,
          List.map_nil, List.sum_cons, List.sum_nil]
        omega
      · have other : ¬ limiter = i := fun same => own same.symm
        simp only [State.promised, State.asked, State.readsOf, Function.update_of_ne own,
          List.filter_append, List.map_append, List.sum_append] at balance ⊢
        simpa [other] using balance
    case spent =>
      have nothing := ledger.spent i member
      have other : i ≠ limiter := fun same => spent (same ▸ nothing)
      simp only [Function.update_of_ne other]
      exact nothing

/-- Reads that are not yet started count for no limiter. -/
theorem readsOf_later {i m n : Nat} {owner : Nat → Option Nat} (le : m ≤ n)
    (unstarted : ∀ op, m ≤ op → owner op = none) :
    (List.range n).filter (fun op => owner op = some i) =
      (List.range m).filter (fun op => owner op = some i) := by
  induction n, le using Nat.le_induction with
  | base => rfl
  | succ n le ih =>
      rw [List.range_succ, List.filter_append, ih]
      simp [unstarted n le]

/-- The spans of Reads under way do not change. -/
theorem asked_congr {t : StreamRead.State} {ops : List Nat}
    (started : ∀ op ∈ ops, op < s.stream.started)
    (kept : ∀ op < s.stream.started, (t.reads op).given = (s.stream.reads op).given) :
    (ops.map fun op => (t.reads op).given.length) =
      ops.map fun op => (s.stream.reads op).given.length := by
  apply List.map_congr_left
  intro op member
  rw [kept op (started op member)]

theorem started_of_readsOf {i op : Nat} (member : op ∈ s.readsOf i) : op < s.stream.started :=
  List.mem_range.mp (List.mem_filter.mp member).1

theorem stream_ledger {t : StreamRead.State} {a : StreamRead.Act} (ledger : Ledger limits s)
    (taken : StreamRead.step s.stream a = some t) : Ledger limits { s with stream := t } := by
  obtain ⟨later, kept⟩ := given_kept ledger.tidy taken
  refine ⟨StreamRead.step_tidy ledger.tidy taken, ?unstarted, fun i => ?balance, ledger.spent⟩
  case unstarted =>
    intro op le
    exact ledger.unstarted op (Nat.le_trans later le)
  case balance =>
    have same : State.asked { s with stream := t } i = s.asked i := by
      have ops : State.readsOf { s with stream := t } i = s.readsOf i :=
        readsOf_later later ledger.unstarted
      rw [State.asked, State.asked, ops]
      exact congrArg List.sum (asked_congr (fun op => started_of_readsOf) kept)
    have balance := ledger.balance i
    rw [same]
    exact balance

/-- The sums over the idle senders, when one of them is taken out. -/
theorem promised_eraseIdx {idle : List Made} {k i : Nat} {made : Made}
    (at_ : idle[k]? = some made) :
    ((idle.filter fun m => m.limiter = i).map fun m => m.span.size).sum =
      (((idle.eraseIdx k).filter fun m => m.limiter = i).map fun m => m.span.size).sum +
        (if made.limiter = i then made.span.size else 0) := by
  induction idle generalizing k with
  | nil => cases at_
  | cons first rest ih =>
      cases k with
      | zero =>
          obtain rfl : first = made := Option.some.inj at_
          by_cases own : first.limiter = i
          · simp [own, Nat.add_comm]
          · simp [own]
      | succ k =>
          have later := ih at_
          by_cases own : first.limiter = i
          · simp only [List.eraseIdx_cons_succ, own, decide_true, List.filter_cons_of_pos,
              List.map_cons, List.sum_cons] at later ⊢
            omega
          · simpa [own] using later

section Start

variable {k i : Nat} {rc : Int} {made : Made} {t : StreamRead.State}

theorem start_readsOf (next : t.started = s.stream.started + 1) :
    (start s k made t).readsOf i =
      s.readsOf i ++ if made.limiter = i then [s.stream.started] else [] := by
  have earlier : (List.range s.stream.started).filter (fun op =>
        Function.update s.owner s.stream.started (some made.limiter) op = some i) =
      s.readsOf i := by
    apply List.filter_congr
    intro op member
    rw [Function.update_of_ne (Nat.ne_of_lt (List.mem_range.mp member))]
  rw [State.readsOf, start, next, List.range_succ, List.filter_append, earlier, List.filter_cons,
    List.filter_nil]
  simp

/-- What the sender asks for is now asked of the stream. -/
theorem start_asked (tidy : StreamRead.Tidy s.stream)
    (taken : StreamRead.step s.stream (.startRead made.span rc) = some t) :
    (start s k made t).asked i =
      s.asked i + if made.limiter = i then made.span.size else 0 := by
  obtain ⟨-, kept⟩ := given_kept tidy taken
  obtain ⟨next, given⟩ := start_stream taken
  have earlier := asked_congr (fun op (member : op ∈ s.readsOf i) => started_of_readsOf member) kept
  rw [State.asked, start_readsOf next, List.map_append, List.sum_append]
  show ((s.readsOf i).map fun op => (t.reads op).given.length).sum +
    (List.map (fun op => (t.reads op).given.length) _).sum = _
  rw [earlier]
  split
  · simp [State.asked, given, Span.size]
  · rfl

theorem start_ledger (ledger : Ledger limits s) (at_ : s.idle[k]? = some made)
    (taken : StreamRead.step s.stream (.startRead made.span rc) = some t) :
    Ledger limits (start s k made t) := by
  refine ⟨StreamRead.step_tidy ledger.tidy taken, ?unstarted, fun i => ?balance, ledger.spent⟩
  case unstarted =>
    intro op le
    have le' : s.stream.started + 1 ≤ op := (start_stream taken).1 ▸ le
    have other : op ≠ s.stream.started := Nat.ne_of_gt le'
    show Function.update s.owner s.stream.started (some made.limiter) op = none
    rw [Function.update_of_ne other]
    exact ledger.unstarted op (Nat.le_of_succ_le le')
  case balance =>
    have balance := ledger.balance i
    have promised : s.promised i = (start s k made t).promised i +
        if made.limiter = i then made.span.size else 0 := promised_eraseIdx at_
    have asked := start_asked (k := k) (i := i) ledger.tidy taken
    show (start s k made t).promised i + (start s k made t).asked i + (s.n i).1 = (limits i).1
    omega

end Start

/-- **The ledger balances** at every step. -/
theorem step_ledger (ledger : Ledger limits s) (taken : step s a = some s') : Ledger limits s' := by
  cases a with
  | read limiter buf =>
      cases taken
      exact read_ledger ledger
  | start k rc =>
      simp only [step] at taken
      split at taken
      · cases taken
      · rename_i made at_
        obtain ⟨t, started, rfl⟩ := Option.map_eq_some_iff.mp taken
        exact start_ledger ledger at_ started
  | stream a =>
      obtain ⟨t, moved, rfl⟩ := Option.map_eq_some_iff.mp taken
      exact stream_ledger ledger moved

theorem run_ledger {acts : List Act} (reached : run step (init limits) acts = some s) :
    Ledger limits s :=
  run_invariant (fun _ _ _ ledger taken => step_ledger ledger taken) init_ledger reached

end Ledger

/-! ## The limit -/

/-- Each Read got all it asked for. -/
def Filled (s : State) (i : Nat) : Prop :=
  ∀ op ∈ s.readsOf i, (s.stream.reads op).got.length = (s.stream.reads op).given.length

/-- No sender that asks for anything is left lying. -/
def NoneIdle (s : State) (i : Nat) : Prop :=
  ∀ made ∈ s.idle, made.limiter = i → made.span.size = 0

/-- Sums of which one is nowhere greater are equal only if they are so in every place. -/
theorem sum_eq_iff_of_le {α : Type} {l : List α} {f g : α → Nat} (le : ∀ x ∈ l, f x ≤ g x) :
    (l.map f).sum ≤ (l.map g).sum ∧
      ((l.map f).sum = (l.map g).sum ↔ ∀ x ∈ l, f x = g x) := by
  induction l with
  | nil => simp
  | cons x rest ih =>
      obtain ⟨restLe, restEq⟩ := ih fun y member => le y (List.mem_cons_of_mem _ member)
      have first := le x List.mem_cons_self
      simp only [List.map_cons, List.sum_cons, List.forall_mem_cons]
      rw [← restEq]
      omega

section Limit

variable {limits : Nat → SizeT} {s : State} {i : Nat}

theorem got_length_le {r : StreamRead.Read} (sound : StreamRead.Sound r) :
    r.got.length ≤ r.given.length := by
  have bound := sound.count_le
  simp only [StreamRead.Read.got, List.length_take]
  omega

theorem deliveredBy_length :
    (s.deliveredBy i).length =
      ((s.readsOf i).map fun op => (s.stream.reads op).got.length).sum := by
  rw [State.deliveredBy, List.length_flatMap]

/-- What came through a limiter is at most what its Reads asked for. -/
theorem Ledger.delivered (ledger : Ledger limits s) (i : Nat) :
    (s.deliveredBy i).length ≤ s.asked i ∧
      ((s.deliveredBy i).length = s.asked i ↔ Filled s i) := by
  rw [deliveredBy_length]
  exact sum_eq_iff_of_le fun op _ => got_length_le (ledger.tidy.sound op)

theorem promised_eq_zero_iff : s.promised i = 0 ↔ NoneIdle s i := by
  have zeros := sum_eq_iff_of_le (f := fun _ => 0) (g := fun made : Made => made.span.size)
    (l := s.idle.filter fun made => made.limiter = i) fun _ _ => Nat.zero_le _
  rw [State.promised, NoneIdle]
  simpa [eq_comm] using zeros.2

/-- All of the limit that is not left has come through. -/
theorem Ledger.exact_iff (ledger : Ledger limits s) (i : Nat) :
    (s.deliveredBy i).length + (s.n i).1 = (limits i).1 ↔ NoneIdle s i ∧ Filled s i := by
  obtain ⟨bound, filled⟩ := ledger.delivered i
  have balance := ledger.balance i
  rw [← filled, ← promised_eq_zero_iff]
  omega

end Limit

/-- **Limits hold on a stream**, however the Reads overlap and whoever else reads.  What
came through a limiter and what it has left are together at most its limit, and make it
up if and only if none of its senders is left lying and each of its Reads got all it asked
for.  A limiter that threw `kEOF` had been asked for its limit, delivered or not; and all
that was read is a prefix of what arrived. -/
theorem limits_hold_on_a_stream {limits : Nat → SizeT} {acts : List Act} {s : State}
    (reached : run step (init limits) acts = some s) :
    (∀ i, (s.deliveredBy i).length + (s.n i).1 ≤ (limits i).1 ∧
      ((s.deliveredBy i).length + (s.n i).1 = (limits i).1 ↔ NoneIdle s i ∧ Filled s i)) ∧
    (∀ i ∈ s.thrown, s.promised i + s.asked i = (limits i).1) ∧
    s.stream.delivered <+: s.stream.arrived := by
  have ledger := run_ledger reached
  refine ⟨fun i => ⟨?bound, ledger.exact_iff i⟩, fun i threw => ?asked, ?order⟩
  case bound =>
    have bound := (ledger.delivered i).1
    have balance := ledger.balance i
    omega
  case asked =>
    have balance := ledger.balance i
    rw [ledger.spent i threw] at balance
    exact balance
  case order => exact ⟨s.stream.incoming, ledger.tidy.conserved⟩

theorem pair_fits : [(0 : UInt8), 0].length ≤ maxSize := by decide

/-- The second Read is refused while the first waits, and takes its slot: of the three
bytes that the limiter lets through, only one comes. -/
def overlapped : List Act :=
  [.read 0 ⟨_, pair_fits⟩, .read 0 ⟨_, pair_fits⟩, .read 0 ⟨_, pair_fits⟩,
    .start 0 0, .start 0 (-114), .stream (.arrive [1, 2, 3, 4]), .stream (.allocCallback 65536),
    .stream (.readCallback 1)]

/-- Three bytes for every limiter. -/
def three (_ : Nat) : SizeT := ⟨3, by decide⟩

theorem limits_hold_on_a_stream_overlapped :
    ∃ s, run step (init three) overlapped = some s ∧
      (s.deliveredBy 0 = [1] ∧ (s.n 0).1 = 0 ∧ s.thrown = [0]) ∧
      (∀ i, (s.deliveredBy i).length + (s.n i).1 ≤ 3 ∧
        ((s.deliveredBy i).length + (s.n i).1 = 3 ↔ NoneIdle s i ∧ Filled s i)) ∧
      (∀ i ∈ s.thrown, s.promised i + s.asked i = 3) ∧
      s.stream.delivered <+: s.stream.arrived := by
  obtain ⟨s, reached⟩ : ∃ s, run step (init three) overlapped = some s :=
    Option.isSome_iff_exists.mp rfl
  refine ⟨s, reached, ?_, limits_hold_on_a_stream reached⟩
  obtain rfl := Option.some.inj (Eq.symm reached)
  decide

/-! ## Frames -/

/-- All Reads go through the first `k` limiters, and none is started after one of a later
limiter. -/
structure InTurn (k : Nat) (s : State) : Prop where
  limited : ∀ op < s.stream.started, ∃ i < k, s.owner op = some i
  turns : ∀ op' < s.stream.started, ∀ op ≤ op', ∀ i j,
    s.owner op = some i → s.owner op' = some j → i ≤ j

/-- Where the frame of a limiter begins. -/
def frameStart (limits : Nat → SizeT) (i : Nat) : Nat :=
  ((List.range i).map fun j => (limits j).1).sum

/-- The frame of a limiter, cut out of the data. -/
def frame (limits : Nat → SizeT) (q : List UInt8) (i : Nat) : List UInt8 :=
  (q.drop (frameStart limits i)).take (limits i).1

section Frames

variable {limits : Nat → SizeT} {s : State} {k : Nat}

/-- The frames follow one another. -/
theorem InTurn.delivered (turn : InTurn k s) :
    (List.range k).flatMap s.deliveredBy = s.stream.delivered := by
  let entries := (List.range s.stream.started).map fun op => ((s.owner op).getD 0, op)
  let give : Nat × Nat → List UInt8 := fun e => (s.stream.reads e.2).got
  have own : ∀ op ∈ List.range s.stream.started, ∃ i < k, s.owner op = some i := fun op member =>
    turn.limited op (List.mem_range.mp member)
  have increasing : entries.Pairwise fun e e' => e.1 ≤ e'.1 := by
    refine List.pairwise_map.mpr
      (List.pairwise_lt_range.imp_of_mem fun {op op'} here there less => ?_)
    obtain ⟨i, -, first⟩ := own op here
    obtain ⟨j, -, second⟩ := own op' there
    rw [first, second]
    exact turn.turns op' (List.mem_range.mp there) op (Nat.le_of_lt less) i j first second
  have below : ∀ e ∈ entries, e.1 < k := by
    intro e member
    obtain ⟨op, here, rfl⟩ := List.mem_map.mp member
    obtain ⟨i, small, owned⟩ := own op here
    rw [owned]
    exact small
  have frames : (List.range k).flatMap s.deliveredBy =
      (List.range k).flatMap (numbered entries give) := by
    apply List.flatMap_congr
    intro i _
    rw [numbered, List.filter_map, List.flatMap_map, State.deliveredBy, State.readsOf]
    congr 1
    apply List.filter_congr
    intro op member
    obtain ⟨j, -, owned⟩ := own op member
    simp [owned]
  rw [frames, flatMap_range_of_increasing give increasing below, List.flatMap_map]
  rfl

/-- Where all frames are whole, the ones before a limiter end where its own begins. -/
theorem flatMap_length_of_whole {i : Nat}
    (whole : ∀ j < i, (s.deliveredBy j).length = (limits j).1) :
    ((List.range i).flatMap s.deliveredBy).length = frameStart limits i := by
  rw [List.length_flatMap, frameStart]
  congr 1
  apply List.map_congr_left
  intro j member
  exact whole j (List.mem_range.mp member)

theorem frameStart_succ (i : Nat) :
    frameStart limits (i + 1) = frameStart limits i + (limits i).1 := by
  simp [frameStart, List.range_succ]

theorem frameStart_mono {i : Nat} (le : i ≤ k) : frameStart limits i ≤ frameStart limits k := by
  induction k, le using Nat.le_induction with
  | base => exact Nat.le_refl _
  | succ k _ ih =>
      rw [frameStart_succ]
      exact Nat.le_add_right_of_le ih

theorem frame_length {q : List UInt8} {i : Nat} (enough : frameStart limits k ≤ q.length)
    (small : i < k) : (frame limits q i).length = (limits i).1 := by
  have ends : frameStart limits (i + 1) ≤ frameStart limits k :=
    frameStart_mono (Nat.succ_le_of_lt small)
  rw [frameStart_succ] at ends
  simp only [frame, List.length_take, List.length_drop]
  omega

/-- Whole frames are those of the data. -/
theorem frame_of_whole {q : List UInt8} (front : (List.range k).flatMap s.deliveredBy <+: q)
    (whole : ∀ i < k, (s.deliveredBy i).length = (limits i).1) {i : Nat} (small : i < k) :
    s.deliveredBy i = frame limits q i := by
  obtain ⟨m, rfl⟩ := Nat.exists_eq_add_of_le (Nat.succ_le_of_lt small)
  have next : (List.range (i + 1)).flatMap s.deliveredBy =
      (List.range i).flatMap s.deliveredBy ++ s.deliveredBy i := by
    rw [List.range_succ, List.flatMap_append, List.flatMap_singleton]
  obtain ⟨rest, rfl⟩ := front
  have before := flatMap_length_of_whole fun j less => whole j (Nat.lt_trans less small)
  rw [frame, List.range_add, List.flatMap_append, next, List.append_assoc, List.append_assoc,
    ← before, List.drop_left, ← whole i small, List.take_left]

end Frames

/-- **Frames on a stream.**  Limiters take turns, their Reads overlapping as they may.
What came through them, one after the other, is a prefix of what arrived.  Where they are
read until their budgets are spent, and as much as the limits together has arrived, each
got the frame of its own if and only if no sender was left lying and every Read got all it
asked for. -/
theorem frames_on_a_stream {limits : Nat → SizeT} {acts : List Act} {s : State} {k : Nat}
    (reached : run step (init limits) acts = some s) (turn : InTurn k s) :
    (List.range k).flatMap s.deliveredBy <+: s.stream.arrived ∧
      ((∀ i < k, (s.n i).1 = 0) → frameStart limits k ≤ s.stream.arrived.length →
        ((∀ i < k, s.deliveredBy i = frame limits s.stream.arrived i) ↔
          ∀ i < k, NoneIdle s i ∧ Filled s i)) := by
  have ledger := run_ledger reached
  have front : (List.range k).flatMap s.deliveredBy <+: s.stream.arrived := by
    rw [turn.delivered]
    exact ⟨s.stream.incoming, ledger.tidy.conserved⟩
  refine ⟨front, fun spent enough => ?_⟩
  have whole_iff : ∀ i < k,
      ((s.deliveredBy i).length = (limits i).1 ↔ NoneIdle s i ∧ Filled s i) := by
    intro i small
    rw [← ledger.exact_iff i, spent i small, Nat.add_zero]
  constructor
  · intro frames i small
    rw [← whole_iff i small, frames i small]
    exact frame_length enough small
  · intro whole i small
    exact frame_of_whole front (fun j less => (whole_iff j less).mpr (whole j less)) small

/-- A frame of three bytes in two Reads and one of two bytes. -/
def twoFrames : List Act :=
  [.read 0 ⟨_, pair_fits⟩, .read 0 ⟨_, pair_fits⟩, .read 1 ⟨_, pair_fits⟩,
    .start 0 0, .stream (.arrive [1, 2, 3, 4, 5, 6]), .stream (.allocCallback 65536),
    .stream (.readCallback 2), .start 0 0, .stream .callbackReturns,
    .stream (.allocCallback 65536), .stream (.readCallback 1), .start 0 0,
    .stream .callbackReturns, .stream (.allocCallback 65536), .stream (.readCallback 2)]

/-- Three bytes for the first limiter, two for the others. -/
def twoLimits (i : Nat) : SizeT := if i = 0 then ⟨3, by decide⟩ else ⟨2, by decide⟩

theorem frames_on_a_stream_two :
    ∃ s, run step (init twoLimits) twoFrames = some s ∧
      (∀ i < 2, s.deliveredBy i = frame twoLimits s.stream.arrived i) ∧
      (List.range 2).flatMap s.deliveredBy <+: s.stream.arrived ∧
      ∀ i < 2, NoneIdle s i ∧ Filled s i := by
  obtain ⟨s, reached⟩ : ∃ s, run step (init twoLimits) twoFrames = some s :=
    Option.isSome_iff_exists.mp rfl
  have facts : s.stream.started = 3 ∧ (∀ op < 3, s.owner op = some (if op < 2 then 0 else 1)) ∧
      (∀ i < 2, (s.n i).1 = 0) ∧ s.stream.arrived.length = 6 ∧
      ∀ i < 2, s.deliveredBy i = frame twoLimits s.stream.arrived i := by
    obtain rfl := Option.some.inj (Eq.symm reached)
    decide
  obtain ⟨started, owners, spent, length, frames⟩ := facts
  have turn : InTurn 2 s := by
    refine ⟨fun op less => ⟨_, ?_, owners op (started ▸ less)⟩, ?_⟩
    · split <;> decide
    · intro op' less op le i j first second
      rw [started] at less
      rw [owners op (by omega), Option.some.injEq] at first
      rw [owners op' less, Option.some.injEq] at second
      split at first <;> split at second <;> omega
  obtain ⟨front, aligned⟩ := frames_on_a_stream reached turn
  exact ⟨s, reached, frames, front, (aligned spent (by rw [length]; decide)).mp frames⟩

end PatBase.Io.LimitedStream
