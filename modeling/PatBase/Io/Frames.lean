/-
# PatBase.Io.Frames -- a reader that is read frame by frame

A `LimitedReader<R&>` does not own its reader: when it goes, the reader is where the
last call left it, and the next limiter goes on from there.  So a parser takes frame
after frame, each through a limiter of the frame's length, until that says `kEOF`.

The frames are consecutive parts of what the reader holds, none longer than its limit.
But a limiter is spent by what it asks for, so after one short read the frame ends too
early and every later one begins in the wrong place: `frames_aligned_iff` says that the
frames are those of the data exactly if every read was filled.
-/
import PatBase.Io.LimitedReader

namespace PatBase.Io.LimitedReader

open PatBase.Lib PatBase.Lib.Trace PatBase.Bytes PatBase.Runtime

set_option autoImplicit false

/-- The limit of a frame, and the spans it is read into. -/
structure Frame where
  limit : SizeT
  bufs : List Span

variable {σ : Type}

/-- One frame after the other, each through a limiter of its own; the bytes of each. -/
def readFrames (reader : Reader ErrorCode σ) (async : Bool) : σ → List Frame →
    List (List UInt8) × σ
  | s, [] => ([], s)
  | s, f :: later =>
      let frame := run reader async ⟨s, f.limit⟩ f.bufs
      let rest := readFrames reader async frame.2.r later
      (output frame.1 :: rest.1, rest.2)

/-- The frames that the data has, cut off its front one by one. -/
def pieces : List UInt8 → List Frame → List (List UInt8)
  | _, [] => []
  | q, f :: later => q.take f.limit.1 :: pieces (q.drop f.limit.1) later

/-- The length of all frames together. -/
def total : List Frame → Nat
  | [] => 0
  | f :: later => f.limit.1 + total later

/-- A property of every frame, at the reader as the frames before it have left it. -/
def EachFrame (reader : Reader ErrorCode σ) (async : Bool) (P : σ → Frame → Prop) :
    σ → List Frame → Prop
  | _, [] => True
  | s, f :: later =>
      P s f ∧ EachFrame reader async P (run reader async ⟨s, f.limit⟩ f.bufs).2.r later

/-- The frame is read until its limiter answers `kEOF`. -/
def Drained (reader : Reader ErrorCode σ) (async : Bool) (s : σ) (f : Frame) : Prop :=
  (run reader async ⟨s, f.limit⟩ f.bufs).2.n.1 = 0

/-- Every read of the frame got what it asked for. -/
def FrameFilled (reader : Reader ErrorCode σ) (async : Bool) (s : σ) (f : Frame) : Prop :=
  ∀ before buf after, f.bufs = before ++ buf :: after →
    Filled reader (run reader async ⟨s, f.limit⟩ before).2 buf

/-! ## One frame -/

section Frame

variable (reader : Reader ErrorCode σ) (async : Bool) {s : σ} {f : Frame}

/-- What is delivered and the budget together only get less. -/
theorem run_output_le_append (l : LimitedReader σ) (bufs more : List Span) :
    (output (run reader async l (bufs ++ more)).1).length +
        (run reader async l (bufs ++ more)).2.n.1 ≤
      (output (run reader async l bufs).1).length + (run reader async l bufs).2.n.1 := by
  induction more using List.reverseRecOn with
  | nil => exact Nat.le_of_eq (by rw [List.append_nil])
  | append_singleton more buf ih =>
      have last := read_delivered_le reader async buf (l := (run reader async l (bufs ++ more)).2)
      rw [← List.append_assoc, run_snoc, output_snoc, List.length_append]
      show _ + _ + (read reader async (run reader async l (bufs ++ more)).2 buf).2.n.1 ≤ _
      omega

/-- **A frame is whole if and only if every read of it was filled.** -/
theorem frame_whole_iff (drained : Drained reader async s f) :
    (output (run reader async ⟨s, f.limit⟩ f.bufs).1).length = f.limit.1 ↔
      FrameFilled reader async s f := by
  have exact_iff : Exact reader async ⟨s, f.limit⟩ f.bufs ↔
      (output (run reader async ⟨s, f.limit⟩ f.bufs).1).length = f.limit.1 := by
    unfold Exact
    rw [show (run reader async ⟨s, f.limit⟩ f.bufs).2.n.1 = 0 from drained, Nat.add_zero]
  rw [← exact_iff]
  constructor
  · intro whole before buf after split
    -- what holds of the whole run holds of every part of it
    have part : ∀ first rest, f.bufs = first ++ rest → Exact reader async ⟨s, f.limit⟩ first := by
      intro first rest parts
      have less := run_output_le_append reader async ⟨s, f.limit⟩ first rest
      have bound : _ ≤ f.limit.1 := run_output_le reader async ⟨s, f.limit⟩ first
      rw [← parts] at less
      have end_ : _ = f.limit.1 := whole
      show _ = f.limit.1
      omega
    have soFar := part before (buf :: after) split
    have next := part (before ++ [buf]) after (by simpa using split)
    exact (exact_snoc_iff reader async ⟨s, f.limit⟩ soFar).mp next
  · intro filled
    have whole : ∀ first rest, f.bufs = first ++ rest → Exact reader async ⟨s, f.limit⟩ first := by
      intro first
      induction first using List.reverseRecOn with
      | nil =>
          intro _ _
          simp [Exact, run, specTrace, output]
      | append_singleton first buf ih =>
          intro rest parts
          have parts' : f.bufs = first ++ buf :: rest := by simpa using parts
          rw [exact_snoc_iff reader async ⟨s, f.limit⟩ (ih (buf :: rest) parts')]
          exact filled first buf rest parts'
    exact whole f.bufs [] (List.append_nil _).symm

end Frame

/-! ## All frames -/

section Frames

variable {reader : Reader ErrorCode σ} {async : Bool} {holds : σ → List UInt8 → Prop} {s : σ}
  {q : List UInt8} {fs : List Frame}

/-- The frames are consecutive, and the reader goes on behind them. -/
theorem readFrames_serves (serves : reader.Serves holds) (start : holds s q) :
    ∃ rest, q = (readFrames reader async s fs).1.flatten ++ rest ∧
      holds (readFrames reader async s fs).2 rest := by
  induction fs generalizing s q with
  | nil => exact ⟨q, rfl, start⟩
  | cons f later ih =>
      obtain ⟨behind, split, held⟩ := run_serves reader async ⟨s, f.limit⟩ f.bufs serves start
      obtain ⟨rest, splitLater, heldLater⟩ := ih held
      refine ⟨rest, ?_, heldLater⟩
      rw [readFrames, List.flatten_cons, List.append_assoc, ← splitLater]
      exact split

/-- Frames that are whole are those of the data. -/
theorem readFrames_eq_pieces_iff (serves : reader.Serves holds) (start : holds s q)
    (enough : total fs ≤ q.length) :
    (readFrames reader async s fs).1 = pieces q fs ↔
      EachFrame reader async (fun s f =>
        (output (run reader async ⟨s, f.limit⟩ f.bufs).1).length = f.limit.1) s fs := by
  induction fs generalizing s q with
  | nil => exact ⟨fun _ => trivial, fun _ => rfl⟩
  | cons f later ih =>
      have room : f.limit.1 + total later ≤ q.length := enough
      obtain ⟨behind, split, held⟩ := run_serves reader async ⟨s, f.limit⟩ f.bufs serves start
      rw [readFrames, pieces, List.cons.injEq]
      have whole_iff : output (run reader async ⟨s, f.limit⟩ f.bufs).1 = q.take f.limit.1 ↔
          (output (run reader async ⟨s, f.limit⟩ f.bufs).1).length = f.limit.1 := by
        constructor
        · intro same
          rw [same, List.length_take, Nat.min_eq_left (by omega)]
        · intro whole
          rw [split, ← whole, List.take_left']
          rfl
      constructor
      · rintro ⟨front, tail⟩
        have whole := whole_iff.mp front
        have next : behind = q.drop f.limit.1 := by
          rw [split, ← whole, List.drop_left']
          rfl
        refine ⟨whole, (ih held ?_).mp (next ▸ tail)⟩
        rw [next, List.length_drop]
        omega
      · rintro ⟨whole, tail⟩
        have next : behind = q.drop f.limit.1 := by
          rw [split, ← whole, List.drop_left']
          rfl
        refine ⟨whole_iff.mpr whole, next ▸ (ih held ?_).mpr tail⟩
        rw [next, List.length_drop]
        omega

theorem EachFrame.iff {P Q R : σ → Frame → Prop} (each : EachFrame reader async R s fs)
    (same : ∀ s f, R s f → (P s f ↔ Q s f)) :
    EachFrame reader async P s fs ↔ EachFrame reader async Q s fs := by
  induction fs generalizing s with
  | nil => exact Iff.rfl
  | cons f later ih =>
      obtain ⟨first, rest⟩ := each
      exact and_congr (same s f first) (ih rest)

end Frames

/-- **Frames are aligned if and only if every read is filled.**  A reader that holds `q`
is read frame by frame.  Whatever it answers, the frames are consecutive parts of `q`; and
where `q` is as long as the limits together and each frame is read until its limiter says
`kEOF`, they are the ones that begin and end where the limits say, if and only if no read
got less than it asked for. -/
theorem frames_aligned_iff {reader : Reader ErrorCode σ} {async : Bool}
    {holds : σ → List UInt8 → Prop} {s : σ} {q : List UInt8} {fs : List Frame}
    (serves : reader.Serves holds) (start : holds s q) :
    (∃ rest, q = (readFrames reader async s fs).1.flatten ++ rest ∧
        holds (readFrames reader async s fs).2 rest) ∧
      (total fs ≤ q.length → EachFrame reader async (Drained reader async) s fs →
        ((readFrames reader async s fs).1 = pieces q fs ↔
          EachFrame reader async (FrameFilled reader async) s fs)) := by
  refine ⟨readFrames_serves serves start, fun enough drained => ?_⟩
  rw [readFrames_eq_pieces_iff serves start enough]
  exact drained.iff fun s f spent => frame_whole_iff reader async spent

theorem five_fit : [(0 : UInt8), 0, 0, 0, 0].length ≤ maxSize := by decide

theorem two_small : 2 < 2 ^ 64 := by decide

theorem one_small : 1 < 2 ^ 64 := by decide

/-- A frame of two bytes and one of one byte, both read into five. -/
def twoFrames : List Frame :=
  [⟨⟨2, two_small⟩, [⟨_, five_fit⟩]⟩, ⟨⟨1, one_small⟩, [⟨_, five_fit⟩]⟩]

theorem frames_aligned_iff_buffer :
    (readFrames (Buffer.reader ErrorCode) false threeBytes twoFrames).1 = [[1, 2], [3]] ∧
      EachFrame (Buffer.reader ErrorCode) false (FrameFilled (Buffer.reader ErrorCode) false)
        threeBytes twoFrames := by
  have drained : EachFrame (Buffer.reader ErrorCode) false
      (Drained (Buffer.reader ErrorCode) false) threeBytes twoFrames := ⟨rfl, rfl, trivial⟩
  have split : (readFrames (Buffer.reader ErrorCode) false threeBytes twoFrames).1 =
      [[1, 2], [3]] := by decide
  have holds : threeBytes.unread = [1, 2, 3] := rfl
  obtain ⟨-, aligned⟩ := frames_aligned_iff (Buffer.reader_serves ErrorCode) holds
  exact ⟨split, (aligned (by decide) drained).mp split⟩

end PatBase.Io.LimitedReader
