/-
# PatBase.Lib.Signals -- pipelines whose three completion signals can be handled

A sender completes with a value, an error or done, or it never does.  `Pipeline.on`
goes on after a sender with what it makes of the signal, in the state the sender
completed in; `then`, `let`, `let_error` and `let_done` are four ways to use it, and
`letValueWith` keeps an object alive around a pipeline.  What a leaf does is a
parameter: `run l s signal s'` says that started in `s` it may complete so.

`wp p Q` is the weakest precondition of a pipeline, computed from those of its leaves,
for a postcondition on the signal and the state.  `wp_iff` says that it is sound and
complete; `wp_on` is the rule by which a proof follows the pipeline.
-/

namespace PatBase.Lib.Signals

set_option autoImplicit false

universe u v w x

/-- How a sender completes. -/
inductive Signal (V : Type v) (X : Type x) where
  | value (v : V)
  | error (x : X)
  | done
  deriving DecidableEq, Repr

inductive Pipeline (L : Type u) (V : Type v) (X : Type x) where
  | leaf (sender : L)
  /-- `just`, `just_error`, `just_done`, and a function that throws. -/
  | just (signal : Signal V X)
  | on (first : Pipeline L V X) (next : Signal V X → Pipeline L V X)

namespace Pipeline

variable {L : Type u} {V : Type v} {X : Type x}

/-- `then`, of a function that may throw. -/
def andThen (p : Pipeline L V X) (f : V → Signal V X) : Pipeline L V X :=
  .on p fun
    | .value v => .just (f v)
    | .error x => .just (.error x)
    | .done => .just .done

/-- `let`, and `let_value`. -/
def andLet (p : Pipeline L V X) (next : V → Pipeline L V X) : Pipeline L V X :=
  .on p fun
    | .value v => next v
    | .error x => .just (.error x)
    | .done => .just .done

/-- `let_error` -/
def letError (p : Pipeline L V X) (handler : X → Pipeline L V X) : Pipeline L V X :=
  .on p fun
    | .value v => .just (.value v)
    | .error x => handler x
    | .done => .just .done

/-- `let_done` -/
def letDone (p : Pipeline L V X) (handler : Pipeline L V X) : Pipeline L V X :=
  .on p fun
    | .value v => .just (.value v)
    | .error x => .just (.error x)
    | .done => handler

/-- `let_value_with`: the object is constructed before the body starts, and destroyed
when it has completed, however it did. -/
def letValueWith (construct destroy : L) (body : Pipeline L V X) : Pipeline L V X :=
  .andLet (.leaf construct) fun _ =>
    .on body fun signal => .on (.leaf destroy) fun _ => .just signal

end Pipeline

section Semantics

variable {L : Type u} {V : Type v} {X : Type x} {S : Type w}

/-- The executions that complete. -/
inductive Exec (run : L → S → Signal V X → S → Prop) :
    Pipeline L V X → S → Signal V X → S → Prop where
  | leaf {l : L} {s s' : S} {signal : Signal V X} :
      run l s signal s' → Exec run (.leaf l) s signal s'
  | just {signal : Signal V X} {s : S} : Exec run (.just signal) s signal s
  | on {p : Pipeline L V X} {next : Signal V X → Pipeline L V X} {s s' s'' : S}
      {first last : Signal V X} :
      Exec run p s first s' → Exec run (next first) s' last s'' → Exec run (.on p next) s last s''

section Rules

variable {run : L → S → Signal V X → S → Prop} {p : Pipeline L V X} {s s' s'' : S} {v : V} {x : X}
  {signal : Signal V X}

theorem Exec.andLet {next : V → Pipeline L V X} (first : Exec run p s (.value v) s')
    (later : Exec run (next v) s' signal s'') : Exec run (p.andLet next) s signal s'' :=
  .on first later

theorem Exec.andLet_error {next : V → Pipeline L V X} (first : Exec run p s (.error x) s') :
    Exec run (p.andLet next) s (.error x) s' :=
  .on first .just

theorem Exec.andThen {f : V → Signal V X} (first : Exec run p s (.value v) s') :
    Exec run (p.andThen f) s (f v) s' :=
  .on first .just

theorem Exec.letError {handler : X → Pipeline L V X} (first : Exec run p s (.error x) s')
    (later : Exec run (handler x) s' signal s'') : Exec run (p.letError handler) s signal s'' :=
  .on first later

theorem Exec.letValueWith {construct destroy : L} {made ended : S} {w : Signal V X}
    (constructed : run construct s (.value v) made) (body : Exec run p made signal ended)
    (destroyed : run destroy ended w s') :
    Exec run (.letValueWith construct destroy p) s signal s' :=
  .on (.leaf constructed) (.on body (.on (.leaf destroyed) .just))

end Rules

/-- What every sender keeps, an execution keeps. -/
theorem Exec.invariant {run : L → S → Signal V X → S → Prop} {p : Pipeline L V X} {s s' : S}
    {signal : Signal V X} {I : S → Prop}
    (kept : ∀ l s signal s', run l s signal s' → I s → I s')
    (executed : Exec run p s signal s') (start : I s) : I s' := by
  induction executed with
  | leaf ran => exact kept _ _ _ _ ran start
  | just => exact start
  | on _ _ ihFirst ihNext => exact ihNext (ihFirst start)

/-- Every completion of the pipeline meets `Q`. -/
def wp (run : L → S → Signal V X → S → Prop) :
    Pipeline L V X → (Signal V X → S → Prop) → S → Prop
  | .leaf l, Q, s => ∀ signal s', run l s signal s' → Q signal s'
  | .just signal, Q, s => Q signal s
  | .on p next, Q, s => wp run p (fun signal s' => wp run (next signal) Q s') s

variable {run : L → S → Signal V X → S → Prop} {p q : Pipeline L V X}
  {Q R : Signal V X → S → Prop} {s : S}

/-- **Sound and complete.** -/
theorem wp_iff : wp run p Q s ↔ ∀ signal s', Exec run p s signal s' → Q signal s' := by
  induction p generalizing Q s with
  | leaf l =>
      constructor
      · intro all signal s' executed
        cases executed with
        | leaf ran => exact all signal s' ran
      · intro all signal s' ran
        exact all signal s' (.leaf ran)
  | just signal =>
      constructor
      · intro holds signal' s' executed
        cases executed
        exact holds
      · intro all
        exact all signal s .just
  | on p next ihFirst ihNext =>
      constructor
      · intro holds signal s'' executed
        cases executed with
        | @on _ _ _ s' _ first _ earlier later =>
            exact (ihNext first).mp (ihFirst.mp holds first s' earlier) signal s'' later
      · intro all
        refine ihFirst.mpr fun first s' earlier => (ihNext first).mpr fun last s'' later => ?_
        exact all last s'' (.on earlier later)

theorem wp_mono (weaker : ∀ signal s', Q signal s' → R signal s') (holds : wp run p Q s) :
    wp run p R s := by
  rw [wp_iff] at holds ⊢
  intro signal s' executed
  exact weaker signal s' (holds signal s' executed)

/-- The rule for the sender in front: an assertion between it and what goes on. -/
theorem wp_on {next : Signal V X → Pipeline L V X} (first : wp run p R s)
    (later : ∀ signal s', R signal s' → wp run (next signal) Q s') :
    wp run (.on p next) Q s := by
  show wp run p (fun signal s' => wp run (next signal) Q s') s
  exact wp_mono later first

/-- A value goes to `next`, any other signal past it. -/
theorem wp_andLet {next : V → Pipeline L V X} (first : wp run p R s)
    (value : ∀ v s', R (.value v) s' → wp run (next v) Q s')
    (error : ∀ x s', R (.error x) s' → Q (.error x) s') (done : ∀ s', R .done s' → Q .done s') :
    wp run (p.andLet next) Q s := by
  refine wp_on first fun signal s' holds => ?_
  cases signal with
  | value v => exact value v s' holds
  | error x => exact error x s' holds
  | done => exact done s' holds

theorem wp_andThen {f : V → Signal V X} (first : wp run p R s)
    (value : ∀ v s', R (.value v) s' → Q (f v) s')
    (error : ∀ x s', R (.error x) s' → Q (.error x) s') (done : ∀ s', R .done s' → Q .done s') :
    wp run (p.andThen f) Q s := by
  refine wp_on first fun signal s' holds => ?_
  cases signal with
  | value v => exact value v s' holds
  | error x => exact error x s' holds
  | done => exact done s' holds

/-- An error goes to the handler. -/
theorem wp_letError {handler : X → Pipeline L V X} (first : wp run p R s)
    (value : ∀ v s', R (.value v) s' → Q (.value v) s')
    (error : ∀ x s', R (.error x) s' → wp run (handler x) Q s')
    (done : ∀ s', R .done s' → Q .done s') : wp run (p.letError handler) Q s := by
  refine wp_on first fun signal s' holds => ?_
  cases signal with
  | value v => exact value v s' holds
  | error x => exact error x s' holds
  | done => exact done s' holds

/-- The body runs between the two, and its signal is that of the whole; there is none
where the object could not be made. -/
theorem wp_letValueWith {construct destroy : L} {M : Signal V X → S → Prop}
    (made : wp run (.leaf construct) M s)
    (body : ∀ v s', M (.value v) s' → wp run p R s')
    (error : ∀ x s', M (.error x) s' → Q (.error x) s') (done : ∀ s', M .done s' → Q .done s')
    (destroyed : ∀ signal s', R signal s' → wp run (.leaf destroy) (fun _ => Q signal) s') :
    wp run (.letValueWith construct destroy p) Q s := by
  refine wp_andLet made (fun v s' constructed => ?_) error done
  exact wp_on (body v s' constructed) fun signal s'' ended => destroyed signal s'' ended

end Semantics

end PatBase.Lib.Signals
