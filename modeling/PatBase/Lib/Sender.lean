/-
# PatBase.Lib.Sender -- pipelines of asynchronous operations

A sender is started in a state and completes in one, with a value or without, or it
never completes.  `Pipeline` composes senders with `then` and `let` as sender
libraries do: a continuation runs synchronously, in the state the sender before it
completed in.  What a leaf does is a parameter, `run l s es out`: started in `s` it
may emit the events `es` and end as `out`.

Pipelines nest to the left as well as to the right, so that induction on them does
not follow the order of their steps.  `Exec.along` puts the leaves of an execution in
that order, and is the rule by which facts about its steps become facts about it.
-/

namespace PatBase.Lib.Sender

set_option autoImplicit false

universe u v w x

/-- A composition of the senders `L`, whose values are of type `V`. -/
inductive Pipeline (L : Type u) (V : Type v) where
  | leaf (sender : L)
  | andThen (first : Pipeline L V) (f : V → V)
  | andLet (first : Pipeline L V) (next : V → Pipeline L V)

inductive Outcome (V : Type v) (S : Type w) where
  | value (v : V) (s : S)
  /-- `set_error` or `set_done`. -/
  | failed (s : S)
  | pending

variable {L : Type u} {V : Type v} {S : Type w} {E : Type x}

/-- A completion signal given in the state `s`. -/
inductive Outcome.Signals (s : S) : Outcome V S → Prop where
  | value (v : V) : Signals s (.value v s)
  | failed : Signals s (.failed s)

/-- The state a continuation starts in. -/
def Outcome.next : Outcome V S → Option S
  | .value _ s => some s
  | .failed _ => none
  | .pending => none

theorem Outcome.Signals.next_eq {out : Outcome V S} {s s' : S} (signals : Signals s out)
    (reached : out.next = some s') : s' = s := by
  cases signals with
  | value v => exact (Option.some.inj reached).symm
  | failed => cases reached

/-- A function handed to `then` or `let` may throw; what did not complete with a
value skips it. -/
inductive Exec (run : L → S → List E → Outcome V S → Prop) :
    Pipeline L V → S → List E → Outcome V S → Prop where
  | leaf {l : L} {s : S} {es : List E} {out : Outcome V S} :
      run l s es out → Exec run (.leaf l) s es out
  | thenValue {p : Pipeline L V} {f : V → V} {s s' : S} {es : List E} {v : V} :
      Exec run p s es (.value v s') → Exec run (.andThen p f) s es (.value (f v) s')
  | thenThrows {p : Pipeline L V} {f : V → V} {s s' : S} {es : List E} {v : V} :
      Exec run p s es (.value v s') → Exec run (.andThen p f) s es (.failed s')
  | thenSkipped {p : Pipeline L V} {f : V → V} {s : S} {es : List E} {out : Outcome V S} :
      Exec run p s es out → out.next = none → Exec run (.andThen p f) s es out
  | letValue {p : Pipeline L V} {k : V → Pipeline L V} {s s' : S} {es es' : List E} {v : V}
      {out : Outcome V S} :
      Exec run p s es (.value v s') → Exec run (k v) s' es' out →
        Exec run (.andLet p k) s (es ++ es') out
  | letThrows {p : Pipeline L V} {k : V → Pipeline L V} {s s' : S} {es : List E} {v : V} :
      Exec run p s es (.value v s') → Exec run (.andLet p k) s es (.failed s')
  | letSkipped {p : Pipeline L V} {k : V → Pipeline L V} {s : S} {es : List E}
      {out : Outcome V S} :
      Exec run p s es out → out.next = none → Exec run (.andLet p k) s es out

/-- A continuation that does not look at the value. -/
theorem Exec.seq {run : L → S → List E → Outcome V S → Prop} {p q : Pipeline L V} {s s' : S}
    {es es' : List E} {v : V} {out : Outcome V S} (first : Exec run p s es (.value v s'))
    (next : Exec run q s' es' out) : Exec run (.andLet p fun _ => q) s (es ++ es') out :=
  .letValue first next

/-! ## The steps of an execution -/

/-- Leaves run one after the other, each from where the one before completed with a
value; the last component is where the next would start. -/
inductive Chain (run : L → S → List E → Outcome V S → Prop) : S → List E → Option S → Prop where
  | done (s : S) : Chain run s [] (some s)
  | gone (s : S) : Chain run s [] none
  | step {l : L} {s s' : S} {es es' : List E} {v : V} {last : Option S} :
      run l s es (.value v s') → Chain run s' es' last → Chain run s (es ++ es') last
  | stop {l : L} {s : S} {es : List E} {out : Outcome V S} :
      run l s es out → out.next = none → Chain run s es none

section Chain

variable {run : L → S → List E → Outcome V S → Prop} {p : Pipeline L V} {s s' : S}
  {es es' : List E} {out : Outcome V S} {last : Option S}

theorem Chain.append (front : Chain run s es (some s')) (back : Chain run s' es' last) :
    Chain run s (es ++ es') last := by
  generalize reached : some s' = middle at front
  induction front with
  | done s =>
      obtain rfl := Option.some.inj reached
      exact back
  | gone s => cases reached
  | step ran _ ih =>
      rw [List.append_assoc]
      exact .step ran (ih reached)
  | stop ran stopped => cases reached

/-- A continuation that throws ends the execution. -/
theorem Chain.abandon (front : Chain run s es (some s')) : Chain run s es none := by
  have ended := front.append (Chain.gone s')
  rwa [List.append_nil] at ended

/-- Every execution is a chain of its leaves. -/
theorem Exec.chain (executed : Exec run p s es out) : Chain run s es out.next := by
  induction executed with
  | @leaf l s es out ran =>
      cases out with
      | value v s' =>
          have one := Chain.step ran (Chain.done s')
          rwa [List.append_nil] at one
      | failed s' => exact .stop ran rfl
      | pending => exact .stop ran rfl
  | thenValue _ ih => exact ih
  | thenThrows _ ih => exact ih.abandon
  | thenSkipped _ _ ih => exact ih
  | letValue _ _ front back => exact front.append back
  | letThrows _ ih => exact ih.abandon
  | letSkipped _ _ ih => exact ih

/-- **The rule for executions.**  A relation between the state an execution starts in
and its events, that the empty one satisfies and that a leaf put in front preserves,
holds of every execution of every pipeline. -/
theorem Exec.along {P : S → List E → Prop} (start : ∀ s, P s [])
    (step : ∀ l s es v s' es', run l s es (.value v s') → P s' es' → P s (es ++ es'))
    (stop : ∀ l s es out, run l s es out → out.next = none → P s es)
    (executed : Exec run p s es out) : P s es := by
  have chain := executed.chain
  clear executed
  generalize out.next = last at chain
  induction chain with
  | done s => exact start s
  | gone s => exact start s
  | step ran _ ih => exact step _ _ _ _ _ _ ran ih
  | stop ran stopped => exact stop _ _ _ _ ran stopped

end Chain

/-! ## Pre- and postconditions -/

/-- Started where `pre` holds, the pipeline emits safe events only, and completes
with a value only where `post` holds. -/
def Ensures (run : L → S → List E → Outcome V S → Prop) (safe : E → Prop) (pre : S → Prop)
    (p : Pipeline L V) (post : S → Prop) : Prop :=
  ∀ s es out, pre s → Exec run p s es out →
    (∀ e ∈ es, safe e) ∧ ∀ s', out.next = some s' → post s'

section Ensures

variable {run : L → S → List E → Outcome V S → Prop} {safe : E → Prop}
  {pre middle post : S → Prop} {p : Pipeline L V}

theorem Ensures.leaf {l : L}
    (ran : ∀ s es out, pre s → run l s es out →
      (∀ e ∈ es, safe e) ∧ ∀ s', out.next = some s' → post s') :
    Ensures run safe pre (.leaf l) post := by
  intro s es out holds executed
  cases executed with
  | leaf taken => exact ran s es out holds taken

theorem Ensures.andThen {f : V → V} (first : Ensures run safe pre p post) :
    Ensures run safe pre (.andThen p f) post := by
  intro s es out holds executed
  cases executed with
  | thenValue earlier =>
      obtain ⟨safeFirst, reached⟩ := first s es _ holds earlier
      exact ⟨safeFirst, reached⟩
  | thenThrows earlier =>
      refine ⟨(first s es _ holds earlier).1, ?_⟩
      intro s' reached
      cases reached
  | thenSkipped earlier _ => exact first s es _ holds earlier

theorem Ensures.andLet {k : V → Pipeline L V} (first : Ensures run safe pre p middle)
    (next : ∀ v, Ensures run safe middle (k v) post) :
    Ensures run safe pre (.andLet p k) post := by
  intro s es out holds executed
  cases executed with
  | letValue earlier later =>
      obtain ⟨safeFirst, reached⟩ := first s _ _ holds earlier
      obtain ⟨safeNext, final⟩ := next _ _ _ _ (reached _ rfl) later
      refine ⟨?_, final⟩
      intro e occurred
      cases List.mem_append.mp occurred with
      | inl early => exact safeFirst e early
      | inr late => exact safeNext e late
  | letThrows earlier =>
      refine ⟨(first s es _ holds earlier).1, ?_⟩
      intro s' reached
      cases reached
  | letSkipped earlier stopped =>
      refine ⟨(first s es _ holds earlier).1, ?_⟩
      intro s' reached
      rw [stopped] at reached
      cases reached

end Ensures

end PatBase.Lib.Sender
