/-!
Finite runs of a partial step function. A label carries whatever the
environment decides in a step, so a step is a function of the state and the
label; a step that is not possible is `none`.
-/

namespace KeryxMiner.TransitionRuns

variable {State Label : Type} (step : State → Label → Option State)

def runFrom : State → List Label → Option State
  | state, [] => some state
  | state, label :: rest => (step state label).bind fun next => runFrom next rest

/-- Every step the run takes satisfies `holds`. -/
def EveryStep (holds : State → Label → State → Prop) : State → List Label → Prop
  | _, [] => True
  | before, label :: rest => ∀ after, step before label = some after →
      holds before label after ∧ EveryStep holds after rest

variable {step}

/-- An invariant kept by the steps that satisfy `guard` holds where such a run
ends. -/
theorem invariant_end (invariant : State → Prop) {guard : State → Label → State → Prop}
    (keeps : ∀ before label after, invariant before → step before label = some after →
      guard before label after → invariant after) (labels : List Label) :
    ∀ start last, invariant start → EveryStep step guard start labels →
      runFrom step start labels = some last → invariant last := by
  induction labels with
  | nil =>
      intro start last initial _ ran
      obtain rfl := Option.some.inj ran
      exact initial
  | cons label rest ih =>
      intro start last initial guarded ran
      obtain ⟨next, stepped, continues⟩ := Option.bind_eq_some_iff.mp ran
      obtain ⟨allowed, later⟩ := guarded next stepped
      exact ih next last (keeps start label next initial stepped allowed) later continues

/-- What guarded steps satisfy from every state of the invariant, every step of
a guarded run satisfies. -/
theorem every_step_of_invariant (invariant : State → Prop)
    {guard holds : State → Label → State → Prop}
    (keeps : ∀ before label after, invariant before → step before label = some after →
      guard before label after → invariant after)
    (gives : ∀ before label after, invariant before → step before label = some after →
      guard before label after → holds before label after) (labels : List Label) :
    ∀ start, invariant start → EveryStep step guard start labels →
      EveryStep step holds start labels := by
  induction labels with
  | nil => exact fun _ _ _ => trivial
  | cons label rest ih =>
      intro start initial guarded after stepped
      obtain ⟨allowed, later⟩ := guarded after stepped
      exact ⟨gives start label after initial stepped allowed,
        ih after (keeps start label after initial stepped allowed) later⟩

/-- When, from the states of an invariant, a step satisfies `holds` exactly if it
satisfies the guard that keeps the invariant, so does a run. -/
theorem every_step_iff (invariant : State → Prop) {guard holds : State → Label → State → Prop}
    (keeps : ∀ before label after, invariant before → step before label = some after →
      guard before label after → invariant after)
    (same : ∀ before label after, invariant before → step before label = some after →
      (guard before label after ↔ holds before label after)) (labels : List Label) :
    ∀ start, invariant start →
      (EveryStep step guard start labels ↔ EveryStep step holds start labels) := by
  intro start initial
  constructor
  · exact every_step_of_invariant invariant keeps
      (fun before label after sound stepped => (same before label after sound stepped).mp)
      labels start initial
  · exact every_step_of_invariant invariant
      (fun before label after sound stepped held =>
        keeps before label after sound stepped ((same before label after sound stepped).mpr held))
      (fun before label after sound stepped => (same before label after sound stepped).mpr)
      labels start initial

theorem every_step_cons {holds : State → Label → State → Prop} {before after : State}
    {label : Label} {rest : List Label} (stepped : step before label = some after)
    (held : holds before label after) (later : EveryStep step holds after rest) :
    EveryStep step holds before (label :: rest) := by
  intro other reached
  obtain rfl := Option.some.inj (stepped.symm.trans reached)
  exact ⟨held, later⟩

theorem every_step_of_each {holds : State → Label → State → Prop} {labels : List Label}
    (each : ∀ label ∈ labels, ∀ before after, holds before label after) (start : State) :
    EveryStep step holds start labels := by
  induction labels generalizing start with
  | nil => trivial
  | cons label rest ih =>
      intro after _
      constructor
      · exact each label (List.mem_cons_self ..) start after
      · exact ih (fun other member => each other (List.mem_cons_of_mem _ member)) after

theorem every_step_of_labels {allowed : Label → Prop} {labels : List Label}
    (each : ∀ label ∈ labels, allowed label) (start : State) :
    EveryStep step (fun _ label _ => allowed label) start labels :=
  every_step_of_each (fun label member _ _ => each label member) start

theorem every_step_trivial (labels : List Label) (start : State) :
    EveryStep step (fun _ _ _ => True) start labels :=
  every_step_of_each (fun _ _ _ _ => trivial) start

theorem run_from_append (first second : List Label) (start : State) :
    runFrom step start (first ++ second) =
      (runFrom step start first).bind fun middle => runFrom step middle second := by
  induction first generalizing start with
  | nil => rfl
  | cons label rest ih =>
      simp only [List.cons_append, runFrom, Option.bind_assoc]
      exact congrArg _ (funext ih)

theorem every_step_suffix {holds : State → Label → State → Prop} {first second : List Label}
    {start middle : State} (ran : runFrom step start first = some middle)
    (each : EveryStep step holds start (first ++ second)) : EveryStep step holds middle second := by
  induction first generalizing start with
  | nil =>
      obtain rfl := Option.some.inj ran
      exact each
  | cons label rest ih =>
      obtain ⟨next, stepped, continues⟩ := Option.bind_eq_some_iff.mp ran
      exact ih continues (each next stepped).2

/-- The states around one label of a run. -/
theorem run_from_around {first second : List Label} {label : Label} {start last : State}
    (ran : runFrom step start (first ++ label :: second) = some last) :
    ∃ before after, runFrom step start first = some before ∧ step before label = some after ∧
      runFrom step after second = some last := by
  rw [run_from_append] at ran
  obtain ⟨before, reached, continues⟩ := Option.bind_eq_some_iff.mp ran
  obtain ⟨after, stepped, later⟩ := Option.bind_eq_some_iff.mp continues
  exact ⟨before, after, reached, stepped, later⟩

end KeryxMiner.TransitionRuns
