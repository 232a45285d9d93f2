import Mathlib.Logic.Relation
import Mathlib.Data.List.Induction

/-!
# State machines

A system that takes one input at a time, and refuses the inputs that do not fit its state. A run keeps
each of its steps, so that a result can be about the runs whose steps all meet a condition. A machine
is refined to a relation between views of its states when every step is a chain of that relation.
-/

namespace Lightspeed.Lib

variable {σ ι β : Type*}

/-- Where a machine starts, and what an input does to a state that takes it. -/
structure Machine (σ ι : Type*) where
  init : σ → Prop
  step : σ → ι → Option σ

namespace Machine

variable {m : Machine σ ι} {s t : σ} {input : ι} {steps : List (σ × ι)}

/-- The runs of a machine: each step's state and input, and the state at the end. -/
inductive Run (m : Machine σ ι) : List (σ × ι) → σ → Prop
  | init {s : σ} (h : m.init s) : Run m [] s
  | step {steps : List (σ × ι)} {s t : σ} {input : ι} (run : Run m steps s)
      (h : m.step s input = some t) : Run m (steps ++ [(s, input)]) t

/-- The states that come up. -/
def Reaches (m : Machine σ ι) (s : σ) : Prop := ∃ steps, Run m steps s

/-- What holds at the start, and is kept by the steps that meet a condition, holds at the end of a run
of such steps. -/
theorem Run.invariant {P : σ → Prop} {M : σ → ι → Prop} (hinit : ∀ s, m.init s → P s)
    (hstep : ∀ s input t, m.Reaches s → P s → M s input → m.step s input = some t → P t)
    (h : Run m steps s) (hmeets : ∀ step ∈ steps, M step.1 step.2) : P s := by
  induction h with
  | init h => exact hinit _ h
  | @step steps s t input run h ih =>
    have hs : P s := ih fun step hstep => hmeets step (List.mem_append_left _ hstep)
    have hlast : M s input := hmeets (s, input) (List.mem_append_right _ List.mem_cons_self)
    exact hstep s input t ⟨steps, run⟩ hs hlast h

/-- What holds at the start and is kept by every step holds of every state that comes up. -/
theorem Reaches.invariant {P : σ → Prop} (hinit : ∀ s, m.init s → P s)
    (hstep : ∀ s input t, m.Reaches s → P s → m.step s input = some t → P t) (h : m.Reaches s) :
    P s := by
  obtain ⟨steps, hrun⟩ := h
  refine hrun.invariant (M := fun _ _ => True) hinit ?_ fun _ _ => trivial
  intro s input t hs hP _ h
  exact hstep s input t hs hP h

/-- The state that a list of inputs leads to, when each fits. -/
def exec (m : Machine σ ι) (s : σ) (inputs : List ι) : Option σ := inputs.foldlM m.step s

theorem Run.exec {inputs : List ι} (run : Run m steps s) (h : m.exec s inputs = some t) :
    ∃ more, Run m (steps ++ more) t ∧ more.map Prod.snd = inputs := by
  induction inputs generalizing steps s with
  | nil =>
    have h : s = t := by simpa [Machine.exec] using h
    exact ⟨[], by rwa [List.append_nil, ← h], rfl⟩
  | cons input inputs ih =>
    rw [Machine.exec, List.foldlM_cons, Option.bind_eq_bind, Option.bind_eq_some_iff] at h
    obtain ⟨u, hu, h⟩ := h
    obtain ⟨more, hmore, hinputs⟩ := ih (run.step hu) h
    refine ⟨(s, input) :: more, ?_, by rw [List.map_cons, hinputs]⟩
    rwa [List.append_assoc, List.singleton_append] at hmore

/-- The steps that a list of inputs takes, and where they end. -/
def trace (m : Machine σ ι) (s : σ) : List ι → Option (List (σ × ι) × σ)
  | [] => some ([], s)
  | input :: rest =>
    (m.step s input).bind fun t =>
      (m.trace t rest).map fun (steps, u) => ((s, input) :: steps, u)

theorem Run.trace {inputs : List ι} {more : List (σ × ι)} (run : Run m steps s)
    (h : m.trace s inputs = some (more, t)) : Run m (steps ++ more) t := by
  induction inputs generalizing steps s more with
  | nil =>
    obtain ⟨rfl, rfl⟩ := Prod.mk.inj (Option.some.inj h)
    rwa [List.append_nil]
  | cons input rest ih =>
    obtain ⟨u, hu, h⟩ := Option.bind_eq_some_iff.mp h
    obtain ⟨⟨steps', t'⟩, hrest, hpair⟩ := Option.map_eq_some_iff.mp h
    obtain ⟨rfl, rfl⟩ := Prod.mk.inj hpair
    have hrun := ih (run.step hu) hrest
    rwa [List.append_assoc, List.singleton_append] at hrun

/-- What is executed from a start comes up. -/
theorem exec_reaches {inputs : List ι} (hinit : m.init s) (h : m.exec s inputs = some t) :
    m.Reaches t := by
  obtain ⟨more, hrun, -⟩ := (Run.init hinit).exec h
  exact ⟨_, hrun⟩

end Machine

/-- A property that every link keeps is kept along a chain. -/
theorem chain_preserves {R : β → β → Prop} {P : β → Prop} {a b : β}
    (hlink : ∀ a b, R a b → P a → P b) (h : Relation.ReflTransGen R a b) (ha : P a) : P b := by
  induction h with
  | refl => exact ha
  | tail _ hlast ih => exact hlink _ _ hlast ih

/-- A loop over elements that are apart is a chain when each of its steps is one from where its element
is ready, and takes no element apart from it out of readiness. -/
theorem foldl_chain {R : σ → σ → Prop} {f : σ → ι → σ} {D : ι → ι → Prop} {P : σ → ι → Prop}
    {xs : List ι} (hapart : xs.Pairwise D)
    (hother : ∀ s x y, D x y → P s x → P s y → P (f s x) y)
    (hmove : ∀ s x, P s x → Relation.ReflTransGen R s (f s x)) (h : ∀ x ∈ xs, P s x) :
    Relation.ReflTransGen R s (xs.foldl f s) := by
  induction xs generalizing s with
  | nil => exact .refl
  | cons x xs ih =>
    obtain ⟨hx, hxs⟩ := List.pairwise_cons.mp hapart
    have hready := h x List.mem_cons_self
    refine (hmove s x hready).trans (ih hxs fun y hy => ?_)
    exact hother s x y (hx y hy) hready (h y (List.mem_cons_of_mem _ hy))

/-- A loop over elements that are apart, each of whose steps lowers a measure, lowers it by as many
steps. -/
theorem foldl_measure {f : σ → ι → σ} {D : ι → ι → Prop} {P : σ → ι → Prop} {μ : σ → Nat}
    {xs : List ι} (hapart : xs.Pairwise D)
    (hother : ∀ s x y, D x y → P s x → P s y → P (f s x) y)
    (hless : ∀ s x, P s x → μ (f s x) < μ s) (h : ∀ x ∈ xs, P s x) :
    μ (xs.foldl f s) + xs.length ≤ μ s := by
  induction xs generalizing s with
  | nil => exact Nat.le_refl _
  | cons x xs ih =>
    obtain ⟨hx, hxs⟩ := List.pairwise_cons.mp hapart
    have hready := h x List.mem_cons_self
    have hrest := ih (s := f s x) hxs fun y hy =>
      hother s x y (hx y hy) hready (h y (List.mem_cons_of_mem _ hy))
    have hfirst := hless s x hready
    rw [List.foldl_cons, List.length_cons]
    omega

end Lightspeed.Lib
