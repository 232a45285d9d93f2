import Mathlib.Data.List.Induction
import Lightspeed.Lib.Result

/-!
# Event-sourced systems

A system whose state is what its log reduces to. An input is answered with a list of entries, which
enters the log as a whole when the reducer accepts every entry of it in order, and not at all
otherwise. `Reaches` is the states and logs that come up. An invariant over whole runs is proved in two
steps: what one entry preserves under a `Warrant`, that is, under what its proposer knew of the state
it is applied to; and that the lists the system proposes are warranted entry by entry.
-/

namespace Lightspeed.Lib

variable {σ α ι ε ε' : Type}

/-- A reducer of entries into a state, and the entries that an input is answered with. -/
structure EventSource (σ α ι ε ε' : Type) where
  init : σ
  reduce : σ → α → Except ε σ
  propose : σ → ι → Except ε' (List α)

namespace EventSource

variable {sys : EventSource σ α ι ε ε'} {s t : σ} {log entries : List α}

/-- The states that a system reaches, each with the log that it is the reduction of. -/
inductive Reaches (sys : EventSource σ α ι ε ε') : σ → List α → Prop
  | init : Reaches sys sys.init []
  | append {s t : σ} {log entries : List α} {input : ι} (reached : Reaches sys s log)
      (proposed : sys.propose s input = .ok entries)
      (committed : entries.foldlM sys.reduce s = .ok t) : Reaches sys t (log ++ entries)

/-- The state is the reduction of the log. -/
theorem Reaches.replay (h : Reaches sys s log) : log.foldlM sys.reduce sys.init = .ok s := by
  induction h with
  | init => rfl
  | append _ _ committed ih => exact foldlM_append_eq_ok.mpr ⟨_, ih, committed⟩

/-- Whether each entry of a list is warranted at the state that it is applied to. -/
def Warranted (reduce : σ → α → Except ε σ) (warrant : σ → α → Prop) : σ → List α → Prop
  | _, [] => True
  | s, a :: rest => warrant s a ∧ ∀ t, reduce s a = .ok t → Warranted reduce warrant t rest

variable {reduce : σ → α → Except ε σ} {warrant : σ → α → Prop}

@[simp]
theorem warranted_nil : Warranted reduce warrant s [] := trivial

theorem warranted_cons {a : α} :
    Warranted reduce warrant s (a :: entries) ↔
      warrant s a ∧ ∀ t, reduce s a = .ok t → Warranted reduce warrant t entries := Iff.rfl

theorem warranted_singleton {a : α} : Warranted reduce warrant s [a] ↔ warrant s a := by
  simp [warranted_cons]

/-- A list is warranted when its first part is, and its second part is wherever the first part
leads. -/
theorem warranted_append {xs ys : List α} (hx : Warranted reduce warrant s xs)
    (hy : ∀ t, xs.foldlM reduce s = .ok t → Warranted reduce warrant t ys) :
    Warranted reduce warrant s (xs ++ ys) := by
  induction xs generalizing s with
  | nil => exact hy s rfl
  | cons a xs ih =>
    refine ⟨hx.1, fun t ht => ih (hx.2 t ht) fun u hu => hy u ?_⟩
    exact foldlM_cons_eq_ok.mpr ⟨t, ht, hu⟩

/-- The first part of a warranted list is warranted. -/
theorem Warranted.left {xs ys : List α} (h : Warranted reduce warrant s (xs ++ ys)) :
    Warranted reduce warrant s xs := by
  induction xs generalizing s with
  | nil => trivial
  | cons a xs ih => exact ⟨h.1, fun t ht => ih (h.2 t ht)⟩

/-- The second part of a warranted list is warranted where the first part leads. -/
theorem Warranted.right {xs ys : List α} (h : Warranted reduce warrant s (xs ++ ys))
    (hx : xs.foldlM reduce s = .ok t) : Warranted reduce warrant t ys := by
  induction xs generalizing s with
  | nil =>
    obtain rfl : s = t := pure_eq_ok.mp hx
    exact h
  | cons a xs ih =>
    obtain ⟨m, hm, hrest⟩ := foldlM_cons_eq_ok.mp hx
    exact ih (h.2 m hm) hrest

/-- A weaker warrant, under what the reduction of the list preserves. -/
theorem Warranted.imp {warrant' : σ → α → Prop} {P : σ → Prop}
    (h : Warranted reduce warrant s entries) (hs : P s)
    (hstep : ∀ s a t, P s → warrant s a → reduce s a = .ok t → P t)
    (himp : ∀ s a, P s → warrant s a → warrant' s a) : Warranted reduce warrant' s entries := by
  induction entries generalizing s with
  | nil => trivial
  | cons a entries ih =>
    exact ⟨himp s a hs h.1, fun t ht => ih (h.2 t ht) (hstep s a t hs h.1 ht)⟩

/-- A warrant together with what every entry of the list satisfies. -/
theorem Warranted.and_mem {p : α → Prop} (h : Warranted reduce warrant s entries)
    (hp : ∀ a ∈ entries, p a) : Warranted reduce (fun s a => warrant s a ∧ p a) s entries := by
  induction entries generalizing s with
  | nil => trivial
  | cons a entries ih =>
    refine ⟨⟨h.1, hp a List.mem_cons_self⟩, fun t ht => ih (h.2 t ht) fun b hb => ?_⟩
    exact hp b (List.mem_cons_of_mem _ hb)

/-- Two warrants of one list. -/
theorem Warranted.and {warrant' : σ → α → Prop} (h : Warranted reduce warrant s entries)
    (h' : Warranted reduce warrant' s entries) :
    Warranted reduce (fun s a => warrant s a ∧ warrant' s a) s entries := by
  induction entries generalizing s with
  | nil => trivial
  | cons a entries ih => exact ⟨⟨h.1, h'.1⟩, fun t ht => ih (h.2 t ht) (h'.2 t ht)⟩

/-- A list whose entries are warranted wherever they are applied. -/
theorem warranted_of_forall (h : ∀ a ∈ entries, ∀ s, warrant s a) :
    Warranted reduce warrant s entries := by
  induction entries generalizing s with
  | nil => trivial
  | cons a entries ih =>
    exact ⟨h a List.mem_cons_self s, fun t _ => ih fun b hb => h b (List.mem_cons_of_mem _ hb)⟩

/-- What every warranted entry preserves, a warranted list preserves. The property may read the log
that the state is the reduction of. -/
theorem Warranted.preserves {P : σ → List α → Prop} (log : List α)
    (hstep : ∀ s log a t, P s log → warrant s a → reduce s a = .ok t → P t (log ++ [a]))
    (hw : Warranted reduce warrant s entries) (h : entries.foldlM reduce s = .ok t)
    (hs : P s log) : P t (log ++ entries) := by
  induction entries generalizing s log with
  | nil =>
    rw [List.foldlM_nil, pure_eq_ok] at h
    simpa [← h] using hs
  | cons a entries ih =>
    obtain ⟨m, hm, h⟩ := foldlM_cons_eq_ok.mp h
    have := ih (log ++ [a]) (hw.2 m hm) h (hstep s log a m hs hw.1 hm)
    rwa [List.append_assoc, List.singleton_append] at this

/-- What every warranted entry keeps unless something else comes up, a warranted list keeps, or the other
thing comes up within it. -/
theorem Warranted.keeps_until {P Q : σ → Prop}
    (hstep : ∀ s a t, P s → warrant s a → reduce s a = .ok t → P t ∨ Q t)
    (hw : Warranted reduce warrant s entries) (h : entries.foldlM reduce s = .ok t) (hs : P s) :
    P t ∨ ∃ front back m, entries = front ++ back ∧ front.foldlM reduce s = .ok m ∧ Q m := by
  induction entries generalizing s with
  | nil =>
    obtain rfl : s = t := pure_eq_ok.mp h
    exact .inl hs
  | cons a entries ih =>
    obtain ⟨m, hm, hrest⟩ := foldlM_cons_eq_ok.mp h
    rcases hstep s a m hs hw.1 hm with hkept | hcame
    · refine (ih (hw.2 m hm) hrest hkept).imp_right ?_
      rintro ⟨front, back, v, rfl, hv, hq⟩
      exact ⟨a :: front, back, v, rfl, foldlM_cons_eq_ok.mpr ⟨m, hm, hv⟩, hq⟩
    · exact .inr ⟨[a], entries, m, rfl, foldlM_cons_eq_ok.mpr ⟨m, hm, rfl⟩, hcame⟩

/-- The lists that a system proposes one after the other from a state, to inputs that are allowed, and
where they lead. -/
inductive Extends (sys : EventSource σ α ι ε ε') (allowed : ι → Prop) (s : σ) : List α → σ → Prop
  | nil : Extends sys allowed s [] s
  | append {t u : σ} {front entries : List α} {input : ι} (first : Extends sys allowed s front t)
      (hallowed : allowed input) (proposed : sys.propose t input = .ok entries)
      (committed : entries.foldlM sys.reduce t = .ok u) : Extends sys allowed s (front ++ entries) u

variable {allowed allowed' : ι → Prop}

theorem Extends.single {input : ι} (hallowed : allowed input)
    (proposed : sys.propose s input = .ok entries) (committed : entries.foldlM sys.reduce s = .ok t) :
    Extends sys allowed s entries t := by
  have h := Extends.append .nil hallowed proposed committed
  rwa [List.nil_append] at h

theorem Extends.reduces (h : Extends sys allowed s entries t) :
    entries.foldlM sys.reduce s = .ok t := by
  induction h with
  | nil => rfl
  | append _ _ _ committed ih => exact foldlM_append_eq_ok.mpr ⟨_, ih, committed⟩

theorem Extends.reaches (h : Extends sys allowed s entries t) (hs : Reaches sys s log) :
    Reaches sys t (log ++ entries) := by
  induction h with
  | nil => rwa [List.append_nil]
  | append _ _ proposed committed ih =>
    rw [← List.append_assoc]
    exact .append ih proposed committed

/-- The runs of a system, step by step: each step's state and input, and the log at the end. -/
inductive Trace (sys : EventSource σ α ι ε ε') : List (σ × ι) → σ → List α → Prop
  | init : Trace sys [] sys.init []
  | append {steps : List (σ × ι)} {s t : σ} {log entries : List α} {input : ι}
      (reached : Trace sys steps s log) (proposed : sys.propose s input = .ok entries)
      (committed : entries.foldlM sys.reduce s = .ok t) :
      Trace sys (steps ++ [(s, input)]) t (log ++ entries)

theorem Trace.reaches {steps : List (σ × ι)} (h : Trace sys steps s log) : Reaches sys s log := by
  induction h with
  | init => exact .init
  | append _ proposed committed ih => exact .append ih proposed committed

theorem Reaches.trace (h : Reaches sys s log) : ∃ steps, Trace sys steps s log := by
  induction h with
  | init => exact ⟨[], .init⟩
  | append _ proposed committed ih =>
    obtain ⟨steps, htrace⟩ := ih
    exact ⟨_, .append htrace proposed committed⟩

/-- The last step of a run. -/
theorem Trace.last {steps : List (σ × ι)} {input : ι} (h : Trace sys (steps ++ [(s, input)]) t log) :
    ∃ log' entries, Trace sys steps s log' ∧ sys.propose s input = .ok entries ∧
      entries.foldlM sys.reduce s = .ok t ∧ log = log' ++ entries := by
  generalize hall : steps ++ [(s, input)] = all at h
  cases h with
  | init => exact absurd hall (by simp)
  | append reached proposed committed =>
    obtain ⟨rfl, hlast⟩ := List.append_inj' hall rfl
    obtain ⟨rfl, rfl⟩ := Prod.mk.inj (List.singleton_inj.mp hlast)
    exact ⟨_, _, reached, proposed, committed, rfl⟩

/-- An invariant of the steps that meet a condition holds in every state of a run that takes only such
steps. -/
theorem Trace.invariant {P : σ → List α → Prop} {M : σ → ι → Prop} {steps : List (σ × ι)}
    (hinit : P sys.init [])
    (hstep : ∀ s log input entries t, Reaches sys s log → P s log → M s input →
      sys.propose s input = .ok entries → entries.foldlM sys.reduce s = .ok t →
      P t (log ++ entries))
    (h : Trace sys steps s log) (hmeets : ∀ step ∈ steps, M step.1 step.2) : P s log := by
  induction h with
  | init => exact hinit
  | @append steps s t log entries input reached proposed committed ih =>
    have hs : P s log := ih fun step hstep => hmeets step (List.mem_append_left _ hstep)
    have hlast : M s input := hmeets (s, input) (List.mem_append_right _ List.mem_cons_self)
    exact hstep s log input entries t reached.reaches hs hlast proposed committed

/-- The state and the log that a list of inputs leads to, when every input is answered. -/
def exec (sys : EventSource σ α ι ε ε') (inputs : List ι) : Option (σ × List α) :=
  inputs.foldlM
    (fun (s, log) input =>
      match sys.propose s input with
      | .error _ => none
      | .ok entries =>
        match entries.foldlM sys.reduce s with
        | .error _ => none
        | .ok t => some (t, log ++ entries))
    (sys.init, [])

/-- An execution's last step. -/
theorem exec_concat {inputs : List ι} {input : ι} (h : sys.exec (inputs ++ [input]) = some (t, log)) :
    ∃ s log' entries, sys.exec inputs = some (s, log') ∧ sys.propose s input = .ok entries ∧
      entries.foldlM sys.reduce s = .ok t ∧ log = log' ++ entries := by
  rw [exec, List.foldlM_append, Option.bind_eq_bind, Option.bind_eq_some_iff] at h
  obtain ⟨⟨s, log'⟩, hinputs, h⟩ := h
  simp only [List.foldlM_cons, List.foldlM_nil, Option.bind_eq_bind, Option.pure_def] at h
  obtain ⟨⟨t, log''⟩, hstep, hlast⟩ := Option.bind_eq_some_iff.mp h
  obtain ⟨rfl, rfl⟩ := Prod.mk.inj (Option.some.inj hlast)
  split at hstep
  · cases hstep
  next entries hpropose =>
    split at hstep
    · cases hstep
    next u hcommit =>
      obtain ⟨rfl, rfl⟩ := Prod.mk.inj (Option.some.inj hstep)
      exact ⟨s, log', entries, hinputs, hpropose, hcommit, rfl⟩

/-- What is executed is a trace with these inputs. -/
theorem exec_trace {inputs : List ι} (h : sys.exec inputs = some (s, log)) :
    ∃ steps, Trace sys steps s log ∧ steps.map Prod.snd = inputs := by
  induction inputs using List.reverseRecOn generalizing s log with
  | nil =>
    obtain ⟨rfl, rfl⟩ := Prod.mk.inj (Option.some.inj h)
    exact ⟨[], .init, rfl⟩
  | append_singleton inputs input ih =>
    obtain ⟨s', log', entries, hinputs, hpropose, hcommit, rfl⟩ := exec_concat h
    obtain ⟨steps, htrace, hsteps⟩ := ih hinputs
    refine ⟨steps ++ [(s', input)], .append htrace hpropose hcommit, ?_⟩
    rw [List.map_append, hsteps]
    rfl

theorem exec_reaches {inputs : List ι} (h : sys.exec inputs = some (s, log)) :
    Reaches sys s log := by
  obtain ⟨steps, htrace, -⟩ := exec_trace h
  exact htrace.reaches

/-- An invariant of one step at a time holds in every state that is reached. -/
theorem Reaches.invariant {P : σ → List α → Prop} (hinit : P sys.init [])
    (hstep : ∀ s log input entries t, Reaches sys s log → P s log →
      sys.propose s input = .ok entries → entries.foldlM sys.reduce s = .ok t →
      P t (log ++ entries))
    (h : Reaches sys s log) : P s log := by
  induction h with
  | init => exact hinit
  | append reached proposed committed ih => exact hstep _ _ _ _ _ reached ih proposed committed

end EventSource

end Lightspeed.Lib
