import Mathlib.Tactic.Common

/-!
# Fallible computations

A Rust function that returns `Result<(), E>` after a list of guards is a `do` block over
`Except E`. The rules here invert such a block: a run that returns `.ok` passed each of its guards,
and a loop of fallible steps that returns `.ok` took each of its steps. A proof peels a computation
apart with them and never unfolds `bind`.
-/

namespace Lightspeed.Lib

universe u v w

variable {ε : Type u} {α : Type v} {β : Type v} {σ : Type v} {ι : Type w}

/-- A guard: fail with `e` unless `p` holds. -/
def require (p : Prop) [Decidable p] (e : ε) : Except ε Unit :=
  if p then .ok () else .error e

/-- The value of an option, or the error of a missing one. -/
def orError (o : Option α) (e : ε) : Except ε α :=
  match o with
  | some a => .ok a
  | none => .error e

/-- A guard returns exactly when its condition holds. -/
@[simp]
theorem require_eq_ok {p : Prop} [Decidable p] {e : ε} {u : Unit} :
    require p e = .ok u ↔ p := by
  unfold require
  split <;> simp_all

/-- A guard whose condition holds returns. -/
theorem require_pos {p : Prop} [Decidable p] {e : ε} (h : p) : require p e = .ok () :=
  if_pos h

@[simp]
theorem orError_eq_ok {o : Option α} {e : ε} {a : α} : orError o e = .ok a ↔ o = some a := by
  cases o <;> simp [orError]

@[simp]
theorem orError_some {a : α} {e : ε} : orError (some a) e = .ok a := rfl

/-- A guard returns nothing but `()`. -/
theorem exists_unit {p : Unit → Prop} : (∃ u, p u) ↔ p () :=
  ⟨fun ⟨(), h⟩ => h, fun h => ⟨(), h⟩⟩

/-- A sequence returns exactly when its first part does and the rest returns from there. -/
@[simp]
theorem bind_eq_ok {x : Except ε α} {f : α → Except ε β} {b : β} :
    (x >>= f) = .ok b ↔ ∃ a, x = .ok a ∧ f a = .ok b := by
  cases x <;> simp [bind, Except.bind]

/-- A sequence fails in its first part, or in the rest after the first part returned. -/
theorem bind_eq_error {x : Except ε α} {f : α → Except ε β} {e : ε} :
    (x >>= f) = .error e ↔ x = .error e ∨ ∃ a, x = .ok a ∧ f a = .error e := by
  cases x <;> simp [bind, Except.bind]

@[simp]
theorem ok_bind {a : α} {f : α → Except ε β} : ((.ok a : Except ε α) >>= f) = f a := rfl

@[simp]
theorem error_bind {e : ε} {f : α → Except ε β} : ((.error e : Except ε α) >>= f) = .error e := rfl

@[simp]
theorem pure_eq_ok {a b : α} : (pure a : Except ε α) = .ok b ↔ a = b := by
  simp [pure, Except.pure]

/-- A fallible map over a list, one element at a time. -/
theorem mapM_cons_eq_ok {f : ι → Except ε α} {x : ι} {xs : List ι} {ys : List α} :
    (x :: xs).mapM f = .ok ys ↔ ∃ y ys', f x = .ok y ∧ xs.mapM f = .ok ys' ∧ ys = y :: ys' := by
  simp only [List.mapM_cons, bind_eq_ok, pure_eq_ok]
  grind

/-- Every result of a fallible map comes from an element. -/
theorem mem_of_mapM {f : ι → Except ε α} {xs : List ι} {ys : List α} {y : α}
    (h : xs.mapM f = .ok ys) (hy : y ∈ ys) : ∃ x ∈ xs, f x = .ok y := by
  induction xs generalizing ys with
  | nil =>
    rw [List.mapM_nil, pure_eq_ok] at h
    subst h
    cases hy
  | cons x xs ih =>
    obtain ⟨y', ys', hx, hxs, rfl⟩ := mapM_cons_eq_ok.mp h
    rcases List.mem_cons.mp hy with rfl | hy
    · exact ⟨x, List.mem_cons_self, hx⟩
    · obtain ⟨x', hx', hy⟩ := ih hxs hy
      exact ⟨x', List.mem_cons_of_mem _ hx', hy⟩

/-- Every element of a fallible map has a result. -/
theorem exists_of_mapM {f : ι → Except ε α} {xs : List ι} {ys : List α} {x : ι}
    (h : xs.mapM f = .ok ys) (hx : x ∈ xs) : ∃ y, f x = .ok y := by
  induction xs generalizing ys with
  | nil => cases hx
  | cons first rest ih =>
    obtain ⟨y, ys', hfirst, hrest, -⟩ := mapM_cons_eq_ok.mp h
    rcases List.mem_cons.mp hx with rfl | hx
    · exact ⟨y, hfirst⟩
    · exact ih hrest hx

/-- A loop over a nonempty list returns exactly when its first step does and the loop over the rest
returns from there. -/
theorem foldlM_cons_eq_ok {f : σ → ι → Except ε σ} {s t : σ} {x : ι} {xs : List ι} :
    (x :: xs).foldlM f s = .ok t ↔ ∃ m, f s x = .ok m ∧ xs.foldlM f m = .ok t := by
  simp

/-- A loop over two lists in a row is the second loop after the first. -/
theorem foldlM_append_eq_ok {f : σ → ι → Except ε σ} {s t : σ} {xs ys : List ι} :
    (xs ++ ys).foldlM f s = .ok t ↔ ∃ m, xs.foldlM f s = .ok m ∧ ys.foldlM f m = .ok t := by
  simp

/-- What every step of a loop preserves, the whole loop preserves. -/
theorem foldlM_preserves {f : σ → ι → Except ε σ} {P : σ → Prop} {xs : List ι} {s t : σ}
    (hstep : ∀ x ∈ xs, ∀ a b, f a x = .ok b → P a → P b) (h : xs.foldlM f s = .ok t) (hs : P s) :
    P t := by
  induction xs generalizing s with
  | nil =>
    rw [List.foldlM_nil, pure_eq_ok] at h
    exact h ▸ hs
  | cons x xs ih =>
    obtain ⟨m, hm, h⟩ := foldlM_cons_eq_ok.mp h
    exact ih (fun y hy => hstep y (List.mem_cons_of_mem _ hy)) h
      (hstep x List.mem_cons_self _ _ hm hs)

/-- A loop that fails does so at one of its steps, after those before it. -/
theorem foldlM_eq_error {f : σ → ι → Except ε σ} {s : σ} {xs : List ι} {e : ε}
    (h : xs.foldlM f s = .error e) :
    ∃ before x after m, xs = before ++ x :: after ∧ before.foldlM f s = .ok m ∧ f m x = .error e := by
  induction xs generalizing s with
  | nil => cases h
  | cons x xs ih =>
    rcases bind_eq_error.mp h with hx | ⟨m, hm, hxs⟩
    · exact ⟨[], x, xs, s, rfl, rfl, hx⟩
    · obtain ⟨before, y, after, m', rfl, hbefore, hy⟩ := ih hxs
      exact ⟨x :: before, y, after, m', rfl, foldlM_cons_eq_ok.mpr ⟨m, hm, hbefore⟩, hy⟩

/-- A loop of guards that change nothing returns exactly when each guard does. -/
@[simp]
theorem forM_eq_ok {f : ι → Except ε PUnit} {xs : List ι} {u : PUnit} :
    xs.forM f = .ok u ↔ ∀ x ∈ xs, f x = .ok ⟨⟩ := by
  induction xs with
  | nil => simp [List.forM, pure, Except.pure]
  | cons x xs ih =>
    have hcons : (x :: xs).forM f = (f x >>= fun _ => xs.forM f) := rfl
    rw [hcons, bind_eq_ok, List.forall_mem_cons]
    grind

end Lightspeed.Lib
