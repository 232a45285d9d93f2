import Mathlib.Tactic.Common

/-!
# Changes in place

A function that is given a value to change may fail when it has changed some of it, and what it has changed stays.
It is a computation that returns or fails, and leaves a state in either case. The rules here run such a computation
from a state, step by step.
-/

namespace Lightspeed.Lib

variable {ε ε' σ α β : Type}

/-- A computation that changes a state in place, and may fail with some of it changed. -/
abbrev InPlace (ε σ α : Type) := ExceptT ε (StateM σ) α

/-- What a computation returns from a state, and the state that it leaves. -/
def runOn (computation : InPlace ε σ α) (s : σ) : Except ε α × σ := (ExceptT.run computation).run s

/-- A result that changes nothing. -/
def ofResult (result : Except ε α) : InPlace ε σ α := ExceptT.mk (pure result)

/-- A result that depends on the state, and changes nothing. -/
def reading (read : σ → Except ε α) : InPlace ε σ α := ExceptT.mk fun s => (read s, s)

/-- A change that does not fail. -/
def changing (change : σ → σ) : InPlace ε σ Unit := ExceptT.mk fun s => (.ok (), change s)

/-- A call of something outside, which fails in its own way. -/
def calling (wrap : ε' → ε) (call : σ → Except ε' α × σ) : InPlace ε σ α :=
  ExceptT.mk fun s => ((call s).1.mapError wrap, (call s).2)

variable {x : InPlace ε σ α} {f : α → InPlace ε σ β} {s t : σ} {a : α} {e : ε}

@[simp] theorem runOn_pure : runOn (pure a : InPlace ε σ α) s = (.ok a, s) := rfl

@[simp] theorem runOn_throw : runOn (throw e : InPlace ε σ α) s = (.error e, s) := rfl

@[simp] theorem runOn_ofResult {result : Except ε α} : runOn (ofResult result) s = (result, s) := rfl

@[simp] theorem runOn_reading {read : σ → Except ε α} : runOn (reading read) s = (read s, s) := rfl

@[simp] theorem runOn_changing {change : σ → σ} :
    runOn (changing change : InPlace ε σ Unit) s = (.ok (), change s) := rfl

theorem runOn_calling_ok {wrap : ε' → ε} {call : σ → Except ε' α × σ} (h : call s = (.ok a, t)) :
    runOn (calling wrap call) s = (.ok a, t) := by
  show ((call s).1.mapError wrap, (call s).2) = _
  rw [h]
  rfl

theorem runOn_calling_error {wrap : ε' → ε} {call : σ → Except ε' α × σ} {e' : ε'} (h : call s = (.error e', t)) :
    runOn (calling wrap call) s = (.error (wrap e'), t) := by
  show ((call s).1.mapError wrap, (call s).2) = _
  rw [h]
  rfl

/-- A sequence goes on from the state that its first part leaves. -/
theorem runOn_bind_ok (h : runOn x s = (.ok a, t)) : runOn (x >>= f) s = runOn (f a) t := by
  show (ExceptT.bindCont (fun a => f a) (runOn x s).1 : StateM σ (Except ε β)) (runOn x s).2 = _
  rw [h]
  rfl

/-- A sequence whose first part fails leaves what that left. -/
theorem runOn_bind_error (h : runOn x s = (.error e, t)) : runOn (x >>= f) s = (.error e, t) := by
  show (ExceptT.bindCont (fun a => f a) (runOn x s).1 : StateM σ (Except ε β)) (runOn x s).2 = _
  rw [h]
  rfl

/-- A sequence returns when its first part does, and what follows from there does. -/
theorem runOn_bind_eq_ok {b : β} {u : σ} :
    runOn (x >>= f) s = (.ok b, u) ↔ ∃ a t, runOn x s = (.ok a, t) ∧ runOn (f a) t = (.ok b, u) := by
  constructor
  · intro h
    rcases hrun : runOn x s with ⟨_ | a, t⟩
    · rw [runOn_bind_error hrun] at h
      cases h
    · rw [runOn_bind_ok hrun] at h
      exact ⟨a, t, rfl, h⟩
  · rintro ⟨a, t, hrun, h⟩
    rw [runOn_bind_ok hrun, h]

/-- A sequence fails when its first part does, or what follows from there does. -/
theorem runOn_bind_eq_error {u : σ} :
    runOn (x >>= f) s = (.error e, u) ↔
      runOn x s = (.error e, u) ∨ ∃ a t, runOn x s = (.ok a, t) ∧ runOn (f a) t = (.error e, u) := by
  rcases hrun : runOn x s with ⟨_ | a, t⟩
  · rw [runOn_bind_error hrun]
    simp
  · rw [runOn_bind_ok hrun]
    simp

/-- What every turn of a loop keeps, the loop keeps when it returns. -/
theorem runOn_foldlM_preserves {ι : Type} {step : α → ι → InPlace ε σ α} {P : α → Prop} {xs : List ι} {b : α}
    (hstep : ∀ x ∈ xs, ∀ a s b t, P a → runOn (step a x) s = (.ok b, t) → P b) (ha : P a)
    (h : runOn (xs.foldlM step a) s = (.ok b, t)) : P b := by
  induction xs generalizing a s with
  | nil =>
    cases h
    exact ha
  | cons x rest ih =>
    rw [List.foldlM_cons] at h
    obtain ⟨c, u, hfirst, hrest⟩ := runOn_bind_eq_ok.mp h
    have hc : P c := hstep x List.mem_cons_self a s c u ha hfirst
    exact ih (fun y hy => hstep y (List.mem_cons_of_mem _ hy)) hc hrest

theorem reading_bind_ok {read : σ → Except ε α} (h : read s = .ok a) : runOn (reading read >>= f) s = runOn (f a) s :=
  runOn_bind_ok (Prod.ext h rfl)

theorem reading_bind_error {read : σ → Except ε α} (h : read s = .error e) :
    runOn (reading read >>= f) s = (.error e, s) :=
  runOn_bind_error (Prod.ext h rfl)

theorem ofResult_bind_ok {result : Except ε α} (h : result = .ok a) :
    runOn (ofResult result >>= f) s = runOn (f a) s :=
  runOn_bind_ok (Prod.ext h rfl)

theorem ofResult_bind_error {result : Except ε α} (h : result = .error e) :
    runOn (ofResult result >>= f) s = (.error e, s) :=
  runOn_bind_error (Prod.ext h rfl)

theorem changing_bind {change : σ → σ} {g : Unit → InPlace ε σ β} :
    runOn (changing change >>= g) s = runOn (g ()) (change s) :=
  runOn_bind_ok rfl

/-- What each part of a sequence keeps, the sequence keeps. -/
theorem runOn_bind_keeps {p : σ → Prop} (hx : p (runOn x s).2) (hf : ∀ a t, p t → p (runOn (f a) t).2) :
    p (runOn (x >>= f) s).2 := by
  rcases hrun : runOn x s with ⟨_ | a, t⟩
  · rw [runOn_bind_error hrun]
    rwa [hrun] at hx
  · rw [runOn_bind_ok hrun]
    rw [hrun] at hx
    exact hf a t hx

end Lightspeed.Lib
