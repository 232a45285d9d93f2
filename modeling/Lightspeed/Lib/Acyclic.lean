import Lightspeed.Lib.Result
import Mathlib.Data.Set.Finite.Basic
import Mathlib.Data.List.Count
import Mathlib.Logic.Relation
import Mathlib.Order.WellFounded

/-!
# Relations without cycles

A relation has no cycle when no element reaches itself. Two parts of an acyclic relation fit together
when no edge from the one into the other can be followed back. On a finite nonempty collection an
acyclic relation has a sink. Depth-first search with three marks, as programs write it, finds a cycle
exactly when there is one.
-/

namespace Lightspeed.Lib

open Relation

variable {ν : Type*} {R S : ν → ν → Prop}

/-- No element reaches itself. -/
def Acyclic (R : ν → ν → Prop) : Prop := ∀ a, ¬ TransGen R a a

theorem Acyclic.mono (h : Acyclic S) (hle : ∀ a b, R a b → S a b) : Acyclic R :=
  fun a hR => h a (TransGen.mono (fun a b => hle a b) a a hR)

/-- There is no cycle through an element from which every path ends. -/
theorem not_transGen_of_acc {a : ν} (h : Acc (flip R) a) : ¬ TransGen R a a := by
  induction h with
  | intro a _ ih =>
    intro hcycle
    obtain ⟨b, hab, hba⟩ := TransGen.head'_iff.mp hcycle
    exact ih b hab (TransGen.tail' hba hab)

/-- On a finite collection an acyclic relation has a sink. -/
theorem Acyclic.exists_sink (h : Acyclic R) {xs : List ν} (hne : xs ≠ []) :
    ∃ a ∈ xs, ∀ b ∈ xs, ¬ R a b := by
  let after : {a // a ∈ xs} → {a // a ∈ xs} → Prop := fun b a => TransGen R a.1 b.1
  have htrans : IsTrans _ after := ⟨fun _ _ _ hab hbc => hbc.trans hab⟩
  have hirrefl : Std.Irrefl after := ⟨fun a => h a.1⟩
  have hfinite : Finite {a // a ∈ xs} := (List.finite_toSet xs).to_subtype
  have hwf : WellFounded after := Finite.wellFounded_of_trans_of_irrefl after
  obtain ⟨first, hfirst⟩ := List.exists_mem_of_ne_nil xs hne
  obtain ⟨⟨a, ha⟩, -, hlast⟩ := hwf.has_min Set.univ ⟨⟨first, hfirst⟩, trivial⟩
  exact ⟨a, ha, fun b hb hab => hlast ⟨b, hb⟩ trivial (.single hab)⟩

/-- A cycle that meets one side of a partition stays in it, when no edge into the other side can be
followed back. -/
theorem cycle_stays {N : ν → Prop} (hcross : ∀ a b, R a b → ¬ N a → N b → ¬ ReflTransGen R b a)
    {a b : ν} (ha : ¬ N a) (h : TransGen R a b) (hback : ReflTransGen R b a) :
    TransGen (fun a b => R a b ∧ ¬ N a ∧ ¬ N b) a b ∧ ¬ N b := by
  have hstep : ∀ c d, ReflTransGen R a c → ¬ N c → R c d → ReflTransGen R d a → ¬ N d :=
    fun c d hac hc hcd hda hd => hcross c d hcd hc hd (hda.trans hac)
  induction h with
  | @single b hab =>
    have hb := hstep a b .refl ha hab hback
    exact ⟨.single ⟨hab, ha, hb⟩, hb⟩
  | @tail b c hab hbc ih =>
    obtain ⟨hpath, hb⟩ := ih (.head hbc hback)
    have hc := hstep b c hab.to_reflTransGen hb hbc hback
    exact ⟨hpath.tail ⟨hbc, hb, hc⟩, hc⟩

/-- A relation is acyclic when it is so on both sides of a partition and no edge from the one side into
the other can be followed back. -/
theorem acyclic_of_sides {N : ν → Prop} (hin : Acyclic fun a b => R a b ∧ N a ∧ N b)
    (hout : Acyclic fun a b => R a b ∧ ¬ N a ∧ ¬ N b)
    (hcross : ∀ a b, R a b → ¬ N a → N b → ¬ ReflTransGen R b a) : Acyclic R := by
  have hinside : ∀ a, TransGen R a a → N a := fun a hcycle => by
    by_contra ha
    exact hout a (cycle_stays hcross ha hcycle .refl).1
  intro a hcycle
  have hstays : ∀ b, TransGen R a b → ReflTransGen R b a →
      TransGen (fun a b => R a b ∧ N a ∧ N b) a b := by
    intro b hab
    induction hab with
    | single hab =>
      intro hba
      exact .single ⟨hab, hinside _ hcycle, hinside _ (TransGen.tail' hba hab)⟩
    | @tail b c hab hbc ih =>
      intro hca
      have hb : N b := hinside b (TransGen.head' hbc (hca.trans hab.to_reflTransGen))
      have hc : N c := hinside c (TransGen.tail' (hca.trans hab.to_reflTransGen) hbc)
      exact (ih (.head hbc hca)).tail ⟨hbc, hb, hc⟩
  exact hin a (hstays a hcycle .refl)

/-! ## Depth-first search -/

/-- How far the search is with a vertex. -/
inductive Mark where
  | unvisited
  | onStack
  | done
  deriving DecidableEq

section Search

variable [DecidableEq ν] {next : ν → List ν} {fuel : Nat} {v u : ν} {marks marks' : ν → Mark}

/-- The visit of a vertex: an error names a vertex that was met again on the stack. -/
def visit (next : ν → List ν) : Nat → ν → (ν → Mark) → Except ν (ν → Mark)
  | 0, v, marks =>
    match marks v with
    | .done => .ok marks
    | .onStack | .unvisited => .error v
  | fuel + 1, v, marks =>
    match marks v with
    | .done => .ok marks
    | .onStack => .error v
    | .unvisited => do
      let marks ← (next v).foldlM (fun marks w => visit next fuel w marks)
        (Function.update marks v .onStack)
      .ok (Function.update marks v .done)

/-- The search from each of some roots: a vertex on a cycle, if it meets one. -/
def findCycle (next : ν → List ν) (fuel : Nat) (roots : List ν) : Option ν :=
  match roots.foldlM (fun marks v => visit next fuel v marks) (fun _ => .unvisited) with
  | .ok _ => none
  | .error v => some v

/-- What a search that meets no cycle leaves: the vertices that are done, and from which every path
ends, are still so, the stack is as it was, and nothing becomes unvisited. -/
structure Visited (next : ν → List ν) (marks marks' : ν → Mark) : Prop where
  done : ∀ w, marks w = .done → marks' w = .done
  ends : (∀ w, marks w = .done → Acc (flip fun a b => b ∈ next a) w) →
    ∀ w, marks' w = .done → Acc (flip fun a b => b ∈ next a) w
  stack : ∀ w, marks' w = .onStack ↔ marks w = .onStack
  unvisited : ∀ w, marks' w = .unvisited → marks w = .unvisited

omit [DecidableEq ν] in
theorem Visited.refl (marks : ν → Mark) : Visited next marks marks :=
  ⟨fun _ h => h, fun h => h, fun _ => .rfl, fun _ h => h⟩

omit [DecidableEq ν] in
theorem Visited.trans {marks'' : ν → Mark} (h : Visited next marks marks')
    (h' : Visited next marks' marks'') : Visited next marks marks'' where
  done w hw := h'.done w (h.done w hw)
  ends hends := h'.ends (h.ends hends)
  stack w := (h'.stack w).trans (h.stack w)
  unvisited w hw := h.unvisited w (h'.unvisited w hw)

/-- The vertices that are visited one after the other are all done at the end. -/
theorem visited_foldlM {ws : List ν}
    (hvisit : ∀ w ∈ ws, ∀ marks marks', visit next fuel w marks = .ok marks' →
      Visited next marks marks' ∧ marks' w = .done)
    (h : ws.foldlM (fun marks w => visit next fuel w marks) marks = .ok marks') :
    Visited next marks marks' ∧ ∀ w ∈ ws, marks' w = .done := by
  induction ws generalizing marks with
  | nil =>
    cases h
    exact ⟨.refl _, nofun⟩
  | cons w ws ih =>
    rw [List.foldlM_cons] at h
    cases hw : visit next fuel w marks with
    | error v =>
      rw [hw] at h
      cases h
    | ok between =>
      rw [hw] at h
      obtain ⟨hfirst, hdone⟩ := hvisit w List.mem_cons_self marks between hw
      obtain ⟨hrest, hall⟩ := ih (fun w hw => hvisit w (List.mem_cons_of_mem _ hw)) h
      refine ⟨hfirst.trans hrest, fun x hx => ?_⟩
      rcases List.mem_cons.mp hx with rfl | hx
      · exact hrest.done x hdone
      · exact hall x hx

theorem visited_of_ok (h : visit next fuel v marks = .ok marks') :
    Visited next marks marks' ∧ marks' v = .done := by
  induction fuel generalizing v marks marks' with
  | zero =>
    rw [visit] at h
    split at h
    next hv =>
      cases h
      exact ⟨.refl _, hv⟩
    all_goals cases h
  | succ fuel ih =>
    rw [visit] at h
    split at h
    next hv =>
      cases h
      exact ⟨.refl _, hv⟩
    · cases h
    next hv =>
      obtain ⟨between, hfold, h⟩ := bind_eq_ok.mp h
      obtain rfl : Function.update between v .done = marks' := Except.ok.inj h
      obtain ⟨hvisited, hall⟩ := visited_foldlM (fun w _ _ _ hw => ih hw) hfold
      have hother : ∀ w, marks w ≠ .unvisited → w ≠ v := by
        rintro w hw rfl
        exact hw hv
      refine ⟨⟨fun w hw => ?_, fun hends w hw => ?_, fun w => ?_, fun w hw => ?_⟩, ?_⟩
      · have hne : w ≠ v := hother w (by rw [hw]; nofun)
        rw [Function.update_of_ne hne]
        exact hvisited.done w (by rwa [Function.update_of_ne hne])
      · have hends' : ∀ w, between w = .done → Acc (flip fun a b => b ∈ next a) w := by
          refine hvisited.ends fun w hw => ?_
          by_cases hwv : w = v
          · rw [hwv, Function.update_self] at hw
            cases hw
          · exact hends w (by rwa [Function.update_of_ne hwv] at hw)
        by_cases hwv : w = v
        · rw [hwv]
          exact ⟨v, fun x hx => hends' x (hall x hx)⟩
        · exact hends' w (by rwa [Function.update_of_ne hwv] at hw)
      · by_cases hwv : w = v
        · rw [hwv, Function.update_self, hv]
          simp
        · rw [Function.update_of_ne hwv, hvisited.stack, Function.update_of_ne hwv]
      · have hne : w ≠ v := by
          rintro rfl
          rw [Function.update_self] at hw
          cases hw
        rw [Function.update_of_ne hne] at hw
        have hbefore := hvisited.unvisited w hw
        rwa [Function.update_of_ne hne] at hbefore
      · exact Function.update_self ..

/-- A search that meets no cycle leaves none: every path from a root ends. -/
theorem acc_of_findCycle {roots : List ν} (h : findCycle next fuel roots = none) :
    ∀ v ∈ roots, Acc (flip fun a b => b ∈ next a) v := by
  unfold findCycle at h
  split at h
  next marks hfold =>
    obtain ⟨hvisited, hall⟩ := visited_foldlM (fun w _ _ _ hw => visited_of_ok hw) hfold
    exact fun v hv => hvisited.ends nofun v (hall v hv)
  · cases h

/-- The vertices of a collection that the search has yet to meet. -/
def unvisitedCount (marks : ν → Mark) (vs : List ν) : Nat := vs.countP fun v => marks v = .unvisited

omit [DecidableEq ν] in
theorem unvisitedCount_le {vs : List ν} (h : Visited next marks marks') :
    unvisitedCount marks' vs ≤ unvisitedCount marks vs :=
  List.countP_mono_left fun w _ hw => by
    rw [decide_eq_true_eq] at hw ⊢
    exact h.unvisited w hw

theorem unvisitedCount_update {vs : List ν} (hmem : v ∈ vs) (hv : marks v = .unvisited) :
    unvisitedCount (Function.update marks v .onStack) vs < unvisitedCount marks vs := by
  have hmono : ∀ ws : List ν, unvisitedCount (Function.update marks v .onStack) ws ≤
      unvisitedCount marks ws := fun ws => List.countP_mono_left fun w _ hw => by
    rw [decide_eq_true_eq] at hw ⊢
    by_cases hwv : w = v
    · rw [hwv]
      exact hv
    · rwa [Function.update_of_ne hwv] at hw
  obtain ⟨before, after, rfl⟩ := List.append_of_mem hmem
  have hbefore := hmono before
  have hafter := hmono after
  unfold unvisitedCount at hbefore hafter ⊢
  rw [List.countP_append, List.countP_append, List.countP_cons_of_neg (by simp),
    List.countP_cons_of_pos (by simpa using hv)]
  omega

/-- What a search stops at lies on a cycle, when the fuel lasts for the vertices it has yet to meet and
those on the stack lead to where it stands. -/
theorem cycle_of_error {vs : List ν} (hclosed : ∀ v ∈ vs, ∀ w ∈ next v, w ∈ vs) (hv : v ∈ vs)
    (hfuel : unvisitedCount marks vs ≤ fuel)
    (hstack : ∀ w, marks w = .onStack → TransGen (fun a b => b ∈ next a) w v)
    (h : visit next fuel v marks = .error u) : TransGen (fun a b => b ∈ next a) u u := by
  induction fuel generalizing v marks with
  | zero =>
    rw [visit] at h
    split at h
    · cases h
    next hmark =>
      cases h
      exact hstack _ hmark
    next hmark =>
      have hless := unvisitedCount_update hv hmark
      omega
  | succ fuel ih =>
    rw [visit] at h
    split at h
    · cases h
    next hmark =>
      cases h
      exact hstack _ hmark
    next hmark =>
      rcases bind_eq_error.mp h with hfold | ⟨between, hfold, h⟩
      · obtain ⟨before, w, after, between, hsplit, hbefore, hw⟩ := foldlM_eq_error hfold
        have hnext : w ∈ next v := by
          rw [hsplit]
          exact List.mem_append_right _ List.mem_cons_self
        obtain ⟨hvisited, -⟩ := visited_foldlM (fun w _ _ _ hw => visited_of_ok hw) hbefore
        have hless := unvisitedCount_update hv hmark
        have hle : unvisitedCount between vs ≤
            unvisitedCount (Function.update marks v .onStack) vs := unvisitedCount_le hvisited
        refine ih (hclosed v hv w hnext) (by omega) (fun x hx => ?_) hw
        -- The stack is that of the caller with the vertex itself on top.
        rw [hvisited.stack] at hx
        by_cases hxv : x = v
        · rw [hxv]
          exact .single hnext
        · rw [Function.update_of_ne hxv] at hx
          exact (hstack x hx).tail hnext
      · cases h

/-- What a search finds lies on a cycle. -/
theorem cycle_of_findCycle {vs roots : List ν} (hclosed : ∀ v ∈ vs, ∀ w ∈ next v, w ∈ vs)
    (hroots : ∀ v ∈ roots, v ∈ vs) (hfuel : vs.length ≤ fuel)
    (h : findCycle next fuel roots = some u) : TransGen (fun a b => b ∈ next a) u u := by
  unfold findCycle at h
  split at h
  · cases h
  next v hfold =>
    cases h
    obtain ⟨before, w, after, between, hsplit, hbefore, hw⟩ := foldlM_eq_error hfold
    obtain ⟨hvisited, -⟩ := visited_foldlM (fun w _ _ _ hw => visited_of_ok hw) hbefore
    have hroot : w ∈ roots := by
      rw [hsplit]
      exact List.mem_append_right _ List.mem_cons_self
    have hcount : unvisitedCount between vs ≤ vs.length := List.countP_le_length
    refine cycle_of_error hclosed (hroots w hroot) (hcount.trans hfuel) (fun x hx => ?_) hw
    rw [hvisited.stack] at hx
    cases hx

end Search

end Lightspeed.Lib
