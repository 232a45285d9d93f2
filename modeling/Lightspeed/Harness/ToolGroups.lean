import Lightspeed.Lib.Lists
import Lightspeed.Harness.Rendering

/-!
# Tool groups in a rendering

What `tool_groups_adjacent` does to a list of entries, in terms of the list alone. A call is open until
a result answers it or another turn puts out (`CallOpen`); while one is, what belongs to no group waits.
Nothing is dropped, what belongs to no group keeps its order, nothing foreign stands between a call and
its answer, and what was rendered before another turn puts out is rendered the same ever after.
-/

namespace Lightspeed.Harness

open Lib

variable {scan : GroupScan} {xs ys zs : List ContextEntry} {e : ContextEntry} {callId : ToolCallId}
  {unanswered : List ToolCallId}

/-! ## Calls that are open -/

/-- The call that an entry is. -/
def ContextEntry.calls (e : ContextEntry) : Option ToolCallId :=
  match e.kind with
  | .toolCall callId _ => some callId
  | _ => none

/-- The call that an entry answers. -/
def ContextEntry.answers (e : ContextEntry) : Option ToolCallId :=
  match e.kind with
  | .toolResult callId _ => some callId
  | _ => none

/-- The turn that put out last. -/
def lastOutputTurn (xs : List ContextEntry) : Option (RunId × TurnId) :=
  (xs.filterMap ContextEntry.outputTurn).getLast?

/-- Whether an entry behind `xs` is no output of a turn other than the last one to put out there. -/
def ContextEntry.StaysIn (e : ContextEntry) (xs : List ContextEntry) : Prop :=
  e.outputTurn = none ∨ e.outputTurn = lastOutputTurn xs

/-- A call is open after `xs`: nothing behind it answers it, and no other turn has put out since. -/
def CallOpen (xs : List ContextEntry) (callId : ToolCallId) : Prop :=
  ∃ before call after, xs = before ++ call :: after ∧ call.calls = some callId ∧
    ∀ e ∈ after, e.answers ≠ some callId ∧ e.StaysIn (before ++ [call])

/-- Whether an entry behind `xs` answers a call that is open there. -/
def AnswersOpen (xs : List ContextEntry) (e : ContextEntry) : Prop :=
  ∃ callId, e.answers = some callId ∧ CallOpen xs callId ∧ e.StaysIn xs

/-- Whether an entry behind `xs` belongs to no tool group: it is no call, no answer to an open call, and
no output of the calling turn. -/
structure Apart (xs : List ContextEntry) (e : ContextEntry) : Prop where
  call : e.calls = none
  answer : ¬ AnswersOpen xs e
  output : e.outputTurn = none ∨ e.outputTurn ≠ lastOutputTurn xs

theorem lastOutputTurn_concat (xs : List ContextEntry) (e : ContextEntry) :
    lastOutputTurn (xs ++ [e]) = e.outputTurn.or (lastOutputTurn xs) := by
  unfold lastOutputTurn
  rw [List.filterMap_append]
  cases he : e.outputTurn with
  | none => simp [he]
  | some turn => simp [he]

/-- Output of the calling turn, and what is no output, leaves the calling turn as it is. -/
theorem ContextEntry.StaysIn.lastOutputTurn_eq (h : e.StaysIn xs) :
    lastOutputTurn (xs ++ [e]) = lastOutputTurn xs := by
  rw [lastOutputTurn_concat]
  rcases h with h | h
  · rw [h, Option.none_or]
  · rw [h, Option.or_self]

/-- The same for a list of entries. -/
theorem lastOutputTurn_append (h : ∀ e ∈ ys, e.StaysIn xs) :
    lastOutputTurn (xs ++ ys) = lastOutputTurn xs := by
  induction ys using List.reverseRecOn with
  | nil => rw [List.append_nil]
  | append_singleton ys e ih =>
    have hbefore := ih fun e he => h e (List.mem_append_left _ he)
    have hlast : e.StaysIn (xs ++ ys) := by
      unfold ContextEntry.StaysIn
      rw [hbefore]
      exact h e (List.mem_append_right _ List.mem_cons_self)
    rw [← List.append_assoc, hlast.lastOutputTurn_eq, hbefore]

/-- A call opens itself. -/
theorem callOpen_concat_of_calls (h : e.calls = some callId) : CallOpen (xs ++ [e]) callId :=
  ⟨xs, e, [], rfl, h, fun _ hmem => absurd hmem List.not_mem_nil⟩

/-- What is open goes on being open behind an entry that does not answer it and is no output of another
turn. -/
theorem CallOpen.concat (h : CallOpen xs callId) (hanswer : e.answers ≠ some callId)
    (hstays : e.StaysIn xs) : CallOpen (xs ++ [e]) callId := by
  obtain ⟨before, call, after, rfl, hcall, hafter⟩ := h
  have hturn : lastOutputTurn (before ++ call :: after) = lastOutputTurn (before ++ [call]) := by
    rw [List.append_cons]
    exact lastOutputTurn_append fun e he => (hafter e he).2
  refine ⟨before, call, after ++ [e], by simp, hcall, fun e' he' => ?_⟩
  rcases List.mem_append.mp he' with he' | he'
  · exact hafter e' he'
  · obtain rfl := List.mem_singleton.mp he'
    unfold ContextEntry.StaysIn at hstays ⊢
    rw [hturn] at hstays
    exact ⟨hanswer, hstays⟩

/-- Behind an entry, a call is open that the entry is, or that it leaves open. -/
theorem callOpen_concat_iff :
    CallOpen (xs ++ [e]) callId ↔
      e.calls = some callId ∨ CallOpen xs callId ∧ e.answers ≠ some callId ∧ e.StaysIn xs := by
  constructor
  · rintro ⟨before, call, after, hsplit, hcall, hafter⟩
    rcases List.eq_nil_or_concat after with rfl | ⟨after, last, rfl⟩
    · obtain ⟨-, rfl⟩ := List.append_inj' hsplit rfl |>.imp_right List.singleton_inj.mp
      exact .inl hcall
    · rw [List.concat_eq_append] at hsplit hafter
      rw [← List.cons_append, ← List.append_assoc] at hsplit
      obtain ⟨rfl, hlast⟩ := List.append_inj' hsplit rfl
      obtain rfl := List.singleton_inj.mp hlast
      have hrest := fun e he => hafter e (List.mem_append_left _ he)
      obtain ⟨hanswer, hstays⟩ := hafter e (List.mem_append_right _ List.mem_cons_self)
      have hturn : lastOutputTurn (before ++ call :: after) = lastOutputTurn (before ++ [call]) := by
        rw [List.append_cons]
        exact lastOutputTurn_append fun e he => (hrest e he).2
      refine .inr ⟨⟨before, call, after, rfl, hcall, hrest⟩, hanswer, ?_⟩
      unfold ContextEntry.StaysIn at hstays ⊢
      rwa [hturn]
  · rintro (hcall | ⟨hopen, hanswer, hstays⟩)
    · exact callOpen_concat_of_calls hcall
    · exact hopen.concat hanswer hstays

/-! ## The scan in terms of what it has read -/

/-- The state of the scan behind a list of entries. -/
def scanned (xs : List ContextEntry) : GroupScan := xs.foldl GroupScan.step {}

theorem scanned_concat (xs : List ContextEntry) (e : ContextEntry) :
    scanned (xs ++ [e]) = (scanned xs).step e := by
  unfold scanned
  rw [List.foldl_append]
  rfl

/-- An entry that is no output of another turn leaves the scan as it is before it is placed. -/
theorem GroupScan.enter_eq_self (h : e.outputTurn = none ∨ e.outputTurn = scan.callingTurn) :
    scan.enter e = scan := by
  unfold GroupScan.enter
  refine if_neg fun hother => ?_
  rcases h with h | h
  · rw [h] at hother
    exact absurd hother.1 (by simp)
  · exact hother.2 h

/-- Output of another turn releases what is held and closes every call. -/
theorem GroupScan.enter_eq_of_other (hsome : e.outputTurn ≠ none)
    (hother : e.outputTurn ≠ scan.callingTurn) :
    scan.enter e = { rendered := scan.rendered ++ scan.held, held := [], unanswered := []
                     callingTurn := e.outputTurn } :=
  if_pos ⟨Option.isSome_iff_ne_none.mpr hsome, hother⟩

theorem mem_unansweredAfter :
    callId ∈ unansweredAfter unanswered e ↔
      e.calls = some callId ∨ callId ∈ unanswered ∧ e.answers ≠ some callId := by
  unfold unansweredAfter ContextEntry.calls ContextEntry.answers
  generalize e.kind = kind
  cases kind with
  | toolCall other name => simp [List.mem_insert_iff, eq_comm (a := callId)]
  | toolResult other isError =>
    simp only [List.mem_filter, decide_eq_true_eq, ne_eq, Option.some.injEq, reduceCtorEq, false_or,
      eq_comm (a := callId)]
  | _ => simp

theorem GroupScan.place_unanswered (scan : GroupScan) (e : ContextEntry) :
    (scan.place e).unanswered = unansweredAfter scan.unanswered e := by
  unfold GroupScan.place
  dsimp only
  split_ifs <;> rfl

theorem GroupScan.place_callingTurn (scan : GroupScan) (e : ContextEntry) :
    (scan.place e).callingTurn = scan.callingTurn := by
  unfold GroupScan.place
  dsimp only
  split_ifs <;> rfl

/-- The calling turn is the one that put out last, and what is unanswered are the calls that are
open. -/
theorem scanned_spec (xs : List ContextEntry) :
    (scanned xs).callingTurn = lastOutputTurn xs ∧
      ∀ callId, callId ∈ (scanned xs).unanswered ↔ CallOpen xs callId := by
  induction xs using List.reverseRecOn with
  | nil =>
    refine ⟨rfl, fun callId => ⟨fun hmem => absurd hmem List.not_mem_nil, ?_⟩⟩
    rintro ⟨before, call, after, hsplit, -⟩
    simp at hsplit
  | append_singleton xs e ih =>
    obtain ⟨hturn, hopen⟩ := ih
    rw [scanned_concat, lastOutputTurn_concat]
    simp only [callOpen_concat_iff]
    unfold GroupScan.step
    simp only [GroupScan.place_callingTurn, GroupScan.place_unanswered, mem_unansweredAfter]
    by_cases hstays : e.StaysIn xs
    · rw [GroupScan.enter_eq_self (hturn ▸ hstays), hturn]
      refine ⟨?_, fun callId => ?_⟩
      · rw [← lastOutputTurn_concat, hstays.lastOutputTurn_eq]
      · rw [hopen callId]
        tauto
    · obtain ⟨hsome, hother⟩ := not_or.mp hstays
      rw [GroupScan.enter_eq_of_other hsome (by rwa [hturn])]
      refine ⟨?_, fun callId => ?_⟩
      · obtain ⟨turn, hturn'⟩ := Option.ne_none_iff_exists'.mp hsome
        rw [hturn', Option.some_or]
      · simp [hstays]

theorem scanned_callingTurn (xs : List ContextEntry) :
    (scanned xs).callingTurn = lastOutputTurn xs := (scanned_spec xs).1

theorem mem_scanned_unanswered : callId ∈ (scanned xs).unanswered ↔ CallOpen xs callId :=
  (scanned_spec xs).2 callId

/-- Without an open call nothing is held back. -/
theorem scanned_held (h : (scanned xs).unanswered = []) : (scanned xs).held = [] := by
  rcases List.eq_nil_or_concat xs with rfl | ⟨xs, e, rfl⟩
  · rfl
  · rw [List.concat_eq_append, scanned_concat] at h ⊢
    unfold GroupScan.step at h ⊢
    rw [GroupScan.place_unanswered] at h
    unfold GroupScan.place
    simp [h]

/-! ## One entry more -/

theorem toolGroupsAdjacent_eq (xs : List ContextEntry) : toolGroupsAdjacent xs = (scanned xs).taken :=
  rfl

/-- An entry is placed behind what is rendered, or behind what is held. -/
theorem GroupScan.place_taken (scan : GroupScan) (e : ContextEntry) :
    (scan.place e).taken =
      if inGroup scan.unanswered e || (unansweredAfter scan.unanswered e).isEmpty then
        scan.rendered ++ e :: scan.held
      else scan.rendered ++ scan.held ++ [e] := by
  unfold GroupScan.place GroupScan.taken
  dsimp only
  split_ifs <;> simp_all

/-- What has been read stays in its order when one entry more is read. -/
theorem taken_concat (xs : List ContextEntry) (e : ContextEntry) :
    ∃ before after, (scanned xs).taken = before ++ after ∧
      (scanned (xs ++ [e])).taken = before ++ e :: after := by
  rw [scanned_concat, ← GroupScan.enter_taken (scanned xs) e]
  unfold GroupScan.step
  rw [GroupScan.place_taken]
  generalize (scanned xs).enter e = entered
  split_ifs
  · exact ⟨entered.rendered, entered.held, rfl, rfl⟩
  · exact ⟨entered.taken, [], (List.append_nil _).symm, rfl⟩

/-- An entry that answers no open call leaves the open ones as they are. -/
theorem unansweredAfter_eq_self (hcall : e.calls = none)
    (hanswer : ∀ callId, e.answers = some callId → callId ∉ unanswered) :
    unansweredAfter unanswered e = unanswered := by
  unfold unansweredAfter
  unfold ContextEntry.calls at hcall
  unfold ContextEntry.answers at hanswer
  generalize e.kind = kind at hcall hanswer
  cases kind with
  | toolCall other name => cases hcall
  | toolResult other isError =>
    have hother := hanswer other rfl
    refine List.filter_eq_self.mpr fun id hid => ?_
    exact decide_eq_true fun heq => hother (heq ▸ hid)
  | _ => rfl

/-- Whether an entry is in the open group. -/
theorem inGroup_iff :
    inGroup unanswered e = true ↔
      e.calls ≠ none ∨ (∃ callId ∈ unanswered, e.answers = some callId) ∨
        e.answers = none ∧ e.outputTurn ≠ none := by
  unfold inGroup ContextEntry.calls ContextEntry.answers
  generalize e.kind = kind
  cases kind <;> simp [Option.isSome_iff_ne_none]

/-- An entry that belongs to no group is read behind everything before it. -/
theorem taken_concat_of_apart (h : Apart xs e) :
    (scanned (xs ++ [e])).taken = (scanned xs).taken ++ [e] := by
  rw [scanned_concat]
  unfold GroupScan.step
  rw [GroupScan.place_taken]
  by_cases hstays : e.StaysIn xs
  · have hnone : e.outputTurn = none := by
      rcases hstays with hnone | hsame
      · exact hnone
      · exact h.output.resolve_right fun hne => hne hsame
    have hanswer : ∀ callId, e.answers = some callId → callId ∉ (scanned xs).unanswered :=
      fun callId hanswers hmem =>
        h.answer ⟨callId, hanswers, mem_scanned_unanswered.mp hmem, .inl hnone⟩
    have hgroup : inGroup (scanned xs).unanswered e = false := by
      rw [← Bool.not_eq_true, inGroup_iff]
      rintro (hcall | ⟨callId, hmem, hanswers⟩ | ⟨-, houtput⟩)
      · exact hcall h.call
      · exact hanswer callId hanswers hmem
      · exact houtput hnone
    rw [GroupScan.enter_eq_self (.inl hnone), hgroup, unansweredAfter_eq_self h.call hanswer,
      Bool.false_or]
    unfold GroupScan.taken
    split_ifs with hempty
    · rw [scanned_held (List.isEmpty_iff.mp hempty), List.append_nil]
    · rfl
  · obtain ⟨hsome, hother⟩ := not_or.mp hstays
    rw [GroupScan.enter_eq_of_other hsome (by rwa [scanned_callingTurn])]
    unfold GroupScan.taken
    simp

/-- What has been read stays in its order. -/
theorem taken_sublist (xs ys : List ContextEntry) :
    (scanned xs).taken.Sublist (scanned (xs ++ ys)).taken := by
  induction ys using List.reverseRecOn with
  | nil => rw [List.append_nil]
  | append_singleton ys e ih =>
    obtain ⟨before, after, htaken, hmore⟩ := taken_concat (xs ++ ys) e
    rw [← List.append_assoc, hmore]
    rw [htaken] at ih
    exact ih.trans ((List.sublist_cons_self e after).append_left before)

/-- Entries that belong to no group are rendered in the order in which they come. -/
theorem apart_in_order {x y : ContextEntry} (hx : Apart xs x) (hy : Apart (xs ++ x :: ys) y) :
    [x, y].Sublist (toolGroupsAdjacent (xs ++ x :: (ys ++ y :: zs))) := by
  have hfirst : x ∈ (scanned (xs ++ x :: ys)).taken := by
    have hmem : x ∈ (scanned (xs ++ [x])).taken := by
      rw [taken_concat_of_apart hx]
      exact List.mem_append_right _ List.mem_cons_self
    have hsub := taken_sublist (xs ++ [x]) ys
    rw [← List.append_cons] at hsub
    exact hsub.subset hmem
  have hboth : [x, y].Sublist (scanned (xs ++ x :: ys ++ [y])).taken := by
    rw [taken_concat_of_apart hy]
    exact (List.singleton_sublist.mpr hfirst).append (List.Sublist.refl [y])
  have hsplit : xs ++ x :: (ys ++ y :: zs) = xs ++ x :: ys ++ [y] ++ zs := by simp
  rw [toolGroupsAdjacent_eq, hsplit]
  exact hboth.trans (taken_sublist _ zs)

/-- What is rendered stays at the front. -/
theorem rendered_prefix_place (scan : GroupScan) (e : ContextEntry) :
    scan.rendered <+: (scan.place e).rendered := by
  unfold GroupScan.place
  dsimp only
  split_ifs <;> simp

theorem rendered_prefix_step (scan : GroupScan) (e : ContextEntry) :
    scan.rendered <+: (scan.step e).rendered := by
  refine List.IsPrefix.trans ?_ (rendered_prefix_place (scan.enter e) e)
  unfold GroupScan.enter
  split_ifs
  · exact List.prefix_append _ _
  · exact List.prefix_rfl

theorem rendered_prefix_append (xs ys : List ContextEntry) :
    (scanned xs).rendered <+: (scanned (xs ++ ys)).rendered := by
  induction ys using List.reverseRecOn with
  | nil => exact (List.append_nil xs).symm ▸ List.prefix_rfl
  | append_singleton ys e ih =>
    rw [← List.append_assoc, scanned_concat]
    exact ih.trans (rendered_prefix_step _ e)

/-- What is rendered at one point is at the front of every later rendering. -/
theorem rendered_prefix_toolGroupsAdjacent (xs ys : List ContextEntry) :
    (scanned xs).rendered <+: toolGroupsAdjacent (xs ++ ys) :=
  (rendered_prefix_append xs ys).trans (List.prefix_append _ _)

/-! ## Groups -/

/-- Whether an entry behind `xs` belongs to a tool group: it is a call, an answer to an open call, or
output of the calling turn. -/
def InGroupOf (xs : List ContextEntry) (e : ContextEntry) : Prop :=
  e.calls ≠ none ∨ AnswersOpen xs e ∨ e.outputTurn ≠ none ∧ e.outputTurn = lastOutputTurn xs

/-- While a call is open, an entry that leaves it open is held back, unless it belongs to the group. -/
theorem rendered_concat_of_open (hopen : CallOpen xs callId) (hanswer : e.answers ≠ some callId)
    (hstays : e.StaysIn xs) :
    (scanned (xs ++ [e])).rendered = (scanned xs).rendered ∨
      (scanned (xs ++ [e])).rendered = (scanned xs).rendered ++ [e] ∧ InGroupOf xs e := by
  have hmem : callId ∈ unansweredAfter (scanned xs).unanswered e :=
    mem_unansweredAfter.mpr (.inr ⟨mem_scanned_unanswered.mpr hopen, hanswer⟩)
  have hopen' : (unansweredAfter (scanned xs).unanswered e).isEmpty = false :=
    List.isEmpty_eq_false_iff.mpr (List.ne_nil_of_mem hmem)
  rw [scanned_concat]
  unfold GroupScan.step
  rw [GroupScan.enter_eq_self (by rwa [scanned_callingTurn])]
  unfold GroupScan.place
  dsimp only
  rw [hopen', Bool.or_false, if_neg Bool.false_ne_true]
  by_cases hgroup : inGroup (scanned xs).unanswered e = true
  · refine .inr ⟨if_pos hgroup, ?_⟩
    rcases inGroup_iff.mp hgroup with hcall | ⟨other, hother, hanswers⟩ | ⟨-, houtput⟩
    · exact .inl hcall
    · exact .inr (.inl ⟨other, hanswers, mem_scanned_unanswered.mp hother, hstays⟩)
    · exact .inr (.inr ⟨houtput, hstays.resolve_left houtput⟩)
  · exact .inl (if_neg hgroup)

/-- What is rendered behind a call while it is open belongs to the group. -/
theorem rendered_while_open (hopen : CallOpen xs callId)
    (hys : ∀ e ∈ ys, e.answers ≠ some callId ∧ e.StaysIn xs) :
    CallOpen (xs ++ ys) callId ∧ ∃ between,
      (scanned (xs ++ ys)).rendered = (scanned xs).rendered ++ between ∧
        ∀ e ∈ between, ∃ before after, ys = before ++ e :: after ∧
          CallOpen (xs ++ before) callId ∧ InGroupOf (xs ++ before) e := by
  induction ys using List.reverseRecOn with
  | nil => exact ⟨by rwa [List.append_nil], [], by simp, fun _ h => absurd h List.not_mem_nil⟩
  | append_singleton ys e ih =>
    have hbefore := fun e he => hys e (List.mem_append_left _ he)
    obtain ⟨hanswer, hlast⟩ := hys e (List.mem_append_right _ List.mem_cons_self)
    obtain ⟨hopen', between, hrendered, hbetween⟩ := ih hbefore
    have hstays : e.StaysIn (xs ++ ys) := by
      unfold ContextEntry.StaysIn
      rwa [lastOutputTurn_append fun e he => (hbefore e he).2]
    have hearlier : ∀ e' ∈ between, ∃ before after, ys ++ [e] = before ++ e' :: after ∧
        CallOpen (xs ++ before) callId ∧ InGroupOf (xs ++ before) e' := by
      intro e' he'
      obtain ⟨before, after, rfl, hgroup⟩ := hbetween e' he'
      exact ⟨before, after ++ [e], by simp, hgroup⟩
    rw [← List.append_assoc]
    refine ⟨hopen'.concat hanswer hstays, ?_⟩
    rcases rendered_concat_of_open hopen' hanswer hstays with hsame | ⟨hmore, hgroup⟩
    · exact ⟨between, hsame.trans hrendered, hearlier⟩
    · refine ⟨between ++ [e], by rw [hmore, hrendered, List.append_assoc], fun e' he' => ?_⟩
      rcases List.mem_append.mp he' with he' | he'
      · exact hearlier e' he'
      · obtain rfl := List.mem_singleton.mp he'
        exact ⟨ys, [], rfl, hopen', hgroup⟩

/-- A call is rendered where it comes. -/
theorem rendered_concat_of_call (hcall : e.calls = some callId) :
    ∃ before, (scanned (xs ++ [e])).rendered = before ++ [e] := by
  rw [scanned_concat]
  unfold GroupScan.step
  generalize (scanned xs).enter e = entered
  have hgroup : inGroup entered.unanswered e = true :=
    inGroup_iff.mpr (.inl (by rw [hcall]; exact Option.some_ne_none _))
  have hmem : callId ∈ unansweredAfter entered.unanswered e := mem_unansweredAfter.mpr (.inl hcall)
  have hopen : (unansweredAfter entered.unanswered e).isEmpty = false :=
    List.isEmpty_eq_false_iff.mpr (List.ne_nil_of_mem hmem)
  refine ⟨entered.rendered, ?_⟩
  unfold GroupScan.place
  dsimp only
  rw [hopen, hgroup, Bool.true_or, if_neg Bool.false_ne_true, if_pos rfl]

/-- The answer to an open call is rendered where it comes. -/
theorem rendered_concat_of_answer (hopen : CallOpen xs callId) (hanswer : e.answers = some callId)
    (hstays : e.StaysIn xs) :
    (scanned xs).rendered ++ [e] <+: (scanned (xs ++ [e])).rendered := by
  have hgroup : inGroup (scanned xs).unanswered e = true :=
    inGroup_iff.mpr (.inr (.inl ⟨callId, mem_scanned_unanswered.mpr hopen, hanswer⟩))
  rw [scanned_concat]
  unfold GroupScan.step
  rw [GroupScan.enter_eq_self (by rwa [scanned_callingTurn])]
  unfold GroupScan.place
  dsimp only
  rw [hgroup, Bool.true_or]
  simp only [if_true]
  split_ifs
  · exact List.prefix_append _ _
  · exact List.prefix_rfl

/-- What is rendered between a call and the answer that arrives before another turn puts out belongs to
their group. -/
theorem group_together {before between after : List ContextEntry} {call result : ContextEntry}
    (hcall : call.calls = some callId) (hanswer : result.answers = some callId)
    (hbetween : ∀ e ∈ between, e.answers ≠ some callId)
    (hstays : ∀ e ∈ between ++ [result], e.StaysIn (before ++ [call])) :
    ∃ first inside last,
      toolGroupsAdjacent (before ++ call :: (between ++ result :: after)) =
        first ++ call :: (inside ++ result :: last) ∧
      ∀ e ∈ inside, ∃ earlier later, between = earlier ++ e :: later ∧
        CallOpen (before ++ call :: earlier) callId ∧ InGroupOf (before ++ call :: earlier) e := by
  obtain ⟨first, hfirst⟩ : ∃ first, (scanned (before ++ [call])).rendered = first ++ [call] :=
    rendered_concat_of_call hcall
  have hinside := fun e he => hstays e (List.mem_append_left _ he)
  have hcallOpen : CallOpen (before ++ [call]) callId := callOpen_concat_of_calls hcall
  obtain ⟨hopen, inside, hrendered, hmember⟩ :=
    rendered_while_open hcallOpen fun e he => ⟨hbetween e he, hinside e he⟩
  have hlast : result.StaysIn (before ++ [call] ++ between) := by
    unfold ContextEntry.StaysIn
    rw [lastOutputTurn_append hinside]
    exact hstays result (List.mem_append_right _ List.mem_cons_self)
  have hsplit : before ++ call :: (between ++ result :: after) =
      before ++ [call] ++ between ++ [result] ++ after := by simp
  obtain ⟨last, hprefix⟩ := (rendered_concat_of_answer hopen hanswer hlast).trans
    (rendered_prefix_toolGroupsAdjacent _ after)
  refine ⟨first, inside, last, ?_, fun e he => ?_⟩
  · rw [hsplit, ← hprefix, hrendered, hfirst]
    simp
  · obtain ⟨earlier, later, hbetween, hopen, hgroup⟩ := hmember e he
    rw [← List.append_cons] at hopen hgroup
    exact ⟨earlier, later, hbetween, hopen, hgroup⟩

/-- Rendering drops nothing; what belongs to no group keeps its order; and between a call and the answer
that arrives before another turn puts out stand only entries of their group. -/
theorem tool_groups_kept_together (xs : List ContextEntry)
    (hids : (xs.map ContextEntry.entryId).Nodup) :
    ((toolGroupsAdjacent xs).map ContextEntry.entryId).Perm (xs.map ContextEntry.entryId) ∧
    (∀ before x between y after, xs = before ++ x :: (between ++ y :: after) → Apart before x →
      Apart (before ++ x :: between) y →
        ((toolGroupsAdjacent xs).map ContextEntry.entryId).idxOf x.entryId <
          ((toolGroupsAdjacent xs).map ContextEntry.entryId).idxOf y.entryId) ∧
    ∀ before call between result after callId,
      xs = before ++ call :: (between ++ result :: after) → call.calls = some callId →
      result.answers = some callId → (∀ e ∈ between, e.answers ≠ some callId) →
      (∀ e ∈ between ++ [result], e.StaysIn (before ++ [call])) →
        ∃ first inside last, toolGroupsAdjacent xs = first ++ call :: (inside ++ result :: last) ∧
          ∀ e ∈ inside, ∃ earlier later, between = earlier ++ e :: later ∧
            CallOpen (before ++ call :: earlier) callId ∧ InGroupOf (before ++ call :: earlier) e := by
  have hperm := (toolGroupsAdjacent_perm xs).map ContextEntry.entryId
  refine ⟨hperm, ?_, ?_⟩
  · intro before x between y after hsplit hx hy
    have horder : [x, y].Sublist (toolGroupsAdjacent (before ++ x :: (between ++ y :: after))) :=
      apart_in_order hx hy
    have hsub := horder.map ContextEntry.entryId
    rw [← hsplit] at hsub
    exact idxOf_lt_of_sublist hsub (hperm.nodup_iff.mpr hids)
  · rintro before call between result after callId rfl hcall hanswer hbetween hstays
    exact group_together hcall hanswer hbetween hstays

/-- A call of a run's turn, with what a client and its tool then write. -/
def openGroup : List ContextEntry :=
  [{ entryId := 1, kind := .toolCall "call_1" "read", source := .assistantOutput 1 1
     content := { contentRef := ⟨"call"⟩ } },
   { entryId := 2, kind := .message .user, source := .contextEdit, content := { contentRef := ⟨"note"⟩ } }]

/-- The answer to the call. -/
def lateAnswer : ContextEntry where
  entryId := 3
  kind := .toolResult "call_1" false
  source := .tool 1 1 none
  content := { contentRef := ⟨"result"⟩ }

theorem tool_groups_kept_together_openGroup :
    ((toolGroupsAdjacent (openGroup ++ [lateAnswer])).map ContextEntry.entryId).Perm [1, 2, 3] ∧
      (toolGroupsAdjacent (openGroup ++ [lateAnswer])).map ContextEntry.entryId = [1, 3, 2] :=
  ⟨(tool_groups_kept_together (openGroup ++ [lateAnswer]) (by decide)).1, by decide⟩

/-! ## What was sent -/

/-- While a call is open, entries that are no output, no call and no answer to what is open are all
held back. -/
theorem scanned_append_of_waiting (hopen : CallOpen xs callId)
    (hzs : ∀ e ∈ zs, e.outputTurn = none ∧ e.calls = none ∧
      ∀ other, e.answers = some other → ¬ CallOpen xs other) :
    (scanned (xs ++ zs)).rendered = (scanned xs).rendered ∧
      (scanned (xs ++ zs)).held = (scanned xs).held ++ zs ∧
      (scanned (xs ++ zs)).unanswered = (scanned xs).unanswered ∧
      (scanned (xs ++ zs)).callingTurn = (scanned xs).callingTurn := by
  induction zs using List.reverseRecOn with
  | nil => simp
  | append_singleton zs e ih =>
    obtain ⟨hrendered, hheld, hunanswered, hturn⟩ := ih fun e he => hzs e (List.mem_append_left _ he)
    obtain ⟨hnone, hcall, hanswer⟩ := hzs e (List.mem_append_right _ List.mem_cons_self)
    have hfresh : ∀ other, e.answers = some other → other ∉ (scanned xs).unanswered :=
      fun other hanswers hmem => hanswer other hanswers (mem_scanned_unanswered.mp hmem)
    have hgroup : inGroup (scanned xs).unanswered e = false := by
      rw [← Bool.not_eq_true, inGroup_iff]
      rintro (hcalls | ⟨other, hmem, hanswers⟩ | ⟨-, houtput⟩)
      · exact hcalls hcall
      · exact hfresh other hanswers hmem
      · exact houtput hnone
    have hwaits : (scanned xs).unanswered.isEmpty = false :=
      List.isEmpty_eq_false_iff.mpr (List.ne_nil_of_mem (mem_scanned_unanswered.mpr hopen))
    rw [← List.append_assoc, scanned_concat]
    unfold GroupScan.step
    rw [GroupScan.enter_eq_self (.inl hnone)]
    unfold GroupScan.place
    dsimp only
    rw [hunanswered, unansweredAfter_eq_self hcall hfresh, hgroup, hwaits]
    simp [hrendered, hheld, hturn]

/-- What was rendered before another turn puts out is the beginning of every later rendering. Until
then entries may be added that answer nothing open, and no calls while one is open. -/
theorem rendered_stays (xs zs ys : List ContextEntry) (o : ContextEntry)
    (hzs : ∀ e ∈ zs, e.outputTurn = none ∧
      ∀ callId, e.answers = some callId → ¬ CallOpen xs callId)
    (hcalls : (∃ callId, CallOpen xs callId) → ∀ e ∈ zs, e.calls = none)
    (houtput : o.outputTurn ≠ none) (hother : o.outputTurn ≠ lastOutputTurn xs) :
    toolGroupsAdjacent xs <+: toolGroupsAdjacent (xs ++ zs ++ o :: ys) := by
  by_cases hopen : ∃ callId, CallOpen xs callId
  · obtain ⟨callId, hopen⟩ := hopen
    obtain ⟨hrendered, hheld, -, hturn⟩ := scanned_append_of_waiting hopen fun e he =>
      ⟨(hzs e he).1, hcalls ⟨callId, hopen⟩ e he, (hzs e he).2⟩
    -- The output that follows releases what waits, in order.
    have hentered : ((scanned (xs ++ zs)).enter o).rendered = (scanned xs).taken ++ zs := by
      rw [GroupScan.enter_eq_of_other houtput (by rwa [hturn, scanned_callingTurn]), hrendered, hheld,
        ← List.append_assoc]
      rfl
    have hplaced : (scanned xs).taken ++ zs <+: (scanned (xs ++ zs ++ [o])).rendered := by
      rw [scanned_concat, ← hentered]
      exact rendered_prefix_place _ o
    rw [toolGroupsAdjacent_eq xs, List.append_cons]
    exact (List.prefix_append _ zs).trans
      (hplaced.trans (rendered_prefix_toolGroupsAdjacent _ ys))
  · have hnone : (scanned xs).unanswered = [] :=
      List.eq_nil_iff_forall_not_mem.mpr fun callId hmem =>
        hopen ⟨callId, mem_scanned_unanswered.mp hmem⟩
    have hall : toolGroupsAdjacent xs = (scanned xs).rendered := by
      rw [toolGroupsAdjacent_eq]
      unfold GroupScan.taken
      rw [scanned_held hnone, List.append_nil]
    rw [hall, List.append_assoc]
    exact rendered_prefix_toolGroupsAdjacent xs _

/-- A message of a client. -/
def laterNote : ContextEntry where
  entryId := 3
  kind := .message .user
  source := .contextEdit
  content := { contentRef := ⟨"later"⟩ }

/-- The first output of the next turn. -/
def nextOutput : ContextEntry where
  entryId := 4
  kind := .message .assistant
  source := .assistantOutput 1 2
  content := { contentRef := ⟨"answer"⟩ }

theorem rendered_stays_openGroup :
    toolGroupsAdjacent openGroup <+: toolGroupsAdjacent (openGroup ++ [laterNote] ++ [nextOutput]) := by
  refine rendered_stays openGroup [laterNote] [] nextOutput (fun e he => ?_) (fun _ e he => ?_)
    (by decide) (by decide)
  · obtain rfl := List.mem_singleton.mp he
    exact ⟨rfl, nofun⟩
  · obtain rfl := List.mem_singleton.mp he
    rfl

/-- A call that is no output, as a client's edit could be. -/
def foreignCall : ContextEntry where
  entryId := 3
  kind := .toolCall "call_2" "read"
  source := .contextEdit
  content := { contentRef := ⟨"call"⟩ }

/-- A call that joins the open group is rendered in front of what the group holds back. -/
theorem rendered_moves :
    ¬ ∀ (xs zs ys : List ContextEntry) (o : ContextEntry),
      (∀ e ∈ zs, e.outputTurn = none ∧ ∀ callId, e.answers = some callId → ¬ CallOpen xs callId) →
        o.outputTurn ≠ none → o.outputTurn ≠ lastOutputTurn xs →
          toolGroupsAdjacent xs <+: toolGroupsAdjacent (xs ++ zs ++ o :: ys) := by
  intro h
  have hprefix := h openGroup [foreignCall] [] nextOutput (fun e he => ?_) (by decide) (by decide)
  · exact absurd hprefix (by decide)
  · obtain rfl := List.mem_singleton.mp he
    exact ⟨rfl, nofun⟩

end Lightspeed.Harness
