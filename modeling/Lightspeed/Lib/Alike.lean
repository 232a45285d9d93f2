import Lightspeed.Lib.Program

/-!
# Programs that treat states alike

A program treats related states alike when each of its steps yields the same from both and leaves them
related. What reaches the state of such a program, and leaves it related to what it was, can be left out
of a run: the rest of the run comes to the same program, in a related state.
-/

namespace Lightspeed.Lib.Program

variable {σ ρ ε κ : Type} {Reply : ρ → Type} {α β ι : Type}

/-- Every step of a program treats related states alike, what it yields is a `Q`, and a failure is an
`E`. -/
inductive Alike (R : σ → σ → Prop) :
    {α : Type} → (α → Prop) → (ε → Prop) → Program σ ρ Reply ε α → Prop
  | done {α : Type} {Q : α → Prop} {E : ε → Prop} {a : α} (h : Q a) : Alike R Q E (.done a)
  | fail {α : Type} {Q : α → Prop} {E : ε → Prop} {error : ε} (h : E error) :
      Alike R Q E (.fail error)
  | act {α : Type} {Q : α → Prop} {E : ε → Prop} {f : σ → α × σ}
      (h : ∀ s t, R s t → (f s).1 = (f t).1 ∧ R (f s).2 (f t).2 ∧ Q (f s).1) : Alike R Q E (.act f)
  | wait {request : ρ} {Q : Reply request → Prop} {E : ε → Prop} (h : ∀ reply, Q reply) :
      Alike R Q E (.wait request)
  | bind {α β : Type} {Q : β → Prop} {E : ε → Prop} {first : Program σ ρ Reply ε α}
      {next : α → Program σ ρ Reply ε β} (P : α → Prop) (hfirst : Alike R P E first)
      (hnext : ∀ a, P a → Alike R Q E (next a)) : Alike R Q E (.bind first next)
  | attempt {α : Type} {Q : Except ε α → Prop} {E : ε → Prop} {body : Program σ ρ Reply ε α}
      (h : Alike R (fun a => Q (.ok a)) (fun error => Q (.error error)) body) :
      Alike R Q E (.attempt body)
  | loop {ι α : Type} {Q : α → Prop} {E : ε → Prop} {body : ι → Program σ ρ Reply ε (ι ⊕ α)} {i : ι}
      (P : ι → Prop) (hi : P i) (hbody : ∀ i, P i → Alike R (Sum.elim P Q) E (body i)) :
      Alike R Q E (.loop body i)

variable {R : σ → σ → Prop} {Q : α → Prop} {E : ε → Prop} {p q : Program σ ρ Reply ε α}
  {outside : Outside σ ρ Reply κ} {s t s' : σ}

/-- A program whose result is not looked at. -/
theorem Alike.seq {first : Program σ ρ Reply ε β} {next : β → Program σ ρ Reply ε α}
    (hfirst : Alike R (fun _ => True) E first) (hnext : ∀ b, Alike R Q E (next b)) :
    Alike R Q E (.bind first next) := .bind _ hfirst fun b _ => hnext b

theorem Alike.ok (h : Alike R Q E p) {a : α} (houtcome : p.outcome = some (.ok a)) : Q a := by
  cases h with
  | done h =>
    cases houtcome
    exact h
  | _ => cases houtcome

theorem Alike.error (h : Alike R Q E p) {error : ε} (houtcome : p.outcome = some (.error error)) :
    E error := by
  cases h with
  | fail h =>
    cases houtcome
    exact h
  | _ => cases houtcome

/-- A step from one of two related states is a step from the other. -/
theorem Alike.advance (h : Alike R Q E p) (hst : R s t) (hadvance : p.advance s = some (q, s')) :
    ∃ t', p.advance t = some (q, t') ∧ R s' t' ∧ Alike R Q E q := by
  induction h with
  | done h | fail h | wait h => cases hadvance
  | act h =>
    obtain ⟨hvalue, hafter, hyields⟩ := h s t hst
    cases hadvance
    refine ⟨_, ?_, hafter, .done hyields⟩
    rw [hvalue]
    rfl
  | @bind _ _ _ _ first next P hfirst hnext ih =>
    unfold Program.advance at hadvance ⊢
    split at hadvance
    next a houtcome =>
      cases hadvance
      exact ⟨t, rfl, hst, hnext a (hfirst.ok houtcome)⟩
    next error houtcome =>
      cases hadvance
      exact ⟨t, rfl, hst, .fail (hfirst.error houtcome)⟩
    next houtcome =>
      obtain ⟨⟨first', u⟩, hstep, hpair⟩ := Option.map_eq_some_iff.mp hadvance
      cases hpair
      obtain ⟨t', hother, hafter, halike⟩ := ih hstep
      refine ⟨t', ?_, hafter, .bind P halike hnext⟩
      rw [hother]
      rfl
  | @attempt _ _ _ body h ih =>
    unfold Program.advance at hadvance ⊢
    split at hadvance
    next result houtcome =>
      cases hadvance
      refine ⟨t, rfl, hst, .done ?_⟩
      cases result with
      | ok a => exact h.ok houtcome
      | error error => exact h.error houtcome
    next houtcome =>
      obtain ⟨⟨body', u⟩, hstep, hpair⟩ := Option.map_eq_some_iff.mp hadvance
      cases hpair
      obtain ⟨t', hother, hafter, halike⟩ := ih hstep
      refine ⟨t', ?_, hafter, .attempt halike⟩
      rw [hother]
      rfl
  | @loop _ _ _ _ body i P hi hbody =>
    cases hadvance
    refine ⟨t, rfl, hst, .bind _ (hbody i hi) ?_⟩
    rintro (j | a) hresult
    · exact .loop P hresult hbody
    · exact .done hresult

theorem Alike.answer (h : Alike R Q E p) (reply : ∀ request, Reply request) :
    Alike R Q E (p.answer reply) := by
  induction h with
  | done h => exact .done h
  | fail h => exact .fail h
  | act h => exact .act h
  | wait h => exact .done (h _)
  | bind P _ hnext ih => exact .bind P ih hnext
  | attempt _ ih => exact .attempt ih
  | loop P hi hbody => exact .loop P hi hbody

/-- An input that is a signal of a kind. -/
def Input.isSignal (kind : κ → Bool) : Input ρ Reply κ → Bool
  | .signal sent => kind sent
  | .advance | .answer _ => false

/-- An outside that treats related states alike, but for the signals of a kind, which change nothing
that the relation sees. -/
structure Outside.Alike (outside : Outside σ ρ Reply κ) (R : σ → σ → Prop) (kind : κ → Bool) : Prop where
  allows : ∀ request s t reply, R s t →
    outside.allows request s reply = outside.allows request t reply
  foreign : ∀ s t signal s', R s t → kind signal = true → outside.receive s signal = some s' → R s' t
  native : ∀ s t signal s', R s t → kind signal = false → outside.receive s signal = some s' →
    ∃ t', outside.receive t signal = some t' ∧ R s' t'

/-- A run of a program that treats states alike comes to the same program without the signals that
change nothing. -/
theorem Alike.run {kind : κ → Bool} {init : σ → Prop}
    {steps : List (Config σ ρ Reply ε α × Input ρ Reply κ)} {c : Config σ ρ Reply ε α}
    (hp : Alike R Q E p) (houtside : outside.Alike R kind) (hinit : ∀ s, init s → R s s)
    (hrun : (machine outside p init).Run steps c) :
    ∃ rest t, (machine outside p init).Run rest (c.1, t) ∧ R c.2 t ∧
      rest.map Prod.snd = (steps.map Prod.snd).filter fun input => !input.isSignal kind := by
  suffices h : Alike R Q E c.1 ∧ ∃ rest t, (machine outside p init).Run rest (c.1, t) ∧ R c.2 t ∧
      rest.map Prod.snd = (steps.map Prod.snd).filter fun input => !input.isSignal kind from h.2
  induction hrun with
  | @init c hc =>
    obtain ⟨q, s⟩ := c
    obtain ⟨rfl, hs⟩ := hc
    exact ⟨hp, [], s, .init ⟨rfl, hs⟩, hinit s hs, rfl⟩
  | @step steps c d input _ hstep ih =>
    obtain ⟨halike, rest, t, hrest, hst, hinputs⟩ := ih
    obtain ⟨q, s⟩ := c
    -- The step is taken from the related state, unless it is a signal that changes nothing.
    have hnext : ∀ {d' : Config σ ρ Reply ε α},
        input.isSignal kind = false → step outside (q, t) input = some d' → d'.1 = d.1 → R d.2 d'.2 →
        ∃ rest t, (machine outside p init).Run rest (d.1, t) ∧ R d.2 t ∧
          rest.map Prod.snd = ((steps ++ [((q, s), input)]).map Prod.snd).filter fun input =>
            !input.isSignal kind := by
      rintro ⟨q', t'⟩ hsignal htaken rfl hafter
      refine ⟨rest ++ [((q, t), input)], t', hrest.step htaken, hafter, ?_⟩
      rw [List.map_append, List.map_append, List.filter_append, hinputs]
      simp [hsignal]
    cases input with
    | advance =>
      obtain ⟨q', s'⟩ := d
      obtain ⟨t', htaken, hafter, halike'⟩ := halike.advance hst hstep
      exact ⟨halike', hnext rfl htaken rfl hafter⟩
    | answer reply =>
      obtain ⟨request, hwaits, hstep⟩ := Option.bind_eq_some_iff.mp hstep
      dsimp only at hstep
      split_ifs at hstep with hallows
      cases hstep
      refine ⟨halike.answer reply, @hnext (q.answer reply, t) rfl ?_ rfl hst⟩
      refine Option.bind_eq_some_iff.mpr ⟨request, hwaits, if_pos ?_⟩
      rwa [← houtside.allows request s t (reply request) hst]
    | signal signal =>
      obtain ⟨request, hwaits, hstep⟩ := Option.bind_eq_some_iff.mp hstep
      obtain ⟨s', hreceive, rfl⟩ := Option.map_eq_some_iff.mp hstep
      refine ⟨halike, ?_⟩
      cases hkind : kind signal with
      | true =>
        refine ⟨rest, t, hrest, houtside.foreign s t signal s' hst hkind hreceive, ?_⟩
        rw [hinputs, List.map_append, List.filter_append]
        simp [Input.isSignal, hkind]
      | false =>
        obtain ⟨t', hother, hafter⟩ := houtside.native s t signal s' hst hkind hreceive
        refine @hnext (q, t') hkind ?_ rfl hafter
        refine Option.bind_eq_some_iff.mpr ⟨request, hwaits, ?_⟩
        rw [hother]
        rfl

end Lightspeed.Lib.Program
