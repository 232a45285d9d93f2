import Lightspeed.Lib.Machine

/-!
# Programs that wait

Sequential programs over a state, which stop for the outside: what they ask is answered later, and the
state may have changed by then. A program is run as a machine, one step at a time. What such a program
keeps is shown piece by piece, with an invariant for each loop and for each wait something that the
outside leaves alone.
-/

namespace Lightspeed.Lib

open Relation

/-- Programs over a state `σ` that ask `ρ` of the outside and fail with an `ε`. -/
inductive Program (σ ρ : Type) (Reply : ρ → Type) (ε : Type) : Type → Type 1
  | done {α : Type} (a : α) : Program σ ρ Reply ε α
  | fail {α : Type} (error : ε) : Program σ ρ Reply ε α
  | act {α : Type} (f : σ → α × σ) : Program σ ρ Reply ε α
  | wait (request : ρ) : Program σ ρ Reply ε (Reply request)
  | bind {α β : Type} (first : Program σ ρ Reply ε α) (next : α → Program σ ρ Reply ε β) :
      Program σ ρ Reply ε β
  | attempt {α : Type} (body : Program σ ρ Reply ε α) : Program σ ρ Reply ε (Except ε α)
  | loop {ι α : Type} (body : ι → Program σ ρ Reply ε (ι ⊕ α)) (i : ι) : Program σ ρ Reply ε α

namespace Program

variable {σ ρ ε κ : Type} {Reply : ρ → Type} {α β ι : Type}

instance : Monad (Program σ ρ Reply ε) where
  pure := .done
  bind := .bind

/-- What a program that is over came to. -/
def outcome : Program σ ρ Reply ε α → Option (Except ε α)
  | .done a => some (.ok a)
  | .fail error => some (.error error)
  | _ => none

/-- What a program waits for. -/
def waiting {α : Type} : Program σ ρ Reply ε α → Option ρ
  | .wait request => some request
  | .bind first _ => first.waiting
  | .attempt body => body.waiting
  | _ => none

/-- One step of a program that does not wait. -/
def advance {α : Type} : Program σ ρ Reply ε α → σ → Option (Program σ ρ Reply ε α × σ)
  | .act f, s => some (.done (f s).1, (f s).2)
  | .bind first next, s =>
    match first.outcome with
    | some (.ok a) => some (next a, s)
    | some (.error error) => some (.fail error, s)
    | none => (first.advance s).map fun (first, s) => (.bind first next, s)
  | .attempt body, s =>
    match body.outcome with
    | some result => some (.done result, s)
    | none => (body.advance s).map fun (body, s) => (.attempt body, s)
  | .loop body i, s =>
    some (.bind (body i) fun
      | .inl i => .loop body i
      | .inr a => .done a, s)
  | _, _ => none

/-- A waiting program goes on with the reply to what it asks. -/
def answer {α : Type} (reply : ∀ request, Reply request) :
    Program σ ρ Reply ε α → Program σ ρ Reply ε α
  | .wait request => .done (reply request)
  | .bind first next => .bind (first.answer reply) next
  | .attempt body => .attempt (body.answer reply)
  | p => p

/-! ## Running a program -/

/-- The outside of a program: the replies that a state allows, and what else reaches the state while the
program waits. -/
structure Outside (σ ρ : Type) (Reply : ρ → Type) (κ : Type) where
  allows : (request : ρ) → σ → Reply request → Bool
  receive : σ → κ → Option σ

/-- What moves a running program. -/
inductive Input (ρ : Type) (Reply : ρ → Type) (κ : Type)
  | advance
  | answer (reply : ∀ request, Reply request)
  | signal (signal : κ)

/-- A program and the state that it is in. -/
abbrev Config (σ ρ : Type) (Reply : ρ → Type) (ε α : Type) : Type 1 := Program σ ρ Reply ε α × σ

/-- One step of a running program. -/
def step (outside : Outside σ ρ Reply κ) (c : Config σ ρ Reply ε α) :
    Input ρ Reply κ → Option (Config σ ρ Reply ε α)
  | .advance => c.1.advance c.2
  | .answer reply =>
    c.1.waiting.bind fun request =>
      if outside.allows request c.2 (reply request) then some (c.1.answer reply, c.2) else none
  | .signal signal =>
    c.1.waiting.bind fun _ => (outside.receive c.2 signal).map fun s => (c.1, s)

/-- A program, as a machine. -/
def machine (outside : Outside σ ρ Reply κ) (p : Program σ ρ Reply ε α) (init : σ → Prop) :
    Machine (Config σ ρ Reply ε α) (Input ρ Reply κ) where
  init c := c.1 = p ∧ init c.2
  step := step outside

/-- The steps of a program whose replies all meet a condition. -/
inductive Moves (outside : Outside σ ρ Reply κ) (meets : (request : ρ) → σ → Reply request → Prop) :
    Config σ ρ Reply ε α → Config σ ρ Reply ε α → Prop
  | advance {p q : Program σ ρ Reply ε α} {s t : σ} (h : p.advance s = some (q, t)) :
      Moves outside meets (p, s) (q, t)
  | answer {p : Program σ ρ Reply ε α} {s : σ} {request : ρ} (reply : ∀ request, Reply request)
      (hwaits : p.waiting = some request)
      (hallows : outside.allows request s (reply request) = true)
      (hmeets : meets request s (reply request)) : Moves outside meets (p, s) (p.answer reply, s)
  | signal {p : Program σ ρ Reply ε α} {s t : σ} {request : ρ} (signal : κ)
      (hwaits : p.waiting = some request) (h : outside.receive s signal = some t) :
      Moves outside meets (p, s) (p, t)

variable {outside : Outside σ ρ Reply κ} {meets : (request : ρ) → σ → Reply request → Prop}
  {p : Program σ ρ Reply ε α} {s t : σ} {c d : Config σ ρ Reply ε α}

/-- Whether the reply of a step meets a condition. -/
def StepMeets (meets : (request : ρ) → σ → Reply request → Prop) (c : Config σ ρ Reply ε α) :
    Input ρ Reply κ → Prop
  | .answer reply => ∀ request, c.1.waiting = some request → meets request c.2 (reply request)
  | _ => True

instance [∀ request s reply, Decidable (meets request s reply)] (c : Config σ ρ Reply ε α) :
    ∀ input : Input ρ Reply κ, Decidable (StepMeets meets c input)
  | .answer reply =>
    inferInstanceAs (Decidable (∀ request ∈ c.1.waiting, meets request c.2 (reply request)))
  | .advance | .signal _ => .isTrue trivial

theorem moves_of_step {input : Input ρ Reply κ} (h : step outside c input = some d)
    (hmeets : StepMeets meets c input) : Moves outside meets c d := by
  obtain ⟨p, s⟩ := c
  cases input with
  | advance => exact .advance h
  | answer reply =>
    obtain ⟨request, hwaits, h⟩ := Option.bind_eq_some_iff.mp h
    dsimp only at h
    split_ifs at h with hallows
    cases h
    exact .answer reply hwaits hallows (hmeets request hwaits)
  | signal signal =>
    obtain ⟨request, hwaits, h⟩ := Option.bind_eq_some_iff.mp h
    obtain ⟨t, ht, rfl⟩ := Option.map_eq_some_iff.mp h
    exact .signal signal hwaits ht

/-! ## What a program keeps -/

/-- How a configuration stands: what holds where it waits, and of what it came to. -/
structure Stands (W : ρ → σ → Prop) (Q : α → σ → Prop) (E : ε → σ → Prop)
    (c : Config σ ρ Reply ε α) : Prop where
  waits : ∀ request, c.1.waiting = some request → W request c.2
  done : ∀ a, c.1.outcome = some (.ok a) → Q a c.2
  fails : ∀ error, c.1.outcome = some (.error error) → E error c.2

/-- Where a program gets to from a state, wherever it waits `W` holds, and what it comes to meets `Q`, or
`E` when it fails. -/
def Keeps (outside : Outside σ ρ Reply κ) (meets : (request : ρ) → σ → Reply request → Prop)
    (W : ρ → σ → Prop) (Q : α → σ → Prop) (E : ε → σ → Prop) (p : Program σ ρ Reply ε α) (s : σ) :
    Prop :=
  ∀ c, ReflTransGen (Moves outside meets) (p, s) c → Stands W Q E c

variable {W : ρ → σ → Prop} {Q : α → σ → Prop} {E : ε → σ → Prop}

/-- A program that is not over stands where it waits. -/
theorem Stands.of_not_over (houtcome : c.1.outcome = none)
    (hW : ∀ request, c.1.waiting = some request → W request c.2) : Stands W Q E c := by
  refine ⟨hW, fun a ha => ?_, fun error herror => ?_⟩
  · rw [houtcome] at ha
    cases ha
  · rw [houtcome] at herror
    cases herror

/-- A program that waits for nothing, and is not over, stands. -/
theorem Stands.of_running (houtcome : c.1.outcome = none) (hwaiting : c.1.waiting = none) :
    Stands W Q E c := by
  refine .of_not_over houtcome fun request hwaits => ?_
  rw [hwaiting] at hwaits
  cases hwaits

theorem Stands.of_done {a : α} (h : Q a s) :
    Stands W Q E ((.done a, s) : Config σ ρ Reply ε α) := by
  refine ⟨?_, ?_, ?_⟩
  · rintro request ⟨⟩
  · rintro b ⟨⟩
    exact h
  · rintro error ⟨⟩

theorem Stands.of_fail {error : ε} (h : E error s) :
    Stands W Q E ((.fail error, s) : Config σ ρ Reply ε α) := by
  refine ⟨?_, ?_, ?_⟩
  · rintro request ⟨⟩
  · rintro a ⟨⟩
  · rintro other ⟨⟩
    exact h

/-- A program keeps what an invariant of its configurations says. -/
theorem Keeps.of_invariant {C : Config σ ρ Reply ε α → Prop} (hC : C (p, s))
    (hmove : ∀ c d, C c → Moves outside meets c d → C d) (hstands : ∀ c, C c → Stands W Q E c) :
    Keeps outside meets W Q E p s := by
  intro c hpath
  refine hstands c ?_
  induction hpath with
  | refl => exact hC
  | tail _ hlast ih => exact hmove _ _ ih hlast

theorem Keeps.stands (h : Keeps outside meets W Q E p s) : Stands W Q E (p, s) := h _ .refl

/-- A program goes on keeping. -/
theorem Keeps.moves {q : Program σ ρ Reply ε α} (h : Keeps outside meets W Q E p s)
    (hmove : Moves outside meets (p, s) (q, t)) : Keeps outside meets W Q E q t :=
  fun c hpath => h c (.head hmove hpath)

theorem Keeps.mono {Q' : α → σ → Prop} {E' : ε → σ → Prop} (h : Keeps outside meets W Q E p s)
    (hQ : ∀ a t, Q a t → Q' a t) (hE : ∀ error t, E error t → E' error t) :
    Keeps outside meets W Q' E' p s := by
  intro c hpath
  obtain ⟨hwaits, hdone, hfails⟩ := h c hpath
  exact ⟨hwaits, fun a ha => hQ _ _ (hdone a ha), fun error herror => hE _ _ (hfails error herror)⟩

/-- A program that is over moves no more. -/
theorem not_moves_of_outcome {result : Except ε α} (h : p.outcome = some result) :
    ¬ Moves outside meets (p, s) d := by
  intro hmove
  have hstill : p.advance s = none ∧ p.waiting = none := by
    cases p with
    | done a | fail error => exact ⟨rfl, rfl⟩
    | _ => cases h
  cases hmove with
  | advance hadvance =>
    rw [hstill.1] at hadvance
    cases hadvance
  | answer reply hwaits | signal signal hwaits =>
    rw [hstill.2] at hwaits
    cases hwaits

theorem Keeps.done {a : α} (h : Q a s) : Keeps outside meets W Q E (.done a) s := by
  refine .of_invariant (C := fun c => c = (.done a, s)) rfl ?_ ?_
  · rintro c d rfl hmove
    exact absurd hmove (not_moves_of_outcome rfl)
  · rintro c rfl
    exact .of_done h

theorem Keeps.fail {error : ε} (h : E error s) :
    Keeps outside meets W Q E (.fail error : Program σ ρ Reply ε α) s := by
  refine .of_invariant (C := fun c => c = (.fail error, s)) rfl ?_ ?_
  · rintro c d rfl hmove
    exact absurd hmove (not_moves_of_outcome rfl)
  · rintro c rfl
    exact .of_fail h

/-- A program that can only advance keeps what it keeps next. -/
theorem Keeps.of_advance {q : Program σ ρ Reply ε α} (hadvance : p.advance s = some (q, t))
    (hwaiting : p.waiting = none) (houtcome : p.outcome = none)
    (h : Keeps outside meets W Q E q t) : Keeps outside meets W Q E p s := by
  refine .of_invariant (C := fun c => c = (p, s) ∨ Keeps outside meets W Q E c.1 c.2) (.inl rfl) ?_ ?_
  · rintro c d (rfl | hc) hmove
    · right
      cases hmove with
      | advance hother =>
        rw [hadvance] at hother
        cases hother
        exact h
      | answer reply hwaits | signal signal hwaits =>
        rw [hwaiting] at hwaits
        cases hwaits
    · exact .inr (hc.moves hmove)
  · rintro c (rfl | hc)
    · exact .of_running houtcome hwaiting
    · exact hc.stands

theorem Keeps.act {f : σ → α × σ} (h : Q (f s).1 (f s).2) :
    Keeps outside meets W Q E (.act f : Program σ ρ Reply ε α) s :=
  .of_advance rfl rfl rfl (.done h)

/-- What holds through a wait is something that signals leave alone. -/
theorem Keeps.wait (request : ρ) {Q : Reply request → σ → Prop} (J : σ → Prop) (hJ : J s)
    (hsignal : ∀ s signal t, J s → outside.receive s signal = some t → J t)
    (hW : ∀ s, J s → W request s)
    (hQ : ∀ s reply, J s → outside.allows request s reply = true → meets request s reply → Q reply s) :
    Keeps outside meets W Q E (.wait request : Program σ ρ Reply ε (Reply request)) s := by
  refine .of_invariant (C := fun c => (c.1 = .wait request ∧ J c.2) ∨ Keeps outside meets W Q E c.1 c.2)
    (.inl ⟨rfl, hJ⟩) ?_ ?_
  · rintro ⟨p, s⟩ d (⟨rfl, hs⟩ | hc) hmove
    · cases hmove with
      | advance hadvance => cases hadvance
      | answer reply hwaits hallows hmeets =>
        cases hwaits
        exact .inr (.done (hQ s _ hs hallows hmeets))
      | signal signal _ hreceive => exact .inl ⟨rfl, hsignal _ _ _ hs hreceive⟩
    · exact .inr (hc.moves hmove)
  · rintro ⟨p, s⟩ (⟨rfl, hs⟩ | hc)
    · refine .of_not_over rfl fun other hwaits => ?_
      cases hwaits
      exact hW s hs
    · exact hc.stands

theorem Keeps.bind {next : α → Program σ ρ Reply ε β} {Q : β → σ → Prop}
    (h : Keeps outside meets W (fun a => Keeps outside meets W Q E (next a)) E p s) :
    Keeps outside meets W Q E (.bind p next) s := by
  refine .of_invariant (C := fun c => (∃ p, c.1 = .bind p next ∧
    Keeps outside meets W (fun a => Keeps outside meets W Q E (next a)) E p c.2) ∨
      Keeps outside meets W Q E c.1 c.2) (.inl ⟨p, rfl, h⟩) ?_ ?_
  · rintro ⟨_, s⟩ d (⟨p, rfl, hp⟩ | hc) hmove
    · dsimp only at hp
      cases hmove with
      | advance hadvance =>
        unfold advance at hadvance
        split at hadvance
        next a houtcome =>
          cases hadvance
          exact .inr (hp.stands.done a houtcome)
        next error houtcome =>
          cases hadvance
          exact .inr (.fail (hp.stands.fails error houtcome))
        next houtcome =>
          obtain ⟨⟨q, t⟩, hnext, hpair⟩ := Option.map_eq_some_iff.mp hadvance
          cases hpair
          exact .inl ⟨q, rfl, hp.moves (.advance hnext)⟩
      | answer reply hwaits hallows hmeets =>
        exact .inl ⟨_, rfl, hp.moves (.answer reply hwaits hallows hmeets)⟩
      | signal signal hwaits hreceive =>
        exact .inl ⟨_, rfl, hp.moves (.signal signal hwaits hreceive)⟩
    · exact .inr (hc.moves hmove)
  · rintro ⟨_, s⟩ (⟨p, rfl, hp⟩ | hc)
    · exact .of_not_over rfl fun request hwaits => hp.stands.waits request hwaits
    · exact hc.stands

theorem Keeps.attempt {Q : Except ε α → σ → Prop}
    (h : Keeps outside meets W (fun a => Q (.ok a)) (fun error => Q (.error error)) p s) :
    Keeps outside meets W Q E (.attempt p) s := by
  refine .of_invariant (C := fun c => (∃ p, c.1 = .attempt p ∧
    Keeps outside meets W (fun a => Q (.ok a)) (fun error => Q (.error error)) p c.2) ∨
      Keeps outside meets W Q E c.1 c.2) (.inl ⟨p, rfl, h⟩) ?_ ?_
  · rintro ⟨_, s⟩ d (⟨p, rfl, hp⟩ | hc) hmove
    · dsimp only at hp
      cases hmove with
      | advance hadvance =>
        unfold advance at hadvance
        split at hadvance
        next result houtcome =>
          cases hadvance
          cases result with
          | ok a => exact .inr (.done (hp.stands.done a houtcome))
          | error error => exact .inr (.done (hp.stands.fails error houtcome))
        next houtcome =>
          obtain ⟨⟨q, t⟩, hnext, hpair⟩ := Option.map_eq_some_iff.mp hadvance
          cases hpair
          exact .inl ⟨q, rfl, hp.moves (.advance hnext)⟩
      | answer reply hwaits hallows hmeets =>
        exact .inl ⟨_, rfl, hp.moves (.answer reply hwaits hallows hmeets)⟩
      | signal signal hwaits hreceive =>
        exact .inl ⟨_, rfl, hp.moves (.signal signal hwaits hreceive)⟩
    · exact .inr (hc.moves hmove)
  · rintro ⟨_, s⟩ (⟨p, rfl, hp⟩ | hc)
    · exact .of_not_over rfl fun request hwaits => hp.stands.waits request hwaits
    · exact hc.stands

/-- What a round of a loop leaves: its invariant, or the loop's result. -/
def afterRound (inv : ι → σ → Prop) (Q : α → σ → Prop) : ι ⊕ α → σ → Prop
  | .inl i => inv i
  | .inr a => Q a

/-- A loop keeps what each round keeps. -/
theorem Keeps.loop {body : ι → Program σ ρ Reply ε (ι ⊕ α)} (inv : ι → σ → Prop)
    (h : ∀ i s, inv i s → Keeps outside meets W (afterRound inv Q) E (body i) s) {i : ι}
    (hi : inv i s) : Keeps outside meets W Q E (.loop body i) s := by
  let again : ι ⊕ α → Program σ ρ Reply ε α
    | .inl i => .loop body i
    | .inr a => .done a
  refine .of_invariant (C := fun c => (∃ i, c.1 = .loop body i ∧ inv i c.2) ∨
    (∃ p, c.1 = .bind p again ∧ Keeps outside meets W (afterRound inv Q) E p c.2) ∨
      Keeps outside meets W Q E c.1 c.2) (.inl ⟨i, rfl, hi⟩) ?_ ?_
  · rintro ⟨_, s⟩ d (⟨i, rfl, hi⟩ | ⟨p, rfl, hp⟩ | hc) hmove
    · cases hmove with
      | advance hadvance =>
        cases hadvance
        exact .inr (.inl ⟨body i, rfl, h i s hi⟩)
      | answer reply hwaits | signal signal hwaits => cases hwaits
    · dsimp only at hp
      cases hmove with
      | advance hadvance =>
        unfold advance at hadvance
        split at hadvance
        next result houtcome =>
          cases hadvance
          have hresult := hp.stands.done result houtcome
          cases result with
          | inl i => exact .inl ⟨i, rfl, hresult⟩
          | inr a => exact .inr (.inr (.done hresult))
        next error houtcome =>
          cases hadvance
          exact .inr (.inr (.fail (hp.stands.fails error houtcome)))
        next houtcome =>
          obtain ⟨⟨q, t⟩, hnext, hpair⟩ := Option.map_eq_some_iff.mp hadvance
          cases hpair
          exact .inr (.inl ⟨q, rfl, hp.moves (.advance hnext)⟩)
      | answer reply hwaits hallows hmeets =>
        exact .inr (.inl ⟨_, rfl, hp.moves (.answer reply hwaits hallows hmeets)⟩)
      | signal signal hwaits hreceive =>
        exact .inr (.inl ⟨_, rfl, hp.moves (.signal signal hwaits hreceive)⟩)
    · exact .inr (.inr (hc.moves hmove))
  · rintro ⟨_, s⟩ (⟨i, rfl, -⟩ | ⟨p, rfl, hp⟩ | hc)
    · exact .of_running rfl rfl
    · exact .of_not_over rfl fun request hwaits => hp.stands.waits request hwaits
    · exact hc.stands

/-- Where `I` holds when a program starts, it holds when the program is over, and a failure is an `F`. -/
def Preserves (outside : Outside σ ρ Reply κ) (meets : (request : ρ) → σ → Reply request → Prop)
    (W : ρ → σ → Prop) (I : σ → Prop) (F : ε → Prop) (p : Program σ ρ Reply ε α) : Prop :=
  ∀ s, I s → Keeps outside meets W (fun _ => I) (fun error t => I t ∧ F error) p s

section Preserves

variable {I : σ → Prop} {F F' : ε → Prop}

theorem Preserves.pure (a : α) :
    Preserves outside meets W I F (pure a : Program σ ρ Reply ε α) :=
  fun _ hs => .done hs

theorem Preserves.fail {error : ε} (h : F error) :
    Preserves outside meets W I F (.fail error : Program σ ρ Reply ε α) :=
  fun _ hs => .fail ⟨hs, h⟩

theorem Preserves.act {f : σ → α × σ} (h : ∀ s, I s → I (f s).2) :
    Preserves outside meets W I F (.act f : Program σ ρ Reply ε α) :=
  fun s hs => .act (h s hs)

theorem Preserves.wait {request : ρ}
    (hsignal : ∀ s signal t, I s → outside.receive s signal = some t → I t)
    (hW : ∀ s, I s → W request s) :
    Preserves outside meets W I F (.wait request : Program σ ρ Reply ε (Reply request)) :=
  fun _ hs => .wait _ I hs hsignal hW fun _ _ ht _ _ => ht

theorem Preserves.bind {next : α → Program σ ρ Reply ε β} (h : Preserves outside meets W I F p)
    (hnext : ∀ a, Preserves outside meets W I F (next a)) :
    Preserves outside meets W I F (p >>= next) :=
  fun s hs => .bind ((h s hs).mono (fun a t ht => hnext a t ht) fun _ _ ht => ht)

theorem Preserves.attempt (h : Preserves outside meets W I F' p) :
    Preserves outside meets W I F (.attempt p) :=
  fun s hs => .attempt ((h s hs).mono (fun _ _ ht => ht) fun _ _ ht => ht.1)

theorem Preserves.loop {body : ι → Program σ ρ Reply ε (ι ⊕ α)}
    (h : ∀ i, Preserves outside meets W I F (body i)) (i : ι) :
    Preserves outside meets W I F (.loop body i) := by
  refine fun s hs => .loop (fun _ => I) (fun i t ht => (h i t ht).mono ?_ fun _ _ hu => hu) hs
  intro result u hu
  cases result with
  | inl i => exact hu
  | inr a => exact hu

theorem Preserves.forM {items : List ι} {f : ι → Program σ ρ Reply ε PUnit}
    (h : ∀ i, Preserves outside meets W I F (f i)) : Preserves outside meets W I F (items.forM f) := by
  induction items with
  | nil => exact .pure _
  | cons i rest ih => exact .bind (h i) fun _ => ih

end Preserves

/-- A program preserves `I`, and what it yields is an `R`. -/
def Yields (outside : Outside σ ρ Reply κ) (meets : (request : ρ) → σ → Reply request → Prop)
    (W : ρ → σ → Prop) (I : σ → Prop) (R : α → Prop) (F : ε → Prop) (p : Program σ ρ Reply ε α) :
    Prop :=
  ∀ s, I s → Keeps outside meets W (fun a t => I t ∧ R a) (fun error t => I t ∧ F error) p s

section Yields

variable {I : σ → Prop} {R : α → Prop} {F : ε → Prop}

theorem Yields.pure {a : α} (h : R a) :
    Yields outside meets W I R F (pure a : Program σ ρ Reply ε α) :=
  fun _ hs => .done ⟨hs, h⟩

theorem Yields.bind {R' : β → Prop} {next : α → Program σ ρ Reply ε β}
    (h : Yields outside meets W I R F p)
    (hnext : ∀ a, R a → Yields outside meets W I R' F (next a)) :
    Yields outside meets W I R' F (p >>= next) :=
  fun s hs => .bind ((h s hs).mono (fun a t ht => hnext a ht.2 t ht.1) fun _ _ ht => ht)

/-- What a program preserves with any result. -/
theorem Preserves.yields (h : Preserves outside meets W I F p) :
    Yields outside meets W I (fun _ => True) F p :=
  fun s hs => (h s hs).mono (fun _ _ ht => ⟨ht, trivial⟩) fun _ _ ht => ht

end Yields

/-- What a program keeps holds in its runs. -/
theorem Keeps.run {init : σ → Prop} {steps : List (Config σ ρ Reply ε α × Input ρ Reply κ)}
    (h : ∀ s, init s → Keeps outside meets W Q E p s)
    (hrun : (machine outside p init).Run steps c)
    (hmeets : ∀ step ∈ steps, StepMeets meets step.1 step.2) : Stands W Q E c := by
  have hkeeps : Keeps outside meets W Q E c.1 c.2 := by
    refine hrun.invariant (P := fun c => Keeps outside meets W Q E c.1 c.2) ?_ ?_ hmeets
    · rintro ⟨_, s⟩ ⟨rfl, hs⟩
      exact h s hs
    · intro c input d _ hc hstep hmove
      exact hc.moves (moves_of_step hmove hstep)
  exact hkeeps.stands

end Program

end Lightspeed.Lib
