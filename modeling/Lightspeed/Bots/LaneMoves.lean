import Lightspeed.Bots.Routes
import Lightspeed.Bots.Views

/-!
# What a task's turn does to the board

A turn of a delivery lane is a chain of moves of what the lane holds, and a turn of a sidecar one of
what the sidecar holds; whatever else stands on the board stays there. No other task shows.
-/

namespace Lightspeed.Bots

open Lib Harness Relation

variable {rules : Rules} {botId : BotId} {nowMs : Int} {s t : ControllerState} {delivery : BotDelivery}
  {target message : String} {h h' : Hold} {turn : Turn} {started parked : Bool} {answer : Answer}
  {runId sessionId : String} {pc : SidecarPc} {outcome : DeliveryOutcome} {session : RoutedSession}
  {attempt : Nat} {sha256Hex : String → String}

/-! ## What a wait says of its delivery -/

/-- What stands when a lane waits: the id that it was sent to or asks for is one of its target's, and a
delivery that is only appended starts no run. -/
def LanePc.Sound (botId : BotId) (delivery : BotDelivery) (target : String) : LanePc → Prop
  | .start => delivery.RoutedFor botId → IdOf botId delivery.session target
  | .ensuring session _ request =>
    delivery.session = some session ∧
      (delivery.RoutedFor botId → IdOf botId delivery.session request.sessionId)
  | .evicting keep _ => delivery.RoutedFor botId → IdOf botId delivery.session keep
  | .publishing .steer | .publishing .start | .readingStatus | .steering | .starting =>
    delivery.whenBusy ≠ .append
  | _ => True

def Task.Sound (botId : BotId) : Task → Prop
  | .lane delivery target pc => pc.Sound botId delivery target
  | _ => True

def Turn.holds (turn : Turn) : Multiset Hold := holdsOf turn.task.toList

def Turn.asides (turn : Turn) : Multiset BotDelivery := asidesOf turn.task.toList

/-- What a lane's turn does on the board, and what its next wait says. -/
structure LaneFits (rules : Rules) (nowMs : Int) (s : ControllerState) (h : Hold) (turn : Turn) :
    Prop where
  moves : ∀ (b : Board) (rest : Multiset Hold), b.view = s.view → b.nowMs = nowMs →
    b.holds = h ::ₘ rest →
      ReflTransGen (Move rules) b
        { b with view := turn.state.view, holds := turn.holds + rest, log := b.log ++ turn.log }
  asides : turn.asides = 0
  sound : ∀ task ∈ turn.task, task.Sound s.config.botId

theorem config_eq_of_view_eq (hview : t.view = s.view) : t.config = s.config := by
  have := congrArg (fun v : View => v.main.config) hview
  exact this

/-- What does not show does not matter. -/
theorem LaneFits.of_view (hview : t.view = s.view) (hfits : LaneFits rules nowMs t h turn) :
    LaneFits rules nowMs s h turn where
  moves b rest hb := hfits.moves b rest (hb.trans hview.symm)
  asides := hfits.asides
  sound := config_eq_of_view_eq hview ▸ hfits.sound

/-- A turn after a move of the lane. -/
theorem LaneFits.after {log : List Obs} (hid : t.config.botId = s.config.botId)
    (hmove : ∀ (b : Board) (rest : Multiset Hold), b.view = s.view → b.nowMs = nowMs →
      b.holds = h ::ₘ rest →
        Move rules b { b with view := t.view, holds := h' ::ₘ rest, log := b.log ++ log })
    (hfits : LaneFits rules nowMs t h' turn) :
    LaneFits rules nowMs s h { turn with log := log ++ turn.log } where
  moves b rest hview hnow hholds := by
    have hfirst := hmove b rest hview hnow hholds
    have hrest := hfits.moves { b with view := t.view, holds := h' ::ₘ rest, log := b.log ++ log }
      rest rfl hnow rfl
    rw [← List.append_assoc]
    exact .head hfirst hrest
  asides := hfits.asides
  sound := hid ▸ hfits.sound

/-- A turn after a move of the lane that leaves no trace. -/
theorem LaneFits.after_quiet (hid : t.config.botId = s.config.botId)
    (hmove : ∀ (b : Board) (rest : Multiset Hold), b.view = s.view → b.nowMs = nowMs →
      b.holds = h ::ₘ rest → Move rules b { b with view := t.view, holds := h' ::ₘ rest })
    (hfits : LaneFits rules nowMs t h' turn) : LaneFits rules nowMs s h turn := by
  have hlog : ∀ (b : Board) (rest : Multiset Hold), b.view = s.view → b.nowMs = nowMs →
      b.holds = h ::ₘ rest →
        Move rules b { b with view := t.view, holds := h' ::ₘ rest, log := b.log ++ [] } := by
    intro b rest hview hnow hholds
    rw [List.append_nil]
    exact hmove b rest hview hnow hholds
  exact .after hid hlog hfits

/-! ## The moves of a lane -/

/-- A lane that goes on to a later wait shows nothing. -/
theorem laneAt_fits {pc : LanePc} (hstarted : pc.started = started) (hparked : pc.parked = parked)
    (hsound : pc.Sound s.config.botId delivery target) :
    LaneFits rules nowMs s ⟨delivery, target, started, parked⟩ (laneAt delivery target pc s) where
  moves b rest hview _ hholds := by
    have htask : (laneAt delivery target pc s).holds = {⟨delivery, target, started, parked⟩} := by
      rw [← hstarted, ← hparked]
      exact add_zero _
    show ReflTransGen _ b { b with
      view := s.view, holds := (laneAt delivery target pc s).holds + rest, log := b.log ++ [] }
    rw [htask, Multiset.singleton_add, ← hholds, ← hview, List.append_nil]
  asides := add_zero _
  sound task htask := by
    rw [← Option.some.inj htask]
    exact hsound

theorem finishDelivery_fits :
    LaneFits rules nowMs s ⟨delivery, target, started, parked⟩
      (finishDelivery nowMs target delivery outcome s) where
  moves b rest hview _ hholds := by
    have hmove : Move rules b _ := .finish b _ rest hholds
    have hstate : (finishDelivery nowMs target delivery outcome s).state.view =
        b.view.free target := by
      rw [hview]
      exact ControllerState.view_releaseLane.trans
        (congrArg (fun v : View => v.free target) ControllerState.view_rememberDelivery)
    have hnone : (finishDelivery nowMs target delivery outcome s).holds + rest = rest :=
      zero_add rest
    rw [hstate, hnone]
    exact .single hmove
  asides := add_zero _
  sound task htask := by
    rw [← Option.some.inj htask]
    trivial

theorem failDelivery_fits :
    LaneFits rules nowMs s ⟨delivery, target, started, parked⟩
      (failDelivery nowMs target delivery message s) :=
  .of_view ControllerState.view_recordError finishDelivery_fits

/-- A lane without a run gives its delivery back. -/
theorem requeueLane_fits {again : BotDelivery} {notBeforeMs : Int}
    (hcore : again.core = delivery.core)
    (hview : t.view = (s.requeueLane target again notBeforeMs).view) :
    LaneFits rules nowMs s ⟨delivery, target, false, parked⟩ { state := t } where
  moves b rest hb _ hholds := by
    have hmove : Move rules b _ :=
      .requeue b _ rest { again with notBeforeMs := some notBeforeMs } hholds rfl hcore
    have hnone : ({ state := t } : Turn).holds + rest = rest := zero_add rest
    rw [hnone, hview, ControllerState.view_requeueLane, ← hb, List.append_nil]
    exact .single hmove
  asides := rfl
  sound _ htask := nomatch htask

/-- A lane whose run has started does nothing more until it ends. -/
theorem waitForRunEnd_fits :
    LaneFits rules nowMs s ⟨delivery, target, true, parked⟩
      (waitForRunEnd delivery target runId s) := by
  have hlast : LaneFits rules nowMs (s.parkLane target) ⟨delivery, target, true, true⟩
      (waitForRunEnd delivery target runId s) := laneAt_fits rfl rfl trivial
  have hconfig : (s.parkLane target).config.botId = s.config.botId := rfl
  refine hlast.after_quiet hconfig fun b rest hview _ hholds => ?_
  rw [ControllerState.view_parkLane, ← hview]
  exact .park b _ rest hholds rfl

/-! ## A dead session -/

theorem rollForwardAndRequeue_fits :
    LaneFits rules nowMs s ⟨delivery, target, false, parked⟩
      (rollForwardAndRequeue nowMs delivery target s) := by
  have hcore : ({ delivery with rolledForward := true, attempts := 0 } : BotDelivery).core =
      delivery.core := rfl
  have hlast : LaneFits rules nowMs (s.rollSessionForward target) ⟨delivery, target, false, parked⟩
      (rollForwardAndRequeue nowMs delivery target s) :=
    requeueLane_fits hcore rfl
  rcases ControllerState.view_rollSessionForward s target with hview | hview
  · exact hlast.of_view hview
  · have hconfig := congrArg (fun v : View => v.main.config.botId) hview
    refine hlast.after_quiet hconfig fun b rest hb _ hholds => ?_
    rw [hview, ← hb, ← hholds]
    exact .rollMain b

theorem retryOnSuccessor_fits {status : BotSessionStatus} :
    LaneFits rules nowMs s ⟨delivery, target, false, false⟩
      (retryOnSuccessor nowMs delivery target status message s) := by
  unfold retryOnSuccessor
  split_ifs
  · exact failDelivery_fits
  · exact laneAt_fits rfl rfl trivial
  · exact rollForwardAndRequeue_fits

/-! ## A routed session -/

theorem publishDirectory_fits {next : AfterPublish}
    (hnext : next ≠ .append → delivery.whenBusy ≠ .append) :
    LaneFits rules nowMs s ⟨delivery, target, false, false⟩
      (publishDirectory delivery target next s) := by
  unfold publishDirectory
  split_ifs
  · exact laneAt_fits rfl rfl (by cases next <;> first | trivial | exact hnext nofun)
  · cases next with
    | append => exact laneAt_fits rfl rfl trivial
    | steer | start => exact laneAt_fits rfl rfl (hnext nofun)

theorem deliver_fits :
    LaneFits rules nowMs s ⟨delivery, target, false, false⟩ (deliver delivery target s) := by
  unfold deliver
  split_ifs with hbusy
  · exact publishDirectory_fits fun hnext => absurd rfl hnext
  · exact laneAt_fits rfl rfl hbusy

/-- A lane that moves, and what it does there. -/
theorem rekeyLane_fits {ensured : String} (hroute : rules.aligned → delivery.RoutedFor s.config.botId)
    (hid : delivery.RoutedFor s.config.botId → IdOf s.config.botId delivery.session ensured)
    (hfits : LaneFits rules nowMs (s.rekeyLane target ensured) ⟨delivery, ensured, false, false⟩
      turn) :
    LaneFits rules nowMs s ⟨delivery, target, false, false⟩
      { turn with log := rekeyObs target ensured s :: turn.log } := by
  have hview := ControllerState.view_rekeyLane s target ensured
  have hconfig := congrArg (fun v : View => v.main.config.botId) hview
  have hmove : ∀ (b : Board) (rest : Multiset Hold), b.view = s.view → b.nowMs = nowMs →
      b.holds = ⟨delivery, target, false, false⟩ ::ₘ rest →
        Move rules b
          { b with
            view := (s.rekeyLane target ensured).view
            holds := ⟨delivery, ensured, false, false⟩ ::ₘ rest
            log := b.log ++ [rekeyObs target ensured s] } := by
    intro b rest hb _ hholds
    rw [hview, ← hb]
    refine .rekey b ⟨delivery, target, false, false⟩ rest ensured _ hholds ?_ ?_
    · intro hnone hmem l hl hne
      rw [hb] at hmem hl
      have hcontains : s.activeBySession.contains target = true := LaneMap.mem_targets_iff.mp hmem
      rw [if_pos hcontains] at hnone
      have hmem' : l ∈ (s.activeBySession.erase target).holds := by
        rw [LaneMap.holds_erase]
        exact Multiset.mem_filter.mpr ⟨hl, hne⟩
      exact LaneMap.target_ne_of_get?_eq_none hnone l hmem'
    · intro haligned
      rw [hb]
      exact hid (hroute haligned)
  exact hfits.after hconfig hmove

theorem routedSessionReady_fits {ensured : String}
    (hroute : rules.aligned → delivery.RoutedFor s.config.botId)
    (hid : delivery.RoutedFor s.config.botId → IdOf s.config.botId delivery.session ensured) :
    LaneFits rules nowMs s ⟨delivery, target, false, false⟩
      (routedSessionReady delivery target ensured s) := by
  unfold routedSessionReady
  split_ifs
  · exact rekeyLane_fits hroute hid deliver_fits
  · exact deliver_fits

theorem ensureRoutedSession_fits (hsession : delivery.session = some session)
    (hroute : rules.aligned → delivery.RoutedFor s.config.botId)
    (hid : delivery.RoutedFor s.config.botId → IdOf s.config.botId delivery.session sessionId) :
    LaneFits rules nowMs s ⟨delivery, target, false, false⟩
      (ensureRoutedSession nowMs delivery target session attempt sessionId s) := by
  unfold ensureRoutedSession
  split
  next known hknown =>
    have hview := ControllerState.view_observeRoutedSession hknown
    have hconfig := config_eq_of_view_eq hview
    refine .of_view hview (routedSessionReady_fits ?_ ?_)
    · rwa [hconfig]
    · rwa [hconfig]
  · exact laneAt_fits rfl rfl ⟨hsession, hid⟩

theorem enforceExtraSessionCap_fits {keep : String}
    (hroute : rules.aligned → delivery.RoutedFor s.config.botId)
    (hid : delivery.RoutedFor s.config.botId → IdOf s.config.botId delivery.session keep) :
    LaneFits rules nowMs s ⟨delivery, target, false, false⟩
      (enforceExtraSessionCap delivery target keep s) := by
  unfold enforceExtraSessionCap
  split_ifs
  · split
    · exact routedSessionReady_fits hroute hid
    · exact laneAt_fits rfl rfl hid
  · exact routedSessionReady_fits hroute hid

/-- The next generation of a base is one of its ids. -/
theorem idOf_resolveRoutedSessionId (hsession : delivery.session = some session)
    (hid : delivery.RoutedFor botId → IdOf botId delivery.session sessionId)
    (hroute : delivery.RoutedFor botId) :
    IdOf botId delivery.session (s.resolveRoutedSessionId (routedSessionBase sessionId)) := by
  obtain ⟨generation, hgeneration⟩ := hid hroute
  have hbase := (hroute session hsession).2
  rw [hsession] at hgeneration ⊢
  dsimp only at hgeneration
  rw [hgeneration, routedSessionBase_generationId hbase]
  exact ⟨_, rfl⟩

theorem routedSessionMismatch_fits (hsession : delivery.session = some session)
    (hroute : rules.aligned → delivery.RoutedFor s.config.botId)
    (hid : delivery.RoutedFor s.config.botId → IdOf s.config.botId delivery.session sessionId) :
    LaneFits rules nowMs s ⟨delivery, target, false, false⟩
      (routedSessionMismatch nowMs delivery target session attempt sessionId message s) := by
  unfold routedSessionMismatch
  split_ifs
  · exact .of_view ControllerState.view_bumpRoutedGeneration
      (ensureRoutedSession_fits hsession hroute (idOf_resolveRoutedSessionId hsession hid))
  · exact .of_view ControllerState.view_recordError finishDelivery_fits

theorem resumeEnsuring_fits {request : BotEnsureSessionRequest}
    (hsession : delivery.session = some session)
    (hroute : rules.aligned → delivery.RoutedFor s.config.botId)
    (hid : delivery.RoutedFor s.config.botId → IdOf s.config.botId delivery.session request.sessionId)
    (hresume : resumeEnsuring nowMs delivery target session attempt request answer s = some turn) :
    LaneFits rules nowMs s ⟨delivery, target, false, false⟩ turn := by
  unfold resumeEnsuring at hresume
  split at hresume
  · rw [← Option.some.inj hresume]
    refine .of_view ?_ (enforceExtraSessionCap_fits ?_ ?_)
    · rfl
    · exact hroute
    · exact hid
  · rw [← Option.some.inj hresume]
    exact routedSessionMismatch_fits hsession hroute hid
  · rw [← Option.some.inj hresume]
    exact routedSessionMismatch_fits hsession hroute hid
  · rw [← Option.some.inj hresume]
    exact rekeyLane_fits hroute hid retryOnSuccessor_fits
  · rw [← Option.some.inj hresume]
    exact .of_view ControllerState.view_recordError finishDelivery_fits
  · cases hresume

theorem view_closeSession {closed : Bool} (h : closeSession sessionId answer s = some (t, closed)) :
    t.view = s.view := by
  unfold closeSession at h
  split at h
  · obtain ⟨rfl, -⟩ := Prod.mk.inj (Option.some.inj h)
    rfl
  · obtain ⟨rfl, -⟩ := Prod.mk.inj (Option.some.inj h)
    rfl
  · cases h

theorem resumeEvicting_fits {keep victim : String}
    (hroute : rules.aligned → delivery.RoutedFor s.config.botId)
    (hid : delivery.RoutedFor s.config.botId → IdOf s.config.botId delivery.session keep)
    (hresume : resumeEvicting delivery target keep victim answer s = some turn) :
    LaneFits rules nowMs s ⟨delivery, target, false, false⟩ turn := by
  obtain ⟨⟨t, closed⟩, hclose, hturn⟩ := Option.map_eq_some_iff.mp hresume
  have hview := view_closeSession hclose
  have hconfig := config_eq_of_view_eq hview
  rw [← hturn]
  dsimp only
  split_ifs
  · have hforget := (ControllerState.view_forgetRoutedSession t victim).trans hview
    refine .of_view hforget (enforceExtraSessionCap_fits ?_ ?_)
    · rwa [config_eq_of_view_eq hforget]
    · rwa [config_eq_of_view_eq hforget]
  · refine .of_view hview (routedSessionReady_fits ?_ ?_)
    · rwa [hconfig]
    · rwa [hconfig]

/-! ## A lane is resumed -/

theorem resumeRollingForward_fits
    (hresume : resumeRollingForward nowMs delivery target message answer s = some turn) :
    LaneFits rules nowMs s ⟨delivery, target, false, false⟩ turn := by
  obtain ⟨⟨t, closed⟩, hclose, hturn⟩ := Option.map_eq_some_iff.mp hresume
  rw [← hturn]
  dsimp only
  split_ifs
  · exact .of_view (view_closeSession hclose) rollForwardAndRequeue_fits
  · exact .of_view (view_closeSession hclose) failDelivery_fits

theorem resumePublishing_fits {next : AfterPublish}
    (hsound : (LanePc.publishing next).Sound s.config.botId delivery target)
    (hresume : resumePublishing delivery target next answer s = some turn) :
    LaneFits rules nowMs s ⟨delivery, target, false, false⟩ turn := by
  have hnext : LaneFits rules nowMs s ⟨delivery, target, false, false⟩
      (laneAt delivery target (afterPublish next) s) := by
    cases next <;> exact laneAt_fits rfl rfl hsound
  unfold resumePublishing at hresume
  split at hresume
  · exact Option.some.inj hresume ▸ hnext
  next error =>
    have herror : LaneFits rules nowMs (s.recordError error) ⟨delivery, target, false, false⟩
        (laneAt delivery target (afterPublish next) (s.recordError error)) := by
      cases next <;> exact laneAt_fits rfl rfl hsound
    rw [← Option.some.inj hresume]
    exact .of_view ControllerState.view_recordError herror
  · cases hresume

theorem resumeAppending_fits
    (hresume : resumeAppending nowMs delivery target answer s = some turn) :
    LaneFits rules nowMs s ⟨delivery, target, false, false⟩ turn := by
  unfold resumeAppending at hresume
  split at hresume
  · exact Option.some.inj hresume ▸ finishDelivery_fits
  · exact Option.some.inj hresume ▸ laneAt_fits rfl rfl trivial
  · cases hresume

theorem resumeAppendStatus_fits
    (hresume : resumeAppendStatus nowMs delivery target message answer s = some turn) :
    LaneFits rules nowMs s ⟨delivery, target, false, false⟩ turn := by
  unfold resumeAppendStatus at hresume
  split at hresume
  · split_ifs at hresume
    · exact Option.some.inj hresume ▸ retryOnSuccessor_fits
    · exact Option.some.inj hresume ▸ failDelivery_fits
  · exact Option.some.inj hresume ▸ failDelivery_fits
  · cases hresume

theorem resumeStatus_fits (hbusy : delivery.whenBusy ≠ .append)
    (hresume : resumeStatus nowMs delivery target answer s = some turn) :
    LaneFits rules nowMs s ⟨delivery, target, false, false⟩ turn := by
  unfold resumeStatus at hresume
  split at hresume
  · exact Option.some.inj hresume ▸ publishDirectory_fits fun _ => hbusy
  · split_ifs at hresume
    · exact Option.some.inj hresume ▸ requeueLane_fits rfl rfl
    · exact Option.some.inj hresume ▸ publishDirectory_fits fun _ => hbusy
  · exact Option.some.inj hresume ▸ retryOnSuccessor_fits
  · exact Option.some.inj hresume ▸ failDelivery_fits
  · cases hresume

theorem resumeSteering_fits
    (hresume : resumeSteering nowMs delivery target answer s = some turn) :
    LaneFits rules nowMs s ⟨delivery, target, false, false⟩ turn := by
  unfold resumeSteering at hresume
  split at hresume
  · exact Option.some.inj hresume ▸ finishDelivery_fits
  · exact Option.some.inj hresume ▸ requeueLane_fits rfl rfl
  · exact Option.some.inj hresume ▸ failDelivery_fits
  · cases hresume

theorem retryStart_fits :
    LaneFits rules nowMs s ⟨delivery, target, false, false⟩
      (retryStart nowMs delivery target message s) := by
  unfold retryStart ControllerState.retryDelivery
  dsimp only
  split_ifs
  · exact failDelivery_fits
  · have hcore : ({ delivery with attempts := delivery.attempts + 1 } : BotDelivery).core =
        delivery.core := rfl
    exact requeueLane_fits hcore rfl

theorem afterStart_fits {finished : Option RunStatus} :
    LaneFits rules nowMs s ⟨delivery, target, true, false⟩
      (afterStart delivery target runId finished s) := by
  cases finished with
  | none => exact waitForRunEnd_fits
  | some status => exact laneAt_fits rfl rfl trivial

theorem resumeStarting_fits (hbusy : delivery.whenBusy ≠ .append)
    (hresume : resumeStarting nowMs delivery target answer s = some turn) :
    LaneFits rules nowMs s ⟨delivery, target, false, false⟩ turn := by
  unfold resumeStarting at hresume
  split at hresume
  next runId finished =>
    rw [← Option.some.inj hresume]
    have hview := ControllerState.view_markLaneStarted s target runId nowMs
    have hconfig : (s.markLaneStarted target runId nowMs).config.botId = s.config.botId := by
      have := congrArg (fun v : View => v.main.config.botId) hview
      refine this.trans ?_
      unfold View.roll
      dsimp only
      split_ifs <;> rfl
    have hmove : ∀ (b : Board) (rest : Multiset Hold), b.view = s.view → b.nowMs = nowMs →
        b.holds = ⟨delivery, target, false, false⟩ ::ₘ rest →
          Move rules b
            { b with
              view := (s.markLaneStarted target runId nowMs).view
              holds := ⟨delivery, target, true, false⟩ ::ₘ rest
              log := b.log ++ [.begun delivery target runId nowMs] } := by
      intro b rest hb hnow hholds
      rw [hview, ← hb, ← hnow]
      exact .begin b ⟨delivery, target, false, false⟩ rest runId hholds rfl rfl hbusy
    split_ifs
    · have hlog : (afterStart delivery target runId finished
          (s.markLaneStarted target runId nowMs)).log = [] := by cases finished <;> rfl
      have hafter : LaneFits rules nowMs (s.markLaneStarted target runId nowMs)
          ⟨delivery, target, true, false⟩
          (afterStart delivery target runId finished (s.markLaneStarted target runId nowMs)) :=
        afterStart_fits
      have hturn := hafter.after hconfig hmove
      rwa [hlog, List.append_nil] at hturn
    · have hafter : LaneFits rules nowMs (s.markLaneStarted target runId nowMs)
          ⟨delivery, target, true, false⟩
          (laneAt delivery target (.receipting runId finished)
            (s.markLaneStarted target runId nowMs)) := laneAt_fits rfl rfl trivial
      exact hafter.after hconfig hmove
  · exact Option.some.inj hresume ▸ failDelivery_fits
  · exact Option.some.inj hresume ▸ retryOnSuccessor_fits
  · exact Option.some.inj hresume ▸ retryStart_fits
  · exact Option.some.inj hresume ▸ retryStart_fits
  · cases hresume

theorem view_settleTick (h : settleTick answer s = some t) : t.view = s.view := by
  unfold settleTick at h
  split at h
  · rw [← Option.some.inj h]
    rfl
  · rw [← Option.some.inj h]
    rfl
  · cases h

theorem view_reconcileUnresolved {invocations : List BotToolInvocationRef} :
    (reconcileUnresolved runId target invocations s).view = s.view := by
  unfold reconcileUnresolved
  dsimp only
  split_ifs
  · exact ControllerState.view_setLaneResolution
  · rfl
  · rfl

theorem view_reconcileNext {invocations rest : List BotToolInvocationRef} :
    (reconcileNext runId target invocations s rest).1.view = s.view := by
  cases rest with
  | nil => exact view_reconcileUnresolved
  | cons => rfl

/-- Reading a run's resolve calls shows nothing. -/
theorem view_reconcileRun {pc : ReconcilePc} {out : ControllerState × Option ReconcilePc}
    (h : reconcileRun runId target pc answer s = some out) : out.1.view = s.view := by
  unfold reconcileRun at h
  split at h
  · rw [← Option.some.inj h]
    exact view_reconcileNext
  · rw [← Option.some.inj h]
    rfl
  · rw [← Option.some.inj h]
    exact view_reconcileNext.trans ControllerState.view_setLaneResolution
  · rw [← Option.some.inj h]
    exact view_reconcileNext
  · rw [← Option.some.inj h]
    exact view_reconcileNext
  · cases h

theorem resumeReconciling_fits {status : RunStatus} {pc : ReconcilePc}
    (hresume : resumeReconciling sha256Hex delivery target runId status pc answer s = some turn) :
    LaneFits rules nowMs s ⟨delivery, target, true, false⟩ turn := by
  obtain ⟨⟨t, next⟩, hread, hturn⟩ := Option.map_eq_some_iff.mp hresume
  have hview := view_reconcileRun hread
  rw [← hturn]
  cases next with
  | none => exact .of_view (ControllerState.view_attachTerminal.trans hview) waitForRunEnd_fits
  | some next => exact .of_view hview (laneAt_fits rfl rfl trivial)

theorem resumeWaiting_fits :
    LaneFits rules nowMs s ⟨delivery, target, true, true⟩
      (resumeWaiting nowMs delivery target runId s) := by
  unfold resumeWaiting
  split
  · dsimp only
    split_ifs
    · exact laneAt_fits rfl rfl trivial
    · exact finishDelivery_fits
  · exact failDelivery_fits

theorem startLane_fits (hroute : rules.aligned → delivery.RoutedFor s.config.botId)
    (hid : delivery.RoutedFor s.config.botId → IdOf s.config.botId delivery.session target) :
    LaneFits rules nowMs s ⟨delivery, target, false, false⟩ (startLane nowMs delivery target s) := by
  unfold startLane
  split_ifs with hevents
  · -- A delivery of no event leaves its lane without a trace.
    refine ⟨fun b rest hb _ hholds => ?_, rfl, fun _ htask => nomatch htask⟩
    have hmove : Move rules b _ := .drop b _ rest hholds (List.isEmpty_iff.mp hevents)
    show ReflTransGen _ b { b with
      view := (s.removeLane target).view, holds := 0 + rest, log := b.log ++ [] }
    rw [zero_add, List.append_nil, ControllerState.view_removeLane, ← hb]
    exact .single hmove
  · split
    · exact deliver_fits
    next session hsession => exact ensureRoutedSession_fits hsession hroute hid

/-- Every turn of a delivery lane. -/
theorem resumeLane_fits {pc : LanePc} (hroute : rules.aligned → delivery.RoutedFor s.config.botId)
    (hsound : pc.Sound s.config.botId delivery target)
    (hresume : resumeLane sha256Hex nowMs delivery target pc answer s = some turn) :
    LaneFits rules nowMs s ⟨delivery, target, pc.started, pc.parked⟩ turn := by
  cases pc with
  | start =>
    simp only [resumeLane] at hresume
    split at hresume
    · exact Option.some.inj hresume ▸ startLane_fits hroute hsound
    · cases hresume
  | ensuring session attempt request =>
    exact resumeEnsuring_fits hsound.1 hroute hsound.2 hresume
  | evicting keep victim => exact resumeEvicting_fits hroute hsound hresume
  | rollingForward message => exact resumeRollingForward_fits hresume
  | publishing next => exact resumePublishing_fits hsound hresume
  | appending => exact resumeAppending_fits hresume
  | readingAppendStatus message => exact resumeAppendStatus_fits hresume
  | readingStatus => exact resumeStatus_fits hsound hresume
  | steering => exact resumeSteering_fits hresume
  | starting => exact resumeStarting_fits hsound hresume
  | receipting runId finished =>
    obtain ⟨t, htick, hturn⟩ := Option.map_eq_some_iff.mp hresume
    rw [← hturn]
    exact .of_view (view_settleTick htick) afterStart_fits
  | reconciling runId status pc => exact resumeReconciling_fits hresume
  | resuming runId =>
    simp only [resumeLane] at hresume
    split at hresume
    · exact Option.some.inj hresume ▸ waitForRunEnd_fits
    · cases hresume
  | waiting runId =>
    simp only [resumeLane] at hresume
    split at hresume
    · split_ifs at hresume
      exact Option.some.inj hresume ▸ resumeWaiting_fits
    · cases hresume
  | readingUsage outcome =>
    simp only [resumeLane] at hresume
    split at hresume
    · exact Option.some.inj hresume ▸ finishDelivery_fits
    · exact Option.some.inj hresume ▸ finishDelivery_fits
    · cases hresume

/-! ## The other tasks -/

/-- What a task's turn does on the board, and what its next wait says. -/
structure TaskFits (rules : Rules) (nowMs : Int) (s : ControllerState) (task : Task) (turn : Turn) :
    Prop where
  moves : ∀ (b : Board) (holds : Multiset Hold) (asides : Multiset BotDelivery), b.view = s.view →
    b.nowMs = nowMs → b.holds = task.holds + holds → b.asides = task.asides + asides →
      ReflTransGen (Move rules) b
        { b with
          view := turn.state.view, holds := turn.holds + holds, asides := turn.asides + asides
          log := b.log ++ turn.log }
  sound : ∀ task ∈ turn.task, task.Sound s.config.botId

/-- A task that holds nothing. -/
structure Task.Idle (botId : BotId) (task : Task) : Prop where
  holds : task.holds = 0
  asides : task.asides = 0
  sound : task.Sound botId

theorem turn_holds_nothing (hnext : ∀ next ∈ turn.task, next.Idle botId) :
    turn.holds = 0 ∧ turn.asides = 0 := by
  unfold Turn.holds Turn.asides
  cases htask : turn.task with
  | none => exact ⟨rfl, rfl⟩
  | some next =>
    have hidle := hnext next htask
    simp [holdsOf, asidesOf, hidle.holds, hidle.asides]

/-- A turn that shows nothing, of a task that holds nothing. -/
theorem quiet_fits {task : Task} (hholds : task.holds = 0) (hasides : task.asides = 0)
    (hview : turn.state.view = s.view) (hlog : turn.log = [])
    (hnext : ∀ next ∈ turn.task, next.Idle s.config.botId) :
    TaskFits rules nowMs s task turn where
  moves b holds asides hb _ hbholds hbasides := by
    have hturn := turn_holds_nothing hnext
    rw [hholds] at hbholds
    rw [hasides] at hbasides
    rw [hturn.1, hturn.2, ← hbholds, ← hbasides, hview, ← hb, hlog, List.append_nil]
  sound next htask := (hnext next htask).sound

theorem settleDeliveryReceipts_fits {task : Task} (hholds : task.holds = 0)
    (hasides : task.asides = 0) (hview : t.view = s.view) :
    TaskFits rules nowMs s task (settleDeliveryReceipts delivery target outcome t) := by
  unfold settleDeliveryReceipts
  split_ifs
  · exact quiet_fits hholds hasides hview rfl fun _ hnext => nomatch hnext
  · refine quiet_fits hholds hasides hview rfl fun _ hnext => ?_
    rw [← Option.some.inj hnext]
    exact ⟨rfl, rfl, trivial⟩

/-- Settling holds nothing. -/
theorem settleDelivery_fits {pc : SettlePc}
    (hresume : settleDelivery delivery target outcome pc answer s = some turn) :
    TaskFits rules nowMs s (.settling delivery target outcome pc) turn := by
  obtain ⟨t, htick, hturn⟩ := Option.map_eq_some_iff.mp hresume
  have hview := view_settleTick htick
  rw [← hturn]
  cases pc with
  | outcomes =>
    dsimp only
    split_ifs
    · exact settleDeliveryReceipts_fits rfl rfl hview
    · refine quiet_fits rfl rfl hview rfl fun _ hnext => ?_
      rw [← Option.some.inj hnext]
      exact ⟨rfl, rfl, trivial⟩
  | botReceipts => exact settleDeliveryReceipts_fits rfl rfl hview
  | deliveryReceipts => exact quiet_fits rfl rfl hview rfl fun _ hnext => nomatch hnext

/-- A turn of a sidecar, as a chain of moves of what it holds. -/
theorem aside_fits {pc : SidecarPc}
    (hmove : ∀ (b : Board) (rest : Multiset BotDelivery), b.view = s.view →
      b.asides = delivery ::ₘ rest →
        Move rules b { b with view := turn.state.view, asides := rest, log := b.log ++ turn.log })
    (hnext : ∀ next ∈ turn.task, next.Idle s.config.botId) :
    TaskFits rules nowMs s (.sidecar delivery target pc) turn where
  moves b holds asides hview _ hholds hasides := by
    have hturn := turn_holds_nothing hnext
    have hmove := hmove b asides hview hasides
    rw [hturn.1, hturn.2, zero_add, zero_add, ← zero_add holds]
    rw [show (0 : Multiset Hold) + holds = b.holds from hholds.symm]
    exact .single hmove
  sound next htask := (hnext next htask).sound

theorem sidecarAt_fits {next : SidecarPc} :
    TaskFits rules nowMs s (.sidecar delivery target pc) (sidecarAt delivery target next s) where
  moves b holds asides hview _ hholds hasides := by
    have hturn : (sidecarAt delivery target next s).asides = {delivery} := add_zero _
    have hnone : (sidecarAt delivery target next s).holds = 0 := add_zero _
    rw [hturn, hnone]
    show ReflTransGen _ b { b with
      view := s.view, holds := 0 + holds, asides := {delivery} + asides, log := b.log ++ [] }
    have hholds : b.holds = 0 + holds := hholds
    have hasides : b.asides = {delivery} + asides := hasides
    rw [← hholds, ← hasides, ← hview, List.append_nil]
  sound _ htask := by
    rw [← Option.some.inj htask]
    trivial

theorem settleSidecar_fits :
    TaskFits rules nowMs s (.sidecar delivery target pc)
      (settleSidecar nowMs delivery target outcome s) := by
  refine aside_fits (fun b rest hb hasides => ?_) fun _ hnext => ?_
  · have hview : (settleSidecar nowMs delivery target outcome s).state.view = b.view := by
      rw [hb]
      exact ControllerState.view_releaseSidecar.trans ControllerState.view_rememberDelivery
    rw [hview]
    exact .asideDone b delivery rest hasides
  · rw [← Option.some.inj hnext]
    exact ⟨rfl, rfl, trivial⟩

theorem failSidecar_fits :
    TaskFits rules nowMs s (.sidecar delivery target pc)
      (failSidecar nowMs delivery target message s) := by
  have hfits : TaskFits rules nowMs (s.recordError message) (.sidecar delivery target pc)
      (failSidecar nowMs delivery target message s) := settleSidecar_fits
  exact ⟨hfits.moves, hfits.sound⟩

theorem requeueSidecar_fits :
    TaskFits rules nowMs s (.sidecar delivery target pc)
      (requeueSidecar nowMs delivery target s) := by
  refine aside_fits (fun b rest hb hasides => ?_) fun _ hnext => nomatch hnext
  have hview : (requeueSidecar nowMs delivery target s).state.view =
      b.view.requeue { delivery with notBeforeMs := some (nowMs + botBusyRetryDelayMs) } := by
    rw [hb]
    exact ControllerState.view_releaseSidecar.trans ControllerState.view_requeueFront
  have hlog : b.log ++ (requeueSidecar nowMs delivery target s).log = b.log := List.append_nil _
  rw [hview, hlog]
  exact .asideBack b delivery rest _ hasides rfl

/-- Every turn of a sidecar. -/
theorem resumeSidecar_fits (hresume : resumeSidecar nowMs delivery target pc answer s = some turn) :
    TaskFits rules nowMs s (.sidecar delivery target pc) turn := by
  unfold resumeSidecar at hresume
  split at hresume
  · split_ifs at hresume with hevents
    · rw [← Option.some.inj hresume]
      refine aside_fits (fun b rest hb hasides => ?_) fun _ hnext => nomatch hnext
      have hview : (s.releaseSidecar target nowMs).view = b.view :=
        ControllerState.view_releaseSidecar.trans hb.symm
      rw [hview, List.append_nil]
      exact .asideDrop b delivery rest hasides (List.isEmpty_iff.mp hevents)
    · exact Option.some.inj hresume ▸ sidecarAt_fits
    · exact Option.some.inj hresume ▸ sidecarAt_fits
  · exact Option.some.inj hresume ▸ settleSidecar_fits
  · exact Option.some.inj hresume ▸ sidecarAt_fits
  · exact Option.some.inj hresume ▸ requeueSidecar_fits
  · exact Option.some.inj hresume ▸ requeueSidecar_fits
  · exact Option.some.inj hresume ▸ failSidecar_fits
  · exact Option.some.inj hresume ▸ settleSidecar_fits
  · exact Option.some.inj hresume ▸ requeueSidecar_fits
  · exact Option.some.inj hresume ▸ failSidecar_fits
  · exact Option.some.inj hresume ▸ failSidecar_fits
  · exact Option.some.inj hresume ▸ failSidecar_fits
  · cases hresume

/-- Answering a pushed invocation shows nothing. -/
theorem resumeInvocation_fits {pending : PendingInvocation} {pc : InvocationPc}
    (hresume : resumeInvocation pending pc answer s = some turn) :
    TaskFits rules nowMs s (.invocation pending pc) turn := by
  have hquiet : turn.state.view = s.view ∧ turn.log = [] ∧
      ∀ next ∈ turn.task, next.Idle s.config.botId := by
    have hgone : ∀ next ∈ (none : Option Task), next.Idle s.config.botId :=
      fun _ hnext => nomatch hnext
    have hon : ∀ pc, ∀ next ∈ some (Task.invocation pending pc), next.Idle s.config.botId := by
      intro pc next hnext
      rw [← Option.some.inj hnext]
      exact ⟨rfl, rfl, trivial⟩
    unfold resumeInvocation at hresume
    split at hresume
    · split at hresume
      · rw [← Option.some.inj hresume]
        exact ⟨rfl, rfl, hgone⟩
      · rw [← Option.some.inj hresume]
        exact ⟨rfl, rfl, hon _⟩
    · rw [← Option.some.inj hresume]
      exact ⟨rfl, rfl, hon _⟩
    · rw [← Option.some.inj hresume]
      exact ⟨rfl, rfl, hon _⟩
    · rw [← Option.some.inj hresume]
      exact ⟨rfl, rfl, hon _⟩
    · rw [← Option.some.inj hresume]
      exact ⟨rfl, rfl, hgone⟩
    · rw [← Option.some.inj hresume]
      exact ⟨rfl, rfl, hgone⟩
    · cases hresume
  exact quiet_fits rfl rfl hquiet.1 hquiet.2.1 hquiet.2.2

/-- A delivery that a task's lane holds goes by a route of its admission. -/
def Task.RoutedFor (botId : BotId) : Task → Prop
  | .lane delivery _ _ => delivery.RoutedFor botId
  | _ => True

/-- Every turn of every task. -/
theorem resume_fits {task : Task} (hroute : rules.aligned → task.RoutedFor s.config.botId)
    (hsound : task.Sound s.config.botId)
    (hresume : task.resume sha256Hex nowMs answer s = some turn) :
    TaskFits rules nowMs s task turn := by
  cases task with
  | lane delivery target pc =>
    have hfits := resumeLane_fits hroute hsound hresume
    refine ⟨fun b holds asides hview hnow hholds hasides => ?_, hfits.sound⟩
    have hasides : b.asides = 0 + asides := hasides
    have hmoves := hfits.moves b holds hview hnow hholds
    rw [hfits.asides, ← hasides]
    exact hmoves
  | sidecar delivery target pc => exact resumeSidecar_fits hresume
  | settling delivery sessionId outcome pc => exact settleDelivery_fits hresume
  | invocation pending pc => exact resumeInvocation_fits hresume

end Lightspeed.Bots
