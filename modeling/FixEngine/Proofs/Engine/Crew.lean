import FixEngine.Proofs.Engine.Holding

/-!
# The handlers of one engine

Any number of handlers share the directories of an engine.  Each of them is told
once that its connection is up, then of messages, and at last that the connection
is gone, and the calls of different handlers come in any order.
-/

namespace FixEngine

/-- The handlers of one engine before their connections are up.  Each has a number
and a channel of its own. -/
structure Crew (ι : Type) where
  handler : ι → Handler
  channel : ι → Owner
  isNew : ∀ i, (handler i).IsNew
  attached : ∀ i, (handler i).channel = some (channel i)
  owner_injective : Function.Injective fun i => (handler i).owner
  channel_injective : Function.Injective channel

namespace Hub

/-- How far the connection of a handler has come. -/
inductive Stage where
  | waiting
  | up
  | gone
  deriving DecidableEq

/-- What a handler is told. -/
inductive Call (ι : Type) where
  /-- The connection is up. -/
  | connect (i : ι) (services : Services)
  /-- A message has arrived. -/
  | message (i : ι) (services : Services) (m : Message)
  /-- The application sends a message. -/
  | stamp (i : ι) (now : Timestamp) (m : Message)
  /-- The connection is gone. -/
  | disconnect (i : ι)

namespace Call

variable {ι : Type}

/-- The handler that is told. -/
def target : Call ι → ι
  | connect i _ | message i _ _ | stamp i _ _ | disconnect i => i

/-- The stage in which a handler is told. -/
def before : Call ι → Stage
  | connect _ _ => .waiting
  | _ => .up

/-- The stage that follows. -/
def after : Call ι → Stage
  | disconnect _ => .gone
  | _ => .up

end Call

end Hub

/-- Handlers and what they have in common. -/
structure Hub (ι : Type) where
  shared : Shared
  handler : ι → Handler
  stage : ι → Hub.Stage

namespace Hub

variable {ι : Type}

/-- What a call comes to. -/
def turn (hub : Hub ι) : Call ι → Turn
  | .connect i services => (hub.handler i).connected services hub.shared
  | .message i services m => (hub.handler i).receive services hub.shared m
  | .stamp i now m => Turn.start ((hub.handler i).next (.stamp now m)) hub.shared
  | .disconnect i => (hub.handler i).disconnected hub.shared

/-- The turn of a call at its beginning. -/
def start (hub : Hub ι) (c : Call ι) : Turn := Turn.start (hub.handler c.target) hub.shared

def perform [DecidableEq ι] (hub : Hub ι) (c : Call ι) : Hub ι where
  shared := (hub.turn c).shared
  handler := Function.update hub.handler c.target (hub.turn c).handler
  stage := Function.update hub.stage c.target c.after

/-- A call asks for the session of an identity: the connection of an initiator is
up, or a logon arrives at an acceptor that waits for one. -/
inductive AsksFor (hub : Hub ι) : Call ι → SessionId → Prop
  | connect {i : ι} {services : Services} {settings : Settings}
      (hrole : (hub.handler i).role = .initiator settings) :
      AsksFor hub (.connect i services) settings.id
  | logon {i : ι} {services : Services} {m : Message} (hrole : (hub.handler i).role = .acceptor)
      (hphase : (hub.handler i).phase = .awaitingLogon) (htype : m.msgType? = some .logon) :
      AsksFor hub (.message i services m) (SessionId.ofInbound m.header)

/-- A handler is done: its connection was up, and it is closed and holds nothing. -/
structure IsDone (hub : Hub ι) (i : ι) : Prop where
  stage : hub.stage i ≠ .waiting
  phase : (hub.handler i).phase = .closed
  session : (hub.handler i).session = none

end Hub

namespace Crew

variable {ι : Type} (crew : Crew ι)

/-- The number of each handler. -/
def owner (i : ι) : Owner := (crew.handler i).owner

/-- Before the first connection is up. -/
def start : Hub ι := ⟨.empty, crew.handler, fun _ => .waiting⟩

/-- The directories agree with what the handlers hold. -/
structure Tallies (shared : Shared) (handler : ι → Handler) : Prop where
  sessions : shared.sessions.Lists (Handler.sessionId? ∘ handler) crew.owner
  senders : shared.senders.Lists (Handler.sender? ∘ handler) crew.channel

/-- What holds of the handlers after any calls. -/
structure Stands (hub : Hub ι) : Prop where
  number : ∀ i, (hub.handler i).owner = crew.owner i ∧
    (hub.handler i).channel = some (crew.channel i)
  tallies : crew.Tallies hub.shared hub.handler
  /-- A handler that waits has done nothing yet. -/
  idle : ∀ i, hub.stage i = .waiting ∨ (hub.handler i).phase = .awaitingLogon →
    hub.handler i = crew.handler i
  gone : ∀ i, hub.stage i = .gone → (hub.handler i).session = none

theorem Tallies.eq_of_sessionId? {crew : Crew ι} {shared : Shared} {handler : ι → Handler}
    {i j : ι} {id : SessionId} (h : crew.Tallies shared handler)
    (hi : (handler i).sessionId? = some id) (hj : (handler j).sessionId? = some id) : i = j :=
  h.sessions.eq_of_held crew.owner_injective hi hj

variable [DecidableEq ι] {crew} {handler : ι → Handler} {t t' : Turn} {i : ι} {id : SessionId}
  {s : Session}

/-! ### Turns -/

/-- The directories agree when one handler has changed. -/
theorem tallies_update_iff {shared : Shared} {h : Handler} :
    crew.Tallies shared (Function.update handler i h) ↔
      shared.sessions.Lists (Function.update (Handler.sessionId? ∘ handler) i h.sessionId?)
          crew.owner ∧
        shared.senders.Lists (Function.update (Handler.sender? ∘ handler) i h.sender?)
          crew.channel := by
  rw [← Function.comp_update, ← Function.comp_update]
  exact ⟨fun h => ⟨h.sessions, h.senders⟩, fun h => ⟨h.1, h.2⟩⟩

theorem Tallies.spares (h : crew.Tallies t.shared (Function.update handler i t.handler))
    (hspares : t.Spares t') : crew.Tallies t'.shared (Function.update handler i t'.handler) := by
  have hsender : t'.handler.sender? = t.handler.sender? := by
    rw [Handler.sender?, Handler.sender?, hspares.loggedOn, hspares.sessionId?]
  rw [tallies_update_iff] at h ⊢
  rw [hspares.sessions, hspares.sessionId?, hspares.senders, hsender]
  exact h

theorem Tallies.registers (h : crew.Tallies t.shared (Function.update handler i t.handler))
    (howner : t.handler.owner = crew.owner i) (hsession : t.handler.session = none)
    (hloggedOn : t.handler.loggedOn = false) (hfree : t.IsFree s) :
    crew.Tallies (t.registered s).shared
      (Function.update handler i (t.registered s).handler) := by
  have hnone : t.handler.sessionId? = none := congrArg (Option.map _) hsession
  have hsilent : t.handler.sender? = none := Handler.sender?_of_sessionId? hnone
  have hsender : (t.registered s).handler.sender? = none :=
    if_neg (Bool.not_eq_true _ ▸ hloggedOn)
  rw [tallies_update_iff, hnone, hsilent] at h
  rw [tallies_update_iff, hsender]
  refine ⟨?_, h.2⟩
  have hinsert := h.1.insert (i := i) (fun j hj => absurd hj (h.1.ne_of_find? hfree j)) (by simp)
  rw [Function.update_idem, ← howner] at hinsert
  exact hinsert

theorem Tallies.establishes (h : crew.Tallies t.shared (Function.update handler i t.handler))
    (hchannel : t.handler.channel = some (crew.channel i))
    (hid : t.handler.sessionId? = some id) :
    crew.Tallies (t.establish id).shared
      (Function.update handler i (t.establish id).handler) := by
  have hsender : (t.establish id).handler.sender? = some id := hid
  have hshared : (t.establish id).shared.senders =
      Table.insert t.shared.senders id (crew.channel i) := by
    simp only [Turn.establish, hchannel]
    rfl
  -- Whoever publishes a channel for the identity also holds it.
  have hheld : ∀ j, (Handler.sender? ∘ Function.update handler i t.handler) j = some id → j = i := by
    intro j hj
    refine h.eq_of_sessionId? (Handler.sender?_eq_some_iff.1 hj).1 ?_
    rw [Function.update_self]
    exact hid
  have hown : ∀ other, t.handler.sender? = some other → other = id := fun other hother =>
    Option.some.inj ((Handler.sender?_eq_some_iff.1 hother).1.symm.trans hid)
  rw [Function.comp_update] at hheld
  rw [tallies_update_iff] at h ⊢
  refine ⟨h.1, ?_⟩
  have hinsert := h.2.insert hheld (by rwa [Function.update_self])
  rw [Function.update_idem] at hinsert
  rw [hshared, hsender]
  exact hinsert

theorem Tallies.releases (h : crew.Tallies t.shared (Function.update handler i t.handler))
    (howner : t.handler.owner = crew.owner i)
    (hchannel : t.handler.channel = some (crew.channel i)) :
    crew.Tallies { t with handler.loggedOn := false }.release.shared
      (Function.update handler i { t with handler.loggedOn := false }.release.handler) := by
  have hnone : { t with handler.loggedOn := false }.release.handler.sessionId? = none :=
    congrArg (Option.map _) (Turn.session_release _)
  have hsender : { t with handler.loggedOn := false }.release.handler.sender? = none :=
    Handler.sender?_of_sessionId? hnone
  rw [tallies_update_iff] at h ⊢
  rw [hnone, hsender]
  cases hsession : t.handler.session with
  | none =>
    have hheld : t.handler.sessionId? = none := congrArg (Option.map _) hsession
    have hpublished : t.handler.sender? = none := Handler.sender?_of_sessionId? hheld
    have hshared : { t with handler.loggedOn := false }.release.shared = t.shared := by
      simp only [Turn.release, hsession]
    rw [hheld, hpublished] at h
    rw [hshared]
    exact h
  | some s =>
    have hown : ∀ other, t.handler.sessionId? = some other → other = s.id := by
      intro other hother
      rw [Handler.sessionId?, hsession] at hother
      exact (Option.some.inj hother).symm
    have hpublished : ∀ other, t.handler.sender? = some other → other = s.id :=
      fun other hother => hown other (Handler.sender?_eq_some_iff.1 hother).1
    have hsessions := h.1.release crew.owner_injective (by rwa [Function.update_self])
    have hsenders := h.2.release crew.channel_injective (by rwa [Function.update_self])
    rw [Function.update_idem] at hsessions hsenders
    simp only [Turn.release, hsession, howner, hchannel]
    exact ⟨hsessions, hsenders⟩

theorem Tallies.moves (hmoves : t.Moves t')
    (h : crew.Tallies t.shared (Function.update handler i t.handler))
    (hnumber : t.handler.owner = crew.owner i ∧ t.handler.channel = some (crew.channel i)) :
    crew.Tallies t'.shared (Function.update handler i t'.handler) := by
  induction hmoves with
  | spares hspares => exact h.spares hspares
  | registers hsession hloggedOn hfree => exact h.registers hnumber.1 hsession hloggedOn hfree
  | establishes hid => exact h.establishes hnumber.2 hid
  | releases t => exact h.releases hnumber.1 hnumber.2
  | trans hfirst _ ih ih' =>
    exact ih' (ih h hnumber) ⟨hfirst.number.1.trans hnumber.1, hfirst.number.2.trans hnumber.2⟩

end Crew

namespace Hub

variable {ι : Type} {hub : Hub ι} {c : Call ι} {id : SessionId} {i : ι}

/-! ### Calls -/

/-- What a call comes to. -/
inductive Comes (hub : Hub ι) (c : Call ι) : Prop
  | asks {id : SessionId} (h : hub.AsksFor c id)
  | proceeds (h : (hub.start c).Proceeds (hub.turn c)) (hafter : c.after = .up)
  | ends (h : hub.turn c = (hub.start c).disconnect) (hafter : c.after = .gone)

theorem comes (hub : Hub ι) (c : Call ι) : hub.Comes c := by
  cases c with
  | connect i services =>
    cases hrole : (hub.handler i).role with
    | acceptor =>
      refine .proceeds ?_ rfl
      have hturn : hub.turn (.connect i services) = hub.start (.connect i services) := by
        simp only [turn, Handler.connected, hrole]
        rfl
      rw [hturn]
      exact .spares (.refl _) (.inl rfl)
    | initiator settings => exact .asks (.connect hrole)
  | message i services m =>
    obtain ⟨t, ht⟩ : ∃ t, hub.turn (.message i services m) = t := ⟨_, rfl⟩
    have hreceives : (hub.handler i).Receives services hub.shared m t :=
      ht ▸ (hub.handler i).receives_receive services hub.shared m
    cases hreceives with
    | traffic _ htreated => exact .proceeds (ht ▸ htreated.proceeds) rfl
    | logon hphase hrole htype => exact .asks (.logon hrole hphase htype)
    | answer _ hhears => exact .proceeds (ht ▸ hhears.proceeds) rfl
    | closed reason => exact .proceeds (ht ▸ .spares (Turn.spares_close _ reason) (.inr rfl)) rfl
    | ignored => exact .proceeds (ht ▸ .spares (.refl _) (.inl rfl)) rfl
  | stamp i now m =>
    refine .proceeds ?_ rfl
    rw [turn]
    rcases (hub.handler i).stamp_cases now m with ⟨hnext, -⟩ | ⟨-, s, hsession, hnext, -⟩
    · rw [hnext]
      exact .spares (.refl _) (.inl rfl)
    · have hid : (hub.handler i).sessionId? = some s.id := by
        rw [Handler.sessionId?, hsession]
        rfl
      rw [hnext]
      exact .spares ⟨rfl, rfl, rfl, rfl, hid.symm, rfl⟩ (.inl rfl)
  | disconnect i => exact .ends rfl rfl

/-- A call that asks for the session of an identity claims it. -/
theorem AsksFor.exists_claims (h : hub.AsksFor c id) :
    c.after = .up ∧ ∃ s : Session, s.id = id ∧ (hub.start c).Claims s (hub.turn c) := by
  cases h with
  | @connect i services settings hrole =>
    refine ⟨rfl, .ofSettings services settings, ?_, ?_⟩
    · unfold Session.ofSettings
      split <;> rfl
    · rw [turn, Handler.connected_initiator hrole]
      exact (Turn.asks_sendLogon _ services settings).claims
  | @logon i services m hrole hphase htype =>
    refine ⟨rfl, .ofLogon services m, rfl, ?_⟩
    have hreceive : hub.turn (.message i services m) =
        (hub.start (.message i services m)).acceptLogon services m := by
      simp only [turn, Handler.receive, hphase, hrole, htype, if_true]
      rfl
    rw [hreceive]
    exact (Turn.accepts_acceptLogon _ services m).claims

/-- A handler that waits for a logon after a call has done nothing in it. -/
theorem handler_turn_of_awaitingLogon (hphase : (hub.turn c).handler.phase = .awaitingLogon) :
    (hub.turn c).handler = hub.handler c.target := by
  cases c with
  | connect i services =>
    cases hrole : (hub.handler i).role with
    | acceptor =>
      rw [turn, Handler.connected_acceptor hrole]
      rfl
    | initiator settings =>
      rw [turn, Handler.connected_initiator hrole] at hphase
      exact absurd hphase (Turn.asks_sendLogon _ services settings).phase_ne
  | message i services m =>
    have hnext : ((hub.handler i).next (.message services hub.shared m)).phase = .awaitingLogon :=
      hphase
    exact (Handler.eq_of_awaitingLogon hnext).1
  | stamp i now m => exact (Handler.eq_of_awaitingLogon hphase).1
  | disconnect i => contradiction

/-- A call of a handler that is done changes nothing that the handlers have in
common, and leaves it done. -/
theorem IsDone.turn (h : hub.IsDone c.target) (hstage : hub.stage c.target = c.before) :
    (hub.turn c).shared = hub.shared ∧ (hub.turn c).handler.phase = .closed ∧
      (hub.turn c).handler.session = none := by
  cases c with
  | connect i services => exact absurd hstage h.stage
  | message i services m =>
    have hphase : (hub.handler i).phase = .closed := h.phase
    rw [Hub.turn, Handler.receive_closed hphase]
    exact ⟨rfl, hphase, h.session⟩
  | stamp i now m =>
    have hphase : (hub.handler i).phase = .closed := h.phase
    rw [Hub.turn, (Handler.silent_stamp (hphase ▸ Phase.noConfusion) now m).1]
    exact ⟨rfl, h.phase, h.session⟩
  | disconnect i =>
    exact ⟨Turn.shared_disconnect h.session, rfl, Turn.session_release _⟩

theorem Call.before_ne_gone (c : Call ι) : c.before ≠ .gone := by
  cases c <;> exact Stage.noConfusion

theorem Call.after_ne_waiting (c : Call ι) : c.after ≠ .waiting := by
  cases c <;> exact Stage.noConfusion

variable [DecidableEq ι]

@[simp]
theorem handler_perform_self (hub : Hub ι) (c : Call ι) :
    (hub.perform c).handler c.target = (hub.turn c).handler :=
  Function.update_self ..

theorem handler_perform_of_ne (hub : Hub ι) (h : i ≠ c.target) :
    (hub.perform c).handler i = hub.handler i :=
  Function.update_of_ne h ..

@[simp]
theorem stage_perform_self (hub : Hub ι) (c : Call ι) :
    (hub.perform c).stage c.target = c.after :=
  Function.update_self ..

theorem stage_perform_of_ne (hub : Hub ι) (h : i ≠ c.target) :
    (hub.perform c).stage i = hub.stage i :=
  Function.update_of_ne h ..

theorem IsDone.perform (h : hub.IsDone i) (hstage : hub.stage c.target = c.before) :
    (hub.perform c).IsDone i := by
  by_cases hi : i = c.target
  · subst hi
    obtain ⟨-, hphase, hsession⟩ := h.turn hstage
    refine ⟨?_, ?_, ?_⟩
    · rw [stage_perform_self]
      exact c.after_ne_waiting
    · rw [handler_perform_self]
      exact hphase
    · rw [handler_perform_self]
      exact hsession
  · refine ⟨?_, ?_, ?_⟩
    · rw [stage_perform_of_ne hub hi]
      exact h.stage
    all_goals rw [handler_perform_of_ne hub hi]
    · exact h.phase
    · exact h.session

/-- What a handler holds after a call it held before, or it has asked for it in the
call and found it free. -/
theorem sessionId?_perform (hid : ((hub.perform c).handler i).sessionId? = some id) :
    (hub.handler i).sessionId? = some id ∨
      (c.target = i ∧ hub.AsksFor c id ∧ hub.shared.sessions.find? id = none) := by
  by_cases hi : i = c.target
  · subst hi
    rw [handler_perform_self] at hid
    cases hub.comes c with
    | asks hasks =>
      obtain ⟨-, s, rfl, hclaims⟩ := hasks.exists_claims
      rcases hclaims.sessionId?_cases hid with hheld | ⟨rfl, hfree⟩
      · exact .inl hheld
      · exact .inr ⟨rfl, hasks, hfree⟩
    | proceeds hproceeds => exact .inl (hproceeds.sessionId?_eq.symm.trans hid)
    | ends hends =>
      rw [hends] at hid
      have hnone : ((hub.start c).disconnect).handler.session = none := Turn.session_release _
      rw [Handler.sessionId?, hnone] at hid
      contradiction
  · rw [handler_perform_of_ne hub hi] at hid
    exact .inl hid

end Hub

namespace Handler.IsNew

variable {h : Handler}

theorem session (hnew : h.IsNew) : h.session = none := by
  cases hnew <;> rfl

theorem loggedOn (hnew : h.IsNew) : h.loggedOn = false := by
  cases hnew <;> rfl

theorem phase_ne (hnew : h.IsNew) : h.phase ≠ .established := by
  cases hnew <;> exact Phase.noConfusion

end Handler.IsNew

namespace Crew

variable {ι : Type} {crew : Crew ι} {hub : Hub ι} {c : Hub.Call ι} {i : ι} {id : SessionId}

/-! ### What one call keeps -/

theorem stands_start : crew.Stands crew.start where
  number i := ⟨rfl, crew.attached i⟩
  tallies := by
    have hnone (i : ι) : (crew.handler i).sessionId? = none :=
      congrArg (Option.map _) (crew.isNew i).session
    exact ⟨Directory.lists_empty hnone,
      Directory.lists_empty fun i => Handler.sender?_of_sessionId? (hnone i)⟩
  idle i _ := rfl
  gone i hgone := absurd hgone Hub.Stage.noConfusion

/-- A handler that asks for a session has done nothing yet. -/
theorem Stands.handler_eq (h : crew.Stands hub) (hstage : hub.stage c.target = c.before)
    (hasks : hub.AsksFor c id) : hub.handler c.target = crew.handler c.target := by
  cases hasks with
  | connect => exact h.idle _ (.inl hstage)
  | logon _ hphase => exact h.idle _ (.inr hphase)

theorem Stands.isNew (h : crew.Stands hub) (hstage : hub.stage c.target = c.before)
    (hasks : hub.AsksFor c id) : (hub.handler c.target).IsNew :=
  h.handler_eq hstage hasks ▸ crew.isNew c.target

theorem Stands.moves (h : crew.Stands hub) (hstage : hub.stage c.target = c.before) :
    (hub.start c).Moves (hub.turn c) := by
  cases hub.comes c with
  | asks hasks =>
    have hnew := h.isNew hstage hasks
    obtain ⟨-, s, -, hclaims⟩ := hasks.exists_claims
    exact hclaims.moves hnew.session hnew.loggedOn
  | proceeds hproceeds => exact hproceeds.moves
  | ends hends =>
    rw [hends]
    exact Turn.moves_disconnect _

/-- Only a handler whose connection is up holds a session. -/
theorem Stands.stage_eq_up (h : crew.Stands hub) (hid : (hub.handler i).sessionId? = some id) :
    hub.stage i = .up := by
  have hsession : (hub.handler i).session ≠ none := by
    intro hnone
    rw [Handler.sessionId?, hnone] at hid
    contradiction
  cases hstage : hub.stage i with
  | up => rfl
  | waiting =>
    rw [h.idle i (.inl hstage)] at hsession
    exact absurd (crew.isNew i).session hsession
  | gone => exact absurd (h.gone i hstage) hsession

/-- A call makes the handler logged on just if it makes its session established. -/
theorem Stands.loggedOn_turn (h : crew.Stands hub) (hstage : hub.stage c.target = c.before)
    (hafter : c.after ≠ .gone)
    (hphase : (hub.handler c.target).phase = .established →
      (hub.handler c.target).loggedOn = true) :
    (hub.turn c).handler.loggedOn = true ↔
      (hub.handler c.target).loggedOn = true ∨ (hub.turn c).handler.phase = .established := by
  cases hub.comes c with
  | asks hasks =>
    have hnew := (h.isNew hstage hasks).loggedOn
    obtain ⟨-, s, -, hclaims⟩ := hasks.exists_claims
    rw [hclaims.loggedOn_iff hnew, hnew]
    simp
  | proceeds hproceeds => exact hproceeds.loggedOn_iff hphase
  | ends _ hgone => exact absurd hgone hafter

/-- A handler that asks for a held session is done, and nothing that the handlers have
in common has changed. -/
theorem Stands.isDone_perform [DecidableEq ι] (h : crew.Stands hub)
    (hstage : hub.stage c.target = c.before) (hasks : hub.AsksFor c id)
    (hheld : hub.shared.sessions.find? id ≠ none) :
    (hub.turn c).shared = hub.shared ∧ (hub.perform c).IsDone c.target := by
  have hnew := h.isNew hstage hasks
  obtain ⟨-, s, rfl, hclaims⟩ := hasks.exists_claims
  obtain ⟨hshared, hspares, hphase⟩ := hclaims.of_not_isFree hheld
  have hnone : (hub.turn c).handler.sessionId? = none :=
    hspares.sessionId?.trans (congrArg (Option.map _) hnew.session)
  refine ⟨hshared, ?_, ?_, ?_⟩
  · rw [Hub.stage_perform_self]
    exact c.after_ne_waiting
  · rw [Hub.handler_perform_self]
    exact hphase
  · rw [Hub.handler_perform_self]
    exact Option.map_eq_none_iff.1 hnone

variable [DecidableEq ι]

theorem Stands.perform (h : crew.Stands hub) (hstage : hub.stage c.target = c.before) :
    crew.Stands (hub.perform c) where
  number := by
    intro i
    by_cases hi : i = c.target
    · subst hi
      have hnumber := (h.moves hstage).number
      rw [Hub.handler_perform_self]
      exact ⟨hnumber.1.trans (h.number _).1, hnumber.2.trans (h.number _).2⟩
    · rw [Hub.handler_perform_of_ne hub hi]
      exact h.number i
  tallies := by
    have hsame : Function.update hub.handler c.target (hub.start c).handler = hub.handler :=
      Function.update_eq_self _ _
    exact Tallies.moves (h.moves hstage) (hsame.symm ▸ h.tallies) (h.number c.target)
  idle := by
    intro i hwaits
    by_cases hi : i = c.target
    · subst hi
      rw [Hub.stage_perform_self, Hub.handler_perform_self] at hwaits
      rw [Hub.handler_perform_self]
      have hphase := hwaits.resolve_left c.after_ne_waiting
      have hsame := Hub.handler_turn_of_awaitingLogon hphase
      rw [hsame] at hphase ⊢
      exact h.idle _ (.inr hphase)
    · rw [Hub.handler_perform_of_ne hub hi, Hub.stage_perform_of_ne hub hi] at *
      exact h.idle i hwaits
  gone := by
    intro i hgone
    by_cases hi : i = c.target
    · subst hi
      rw [Hub.stage_perform_self] at hgone
      rw [Hub.handler_perform_self]
      cases c with
      | disconnect i => exact Turn.session_release _
      | _ => contradiction
    · rw [Hub.stage_perform_of_ne hub hi] at hgone
      rw [Hub.handler_perform_of_ne hub hi]
      exact h.gone i hgone

end Crew

end FixEngine
