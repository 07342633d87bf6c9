import FixEngine.Proofs.Engine.Outgoing
import FixEngine.Proofs.Engine.Run

/-!
# The life of a handler

A handler is told once that its connection is up, then of messages that arrive
and messages that its application sends, and at last that the connection is gone.
In its life it registers at most one session, and everything that it hands out
from then on is stamped for that session, under one number after another.  Each of
its turns closes the connection after all that it sends, if at all.
-/

namespace FixEngine

/-- What a handler is told from the time its connection is up until it is gone. -/
structure Life where
  /-- What the handler is given when its connection is up. -/
  services : Services
  /-- What the handlers have in common when the connection is up. -/
  shared : Shared
  inputs : List Input
  /-- What the handlers have in common when the connection is gone. -/
  final : Shared

namespace Life

/-- A life with more inputs at its end. -/
def extend (life : Life) (inputs : List Input) : Life :=
  { life with inputs := life.inputs ++ inputs }

theorem extend_append (life : Life) (inputs more : List Input) :
    life.extend (inputs ++ more) = (life.extend inputs).extend more := by
  rw [extend, ← List.append_assoc]
  rfl

end Life

namespace Turn

variable {t t' : Turn} {s s' : Session} {out : List Message}

/-- The messages that a turn hands out, in order. -/
def messages (t : Turn) : List Message := t.actions.filterMap Action.message?

theorem messages_of_speaks (hactions : t.actions = []) (hspeaks : t.Speaks t')
    (hsession : t.handler.session = some s) :
    ∃ s', t'.handler.session = some s' ∧ s.Stamps t'.messages s' := by
  obtain ⟨messages, hsent, hstamps⟩ := hspeaks
  have hmessages : t'.messages = messages := by
    rw [Turn.messages, hsent, hactions, List.nil_append, Action.filterMap_message?_map_send]
  rw [hmessages]
  exact hstamps s hsession

@[simp]
theorem messages_close (t : Turn) (reason : DisconnectReason) :
    (t.close reason).messages = t.messages := by
  have hactions : (t.close reason).actions = t.actions ++ [.disconnect reason] := rfl
  rw [messages, messages, hactions, List.filterMap_append]
  exact List.append_nil _

@[simp]
theorem actions_release (t : Turn) : t.release.actions = t.actions := by
  unfold release
  split <;> rfl

@[simp]
theorem session_release (t : Turn) : t.release.handler.session = none := by
  unfold release
  split
  · assumption
  · rfl

@[simp]
theorem phase_release (t : Turn) : t.release.handler.phase = t.handler.phase := by
  unfold release
  split <;> rfl

@[simp]
theorem phase_send (t : Turn) (now : Timestamp) (m : Message) :
    (t.send now m).handler.phase = t.handler.phase := by
  unfold send
  split <;> rfl

theorem actions_disconnect (t : Turn) : t.disconnect.actions = t.actions := by
  unfold disconnect
  dsimp only
  rw [actions_release]
  split <;> rfl

/-! ### The order of actions -/

/-- A turn closes the connection after all that it sends, if at all. -/
def IsOrderly (t : Turn) : Prop :=
  t.actions = t.messages.map .send ∨
    ∃ reason, t.actions = t.messages.map .send ++ [.disconnect reason]

theorem isOrderly_of_append {messages : List Message} {last : List Action}
    (hactions : t.actions = messages.map .send ++ last)
    (hlast : last = [] ∨ ∃ reason, last = [.disconnect reason]) : t.IsOrderly := by
  have hmessages : t.messages = messages := by
    rw [Turn.messages, hactions, List.filterMap_append, Action.filterMap_message?_map_send]
    rcases hlast with rfl | ⟨reason, rfl⟩
    · exact List.append_nil _
    · exact List.append_nil _
  rw [IsOrderly, hmessages, hactions]
  rcases hlast with rfl | ⟨reason, rfl⟩
  · exact .inl (List.append_nil _)
  · exact .inr ⟨reason, rfl⟩

theorem Ends.isOrderly (hactions : t.actions = []) (h : t.Ends t') : t'.IsOrderly := by
  cases h with
  | goesOn h =>
    obtain ⟨messages, hsent, -⟩ := h
    rw [hactions, List.nil_append] at hsent
    exact isOrderly_of_append (hsent.trans (List.append_nil _).symm) (.inl rfl)
  | @closes closing h reason =>
    obtain ⟨messages, hsent, -⟩ := h
    rw [hactions, List.nil_append] at hsent
    have hclosed : (closing.close reason).actions =
        messages.map .send ++ [.disconnect reason] :=
      congrArg (· ++ [Action.disconnect reason]) hsent
    exact isOrderly_of_append hclosed (.inr ⟨reason, rfl⟩)
  | @releases closing h reason =>
    obtain ⟨messages, hsent, -⟩ := h
    rw [hactions, List.nil_append] at hsent
    have hclosed : (closing.close reason).release.actions =
        messages.map .send ++ [.disconnect reason] :=
      (actions_release _).trans (congrArg (· ++ [Action.disconnect reason]) hsent)
    exact isOrderly_of_append hclosed (.inr ⟨reason, rfl⟩)

/-! ### Leaving the wait for a logon -/

theorem Accepts.phase_ne {services : Services} {logon : Message} (h : t.Accepts services logon t') :
    t'.handler.phase ≠ .awaitingLogon := by
  cases h with
  | stale =>
    rw [phase_release]
    exact Phase.noConfusion
  | _ => exact Phase.noConfusion

theorem Asks.phase_ne {services : Services} {settings : Settings}
    (h : t.Asks services settings t') : t'.handler.phase ≠ .awaitingLogon := by
  cases h <;> exact Phase.noConfusion

theorem Hears.phase_ne {services : Services} {logon : Message} (h : t.Hears services logon t')
    (hphase : t.handler.phase ≠ .awaitingLogon) : t'.handler.phase ≠ .awaitingLogon := by
  cases h with
  | ignored => exact hphase
  | ahead =>
    rw [phase_send]
    exact Phase.noConfusion
  | _ => exact Phase.noConfusion

theorem Stays.phase_ne (h : t.Stays t') (hphase : t.handler.phase ≠ .awaitingLogon) :
    t'.handler.phase ≠ .awaitingLogon := by
  rcases h.phase with hsame | hclosed
  · rw [hsame]
    exact hphase
  · rw [hclosed]
    exact Phase.noConfusion

end Turn

namespace Handler

/-- A handler whose connection is not up yet. -/
inductive IsNew : Handler → Prop
  | acceptor (strict : Bool) (owner : Owner) (channel : Option Owner) :
      IsNew (.acceptor strict owner channel)
  | initiator (settings : Settings) (owner : Owner) (channel : Option Owner) :
      IsNew (.initiator settings owner channel)

/-- The messages with which the handler answers an input. -/
def handsOut (h : Handler) : Input → List Message
  | .message services shared m => (h.receive services shared m).messages
  | .stamp now m =>
    match (h.stamp now m).result with
    | .ok _ => [(h.stamp now m).message]
    | .error _ => []

/-- The handler after a run of inputs. -/
def after (h : Handler) (inputs : List Input) : Handler := inputs.foldl next h

/-- The messages with which the handler answers a run of inputs. -/
def said (h : Handler) : List Input → List Message
  | [] => []
  | input :: rest => h.handsOut input ++ (h.next input).said rest

/-- The handler once its connection is up. -/
def opened (h : Handler) (life : Life) : Handler :=
  (h.connected life.services life.shared).handler

/-- All the messages that the handler hands out in its life, in order. -/
def messages (h : Handler) (life : Life) : List Message :=
  (h.connected life.services life.shared).messages ++ (h.opened life).said life.inputs
    ++ (((h.opened life).after life.inputs).disconnected life.final).messages

/-- A handler that waits for a logon takes one up and registers a session for
it. -/
structure Registers (h : Handler) (services : Services) (shared : Shared) (logon : Message)
    (s : Session) : Prop where
  phase : h.phase = .awaitingLogon
  role : h.role = .acceptor
  msgType : logon.msgType? = some .logon
  opens : (Turn.start h shared).Opens services logon
  session : s = .ofLogon services logon

/-- A session is registered for the handler in its life: an initiator registers
it when its connection is up, an acceptor when a logon arrives. -/
inductive RegistersIn (h : Handler) (life : Life) (s : Session) : Prop
  | asked {settings : Settings} (hrole : h.role = .initiator settings)
      (hsession : s = .ofSettings life.services settings)
      (hfree : life.shared.sessions.find? s.id = none)
  | accepted {before after : List Input} {services : Services} {shared : Shared}
      {logon : Message} (hinputs : life.inputs = before ++ .message services shared logon :: after)
      (hregisters : ((h.opened life).after before).Registers services shared logon s)

/-- A handler that waits for a logon has no session yet. -/
def IsPoised (h : Handler) : Prop := h.phase = .awaitingLogon → h.session = none

/-- Messages have been handed out for a session, and the handler goes on in it or
is done. -/
inductive HasSaid (s : Session) (out : List Message) (h : Handler) : Prop
  | inside {s' : Session} (hsession : h.session = some s') (hstamps : s.Stamps out s')
      (hphase : h.phase ≠ .awaitingLogon)
  | done {s' : Session} (hsession : h.session = none) (hstamps : s.Stamps out s')
      (hphase : h.phase = .closed)

variable {h : Handler} {input : Input} {inputs : List Input} {services : Services}
  {shared : Shared} {logon m : Message} {s : Session} {out : List Message} {t : Turn}

/-! ### One input -/

theorem IsPoised.of_ne (hphase : h.phase ≠ .awaitingLogon) : h.IsPoised :=
  fun hwaiting => absurd hwaiting hphase

theorem Registers.receive_eq (hregisters : h.Registers services shared logon s) :
    h.receive services shared logon = (Turn.start h shared).acceptLogon services logon := by
  simp only [receive, hregisters.phase, hregisters.role, hregisters.msgType, if_true]

/-- A logon for which a session is registered is answered in it. -/
theorem Registers.ends (hregisters : h.Registers services shared logon s) (hpoised : h.IsPoised) :
    ((Turn.start h shared).registered s).Ends (h.receive services shared logon) ∧
      (h.receive services shared logon).handler.phase ≠ .awaitingLogon := by
  have haccepts := (Turn.start h shared).accepts_acceptLogon services logon
  rw [hregisters.receive_eq, hregisters.session]
  rcases haccepts.ends (hpoised hregisters.phase) with ⟨hnot, -⟩ | ⟨-, hends⟩
  · exact absurd hregisters.opens hnot
  · exact ⟨hends, haccepts.phase_ne⟩

/-- A message for which no session is registered is answered in the session that
the handler has, if it has one. -/
theorem Receives.ends (hreceives : h.Receives services shared m t) (hpoised : h.IsPoised)
    (hnot : ∀ s, ¬h.Registers services shared m s) : (Turn.start h shared).Ends t := by
  cases hreceives with
  | traffic _ htreated => exact htreated.ends
  | logon hphase hrole htype haccepts =>
    rcases haccepts.ends (hpoised hphase) with ⟨-, hends⟩ | ⟨hopens, -⟩
    · exact hends
    · exact absurd ⟨hphase, hrole, htype, hopens, rfl⟩ (hnot _)
  | answer _ hhears => exact hhears.ends
  | closed reason => exact .closes (.refl _) reason
  | ignored => exact .goesOn (.refl _)

theorem isOrderly_receive (hpoised : h.IsPoised) (services : Services) (shared : Shared)
    (m : Message) : (h.receive services shared m).IsOrderly := by
  by_cases hregisters : ∃ s, h.Registers services shared m s
  · obtain ⟨s, hregisters⟩ := hregisters
    exact (hregisters.ends hpoised).1.isOrderly rfl
  · have hends := (h.receives_receive services shared m).ends hpoised (not_exists.1 hregisters)
    exact hends.isOrderly rfl

/-- A handler waits for a logon after a message only if it ignored the message. -/
theorem Receives.eq_start (hreceives : h.Receives services shared m t)
    (hwaiting : t.handler.phase = .awaitingLogon) : t = Turn.start h shared := by
  cases hreceives with
  | traffic hphase htreated =>
    have hne : (Turn.start h shared).handler.phase ≠ .awaitingLogon := by
      rw [Turn.start, hphase]
      exact Phase.noConfusion
    exact absurd hwaiting (htreated.stays.phase_ne hne)
  | logon _ _ _ haccepts => exact absurd hwaiting haccepts.phase_ne
  | answer hphase hhears =>
    have hne : (Turn.start h shared).handler.phase ≠ .awaitingLogon := by
      rw [Turn.start, hphase]
      exact Phase.noConfusion
    exact absurd hwaiting (hhears.phase_ne hne)
  | closed => contradiction
  | ignored => rfl

/-- The handler after a message is to be stamped, and what it hands out. -/
theorem stamp_cases (h : Handler) (now : Timestamp) (m : Message) :
    (h.next (.stamp now m) = h ∧ h.handsOut (.stamp now m) = []) ∨
    (h.phase = .established ∧ ∃ s, h.session = some s ∧
      h.next (.stamp now m) = { h with
        session := some (s.stamp now m).1
        logoutSent := h.logoutSent || m.msgType? = some .logout } ∧
      h.handsOut (.stamp now m) = [(s.stamp now m).2]) := by
  rw [next, handsOut]
  rcases h.stamping_cases now m with hrefused | ⟨hestablished, s, hsession, hstamped⟩
  · rw [hrefused]
    exact .inl ⟨rfl, rfl⟩
  · rw [hstamped]
    exact .inr ⟨hestablished, s, hsession, rfl, rfl⟩

/-- Before the session is established and after its end no message is stamped. -/
theorem silent_stamp (hphase : h.phase ≠ .established) (now : Timestamp) (m : Message) :
    h.next (.stamp now m) = h ∧ h.handsOut (.stamp now m) = [] := by
  rw [next, handsOut, stamp_eq_of_ne hphase]
  exact ⟨rfl, rfl⟩

/-- A handler that still waits for a logon has done nothing yet. -/
theorem eq_of_awaitingLogon (hphase : (h.next input).phase = .awaitingLogon) :
    h.next input = h ∧ h.handsOut input = [] := by
  cases input with
  | message services shared m =>
    have hsame := (h.receives_receive services shared m).eq_start hphase
    rw [Handler.next, handsOut, hsame]
    exact ⟨rfl, rfl⟩
  | stamp now m =>
    rcases h.stamp_cases now m with hsame | ⟨hestablished, s, -, hnext, -⟩
    · exact hsame
    · rw [hnext] at hphase
      exact absurd (hestablished.symm.trans hphase) Phase.noConfusion

/-- A handler that does not wait for a logon never comes to wait for one. -/
theorem phase_next_ne (hphase : h.phase ≠ .awaitingLogon) (input : Input) :
    (h.next input).phase ≠ .awaitingLogon := by
  intro hwaiting
  obtain ⟨hsame, -⟩ := eq_of_awaitingLogon hwaiting
  rw [hsame] at hwaiting
  exact hphase hwaiting

theorem IsPoised.next (hpoised : h.IsPoised) (input : Input) : (h.next input).IsPoised := by
  intro hphase
  obtain ⟨hsame, -⟩ := eq_of_awaitingLogon hphase
  rw [hsame] at hphase ⊢
  exact hpoised hphase

/-- What a turn hands out in a session is added to what was handed out before. -/
theorem hasSaid_of_ends {t : Turn} {s' : Session} (hactions : t.actions = [])
    (hsession : t.handler.session = some s') (hstamps : s.Stamps out s') {t' : Turn}
    (hends : t.Ends t') (hphase : t'.handler.phase ≠ .awaitingLogon) :
    t'.handler.HasSaid s (out ++ t'.messages) := by
  cases hends with
  | goesOn hspeaks =>
    obtain ⟨s'', hnext, hmore⟩ := Turn.messages_of_speaks hactions hspeaks hsession
    exact .inside hnext (hstamps.trans hmore) hphase
  | @closes closing hspeaks reason =>
    obtain ⟨s'', hnext, hmore⟩ := Turn.messages_of_speaks hactions hspeaks hsession
    rw [Turn.messages_close]
    exact .inside hnext (hstamps.trans hmore) hphase
  | @releases closing hspeaks reason =>
    obtain ⟨s'', hnext, hmore⟩ := Turn.messages_of_speaks hactions hspeaks hsession
    have hmessages : (closing.close reason).release.messages = closing.messages := by
      rw [Turn.messages, Turn.actions_release]
      exact Turn.messages_close closing reason
    rw [hmessages]
    exact .done (Turn.session_release _) (hstamps.trans hmore) (Turn.phase_release _)

/-- The handler goes on handing out messages of its session. -/
theorem HasSaid.next (hsaid : h.HasSaid s out) (input : Input) :
    (h.next input).HasSaid s (out ++ h.handsOut input) := by
  cases hsaid with
  | @inside s' hsession hstamps hphase =>
    cases input with
    | message services shared m =>
      have hnot : ∀ s, ¬h.Registers services shared m s :=
        fun _ hregisters => hphase hregisters.phase
      exact hasSaid_of_ends (t := Turn.start h shared) rfl hsession hstamps
        ((h.receives_receive services shared m).ends (.of_ne hphase) hnot)
        (phase_next_ne hphase (.message services shared m))
    | stamp now m =>
      rcases h.stamp_cases now m with ⟨hnext, hout⟩ | ⟨-, s'', hsome, hnext, hout⟩
      · rw [hnext, hout, List.append_nil]
        exact .inside hsession hstamps hphase
      · cases hsession.symm.trans hsome
        rw [hnext, hout]
        exact .inside rfl (hstamps.trans (s'.stamps_stamp now m)) hphase
  | done hsession hstamps hphase =>
    have hsame : h.next input = h ∧ h.handsOut input = [] := by
      cases input with
      | message services shared m =>
        rw [Handler.next, handsOut, receive_closed hphase]
        exact ⟨rfl, rfl⟩
      | stamp now m => exact silent_stamp (hphase ▸ Phase.noConfusion) now m
    rw [hsame.1, hsame.2, List.append_nil]
    exact .done hsession hstamps hphase

/-! ### Runs -/

theorem said_append (h : Handler) (left right : List Input) :
    h.said (left ++ right) = h.said left ++ (h.after left).said right := by
  induction left generalizing h with
  | nil => rfl
  | cons input rest ih =>
    rw [List.cons_append, said, said, ih, List.append_assoc]
    rfl

theorem IsPoised.after (hpoised : h.IsPoised) (inputs : List Input) :
    (h.after inputs).IsPoised := by
  induction inputs generalizing h with
  | nil => exact hpoised
  | cons input rest ih => exact ih (hpoised.next input)

theorem HasSaid.after (hsaid : h.HasSaid s out) (inputs : List Input) :
    (h.after inputs).HasSaid s (out ++ h.said inputs) := by
  induction inputs generalizing h out with
  | nil =>
    rw [said, List.append_nil]
    exact hsaid
  | cons input rest ih =>
    rw [said, ← List.append_assoc]
    exact ih (hsaid.next input)

theorem HasSaid.exists_stamps (hsaid : h.HasSaid s out) : ∃ s', s.Stamps out s' := by
  cases hsaid with
  | inside _ hstamps | done _ hstamps => exact ⟨_, hstamps⟩

/-- A handler that waits for a logon after a run has done nothing in it. -/
theorem after_eq_of_awaitingLogon (hphase : (h.after inputs).phase = .awaitingLogon) :
    h.after inputs = h ∧ h.said inputs = [] := by
  induction inputs generalizing h with
  | nil => exact ⟨rfl, rfl⟩
  | cons input rest ih =>
    obtain ⟨hrest, hsilent⟩ := ih hphase
    have hwaiting : (h.next input).phase = .awaitingLogon := by
      rw [← hrest]
      exact hphase
    obtain ⟨hsame, hout⟩ := eq_of_awaitingLogon hwaiting
    constructor
    · exact hrest.trans hsame
    · rw [said, hout, hsilent, List.append_nil]

/-! ### Lives -/

variable {life : Life}

theorem messages_disconnected (h : Handler) (shared : Shared) :
    (h.disconnected shared).messages = [] := by
  rw [Turn.messages, disconnected, Turn.actions_disconnect]
  rfl

theorem connected_initiator {settings : Settings} (hrole : h.role = .initiator settings)
    (services : Services) (shared : Shared) :
    h.connected services shared = (Turn.start h shared).sendLogon services settings := by
  simp only [connected, hrole]

theorem connected_acceptor (hrole : h.role = .acceptor) (services : Services)
    (shared : Shared) : h.connected services shared = Turn.start h shared := by
  simp only [connected, hrole]

theorem isOrderly_connected (h : Handler) (services : Services) (shared : Shared) :
    (h.connected services shared).IsOrderly := by
  cases hrole : h.role with
  | acceptor =>
    rw [connected_acceptor hrole]
    exact .inl rfl
  | initiator settings =>
    rw [connected_initiator hrole]
    rcases ((Turn.start h shared).asks_sendLogon services settings).ends with
      ⟨-, hends⟩ | ⟨-, hends⟩
    · exact hends.isOrderly rfl
    · exact hends.isOrderly rfl

theorem after_extend (h : Handler) (life : Life) (inputs : List Input) :
    (h.opened (life.extend inputs)).after (life.extend inputs).inputs =
      ((h.opened life).after life.inputs).after inputs :=
  List.foldl_append

theorem messages_extend (h : Handler) (life : Life) (inputs : List Input) :
    h.messages (life.extend inputs) =
      h.messages life ++ ((h.opened life).after life.inputs).said inputs := by
  have hopened : h.opened (life.extend inputs) = h.opened life := rfl
  simp only [messages, messages_disconnected, List.append_nil, hopened]
  rw [Life.extend, said_append, List.append_assoc]

theorem isPoised_opened (hnew : h.IsNew) (life : Life) : (h.opened life).IsPoised := by
  cases hnew with
  | acceptor strict owner channel => exact fun _ => rfl
  | initiator settings owner channel =>
    have hasks := (Turn.start (initiator settings owner channel) life.shared).asks_sendLogon
      life.services settings
    exact .of_ne hasks.phase_ne

/-- An initiator that gets its session sends its logon in it first. -/
theorem hasSaid_opened {settings : Settings} (hrole : h.role = .initiator settings)
    (hfree : life.shared.sessions.find? (Session.ofSettings life.services settings).id = none) :
    (h.opened life).HasSaid (.ofSettings life.services settings)
      (h.connected life.services life.shared).messages := by
  have hasks := (Turn.start h life.shared).asks_sendLogon life.services settings
  rw [opened, connected_initiator hrole]
  rcases hasks.ends with ⟨hheld, -⟩ | ⟨-, hends⟩
  · exact absurd hfree hheld
  · exact hasSaid_of_ends (t := (Turn.start h life.shared).registered _) rfl rfl (.refl _) hends
      hasks.phase_ne

/-- An acceptor hands nothing out before a session is registered for it. -/
theorem messages_connected_of_awaitingLogon
    (hphase : (h.opened life).phase = .awaitingLogon) :
    (h.connected life.services life.shared).messages = [] := by
  cases hrole : h.role with
  | acceptor =>
    rw [connected_acceptor hrole]
    rfl
  | initiator settings =>
    rw [opened, connected_initiator hrole] at hphase
    exact absurd hphase
      ((Turn.start h life.shared).asks_sendLogon life.services settings).phase_ne

/-- All that a handler hands out in its life is stamped for the session that is
registered for it. -/
theorem RegistersIn.hasSaid (hnew : h.IsNew) (hregisters : h.RegistersIn life s) :
    ((h.opened life).after life.inputs).HasSaid s (h.messages life) := by
  rw [messages, messages_disconnected, List.append_nil]
  cases hregisters with
  | asked hrole hsession hfree =>
    subst hsession
    exact (hasSaid_opened hrole hfree).after life.inputs
  | @accepted before after services shared logon hinputs hregisters =>
    -- Until the logon arrives the handler waits for it, and so has done nothing.
    obtain ⟨hwaiting, hsilent⟩ := after_eq_of_awaitingLogon hregisters.phase
    rw [hwaiting] at hregisters
    obtain ⟨hends, hphase⟩ := hregisters.ends (isPoised_opened hnew life)
    have hsaid := hasSaid_of_ends (t := (Turn.start (h.opened life) shared).registered s) rfl rfl
      (.refl s) hends hphase
    have hafter : (h.opened life).after life.inputs =
        ((h.opened life).receive services shared logon).handler.after after := by
      rw [hinputs, Handler.after, List.foldl_append, List.foldl_cons]
      exact congrArg (fun waiting => (waiting.next (.message services shared logon)).after after)
        hwaiting
    rw [messages_connected_of_awaitingLogon hregisters.phase, hafter, hinputs, said_append,
      hsilent, hwaiting, List.nil_append, List.nil_append]
    exact hsaid.after after

theorem RegistersIn.exists_stamps (hnew : h.IsNew) (hregisters : h.RegistersIn life s) :
    ∃ s', s.Stamps (h.messages life) s' :=
  (hregisters.hasSaid hnew).exists_stamps

/-- The messages that a handler hands out for the session that is registered for
it carry the numbers from the first one of the session on, one after another, and
name the session.  A call of `stamp` that is refused leaves the handler and the
message as they were. -/
theorem messages_numbered (hnew : h.IsNew) (life : Life) :
    (∀ s, h.RegistersIn life s → ∀ k m, (h.messages life)[k]? = some m →
      m.header.msgSeqNum = some (s.counters.nextOutgoing + UInt32.ofNat k) ∧ s.Marks m) ∧
    (∀ before now m after fault, life.inputs = before ++ .stamp now m :: after →
      (((h.opened life).after before).stamp now m).result = .error fault →
        (((h.opened life).after before).stamp now m).handler = (h.opened life).after before ∧
          (((h.opened life).after before).stamp now m).message = m) := by
  constructor
  · intro s hregisters k m hm
    obtain ⟨s', hstamps⟩ := hregisters.exists_stamps hnew
    exact hstamps.getElem? hm
  · intro before now m after fault _ hrefused
    rw [stamp_eq_of_error hrefused]
    exact ⟨rfl, rfl⟩

/-- The application of an acceptor sends news too early.  Then a logon and a test
request arrive, and the application sends the news again. -/
def sampleLife : Life where
  services := ⟨.silent, .acceptAll, .epoch, .fresh⟩
  shared := .empty
  inputs :=
    [.stamp .epoch (Message.ofType .news []), sampleInput 1 (Admin.logon 30 false),
      sampleInput 2 (Admin.testRequest "T"), .stamp .epoch (Message.ofType .news [])]
  final := .empty

/-- The answer to the logon, a heartbeat and the news are handed out under the
numbers one, two and three. -/
theorem messages_numbered_sample :
    ∃ (h : Handler) (s : Session), h.IsNew ∧ h.RegistersIn sampleLife s ∧
      (h.messages sampleLife).map (·.msgType?) = [some .logon, some .heartbeat, some .news] ∧
      (∀ k m, (h.messages sampleLife)[k]? = some m →
        m.header.msgSeqNum = some (s.counters.nextOutgoing + UInt32.ofNat k) ∧ s.Marks m) ∧
      (((h.opened sampleLife).after []).stamp .epoch (Message.ofType .news [])).result =
        .error .notEstablished ∧
      (((h.opened sampleLife).after []).stamp .epoch (Message.ofType .news [])).handler =
        (h.opened sampleLife).after [] ∧
      (((h.opened sampleLife).after []).stamp .epoch (Message.ofType .news [])).message =
        Message.ofType .news [] := by
  have hnew : (acceptor true 1 none).IsNew := .acceptor true 1 none
  have hinputs : sampleLife.inputs = [.stamp .epoch (Message.ofType .news [])] ++
      sampleInput 1 (Admin.logon 30 false) :: [sampleInput 2 (Admin.testRequest "T"),
        .stamp .epoch (Message.ofType .news [])] := rfl
  have hregisters : (acceptor true 1 none).RegistersIn sampleLife
      (.start { senderCompId := "SERVER", targetCompId := "CLIENT" } "FIX.4.4" 1 1) :=
    .accepted hinputs ⟨rfl, rfl, rfl, ⟨rfl, rfl, rfl⟩, rfl⟩
  obtain ⟨hnumbered, hrefused⟩ := messages_numbered hnew sampleLife
  exact ⟨_, _, hnew, hregisters, rfl, hnumbered _ hregisters, rfl,
    hrefused [] _ _ _ .notEstablished rfl rfl⟩

end Handler

end FixEngine
