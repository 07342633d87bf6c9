import FixEngine.Proofs.Engine.Holding
import FixEngine.Proofs.Engine.Phases
import Mathlib.Data.List.Induction

/-!
# What an application is told

In the life of a handler the application is told of one logon and one logout, with
the messages that it is handed in between, or of nothing at all.  `Turn.Tells` says
what one turn adds to what the application was told, and `Handler.HasTold` what it
has been told when some calls have been taken up, which follows call by call.
-/

namespace FixEngine

/-- The types of the messages that a handler takes up itself. -/
def MsgType.isTakenUp : MsgType → Bool
  | heartbeat | testRequest | logout | sequenceReset | logon => true
  | _ => false

namespace Turn

variable {t t' t'' : Turn} {s : Session} {m : Message} {services : Services} {id : SessionId}
  {told more : List Event}

/-- A turn goes on by telling the application of some events. -/
def Tells (t t' : Turn) (told : List Event) : Prop :=
  t'.shared.events = t.shared.events ++ told

theorem tells_of_shared (hshared : t'.shared = t.shared) : t.Tells t' [] := by
  rw [Tells, hshared, List.append_nil]

theorem Tells.trans (h : t.Tells t' told) (h' : t'.Tells t'' more) :
    t.Tells t'' (told ++ more) := by
  rw [Tells, h', h, List.append_assoc]

/-- What the application was told in a turn that began with some events. -/
def toldSince (t : Turn) (shared : Shared) : List Event :=
  t.shared.events.drop shared.events.length

theorem Tells.toldSince_eq (h : t.Tells t' told) : t'.toldSince t.shared = told := by
  rw [toldSince, h, List.drop_left]

/-! ### What operations tell -/

@[simp]
theorem shared_replies (t : Turn) (now : Timestamp) (replies : List Message) :
    (replies.foldl (fun t reply => t.send now reply) t).shared = t.shared := by
  induction replies generalizing t with
  | nil => rfl
  | cons reply rest ih => exact (ih _).trans (shared_send t now reply)

@[simp]
theorem shared_sendLogout (t : Turn) (now : Timestamp) (text : Option String) :
    (t.sendLogout now text).shared = t.shared :=
  shared_send _ now _

@[simp]
theorem shared_resetSequence (t : Turn) (m : Message) : (t.resetSequence m).shared = t.shared :=
  (advances_resetSequence t m).shared

@[simp]
theorem events_release (t : Turn) : t.release.shared.events = t.shared.events := by
  unfold release
  split <;> rfl

theorem tells_dispatch (t : Turn) (services : Services) (id : SessionId) (msgType : MsgType)
    (m : Message) : t.Tells (t.dispatch services id msgType m) [.received id m] := by
  have htold : t.Tells (t.tell (.received id m)) [.received id m] := rfl
  unfold dispatch
  split
  · exact htold.trans (tells_of_shared (shared_replies _ services.now _))
  · exact htold.trans (tells_of_shared (shared_send _ services.now _))

/-- A message that is processed is handed to the application, unless the handler
takes it up itself. -/
theorem tells_process {msgType : MsgType} (h : msgType ≠ .logon) (t : Turn) (services : Services)
    (id : SessionId) (m : Message) :
    t.Tells (t.process services id msgType m)
      (if msgType.isTakenUp then [] else [.received id m]) := by
  cases msgType with
  | heartbeat => exact tells_of_shared rfl
  | testRequest => exact tells_of_shared (shared_send t services.now _)
  | logout =>
    apply tells_of_shared
    change (if t.handler.logoutSent then t else t.sendLogout services.now none).shared = t.shared
    split
    · rfl
    · exact shared_sendLogout t services.now none
  | sequenceReset => exact tells_of_shared (shared_resetSequence t m)
  | logon => contradiction
  | _ => exact tells_dispatch t services id _ m

/-- The traffic of a session tells the application of nothing but the message. -/
theorem Treated.exists_tells (h : t.Treated services m t') :
    ∃ told, t.Tells t' told ∧
      (told = [] ∨ ∃ id, t.handler.sessionId? = some id ∧ told = [.received id m]) := by
  cases h with
  | ignored => exact ⟨[], tells_of_shared rfl, .inl rfl⟩
  | logon => exact ⟨[], tells_of_shared (shared_refuse t services.now _), .inl rfl⟩
  | reset => exact ⟨[], tells_of_shared (shared_resetSequence t m), .inl rfl⟩
  | stopped _ hcheck => exact ⟨[], tells_of_shared (Checked.of_eq hcheck).shared, .inl rfl⟩
  | @processed s msgType t'' hchecked hcheck =>
    have hprocess := tells_process hchecked.ne_logon t'' services s.id m
    refine ⟨_, (tells_of_shared (Checked.of_eq hcheck).shared).trans hprocess, ?_⟩
    split
    · exact .inl rfl
    · refine .inr ⟨s.id, ?_, rfl⟩
      rw [Handler.sessionId?, hchecked.session]
      rfl

/-- What a turn comes to before the session is established: the application is told
of nothing, or the session is established and the application told of the logon. -/
inductive Announces (t : Turn) : Turn → Prop
  | silent {t' : Turn} (htold : t.Tells t' [])
      (hloggedOn : t'.handler.loggedOn = t.handler.loggedOn)
      (hphase : t'.handler.phase = t.handler.phase ∨ t'.handler.phase ≠ .established) :
      Announces t t'
  | begins {t' : Turn} {id : SessionId} (htold : t.Tells t' [.loggedOn id])
      (hid : t'.handler.sessionId? = some id) (hloggedOn : t'.handler.loggedOn = true)
      (hphase : t'.handler.phase = .established) : Announces t t'

theorem announces_close (t : Turn) (reason : DisconnectReason) : t.Announces (t.close reason) :=
  .silent (tells_of_shared rfl) rfl (.inr Phase.noConfusion)

/-- The session that a turn holds is established. -/
theorem announces_establish (htold : t.Tells t' []) (hid : t'.handler.sessionId? = some id) :
    t.Announces (t'.establish id) := by
  have hbegins : t'.Tells (t'.establish id) [.loggedOn id] := rfl
  exact .begins (htold.trans hbegins) hid rfl rfl

theorem Accepts.announces {logon : Message} (h : t.Accepts services logon t') :
    t.Announces t' := by
  cases h with
  | unknown | unnumbered => exact announces_close t _
  | duplicate => exact .silent (tells_of_shared rfl) rfl (.inr Phase.noConfusion)
  | inOrder =>
    have hsent := spares_send ((t.registered (.ofLogon services logon)).withSession
      (Session.ofLogon services logon).counted) services.now (Admin.logonAnswer logon)
    refine announces_establish ?_ hsent.sessionId?
    rw [Tells, shared_send]
    exact (List.append_nil _).symm
  | @ahead n =>
    have hsent := spares_send ((t.registered (.ofLogon services logon)).withSession
      ((Session.ofLogon services logon).skipped n)) services.now (Admin.logonAnswer logon)
    refine announces_establish ?_ (hsent.trans (spares_send _ services.now _)).sessionId?
    rw [Tells, shared_send, shared_send]
    exact (List.append_nil _).symm
  | @stale n =>
    have hrefused := spares_refuse ((t.registered (.ofLogon services logon)).withSession
      (.ofLogon services logon)) services.now
      (.sequenceTooLow (Session.ofLogon services logon).counters.nextIncoming n)
    refine .silent ?_ ?_ (.inr ?_)
    · rw [Tells, events_release, shared_refuse]
      exact (List.append_nil _).symm
    · rw [loggedOn_release]
      exact hrefused.loggedOn
    · rw [phase_release]
      exact Phase.noConfusion

theorem Asks.announces {settings : Settings} (h : t.Asks services settings t') :
    t.Announces t' := by
  cases h with
  | duplicate => exact announces_close t .duplicateSession
  | asked =>
    have hsent := spares_send (t.registered (.ofSettings services settings)) services.now
      (Admin.logonOf settings)
    have hshared := shared_send (t.registered (.ofSettings services settings)) services.now
      (Admin.logonOf settings)
    refine .silent ?_ hsent.loggedOn (.inr Phase.noConfusion)
    rw [Tells, hshared]
    exact (List.append_nil _).symm

theorem Hears.announces {logon : Message} (h : t.Hears services logon t') : t.Announces t' := by
  cases h with
  | ignored => exact .silent (tells_of_shared rfl) rfl (.inl rfl)
  | unnumbered => exact announces_close t .missingSequenceNumber
  | inOrder => exact announces_establish (tells_of_shared rfl) rfl
  | @ahead s n =>
    have hsent := spares_send ((t.withSession (s.skipped n)).establish s.id) services.now
      (Admin.resendRequest s.counters.nextIncoming (n - 1))
    have hbegins : t.Tells ((t.withSession (s.skipped n)).establish s.id) [.loggedOn s.id] := rfl
    have hsilent := tells_of_shared
      (shared_send ((t.withSession (s.skipped n)).establish s.id) services.now
        (Admin.resendRequest s.counters.nextIncoming (n - 1)))
    exact .begins (hbegins.trans hsilent) hsent.sessionId? hsent.loggedOn
      (phase_send _ services.now _)
  | @stale s =>
    have hrefused := spares_refuse (t.withSession s) services.now
    exact .silent (tells_of_shared (shared_refuse _ services.now _)) (hrefused _).loggedOn
      (.inr Phase.noConfusion)

/-! ### The end of the connection -/

@[simp]
theorem loggedOn_disconnect (t : Turn) : t.disconnect.handler.loggedOn = false := by
  unfold disconnect
  exact loggedOn_release _

/-- The application is told of the logout if it was told of the logon. -/
theorem tells_disconnect (hid : t.handler.sessionId? = some id)
    (hloggedOn : t.handler.loggedOn = true) : t.Tells t.disconnect [.loggedOut id] := by
  obtain ⟨s, hsession, rfl⟩ := Option.map_eq_some_iff.1 hid
  unfold disconnect
  simp only [hloggedOn, hsession, Tells, events_release]
  rfl

theorem tells_disconnect_of_silent (hloggedOn : t.handler.loggedOn = false) :
    t.Tells t.disconnect [] := by
  unfold disconnect
  simp only [hloggedOn, Tells, events_release, List.append_nil]

end Turn

namespace Handler

variable {h : Handler} {call : Call} {calls : List Call} {services : Services} {shared : Shared}
  {m : Message} {out : List Event} {reached : Prop} {id : SessionId} {t : Turn} {life : Life}

/-! ### What calls tell -/

/-- What the application is told in a call. -/
def tells (h : Handler) : Call → List Event
  | .connected services shared => (h.connected services shared).toldSince shared
  | .input (.message services shared m) => (h.receive services shared m).toldSince shared
  | .input (.stamp _ _) => []
  | .disconnected shared => (h.disconnected shared).toldSince shared

/-- What the application is told in a run of calls. -/
def told (h : Handler) : List Call → List Event
  | [] => []
  | call :: rest => h.tells call ++ (h.afterCall call).told rest

theorem told_append (h : Handler) (left right : List Call) :
    h.told (left ++ right) = h.told left ++ (h.afterCalls left).told right := by
  induction left generalizing h with
  | nil => rfl
  | cons call rest ih =>
    rw [List.cons_append, told, told, ih, List.append_assoc]
    rfl

theorem told_append_singleton (h : Handler) (calls : List Call) (call : Call) :
    h.told (calls ++ [call]) = h.told calls ++ (h.afterCalls calls).tells call := by
  rw [told_append, told, told, List.append_nil]

/-- The connection is established at some time in a run of calls. -/
def Reaches (h : Handler) (calls : List Call) : Prop :=
  ∃ before after, calls = before ++ after ∧ (h.afterCalls before).phase = .established

/-- What the application has been told, and where the handler stands then.  Nothing
was told, and the connection was not established; or the application was told of the
logon and of messages of one session, which the handler still holds; or it was told
of the logout as well. -/
inductive HasTold (reached : Prop) (out : List Event) (h : Handler) : Prop
  | quiet (hreached : ¬reached) (htold : out = []) (hloggedOn : h.loggedOn = false)
      (hphase : h.phase ≠ .established)
  | inside {id : SessionId} {messages : List Message} (hreached : reached)
      (htold : out = .loggedOn id :: messages.map (.received id))
      (hid : h.sessionId? = some id) (hloggedOn : h.loggedOn = true)
      (hphase : h.phase = .established ∨ h.phase = .closed)
  | ended {id : SessionId} {messages : List Message} (hreached : reached)
      (htold : out = .loggedOn id :: (messages.map (.received id) ++ [.loggedOut id]))
      (hloggedOn : h.loggedOn = false) (hphase : h.phase = .closed)

/-! ### One call -/

/-- An input changes nothing once nothing happens any more. -/
theorem IsDone.input (hdone : h.IsDone) (input : Input) :
    h.next input = h ∧ h.tells (.input input) = [] := by
  cases input with
  | message services shared m =>
    have htells : (Turn.start h shared).Tells (h.receive services shared m) [] := by
      rw [hdone.receive]
      exact Turn.tells_of_shared rfl
    exact ⟨congrArg Turn.handler (hdone.receive services shared m), htells.toldSince_eq⟩
  | stamp now m =>
    refine ⟨?_, rfl⟩
    rw [next, hdone.stamp]

/-- An input in the traffic of a session tells the application of a message at most,
and the handler still holds the session. -/
theorem next_of_inside (hid : h.sessionId? = some id) (hloggedOn : h.loggedOn = true)
    (hphase : h.phase = .established ∨ h.phase = .closed) (input : Input) :
    (h.tells (.input input) = [] ∨ ∃ m, h.tells (.input input) = [.received id m]) ∧
      (h.next input).sessionId? = some id ∧ (h.next input).loggedOn = true ∧
        ((h.next input).phase = .established ∨ (h.next input).phase = .closed) := by
  cases input with
  | stamp now m =>
    have hsame := h.phase_stamp now m
    rw [← hsame] at hphase
    rcases h.stamp_cases now m with ⟨hnext, -⟩ | ⟨-, s, hsession, hnext, -⟩
    · rw [hnext] at hphase ⊢
      exact ⟨.inl rfl, hid, hloggedOn, hphase⟩
    · rw [hnext] at hphase ⊢
      rw [sessionId?, hsession] at hid
      exact ⟨.inl rfl, hid, hloggedOn, hphase⟩
  | message services shared m =>
    rcases hphase with hphase | hphase
    · have htreated := (Turn.start h shared).treated_traffic services m
      rw [← receive_established hphase] at htreated
      have hspares := htreated.spares
      obtain ⟨told, htells, htold⟩ := htreated.exists_tells
      have htoldEq : h.tells (.input (.message services shared m)) = told := htells.toldSince_eq
      rw [htoldEq]
      refine ⟨?_, hspares.sessionId?.trans hid, hspares.loggedOn.trans hloggedOn, ?_⟩
      · rcases htold with hnone | ⟨other, hother, hone⟩
        · exact .inl hnone
        · cases hid.symm.trans hother
          exact .inr ⟨m, hone⟩
      · rcases htreated.stays.phase with hsame | hclosed
        · exact .inl (hsame.trans hphase)
        · exact .inr hclosed
    · have hsame := (isDone_of_closed hphase).input (.message services shared m)
      rw [hsame.1]
      exact ⟨.inl hsame.2, hid, hloggedOn, .inr hphase⟩

/-- Before the session is established, a message tells the application of the logon
that establishes it, if of anything. -/
theorem Receives.announces (hreceives : h.Receives services shared m t)
    (hphase : h.phase ≠ .established) : (Turn.start h shared).Announces t := by
  cases hreceives with
  | traffic hestablished => exact absurd hestablished hphase
  | logon _ _ _ haccepts => exact haccepts.announces
  | answer _ hhears => exact hhears.announces
  | closed reason => exact Turn.announces_close _ reason
  | ignored => exact .silent (Turn.tells_of_shared rfl) rfl (.inl rfl)

theorem hasTold_of_announces (hannounces : (Turn.start h shared).Announces t)
    (hreached : ¬reached) (hloggedOn : h.loggedOn = false) (hphase : h.phase ≠ .established) :
    t.handler.HasTold (reached ∨ t.handler.phase = .established) (t.toldSince shared) := by
  cases hannounces with
  | silent htold hsame hstays =>
    have hopen : t.handler.phase ≠ .established := by
      rcases hstays with hstays | hopen
      · rw [hstays]
        exact hphase
      · exact hopen
    exact .quiet (not_or.2 ⟨hreached, hopen⟩) htold.toldSince_eq (hsame.trans hloggedOn) hopen
  | @begins id htold hid hbegun hestablished =>
    have hout : t.toldSince shared = .loggedOn id :: [].map (.received id) := htold.toldSince_eq
    exact .inside (.inr hestablished) hout hid hbegun (.inl hestablished)

/-- A handler that is done or has not begun tells nothing when its connection is gone. -/
theorem tells_disconnected_of_silent (hloggedOn : h.loggedOn = false) (shared : Shared) :
    h.tells (.disconnected shared) = [] :=
  (Turn.tells_disconnect_of_silent (t := Turn.start h shared) hloggedOn).toldSince_eq

theorem HasTold.input (htold : h.HasTold reached out) (input : Input) :
    (h.next input).HasTold (reached ∨ (h.next input).phase = .established)
      (out ++ h.tells (.input input)) := by
  cases htold with
  | quiet hreached hnone hloggedOn hphase =>
    rw [hnone, List.nil_append]
    cases input with
    | message services shared m =>
      exact hasTold_of_announces ((h.receives_receive services shared m).announces hphase)
        hreached hloggedOn hphase
    | stamp now m =>
      rw [(silent_stamp hphase now m).1]
      exact .quiet (not_or.2 ⟨hreached, hphase⟩) rfl hloggedOn hphase
  | @inside id messages hreached hout hid hloggedOn hphase =>
    obtain ⟨htells, hid', hloggedOn', hphase'⟩ := next_of_inside hid hloggedOn hphase input
    rw [hout]
    rcases htells with hnone | ⟨m, hone⟩
    · rw [hnone, List.append_nil]
      exact .inside (.inl hreached) rfl hid' hloggedOn' hphase'
    · have hmore : .loggedOn id :: messages.map (.received id) ++ [.received id m] =
          Event.loggedOn id :: (messages ++ [m]).map (.received id) := by
        rw [List.map_append, List.cons_append, List.map_singleton]
      rw [hone]
      exact .inside (.inl hreached) hmore hid' hloggedOn' hphase'
  | ended hreached hout hloggedOn hphase =>
    have hsame := (isDone_of_closed hphase).input input
    rw [hsame.1, hsame.2, List.append_nil]
    exact .ended (.inl hreached) hout hloggedOn hphase

theorem HasTold.disconnected (htold : h.HasTold reached out) (shared : Shared) :
    (h.afterCall (.disconnected shared)).HasTold
      (reached ∨ (h.afterCall (.disconnected shared)).phase = .established)
      (out ++ h.tells (.disconnected shared)) := by
  have hloggedOn' : (h.afterCall (.disconnected shared)).loggedOn = false :=
    Turn.loggedOn_disconnect _
  have hphase' : (h.afterCall (.disconnected shared)).phase = .closed := rfl
  cases htold with
  | quiet hreached hnone hloggedOn hphase =>
    have hopen : (h.afterCall (.disconnected shared)).phase ≠ .established := Phase.noConfusion
    rw [hnone, tells_disconnected_of_silent hloggedOn]
    exact .quiet (not_or.2 ⟨hreached, hopen⟩) rfl hloggedOn' hopen
  | @inside id messages hreached hout hid hloggedOn hphase =>
    have htells : h.tells (.disconnected shared) = [.loggedOut id] :=
      (Turn.tells_disconnect (t := Turn.start h shared) hid hloggedOn).toldSince_eq
    rw [hout, htells]
    exact .ended (.inl hreached) rfl hloggedOn' hphase'
  | ended hreached hout hloggedOn hphase =>
    rw [tells_disconnected_of_silent hloggedOn, List.append_nil]
    exact .ended (.inl hreached) hout hloggedOn' hphase'

theorem hasTold_connected (hnew : h.IsNew) (services : Services) (shared : Shared) :
    (h.afterCall (.connected services shared)).HasTold
      (False ∨ (h.afterCall (.connected services shared)).phase = .established)
      (h.tells (.connected services shared)) := by
  cases hnew with
  | acceptor strict owner channel =>
    have hannounces : (Turn.start (acceptor strict owner channel) shared).Announces
        ((acceptor strict owner channel).connected services shared) :=
      .silent (Turn.tells_of_shared rfl) rfl (.inl rfl)
    exact hasTold_of_announces hannounces id rfl Phase.noConfusion
  | initiator settings owner channel =>
    have hasks := (Turn.start (initiator settings owner channel) shared).asks_sendLogon services
      settings
    exact hasTold_of_announces hasks.announces id rfl Phase.noConfusion

/-! ### Lives -/

theorem reaches_append_singleton :
    h.Reaches (calls ++ [call]) ↔
      h.Reaches calls ∨ (h.afterCalls (calls ++ [call])).phase = .established := by
  constructor
  · rintro ⟨before, after, hcalls, hphase⟩
    cases after using List.reverseRecOn with
    | nil =>
      rw [List.append_nil] at hcalls
      exact .inr (hcalls ▸ hphase)
    | append_singleton after last =>
      rw [← List.append_assoc] at hcalls
      exact .inl ⟨before, after, (List.append_inj' hcalls rfl).1, hphase⟩
  · rintro (⟨before, after, rfl, hphase⟩ | hphase)
    · exact ⟨before, after ++ [call], List.append_assoc .., hphase⟩
    · exact ⟨_, [], (List.append_nil _).symm, hphase⟩

/-- What the application has been told goes on with every call but the first. -/
theorem HasTold.afterCall (htold : (h.afterCalls calls).HasTold (h.Reaches calls) (h.told calls))
    (hlater : ∀ services shared, call ≠ .connected services shared) :
    (h.afterCalls (calls ++ [call])).HasTold (h.Reaches (calls ++ [call]))
      (h.told (calls ++ [call])) := by
  rw [reaches_append_singleton, told_append_singleton, afterCalls_append]
  cases call with
  | connected services shared => exact absurd rfl (hlater services shared)
  | input input => exact htold.input input
  | disconnected shared => exact htold.disconnected shared

theorem hasTold_afterCalls (hnew : h.IsNew) (services : Services) (shared : Shared)
    {later : List Call}
    (hlater : ∀ call ∈ later, ∀ services shared, call ≠ .connected services shared) :
    (h.afterCalls (.connected services shared :: later)).HasTold
      (h.Reaches (.connected services shared :: later))
      (h.told (.connected services shared :: later)) := by
  induction later using List.reverseRecOn with
  | nil =>
    have hbegun : h.Reaches [] ↔ False := by
      refine iff_false_intro ?_
      rintro ⟨before, after, hnil, hphase⟩
      obtain ⟨rfl, -⟩ := List.append_eq_nil_iff.1 hnil.symm
      cases hnew <;> contradiction
    have hfirst := hasTold_connected hnew services shared
    rw [← hbegun] at hfirst
    rw [← List.nil_append [Call.connected services shared], reaches_append_singleton,
      told_append_singleton]
    exact hfirst
  | append_singleton before call ih =>
    rw [List.forall_mem_append, List.forall_mem_singleton] at hlater
    exact (ih hlater.1).afterCall hlater.2

/-- What the application has been told while a connection is up. -/
theorem hasTold_after (hnew : h.IsNew) (life : Life) :
    ((h.opened life).after life.inputs).HasTold
      (h.Reaches (.connected life.services life.shared :: life.inputs.map .input))
      (h.told (.connected life.services life.shared :: life.inputs.map .input)) := by
  have hlater : ∀ call ∈ life.inputs.map Call.input, ∀ services shared,
      call ≠ .connected services shared := by
    intro call hmem services shared
    obtain ⟨input, -, rfl⟩ := List.mem_map.1 hmem
    exact Call.noConfusion
  have hafter : h.afterCalls (.connected life.services life.shared :: life.inputs.map .input) =
      (h.opened life).after life.inputs := afterCalls_map_input (h.opened life) life.inputs
  have htold := hasTold_afterCalls hnew life.services life.shared hlater
  rwa [hafter] at htold

theorem loggedOn_afterCalls_disconnected (hloggedOn : h.loggedOn = false) (again : List Shared) :
    (h.afterCalls (again.map .disconnected)).loggedOn = false := by
  induction again generalizing h with
  | nil => exact hloggedOn
  | cons shared rest ih => exact ih (Turn.loggedOn_disconnect (Turn.start h shared))

/-- A connection that is never established tells the application of nothing.  Any other
tells it of one logon, then of messages of the same session, and at last of its
logout. -/
theorem logon_paired (hnew : h.IsNew) (life : Life) (again : List Shared) :
    (¬h.Reaches (life.calls again) ∧ h.told (life.calls again) = []) ∨
    (h.Reaches (life.calls again) ∧ ∃ (id : SessionId) (messages : List Message),
      h.told (life.calls again) =
        .loggedOn id :: (messages.map (.received id) ++ [.loggedOut id])) := by
  have hlater : ∀ call ∈ life.inputs.map Call.input ++ (life.final :: again).map .disconnected,
      ∀ services shared, call ≠ .connected services shared := by
    intro call hmem services shared
    rcases List.mem_append.1 hmem with hinput | hgone
    · obtain ⟨input, -, rfl⟩ := List.mem_map.1 hinput
      exact Call.noConfusion
    · obtain ⟨final, -, rfl⟩ := List.mem_map.1 hgone
      exact Call.noConfusion
  have htold := hasTold_afterCalls hnew life.services life.shared hlater
  have hgone : (h.afterCalls (life.calls again)).loggedOn = false := by
    rw [Life.calls, ← List.cons_append, afterCalls_append]
    exact loggedOn_afterCalls_disconnected (Turn.loggedOn_disconnect _) again
  cases htold with
  | quiet hreached hnone => exact .inl ⟨hreached, hnone⟩
  | inside _ _ _ hloggedOn => exact absurd (hgone.symm.trans hloggedOn) Bool.false_ne_true
  | ended hreached hout => exact .inr ⟨hreached, _, _, hout⟩

/-- A logon and news arrive at an acceptor, and the connection breaks off. -/
def sampleVisit : Life where
  services := ⟨.silent, .acceptAll, .epoch, .fresh⟩
  shared := .empty
  inputs := [sampleInput 1 (Admin.logon 30 false), sampleInput 2 (Message.ofType .news [])]
  final := .empty

/-- The application is told of the logon, the news and the logout, although the end of
the connection is reported twice. -/
theorem logon_paired_sample :
    ∃ (h : Handler) (id : SessionId) (m : Message), h.IsNew ∧
      h.Reaches (sampleVisit.calls [.empty]) ∧ m.msgType? = some .news ∧
      h.told (sampleVisit.calls [.empty]) = [.loggedOn id, .received id m, .loggedOut id] := by
  have hnew : (acceptor true 1 none).IsNew := .acceptor true 1 none
  have hlength : ((acceptor true 1 none).told (sampleVisit.calls [.empty])).length = 3 := rfl
  rcases logon_paired hnew sampleVisit [.empty] with ⟨-, hnone⟩ | ⟨hreached, id, messages, htold⟩
  · rw [hnone] at hlength
    contradiction
  · refine ⟨_, _, _, hnew, hreached, ?_, rfl⟩
    rfl

end Handler

end FixEngine
