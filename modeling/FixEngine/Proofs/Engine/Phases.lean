import FixEngine.Proofs.Engine.Lifetime

/-!
# The phases of a connection

A driver tells a handler once that its connection is up, then passes on what
arrives and what the application sends, and at last says that the connection is
gone, which it may repeat.  `Turn.Leaves` says what one of these calls makes of the
phase: the turn sends messages and the connection stays open, in the same phase or
in one that may follow, or the turn closes the connection after all that it sends.
From then on nothing is answered.
-/

namespace FixEngine

/-! ### Calls -/

/-- What a driver tells a handler. -/
inductive Call where
  /-- The connection is up. -/
  | connected (services : Services) (shared : Shared)
  | input (input : Input)
  /-- The connection is gone. -/
  | disconnected (shared : Shared)

namespace Life

/-- What a driver tells the handler, which may hear more than once that the
connection is gone. -/
def calls (life : Life) (again : List Shared) : List Call :=
  .connected life.services life.shared ::
    (life.inputs.map .input ++ (life.final :: again).map .disconnected)

end Life

namespace Handler

/-- The handler after a call. -/
def afterCall (h : Handler) : Call → Handler
  | .connected services shared => (h.connected services shared).handler
  | .input input => h.next input
  | .disconnected shared => (h.disconnected shared).handler

/-- The actions with which the handler answers a call. -/
def returns (h : Handler) : Call → List Action
  | .connected services shared => (h.connected services shared).actions
  | .input input => h.answers input
  | .disconnected shared => (h.disconnected shared).actions

/-- The handler after a run of calls. -/
def afterCalls (h : Handler) (calls : List Call) : Handler := calls.foldl afterCall h

theorem afterCalls_append (h : Handler) (left right : List Call) :
    h.afterCalls (left ++ right) = (h.afterCalls left).afterCalls right :=
  List.foldl_append

theorem afterCalls_map_input (h : Handler) (inputs : List Input) :
    h.afterCalls (inputs.map .input) = h.after inputs :=
  List.foldl_map

end Handler

namespace Phase

/-- A connection stays in its phase or goes on to one that may follow. -/
def Goes (phase next : Phase) : Prop := next = phase ∨ phase.mayBecome next = true

theorem goes_closed (phase : Phase) : phase.Goes .closed := by
  cases phase <;> exact .inr rfl

/-- Nothing follows the end of a connection. -/
theorem eq_closed_of_goes {next : Phase} (h : closed.Goes next) : next = .closed := by
  cases next with
  | closed => rfl
  | _ => exact h.elim id fun hbecomes => absurd hbecomes Bool.false_ne_true

end Phase

namespace Turn

variable {t t' : Turn} {s : Session} {m : Message} {services : Services} {phase : Phase}

/-! ### Phases and what a turn sends -/

@[simp]
theorem phase_sendLogout (t : Turn) (now : Timestamp) (text : Option String) :
    (t.sendLogout now text).handler.phase = t.handler.phase :=
  phase_send _ now _

@[simp]
theorem phase_replies (t : Turn) (now : Timestamp) (replies : List Message) :
    (replies.foldl (fun t reply => t.send now reply) t).handler.phase = t.handler.phase := by
  induction replies generalizing t with
  | nil => rfl
  | cons reply rest ih => exact (ih _).trans (phase_send t now reply)

@[simp]
theorem phase_dispatch (t : Turn) (services : Services) (id : SessionId) (msgType : MsgType)
    (m : Message) : (t.dispatch services id msgType m).handler.phase = t.handler.phase := by
  unfold dispatch
  split
  · exact phase_replies _ services.now _
  · exact phase_send _ services.now _

@[simp]
theorem phase_resetSequence (t : Turn) (m : Message) :
    (t.resetSequence m).handler.phase = t.handler.phase := by
  unfold resetSequence
  split
  · split <;> rfl
  · rfl

/-- Of the messages that are processed, a logout alone touches the phase. -/
theorem phase_process {msgType : MsgType} (h : msgType ≠ .logout) (t : Turn) (services : Services)
    (id : SessionId) (m : Message) :
    (t.process services id msgType m).handler.phase = t.handler.phase := by
  cases msgType with
  | heartbeat => rfl
  | testRequest => exact phase_send t services.now _
  | logout => contradiction
  | sequenceReset => exact phase_resetSequence t m
  | _ => exact phase_dispatch t services id _ m

/-- A message that passes the check of its number leaves the phase alone. -/
theorem Checked.phase_eq {now : Timestamp} (h : t.Checked now s m (t', true)) :
    t'.handler.phase = t.handler.phase := by
  cases h <;> rfl

/-! ### Leaving a phase -/

/-- What a turn that began in a phase comes to: it sends messages and the connection
stays open, in that phase or in one that may follow, or it closes the connection
after all that it sends. -/
inductive Leaves (phase : Phase) (t : Turn) : Prop
  | goesOn {messages : List Message} (hactions : t.actions = messages.map .send)
      (hphase : t.handler.phase = phase ∨
        (phase.mayBecome t.handler.phase = true ∧ t.handler.phase ≠ .closed))
  | closes {messages : List Message} {reason : DisconnectReason}
      (hactions : t.actions = messages.map .send ++ [.disconnect reason])
      (hphase : t.handler.phase = .closed)

/-- A turn that has done nothing stays in its phase. -/
theorem leaves_start (h : Handler) (shared : Shared) : (Turn.start h shared).Leaves h.phase := by
  have hsilent : (Turn.start h shared).actions = [].map Action.send := rfl
  exact .goesOn hsilent (.inl rfl)

theorem leaves_of_speaks (hactions : t.actions = []) (h : t.Speaks t')
    (hphase : t'.handler.phase = phase ∨
      (phase.mayBecome t'.handler.phase = true ∧ t'.handler.phase ≠ .closed)) :
    t'.Leaves phase := by
  obtain ⟨messages, hsent, -⟩ := h
  rw [hactions, List.nil_append] at hsent
  exact .goesOn hsent hphase

theorem leaves_close (hactions : t.actions = []) (h : t.Speaks t') (reason : DisconnectReason) :
    (t'.close reason).Leaves phase := by
  obtain ⟨messages, hsent, -⟩ := h
  rw [hactions, List.nil_append] at hsent
  exact .closes (congrArg (· ++ [Action.disconnect reason]) hsent) rfl

theorem leaves_refuse (hactions : t.actions = []) (h : t.Speaks t') (now : Timestamp)
    (reason : DisconnectReason) : (t'.refuse now reason).Leaves phase :=
  leaves_close hactions (h.trans (speaks_sendLogout t' now _)) reason

/-- The session may be given up after the connection has been closed. -/
theorem Leaves.release (h : t.Leaves phase) : t.release.Leaves phase := by
  cases h with
  | goesOn hactions hphase =>
    rw [← phase_release] at hphase
    exact .goesOn ((actions_release t).trans hactions) hphase
  | closes hactions hphase =>
    exact .closes ((actions_release t).trans hactions) ((phase_release t).trans hphase)

theorem leaves_process (hactions : t.actions = []) (h : t.Speaks t')
    (hphase : t'.handler.phase = phase) (services : Services) (id : SessionId) (msgType : MsgType)
    (m : Message) : (t'.process services id msgType m).Leaves phase := by
  obtain ⟨t'', hspeaks, hprocess | hprocess⟩ := t'.exists_speaks_process services id msgType m
  · by_cases hlogout : msgType = .logout
    · subst hlogout
      refine leaves_close hactions (h.trans ?_) .logout
      split
      · exact .refl t'
      · exact speaks_sendLogout t' services.now none
    · have hsame := (phase_process hlogout t' services id m).trans hphase
      rw [hprocess] at hsame ⊢
      exact leaves_of_speaks hactions (h.trans hspeaks) (.inl hsame)
  · rw [hprocess]
    exact leaves_close hactions (h.trans hspeaks) .logout

theorem Treated.leaves (h : t.Treated services m t') (hactions : t.actions = []) :
    t'.Leaves t.handler.phase := by
  cases h with
  | ignored => exact leaves_of_speaks hactions (.refl t) (.inl rfl)
  | logon => exact leaves_refuse hactions (.refl t) services.now .duplicateLogon
  | reset =>
    exact leaves_of_speaks hactions (speaks_resetSequence t m) (.inl (phase_resetSequence t m))
  | stopped _ hcheck =>
    cases Checked.of_eq hcheck with
    | unnumbered | dropped => exact leaves_of_speaks hactions (.refl t) (.inl rfl)
    | tooLow => exact leaves_refuse hactions (.refl t) services.now _
    | @requested n =>
      have hmark : t.Speaks { t with handler.resendUntil := some n } := speaks_of_same rfl rfl
      exact leaves_of_speaks hactions (hmark.trans (speaks_send _ services.now _))
        (.inl (phase_send _ services.now _))
  | processed hchecked hcheck =>
    have hpasses := Checked.of_eq hcheck
    exact leaves_process hactions (hpasses.speaks hchecked.session) hpasses.phase_eq services _ _ m

theorem Accepts.leaves {logon : Message} (h : t.Accepts services logon t')
    (hactions : t.actions = []) : t'.Leaves .awaitingLogon := by
  cases h with
  | unknown | unnumbered => exact leaves_close hactions (.refl t) _
  | duplicate =>
    have hsent (logout : Message) : t.actions ++ [.send logout] = [logout].map Action.send := by
      rw [hactions, List.nil_append, List.map_singleton]
    exact .closes (congrArg (· ++ [Action.disconnect .duplicateSession]) (hsent _)) rfl
  | inOrder =>
    have hanswered := speaks_send ((t.registered (.ofLogon services logon)).withSession
      (Session.ofLogon services logon).counted) services.now (Admin.logonAnswer logon)
    have hestablished := hanswered.trans (speaks_establish _ (Session.ofLogon services logon).id)
    exact leaves_of_speaks (t := (t.registered _).withSession _) hactions hestablished
      (.inr ⟨rfl, Phase.noConfusion⟩)
  | @ahead n =>
    have hanswered := speaks_send ((t.registered (.ofLogon services logon)).withSession
      ((Session.ofLogon services logon).skipped n)) services.now (Admin.logonAnswer logon)
    have hasked := hanswered.trans (speaks_send _ services.now
      (Admin.resendRequest (Session.ofLogon services logon).counters.nextIncoming (n - 1)))
    have hestablished := hasked.trans (speaks_establish _ (Session.ofLogon services logon).id)
    exact leaves_of_speaks (t := (t.registered _).withSession _) hactions hestablished
      (.inr ⟨rfl, Phase.noConfusion⟩)
  | stale =>
    exact (leaves_refuse (t := (t.registered (.ofLogon services logon)).withSession _) hactions
      (.refl _) services.now _).release

theorem Asks.leaves {settings : Settings} (h : t.Asks services settings t')
    (hactions : t.actions = []) : t'.Leaves .connecting := by
  cases h with
  | duplicate => exact leaves_close hactions (.refl t) .duplicateSession
  | asked =>
    have hsent := speaks_send (t.registered (.ofSettings services settings)) services.now
      (Admin.logonOf settings)
    refine leaves_of_speaks (t := t.registered (.ofSettings services settings)) hactions
      (hsent.trans ?_) (.inr ⟨rfl, Phase.noConfusion⟩)
    exact speaks_of_same rfl rfl

theorem Hears.leaves {logon : Message} (h : t.Hears services logon t') (hactions : t.actions = [])
    (hphase : t.handler.phase = .awaitingLogonAck) : t'.Leaves .awaitingLogonAck := by
  cases h with
  | ignored => exact leaves_of_speaks hactions (.refl t) (.inl hphase)
  | unnumbered => exact leaves_close hactions (.refl t) .missingSequenceNumber
  | @inOrder s =>
    exact leaves_of_speaks (t := t.withSession s.counted) hactions (speaks_establish _ s.id)
      (.inr ⟨rfl, Phase.noConfusion⟩)
  | @ahead s n =>
    have hestablished := speaks_establish (t.withSession (s.skipped n)) s.id
    have hopen : (((t.withSession (s.skipped n)).establish s.id).send services.now
        (Admin.resendRequest s.counters.nextIncoming (n - 1))).handler.phase = .established :=
      phase_send _ services.now _
    refine leaves_of_speaks (t := t.withSession (s.skipped n)) hactions
      (hestablished.trans (speaks_send _ services.now _)) (.inr ?_)
    rw [hopen]
    exact ⟨rfl, Phase.noConfusion⟩
  | @stale s =>
    exact leaves_refuse (t := t.withSession s) hactions (.refl _) services.now _

/-- A turn that leaves a phase goes on to one that may follow. -/
theorem Leaves.goes (h : t.Leaves phase) : phase.Goes t.handler.phase := by
  cases h with
  | goesOn _ hphase => exact hphase.imp id And.left
  | closes _ hphase =>
    rw [hphase]
    exact phase.goes_closed

/-- Nothing is done once the connection has been closed. -/
theorem Leaves.last (h : t.Leaves phase) {j : Nat} {reason : DisconnectReason}
    (hj : t.actions[j]? = some (.disconnect reason)) : j + 1 = t.actions.length := by
  have hnot (messages : List Message) :
      Action.disconnect reason ∉ messages.map Action.send := by
    rw [List.mem_map]
    rintro ⟨m, -, hm⟩
    exact Action.noConfusion hm
  cases h with
  | @goesOn messages hactions =>
    rw [hactions] at hj
    exact absurd (List.mem_of_getElem? hj) (hnot messages)
  | @closes messages last hactions =>
    rw [hactions] at hj ⊢
    rcases Nat.lt_or_ge j (messages.map Action.send).length with hlt | hge
    · rw [List.getElem?_append_left hlt] at hj
      exact absurd (List.mem_of_getElem? hj) (hnot messages)
    · obtain ⟨hlt, -⟩ := List.getElem?_eq_some_iff.1 hj
      rw [List.length_append, List.length_singleton] at hlt ⊢
      omega

/-- A turn that began before the end of the connection closes it just if it ends
with saying so. -/
theorem Leaves.closed_iff (h : t.Leaves phase) (hopen : phase ≠ .closed) :
    t.handler.phase = .closed ↔ ∃ reason, t.actions.getLast? = some (.disconnect reason) := by
  cases h with
  | @goesOn messages hactions hphase =>
    refine iff_of_false ?_ ?_
    · rcases hphase with hsame | ⟨-, hstays⟩
      · rw [hsame]
        exact hopen
      · exact hstays
    · rintro ⟨reason, hlast⟩
      rw [hactions] at hlast
      obtain ⟨m, -, hm⟩ := List.mem_map.1 (List.mem_of_getLast? hlast)
      exact Action.noConfusion hm
  | @closes messages reason hactions hphase =>
    refine iff_of_true hphase ⟨reason, ?_⟩
    rw [hactions, List.getLast?_concat]

end Turn

namespace Handler

variable {h : Handler} {call : Call} {input : Input} {services : Services} {shared : Shared}
  {m : Message} {life : Life}

/-! ### One call -/

theorem Receives.leaves {t : Turn} (hreceives : h.Receives services shared m t) :
    t.Leaves h.phase := by
  cases hreceives with
  | traffic _ htreated => exact htreated.leaves rfl
  | logon hphase _ _ haccepts =>
    rw [hphase]
    exact haccepts.leaves rfl
  | answer hphase hhears =>
    rw [hphase]
    exact hhears.leaves rfl hphase
  | closed reason => exact Turn.leaves_close rfl (.refl _) reason
  | ignored => exact Turn.leaves_start h shared

theorem leaves_connected (hnew : h.IsNew) (services : Services) (shared : Shared) :
    (h.connected services shared).Leaves h.phase := by
  cases hnew with
  | acceptor strict owner channel => exact Turn.leaves_start _ shared
  | initiator settings owner channel =>
    exact ((Turn.start _ shared).asks_sendLogon services settings).leaves rfl

theorem phase_stamp (h : Handler) (now : Timestamp) (m : Message) :
    (h.next (.stamp now m)).phase = h.phase := by
  rcases h.stamp_cases now m with ⟨hsame, -⟩ | ⟨-, s, -, hnext, -⟩
  · rw [hsame]
  · rw [hnext]

/-- How a handler takes up a call: its phase stays or goes on to one that may follow,
nothing is done once the connection has been closed, and but for the end of the
connection the call closes it just if the answer ends with saying so. -/
structure Follows (h : Handler) (call : Call) : Prop where
  goes : h.phase.Goes (h.afterCall call).phase
  last : ∀ j reason, (h.returns call)[j]? = some (.disconnect reason) →
    j + 1 = (h.returns call).length
  closes : (∀ shared, call ≠ .disconnected shared) →
    ((h.phase ≠ .closed ∧ (h.afterCall call).phase = .closed) ↔
      ∃ reason, (h.returns call).getLast? = some (.disconnect reason))

/-- A call is taken up as its turn says. -/
theorem follows_of_leaves {t : Turn} (hleaves : t.Leaves h.phase)
    (hafter : h.afterCall call = t.handler) (hreturns : h.returns call = t.actions)
    (hopen : h.phase = .closed → t.actions = []) : h.Follows call where
  goes := by
    rw [hafter]
    exact hleaves.goes
  last := by
    intro j reason hj
    rw [hreturns] at hj ⊢
    exact hleaves.last hj
  closes := by
    intro _
    rw [hafter, hreturns]
    by_cases hclosed : h.phase = .closed
    · rw [hopen hclosed]
      refine iff_of_false (fun hleft => hleft.1 hclosed) ?_
      rintro ⟨reason, hlast⟩
      contradiction
    · rw [and_iff_right hclosed]
      exact hleaves.closed_iff hclosed

theorem follows_connected (hnew : h.IsNew) (services : Services) (shared : Shared) :
    h.Follows (.connected services shared) := by
  refine follows_of_leaves (leaves_connected hnew services shared) rfl rfl ?_
  intro hclosed
  cases hnew <;> contradiction

theorem follows_input (h : Handler) (input : Input) : h.Follows (.input input) := by
  cases input with
  | message services shared m =>
    refine follows_of_leaves (h.receives_receive services shared m).leaves rfl rfl ?_
    intro hclosed
    rw [receive_closed hclosed]
    rfl
  | stamp now m =>
    have hstays := Turn.leaves_start (h.next (.stamp now m)) .empty
    rw [phase_stamp] at hstays
    exact follows_of_leaves hstays rfl rfl fun _ => rfl

theorem follows_disconnected (h : Handler) (shared : Shared) :
    h.Follows (.disconnected shared) where
  goes := h.phase.goes_closed
  last := by
    intro j reason hj
    have hsilent : h.returns (.disconnected shared) = [] :=
      Turn.actions_disconnect (Turn.start h shared)
    rw [hsilent] at hj
    contradiction
  closes := fun hnot => absurd rfl (hnot shared)

/-- Nothing happens any more: a message leaves the handler and what it has in common
with others as they are and is not answered, and no message is stamped. -/
structure IsDone (h : Handler) : Prop where
  receive : ∀ services shared m, h.receive services shared m = Turn.start h shared
  stamp : ∀ now m, h.stamp now m = ⟨.error .notEstablished, h, m⟩

theorem isDone_of_closed (hclosed : h.phase = .closed) : h.IsDone where
  receive _ _ _ := receive_closed hclosed
  stamp _ _ := stamp_eq_of_ne (hclosed ▸ Phase.noConfusion)

/-! ### Lives -/

/-- A connection that has ended does not begin again. -/
theorem closed_afterCalls {calls : List Call} (hclosed : h.phase = .closed)
    (hfollows : ∀ before call after, calls = before ++ call :: after →
      (h.afterCalls before).Follows call) : (h.afterCalls calls).phase = .closed := by
  induction calls generalizing h with
  | nil => exact hclosed
  | cons call rest ih =>
    have hgoes := (hfollows [] call rest rfl).goes
    rw [afterCalls, List.foldl_nil, hclosed] at hgoes
    apply ih (Phase.eq_closed_of_goes hgoes)
    intro before next after hrest
    exact hfollows (call :: before) next after (congrArg (call :: ·) hrest)

/-- Every call of a life is taken up in order. -/
theorem follows_of_mem_calls (hnew : h.IsNew) {again : List Shared} {before after : List Call}
    (hcalls : life.calls again = before ++ call :: after) :
    (h.afterCalls before).Follows call := by
  cases before with
  | nil =>
    obtain ⟨rfl, -⟩ := List.cons.inj hcalls
    exact follows_connected hnew life.services life.shared
  | cons first rest =>
    obtain ⟨-, hrest⟩ := List.cons.inj hcalls
    have hmem : call ∈ life.inputs.map Call.input ++ (life.final :: again).map .disconnected := by
      rw [hrest]
      exact List.mem_append_right _ List.mem_cons_self
    rcases List.mem_append.1 hmem with hinput | hgone
    · obtain ⟨input, -, rfl⟩ := List.mem_map.1 hinput
      exact follows_input _ input
    · obtain ⟨shared, -, rfl⟩ := List.mem_map.1 hgone
      exact follows_disconnected _ shared

/-- A connection goes through its phases in order and ends once.  Every call takes it
to a phase that may follow, and closes it just if the answer ends with the one
request to disconnect.  From then on nothing is answered. -/
theorem phases_followed (hnew : h.IsNew) (life : Life) (again : List Shared) :
    (∀ before call after, life.calls again = before ++ call :: after →
      (h.afterCalls before).Follows call) ∧
    (∀ before middle after, life.calls again = before ++ (middle ++ after) →
      (h.afterCalls before).phase = .closed → (h.afterCalls (before ++ middle)).IsDone) := by
  have hfollows (before : List Call) (call : Call) (after : List Call)
      (hcalls : life.calls again = before ++ call :: after) : (h.afterCalls before).Follows call :=
    follows_of_mem_calls hnew hcalls
  refine ⟨hfollows, ?_⟩
  intro before middle after hcalls hclosed
  apply isDone_of_closed
  rw [afterCalls_append]
  apply closed_afterCalls hclosed
  intro first call rest hmiddle
  rw [hmiddle] at hcalls
  have hsplit : life.calls again = (before ++ first) ++ call :: (rest ++ after) := by
    rw [hcalls, List.append_assoc, List.append_assoc]
    rfl
  rw [← afterCalls_append]
  exact hfollows _ call _ hsplit

/-- A logon arrives at an acceptor, then a logout and a test request. -/
def sampleEnd : Life where
  services := ⟨.silent, .acceptAll, .epoch, .fresh⟩
  shared := .empty
  inputs :=
    [sampleInput 1 (Admin.logon 30 false), sampleInput 2 (Admin.logout none),
      sampleInput 3 (Admin.testRequest "T")]
  final := .empty

/-- The logout closes the connection, and the test request is not answered. -/
theorem phases_followed_sample :
    ∃ (h : Handler) (before : List Call) (call : Call) (after : List Call), h.IsNew ∧
      sampleEnd.calls [.empty] = before ++ call :: after ∧ after.length = 3 ∧
      (h.afterCalls before).phase = .established ∧ (h.afterCalls before).Follows call ∧
      ((h.afterCalls before).returns call).getLast? = some (.disconnect .logout) ∧
      (h.afterCalls (before ++ [call])).phase = .closed ∧
      (h.afterCalls (before ++ [call] ++ after)).IsDone := by
  have hnew : (acceptor true 1 none).IsNew := .acceptor true 1 none
  have hcalls : sampleEnd.calls [.empty] =
      [.connected sampleEnd.services .empty, .input (sampleInput 1 (Admin.logon 30 false))] ++
        .input (sampleInput 2 (Admin.logout none)) ::
          [.input (sampleInput 3 (Admin.testRequest "T")), .disconnected .empty,
            .disconnected .empty] := rfl
  obtain ⟨hfollows, hdone⟩ := phases_followed hnew sampleEnd [.empty]
  exact ⟨_, _, _, _, hnew, hcalls, rfl, rfl, hfollows _ _ _ hcalls, rfl, rfl,
    hdone (_ ++ [_]) _ [] hcalls rfl⟩

end Handler

end FixEngine
