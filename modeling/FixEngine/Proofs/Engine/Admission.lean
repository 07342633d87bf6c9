import FixEngine.Proofs.Engine.Phases
import Mathlib.Data.List.Forall2

/-!
# Before a logon is accepted

Until the authenticator accepts its logon, the other side of a connection that was
accepted is a stranger.  A stranger is sent nothing, the application does not hear of
it, and it leaves no trace in what the handlers have in common.  It is turned away for
its message alone: two runs that differ in the live sessions, in the numbers at which
sessions start, in the time or in the application answer it alike.
-/

namespace FixEngine

namespace Call

/-- What the handlers have in common when the call is made. -/
def shared? : Call → Option Shared
  | connected _ shared => some shared
  | input (.message _ shared _) => some shared
  | input (.stamp _ _) => none
  | disconnected shared => some shared

/-- Two calls of one kind, with one message, about which the authenticator says the
same.  Nothing is asked of the rest of what comes with them. -/
inductive Alike : Call → Call → Prop
  | connected (services services' : Services) (shared shared' : Shared) :
      Alike (.connected services shared) (.connected services' shared')
  | message {services services' : Services} {m : Message} (shared shared' : Shared)
      (haccepts : services.accepts m = services'.accepts m) :
      Alike (.input (.message services shared m)) (.input (.message services' shared' m))
  | stamp (now now' : Timestamp) (m : Message) :
      Alike (.input (.stamp now m)) (.input (.stamp now' m))
  | disconnected (shared shared' : Shared) :
      Alike (.disconnected shared) (.disconnected shared')

end Call

namespace Handler

/-! ### What can be seen of a run -/

/-- What the handlers have in common after a call. -/
def sharedAfter (h : Handler) : Call → Option Shared
  | .connected services shared => some (h.connected services shared).shared
  | .input (.message services shared m) => some (h.receive services shared m).shared
  | .input (.stamp _ _) => none
  | .disconnected shared => some (h.disconnected shared).shared

/-- The answers of a run of calls, each with the handler after it. -/
def trace (h : Handler) : List Call → List (List Action × Handler)
  | [] => []
  | call :: rest => (h.returns call, h.afterCall call) :: (h.afterCall call).trace rest

/-- The authenticator is asked about a logon and accepts it. -/
inductive Admits (h : Handler) : Call → Prop
  | logon {services : Services} {shared : Shared} {m : Message} (hphase : h.phase = .awaitingLogon)
      (htype : m.msgType? = some .logon) (haccepts : services.accepts m = true) :
      Admits h (.input (.message services shared m))

/-- The authenticator accepts no logon in a run of calls. -/
def Unadmitted (h : Handler) (calls : List Call) : Prop :=
  ∀ before call after, calls = before ++ call :: after → ¬(h.afterCalls before).Admits call

/-- A call sends nothing, leaves the sessions, the channels and what the application was
told as they are, and stamps nothing, so that the handler and the message stay as they are. -/
structure IsQuiet (h : Handler) (call : Call) : Prop where
  sends : ∀ m, .send m ∉ h.returns call
  shared : h.sharedAfter call = call.shared?
  stamps : ∀ now m, call = .input (.stamp now m) →
    h.stamp now m = ⟨.error .notEstablished, h, m⟩

/-! ### Strangers -/

/-- The handler of an accepted connection that has taken up no logon. -/
structure IsStranger (h : Handler) : Prop where
  role : h.role = .acceptor
  phase : h.phase = .awaitingLogon ∨ h.phase = .closed
  session : h.session = none
  loggedOn : h.loggedOn = false

/-- The handler after its connection has ended. -/
def ended (h : Handler) : Handler := { h with phase := .closed }

/-- Why a message of a stranger ends the connection. -/
def refusal (m : Message) : DisconnectReason :=
  if m.msgType? = some .logon then .authenticationFailed else .logonExpected

variable {h : Handler} {call call' : Call} {calls : List Call} {services : Services}
  {shared : Shared} {m : Message}

theorem isStranger_acceptor (strict : Bool) (owner : Owner) (channel : Option Owner) :
    (acceptor strict owner channel).IsStranger :=
  ⟨rfl, .inl rfl, rfl, rfl⟩

theorem IsStranger.ended (hs : h.IsStranger) : h.ended.IsStranger :=
  ⟨hs.role, .inr rfl, hs.session, hs.loggedOn⟩

theorem IsStranger.connected (hs : h.IsStranger) (services : Services) (shared : Shared) :
    h.connected services shared = Turn.start h shared := by
  rw [Handler.connected, hs.role]

/-- The first message of a stranger ends the connection without an answer. -/
theorem IsStranger.receive (hs : h.IsStranger) (hphase : h.phase = .awaitingLogon)
    (hnot : ¬h.Admits (.input (.message services shared m))) :
    h.receive services shared m = (Turn.start h shared).close (refusal m) := by
  by_cases htype : m.msgType? = some .logon
  · have hunknown : services.accepts m = false :=
      Bool.eq_false_iff.2 fun haccepts => hnot (.logon hphase htype haccepts)
    simp only [Handler.receive, hphase, hs.role, htype, refusal, Turn.acceptLogon, hunknown]
    rfl
  · simp only [Handler.receive, hphase, hs.role, htype, refusal, if_false]

theorem IsStranger.disconnected (hs : h.IsStranger) (shared : Shared) :
    h.disconnected shared = Turn.start h.ended shared := by
  have hsession := hs.session
  have hloggedOn := hs.loggedOn
  obtain ⟨role, owner, channel, strict, phase, session, loggedOn, logoutSent, resendUntil⟩ := h
  dsimp only at hsession hloggedOn
  subst hsession hloggedOn
  rfl

theorem IsStranger.stamp (hs : h.IsStranger) (now : Timestamp) (m : Message) :
    h.stamp now m = ⟨.error .notEstablished, h, m⟩ := by
  rw [Handler.stamp, hs.session]

theorem IsStranger.next_stamp (hs : h.IsStranger) (now : Timestamp) (m : Message) :
    h.next (.stamp now m) = h := by
  rw [next, hs.stamp]

/-! ### One call -/

/-- What a stranger is answered, and where that leaves the connection.  A message that
is waited for ends it. -/
def farewell (h : Handler) : Call → List Action × Handler
  | .input (.message _ _ m) =>
    if h.phase = .awaitingLogon then ([.disconnect (refusal m)], h.ended) else ([], h)
  | .disconnected _ => ([], h.ended)
  | _ => ([], h)

/-- A call of a stranger comes to its farewell, and touches nothing else. -/
theorem IsStranger.farewell_eq (hs : h.IsStranger) (hnot : ¬h.Admits call) :
    h.farewell call = (h.returns call, h.afterCall call) ∧ h.sharedAfter call = call.shared? := by
  cases call with
  | connected services shared =>
    rw [returns, afterCall, sharedAfter, hs.connected]
    exact ⟨rfl, rfl⟩
  | input input =>
    cases input with
    | message services shared m =>
      rw [returns, answers, afterCall, next, sharedAfter, farewell]
      rcases hs.phase with hphase | hphase
      · rw [hs.receive hphase hnot, if_pos hphase]
        exact ⟨rfl, rfl⟩
      · rw [receive_closed hphase, if_neg (hphase ▸ Phase.noConfusion)]
        exact ⟨rfl, rfl⟩
    | stamp now m =>
      rw [afterCall, hs.next_stamp]
      exact ⟨rfl, rfl⟩
  | disconnected shared =>
    rw [returns, afterCall, sharedAfter, hs.disconnected]
    exact ⟨rfl, rfl⟩

theorem IsStranger.farewell (hs : h.IsStranger) (call : Call) :
    (∀ m, .send m ∉ (h.farewell call).1) ∧ (h.farewell call).2.IsStranger := by
  unfold Handler.farewell
  split
  · split
    · exact ⟨fun m hm => Action.noConfusion (List.mem_singleton.1 hm), hs.ended⟩
    · exact ⟨fun _ => List.not_mem_nil, hs⟩
  · exact ⟨fun _ => List.not_mem_nil, hs.ended⟩
  · exact ⟨fun _ => List.not_mem_nil, hs⟩

theorem IsStranger.isQuiet (hs : h.IsStranger) (hnot : ¬h.Admits call) : h.IsQuiet call where
  sends := by
    have hsends := (hs.farewell call).1
    rw [(hs.farewell_eq hnot).1] at hsends
    exact hsends
  shared := (hs.farewell_eq hnot).2
  stamps now m _ := hs.stamp now m

theorem IsStranger.afterCall (hs : h.IsStranger) (hnot : ¬h.Admits call) :
    (h.afterCall call).IsStranger := by
  have hstranger := (hs.farewell call).2
  rw [(hs.farewell_eq hnot).1] at hstranger
  exact hstranger

/-- The farewell does not depend on what calls that are alike differ in. -/
theorem farewell_eq_of_alike (h : Handler) (halike : call.Alike call') :
    h.farewell call' = h.farewell call := by
  cases halike <;> rfl

theorem Admits.of_alike (hadmits : h.Admits call') (halike : call.Alike call') :
    h.Admits call := by
  cases hadmits with
  | logon hphase htype haccepts =>
    cases halike with
    | message _ _ hsame => exact .logon hphase htype (hsame.trans haccepts)

/-- A stranger sees the same of two calls that are alike. -/
theorem IsStranger.eq_of_alike (hs : h.IsStranger) (hnot : ¬h.Admits call)
    (halike : call.Alike call') :
    (h.returns call', h.afterCall call') = (h.returns call, h.afterCall call) := by
  have hnot' : ¬h.Admits call' := fun hadmits => hnot (hadmits.of_alike halike)
  rw [← (hs.farewell_eq hnot).1, ← (hs.farewell_eq hnot').1, h.farewell_eq_of_alike halike]

/-! ### Runs -/

theorem unadmitted_nil (h : Handler) : h.Unadmitted [] := by
  intro before call after hcalls
  exact absurd hcalls (List.append_ne_nil_of_right_ne_nil before (List.cons_ne_nil call after)).symm

theorem Unadmitted.cons {rest : List Call} (hnot : ¬h.Admits call)
    (hrest : (h.afterCall call).Unadmitted rest) : h.Unadmitted (call :: rest) := by
  intro before next after hcalls
  cases before with
  | nil =>
    obtain ⟨rfl, -⟩ := List.cons.inj hcalls
    exact hnot
  | cons first before =>
    obtain ⟨rfl, hrest'⟩ := List.cons.inj hcalls
    exact hrest before next after hrest'

theorem Unadmitted.head {rest : List Call} (h' : h.Unadmitted (call :: rest)) : ¬h.Admits call :=
  h' [] call rest rfl

theorem Unadmitted.tail {rest : List Call} (h' : h.Unadmitted (call :: rest)) :
    (h.afterCall call).Unadmitted rest := by
  intro before next after hrest
  exact h' (call :: before) next after (congrArg (call :: ·) hrest)

theorem IsStranger.afterCalls (hs : h.IsStranger) {before rest : List Call}
    (hunadmitted : h.Unadmitted (before ++ rest)) :
    (h.afterCalls before).IsStranger ∧ (h.afterCalls before).Unadmitted rest := by
  induction before generalizing h with
  | nil => exact ⟨hs, hunadmitted⟩
  | cons call before ih => exact ih (hs.afterCall hunadmitted.head) hunadmitted.tail

theorem IsStranger.trace_eq_of_alike (hs : h.IsStranger) (hunadmitted : h.Unadmitted calls)
    {calls' : List Call} (halike : List.Forall₂ Call.Alike calls calls') :
    h.trace calls' = h.trace calls := by
  induction halike generalizing h with
  | nil => rfl
  | cons hcall _ ih =>
    obtain ⟨hreturns, hafter⟩ := Prod.mk.inj (hs.eq_of_alike hunadmitted.head hcall)
    rw [trace, trace, hreturns, hafter, ih (hs.afterCall hunadmitted.head) hunadmitted.tail]

/-- As long as no logon has been accepted, an accepting side sends nothing, tells the
application nothing, leaves the sessions and the channels of others as they are and stamps
nothing.  What it answers, and where it stands, is the same for any live sessions, any
numbers at which sessions start, any time and any application. -/
theorem nothing_shown_of_unadmitted (strict : Bool) (owner : Owner) (channel : Option Owner)
    (hunadmitted : (acceptor strict owner channel).Unadmitted calls) :
    (∀ before call after, calls = before ++ call :: after →
      ((acceptor strict owner channel).afterCalls before).IsQuiet call) ∧
    ∀ calls', List.Forall₂ Call.Alike calls calls' →
      (acceptor strict owner channel).trace calls' = (acceptor strict owner channel).trace calls := by
  have hstranger := isStranger_acceptor strict owner channel
  refine ⟨?_, fun calls' halike => hstranger.trace_eq_of_alike hunadmitted halike⟩
  rintro before call after rfl
  obtain ⟨hbefore, hrest⟩ := hstranger.afterCalls hunadmitted
  exact hbefore.isQuiet hrest.head

/-- The services of an engine that knows one user. -/
def sampleServices (application : Application) (numbering : Numbering) : Services :=
  ⟨application, .ofUsers [("trader", "secret")], .epoch, numbering⟩

/-- A logon with the password of a user. -/
def sampleLogon (password : String) : Message :=
  let plain := Admin.logon 30 false
  { plain with
    body := plain.body ++
      [Admin.textEntry Tag.username "trader", Admin.textEntry Tag.password password] }

/-- The other side fails to log on and tries again. -/
def sampleAttempts (services : Services) (shared : Shared) : List Call :=
  [.connected services shared, .input (.stamp .epoch (Admin.testRequest "T")),
    .input (.message services shared (sampleLogon "guess")),
    .input (.message services shared (sampleLogon "secret"))]

/-- The second logon has the right password and comes too late.  The other side cannot
tell whether its session is live or where it starts. -/
theorem nothing_shown_of_unadmitted_sample :
    let strange := sampleAttempts (sampleServices .silent .fresh) .empty
    let known := sampleAttempts
      (sampleServices (.ofRules [⟨"A", none, .ok [Admin.logout none]⟩]) (.fixed 7 9))
      ⟨Directory.empty.insert {} 2, .empty, []⟩
    (acceptor true 1 none).Unadmitted strange ∧ List.Forall₂ Call.Alike strange known ∧
      (∀ before call after, strange = before ++ call :: after →
        ((acceptor true 1 none).afterCalls before).IsQuiet call) ∧
      (acceptor true 1 none).trace known = (acceptor true 1 none).trace strange := by
  intro strange known
  have hunadmitted : (acceptor true 1 none).Unadmitted strange := by
    refine .cons ?_ (.cons ?_ (.cons ?_ (.cons ?_ (unadmitted_nil _))))
    · nofun
    · nofun
    · rintro ⟨-, -, haccepts⟩
      exact absurd haccepts (by decide)
    · rintro ⟨hphase, -, -⟩
      exact absurd hphase (by decide)
  have halike : List.Forall₂ Call.Alike strange known :=
    .cons (.connected ..) (.cons (.stamp ..) (.cons (.message _ _ rfl)
      (.cons (.message _ _ rfl) .nil)))
  obtain ⟨hquiet, hsame⟩ := nothing_shown_of_unadmitted true 1 none hunadmitted
  exact ⟨hunadmitted, halike, hquiet, hsame known halike⟩

end Handler

end FixEngine
