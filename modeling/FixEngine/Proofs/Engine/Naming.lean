import FixEngine.Proofs.Engine.Farewell
import FixEngine.Proofs.Engine.Forwarding

/-!
# The names under which a handler speaks

All that a handler hands out in its life bears one version and one identity.  A handler
that initiates takes them from its settings, and one that accepts takes them from the
message that arrives first, even if it refuses that message.
-/

namespace FixEngine

namespace Life

/-- The message that arrives first. -/
def firstMessage? (life : Life) : Option Message := life.inputs.findSome? Input.message?

variable {life : Life} {before after : List Call} {call : Call}

/-- A call in the course of a life says that the connection is up, and then it is the
first one, or it hands over an input. -/
theorem course_cases (hcourse : life.course = before ++ call :: after) :
    (before = [] ∧ call = .connected life.services life.shared) ∨
    ∃ earlier input later, life.inputs = earlier ++ input :: later ∧ call = .input input ∧
      before = .connected life.services life.shared :: earlier.map .input := by
  cases before with
  | nil => exact .inl ⟨rfl, (List.cons.inj hcourse).1.symm⟩
  | cons first before =>
    obtain ⟨rfl, hinputs⟩ := List.cons.inj hcourse
    obtain ⟨earlier, rest, hsplit, rfl, hrest⟩ := List.map_eq_append_iff.1 hinputs
    obtain ⟨input, later, rfl, rfl, -⟩ := List.map_eq_cons_iff.1 hrest
    exact .inr ⟨earlier, input, later, hsplit, rfl, rfl⟩

end Life

/-- A session whose version and identity a handler of a role uses in its life. -/
inductive Role.SpeaksAs (life : Life) : Role → Session → Prop
  | acceptor (services : Services) {logon : Message} (hfirst : life.firstMessage? = some logon) :
      SpeaksAs life .acceptor (.ofLogon services logon)
  | initiator (settings : Settings) :
      SpeaksAs life (.initiator settings) (.ofSettings life.services settings)

namespace Handler

variable {h : Handler} {life : Life} {services : Services} {shared : Shared} {m out : Message}
  {t : Turn}

/-! ### The first message of the other side -/

/-- What becomes of a logon that arrives first bears the names that it gives. -/
theorem hasSaid_of_accepts (haccepts : (Turn.start h shared).Accepts services m t)
    (hsession : h.session = none) : t.handler.HasSaid (.ofLogon services m) t.messages := by
  rcases haccepts.ends hsession with ⟨hnot, -⟩ | ⟨-, hends⟩
  · cases haccepts with
    | unknown | unnumbered => exact .done hsession (.refl _) rfl
    | duplicate => exact .done hsession (Session.stamps_stamp _ services.now _) rfl
    | inOrder haccepts hfree hnumber | ahead haccepts hfree hnumber
    | stale haccepts hfree hnumber =>
      exact absurd ⟨haccepts, Option.isSome_iff_exists.2 ⟨_, hnumber⟩, hfree⟩ hnot
  · exact hasSaid_of_ends (t := (Turn.start h shared).registered (.ofLogon services m)) rfl rfl
      (.refl _) hends haccepts.phase_ne

theorem hasSaid_receive (hphase : h.phase = .awaitingLogon) (hrole : h.role = .acceptor)
    (hsession : h.session = none) (services : Services) (shared : Shared) (m : Message) :
    (h.receive services shared m).handler.HasSaid (.ofLogon services m)
      (h.receive services shared m).messages := by
  by_cases htype : m.msgType? = some .logon
  · have hreceive : h.receive services shared m =
        (Turn.start h shared).acceptLogon services m := by
      simp only [receive, hphase, hrole, htype, if_true]
    rw [hreceive]
    exact hasSaid_of_accepts ((Turn.start h shared).accepts_acceptLogon services m) hsession
  · have hreceive : h.receive services shared m = (Turn.start h shared).close .logonExpected := by
      simp only [receive, hphase, hrole, htype, if_false]
    rw [hreceive]
    exact .done hsession (.refl _) rfl

/-- A handler that waits for a logon speaks under the names of the message that arrives
first. -/
theorem marks_of_mem_said (hphase : h.phase = .awaitingLogon) (hrole : h.role = .acceptor)
    (hsession : h.session = none) {inputs : List Input} (hout : out ∈ h.said inputs) :
    ∃ services logon, inputs.findSome? Input.message? = some logon ∧
      (Session.ofLogon services logon).Marks out := by
  induction inputs with
  | nil => exact absurd hout List.not_mem_nil
  | cons input rest ih =>
    cases input with
    | message services shared m =>
      have hsaid := (hasSaid_receive hphase hrole hsession services shared m).after rest
      obtain ⟨s', hstamps⟩ := hsaid.exists_stamps
      exact ⟨services, m, rfl, hstamps.marks out hout⟩
    | stamp now m =>
      have hwaiting : h.phase ≠ .established := by
        rw [hphase]
        exact Phase.noConfusion
      obtain ⟨hnext, hsilent⟩ := silent_stamp hwaiting now m
      rw [said, hnext, hsilent] at hout
      exact ih hout

/-! ### Lives -/

/-- The logon of an initiator bears the names of its settings. -/
theorem hasSaid_of_asks {settings : Settings} (hasks : (Turn.start h shared).Asks services settings t)
    (hsession : h.session = none) : t.handler.HasSaid (.ofSettings services settings) t.messages := by
  rcases hasks.ends with ⟨hheld, -⟩ | ⟨-, hends⟩
  · cases hasks with
    | duplicate => exact .done hsession (.refl _) rfl
    | asked hfree => exact absurd hfree hheld
  · exact hasSaid_of_ends (t := (Turn.start h shared).registered (.ofSettings services settings))
      rfl rfl (.refl _) hends hasks.phase_ne

/-- Every message of a life bears the names of one session. -/
theorem exists_speaksAs (hnew : h.IsNew) (hout : out ∈ h.messages life) :
    ∃ s, h.role.SpeaksAs life s ∧ s.Marks out := by
  rw [messages, messages_disconnected, List.append_nil] at hout
  cases hnew with
  | acceptor strict owner channel =>
    have hsaid : out ∈ (acceptor strict owner channel).said life.inputs := hout
    obtain ⟨services, logon, hfirst, hmarks⟩ := marks_of_mem_said rfl rfl rfl hsaid
    exact ⟨_, .acceptor services hfirst, hmarks⟩
  | initiator settings owner channel =>
    have hasks := (Turn.start (initiator settings owner channel) life.shared).asks_sendLogon
      life.services settings
    obtain ⟨s', hstamps⟩ := ((hasSaid_of_asks hasks rfl).after life.inputs).exists_stamps
    exact ⟨_, .initiator settings, hstamps.marks out hout⟩

/-- What a handler hands out in the course of a life are messages of the life. -/
theorem mem_messages_of_course {before after : List Call} {call : Call}
    (hcourse : life.course = before ++ call :: after)
    (hout : .send out ∈ (h.afterCalls before).returns call) : out ∈ h.messages life := by
  rw [messages, messages_disconnected, List.append_nil, List.mem_append]
  rcases Life.course_cases hcourse with ⟨rfl, rfl⟩ | ⟨earlier, input, later, hinputs, rfl, rfl⟩
  · exact .inl (mem_messages_iff.2 hout)
  · have hbefore : h.afterCalls (.connected life.services life.shared :: earlier.map .input) =
        (h.opened life).after earlier := afterCalls_map_input _ earlier
    have hsaid : out ∈ ((h.opened life).after earlier).handsOut input := by
      rw [hbefore] at hout
      cases input with
      | message services shared m => exact mem_messages_iff.2 hout
      | stamp now m => exact absurd hout List.not_mem_nil
    rw [hinputs, said_append, said]
    exact .inr (List.mem_append_right _ (List.mem_append_left _ hsaid))

end Handler

end FixEngine
