import FixEngine.Proofs.Engine.Crew
import Mathlib.Data.List.Basic
import Mathlib.Data.List.Induction

/-!
# One live session for each identity

Whatever calls the handlers of one engine take, in whatever order, the directory of
sessions lists exactly what the handlers hold, and the directory of channels those
of them that were established.  A handler that asks for a session that is held is
turned away without a trace, and when all connections are gone both directories are
empty.
-/

namespace FixEngine.Crew

variable {ι : Type} [DecidableEq ι] (crew : Crew ι)

/-- The handlers after calls. -/
def after (calls : List (Hub.Call ι)) : Hub ι := calls.foldl Hub.perform crew.start

/-- Every call finds its handler in the stage in which it is told. -/
def IsRun (calls : List (Hub.Call ι)) : Prop :=
  ∀ earlier c later, calls = earlier ++ c :: later → (crew.after earlier).stage c.target = c.before

/-- A handler holds the session of an identity: it asked for it when nobody held
it, and has held it ever since. -/
def Holds (calls : List (Hub.Call ι)) (i : ι) (id : SessionId) : Prop :=
  ∃ earlier c later, calls = earlier ++ c :: later ∧ c.target = i ∧
    (crew.after earlier).AsksFor c id ∧ (crew.after earlier).shared.sessions.find? id = none ∧
    ∀ between, between <+: later →
      ((crew.after (earlier ++ c :: between)).handler i).sessionId? = some id

/-- A handler was established after some of the calls. -/
def WasEstablished (calls : List (Hub.Call ι)) (i : ι) : Prop :=
  ∃ earlier, earlier <+: calls ∧ ((crew.after earlier).handler i).phase = .established

/-- A call that asked for the session of an identity is turned away, whatever calls
come later. -/
structure TurnsAway (earlier : List (Hub.Call ι)) (c : Hub.Call ι) (later : List (Hub.Call ι))
    (id : SessionId) : Prop where
  /-- The session is held by another handler. -/
  holder : ∀ i, crew.Holds earlier i id → i ≠ c.target
  /-- The call changes none of what the handlers have in common. -/
  shared : (crew.after (earlier ++ [c])).shared = (crew.after earlier).shared
  /-- The call changes no other handler. -/
  handler : ∀ i, i ≠ c.target →
    (crew.after (earlier ++ [c])).handler i = (crew.after earlier).handler i
  /-- The handler that was called is closed, and stays so without a session. -/
  isDone : ∀ between, between <+: later →
    (crew.after (earlier ++ c :: between)).IsDone c.target
  /-- Nothing that it is told later changes what the handlers have in common. -/
  silent : ∀ between next rest, later = between ++ next :: rest → next.target = c.target →
    (crew.after (earlier ++ c :: between ++ [next])).shared =
      (crew.after (earlier ++ c :: between)).shared

variable {crew} {hub : Hub ι} {c : Hub.Call ι} {calls earlier later left right : List (Hub.Call ι)}
  {i j : ι} {id : SessionId}

/-! ### Runs -/

theorem after_append (left right : List (Hub.Call ι)) :
    crew.after (left ++ right) = right.foldl Hub.perform (crew.after left) :=
  List.foldl_append

theorem after_concat (calls : List (Hub.Call ι)) (c : Hub.Call ι) :
    crew.after (calls ++ [c]) = (crew.after calls).perform c :=
  after_append calls [c]

theorem IsRun.of_append (h : crew.IsRun (left ++ right)) : crew.IsRun left := by
  intro earlier c later hleft
  apply h earlier c (later ++ right)
  rw [hleft, List.append_assoc, List.cons_append]

theorem IsRun.stage (h : crew.IsRun (earlier ++ c :: later)) :
    (crew.after earlier).stage c.target = c.before :=
  h earlier c later rfl

/-- After any run the directories agree with what the handlers hold. -/
theorem IsRun.stands (hrun : crew.IsRun calls) : crew.Stands (crew.after calls) := by
  induction calls using List.reverseRecOn with
  | nil => exact stands_start
  | append_singleton calls c ih =>
    rw [after_concat]
    exact (ih hrun.of_append).perform hrun.stage

theorem isRun_concat (hrun : crew.IsRun calls)
    (hstage : (crew.after calls).stage c.target = c.before) : crew.IsRun (calls ++ [c]) := by
  intro earlier c' later heq
  rcases later.eq_nil_or_concat' with rfl | ⟨rest, last, rfl⟩
  · obtain ⟨rfl, hsingle⟩ := List.append_inj' heq rfl
    cases hsingle
    exact hstage
  · rw [← List.cons_append, ← List.append_assoc] at heq
    obtain ⟨rfl, -⟩ := List.append_inj' heq rfl
    exact hrun.stage

/-! ### Who holds a session -/

/-- What a handler holds it asked for when it was free, and has held ever since. -/
theorem holds_iff (hrun : crew.IsRun calls) :
    crew.Holds calls i id ↔ ((crew.after calls).handler i).sessionId? = some id := by
  constructor
  · rintro ⟨earlier, c, later, rfl, -, -, -, hheld⟩
    exact hheld later (List.prefix_refl later)
  · intro hid
    induction calls using List.reverseRecOn with
    | nil =>
      have hnone : (crew.handler i).sessionId? = none :=
        congrArg (Option.map _) (crew.isNew i).session
      exact absurd (hnone.symm.trans hid) (Option.some_ne_none id).symm
    | append_singleton calls c ih =>
      have hnow := hid
      rw [after_concat] at hid
      rcases Hub.sessionId?_perform hid with hheld | ⟨htarget, hasks, hfree⟩
      · obtain ⟨earlier, first, later, rfl, htarget, hasks, hfree, hsince⟩ :=
          ih hrun.of_append hheld
        refine ⟨earlier, first, later ++ [c], by simp, htarget, hasks, hfree, ?_⟩
        intro between hbetween
        rcases List.prefix_concat_iff.1 hbetween with rfl | hlater
        · rw [← List.cons_append, ← List.append_assoc]
          exact hnow
        · exact hsince between hlater
      · refine ⟨calls, c, [], rfl, htarget, hasks, hfree, ?_⟩
        intro between hbetween
        rw [List.prefix_nil.1 hbetween]
        exact hnow

/-! ### Who was established -/

theorem wasEstablished_concat :
    crew.WasEstablished (calls ++ [c]) i ↔
      crew.WasEstablished calls i ∨
        ((crew.after (calls ++ [c])).handler i).phase = .established := by
  constructor
  · rintro ⟨earlier, hearlier, hphase⟩
    rcases List.prefix_concat_iff.1 hearlier with rfl | hearlier
    · exact .inr hphase
    · exact .inl ⟨earlier, hearlier, hphase⟩
  · rintro (⟨earlier, hearlier, hphase⟩ | hphase)
    · exact ⟨earlier, hearlier.trans (List.prefix_append calls [c]), hphase⟩
    · exact ⟨_, List.prefix_refl _, hphase⟩

/-- A handler whose connection is not gone is logged on just if it was
established. -/
theorem IsRun.loggedOn_iff (hrun : crew.IsRun calls) (hstage : (crew.after calls).stage i ≠ .gone) :
    ((crew.after calls).handler i).loggedOn = true ↔ crew.WasEstablished calls i := by
  induction calls using List.reverseRecOn with
  | nil =>
    refine iff_of_false ?_ ?_
    · have hnew : (crew.handler i).loggedOn = false := (crew.isNew i).loggedOn
      exact fun hloggedOn => Bool.false_ne_true (hnew.symm.trans hloggedOn)
    · rintro ⟨earlier, hearlier, hphase⟩
      rw [List.prefix_nil.1 hearlier] at hphase
      exact (crew.isNew i).phase_ne hphase
  | append_singleton calls c ih =>
    have hsame : ((crew.after calls).handler i).phase = .established →
        crew.WasEstablished calls i :=
      fun hphase => ⟨calls, List.prefix_refl calls, hphase⟩
    rw [wasEstablished_concat, after_concat]
    rw [after_concat] at hstage
    by_cases hi : i = c.target
    · subst hi
      have hbefore : (crew.after calls).stage c.target ≠ .gone :=
        hrun.stage ▸ c.before_ne_gone
      have hiff := ih hrun.of_append hbefore
      rw [Hub.stage_perform_self] at hstage
      rw [Hub.handler_perform_self, ← hiff]
      exact hrun.of_append.stands.loggedOn_turn hrun.stage hstage (hiff.2 ∘ hsame)
    · rw [Hub.stage_perform_of_ne _ hi] at hstage
      rw [Hub.handler_perform_of_ne _ hi, ih hrun.of_append hstage]
      exact (or_iff_left_of_imp hsame).symm

/-! ### Who is turned away -/

/-- A handler that is done stays so. -/
theorem IsRun.isDone (hrun : crew.IsRun (left ++ right)) (hdone : (crew.after left).IsDone i) :
    (crew.after (left ++ right)).IsDone i := by
  induction right using List.reverseRecOn with
  | nil =>
    rw [List.append_nil]
    exact hdone
  | append_singleton right c ih =>
    rw [← List.append_assoc] at hrun ⊢
    rw [after_concat]
    exact (ih hrun.of_append).perform hrun.stage

theorem IsRun.turnsAway (hrun : crew.IsRun (earlier ++ c :: later))
    (hasks : (crew.after earlier).AsksFor c id)
    (hheld : (crew.after earlier).shared.sessions.find? id ≠ none) :
    crew.TurnsAway earlier c later id := by
  have hearlier := hrun.of_append
  have hstands := hearlier.stands
  obtain ⟨hshared, hdone⟩ := hstands.isDone_perform hrun.stage hasks hheld
  rw [← after_concat] at hdone
  have hstays : ∀ between, between <+: later →
      (crew.after (earlier ++ c :: between)).IsDone c.target := by
    rintro between ⟨rest, rfl⟩
    rw [← List.cons_append, ← List.append_assoc] at hrun
    have hsplit : earlier ++ c :: between = (earlier ++ [c]) ++ between := by simp
    rw [hsplit]
    exact (hsplit ▸ hrun.of_append).isDone hdone
  constructor
  case holder =>
    rintro _ hholds rfl
    have hnone := (hstands.isNew hrun.stage hasks).session
    have hid := (holds_iff hearlier).1 hholds
    rw [Handler.sessionId?, hnone] at hid
    contradiction
  case shared =>
    rw [after_concat]
    exact hshared
  case handler =>
    intro i hi
    rw [after_concat]
    exact Hub.handler_perform_of_ne _ hi
  case isDone => exact hstays
  case silent =>
    rintro between next rest rfl htarget
    have hnext := hstays between (List.prefix_append between (next :: rest))
    rw [← List.cons_append, ← List.append_assoc] at hrun
    rw [after_concat]
    exact ((htarget ▸ hnext).turn hrun.stage).1

/-- However the calls of the handlers of one engine are mixed, an identity is
registered just for the handler that holds its session, and there is one such handler
at most.  A handler that asks for a session that is held is turned away.  An identity
has a channel just if the handler that holds its session was established and its
connection is still up, and the channel is that of the handler.  When no connection
is up both directories are empty. -/
theorem directories_after (crew : Crew ι) (calls : List (Hub.Call ι)) (hrun : crew.IsRun calls) :
    (∀ id owner, (crew.after calls).shared.sessions.find? id = some owner ↔
      ∃ i, crew.owner i = owner ∧ crew.Holds calls i id) ∧
    (∀ id i j, crew.Holds calls i id → crew.Holds calls j id → i = j) ∧
    (∀ earlier c later id, calls = earlier ++ c :: later → (crew.after earlier).AsksFor c id →
      (crew.after earlier).shared.sessions.find? id ≠ none →
        crew.TurnsAway earlier c later id) ∧
    (∀ id channel, (crew.after calls).shared.senders.find? id = some channel ↔
      ∃ i, crew.channel i = channel ∧ crew.Holds calls i id ∧ crew.WasEstablished calls i ∧
        (crew.after calls).stage i = .up) ∧
    ((∀ i, (crew.after calls).stage i ≠ .up) →
      (crew.after calls).shared.sessions = Directory.empty ∧
        (crew.after calls).shared.senders = Directory.empty) := by
  have hstands := hrun.stands
  refine ⟨?_, ?_, ?_, ?_, ?_⟩
  · intro id owner
    rw [hstands.tallies.sessions id owner]
    exact exists_congr fun i => and_congr_right fun _ => (holds_iff hrun).symm
  · intro id i j hi hj
    exact hstands.tallies.eq_of_sessionId? ((holds_iff hrun).1 hi) ((holds_iff hrun).1 hj)
  · rintro earlier c later id rfl hasks hheld
    exact hrun.turnsAway hasks hheld
  · intro id channel
    rw [hstands.tallies.senders id channel]
    refine exists_congr fun i => and_congr_right fun _ => ?_
    rw [Function.comp_apply, Handler.sender?_eq_some_iff, ← holds_iff hrun]
    refine and_congr_right fun hholds => ?_
    have hup := hstands.stage_eq_up ((holds_iff hrun).1 hholds)
    have hstage : (crew.after calls).stage i ≠ .gone := hup ▸ Hub.Stage.noConfusion
    rw [hrun.loggedOn_iff hstage]
    exact (and_iff_left hup).symm
  · intro hdown
    have hnone : ∀ i, ((crew.after calls).handler i).sessionId? = none := by
      intro i
      rw [Option.eq_none_iff_forall_ne_some]
      exact fun id hid => hdown i (hstands.stage_eq_up hid)
    exact ⟨hstands.tallies.sessions.eq_empty hnone,
      hstands.tallies.senders.eq_empty fun i => Handler.sender?_of_sessionId? (hnone i)⟩

/-- Two acceptors of one engine. -/
def sampleCrew : Crew Bool where
  handler i := .acceptor true (cond i 2 1) (some (cond i 2 1))
  channel i := cond i 2 1
  isNew i := .acceptor true (cond i 2 1) (some (cond i 2 1))
  attached _ := rfl
  owner_injective := by
    intro i j h
    cases i <;> cases j <;> first | rfl | contradiction
  channel_injective := by
    intro i j h
    cases i <;> cases j <;> first | rfl | contradiction

/-- A logon of a client. -/
def sampleLogon : Message :=
  ((Session.start { senderCompId := "CLIENT", targetCompId := "SERVER" } "FIX.4.4" 1 1).stamp
    .epoch (Admin.logon 30 false)).2

def sampleServices : Services := ⟨.silent, .acceptAll, .epoch, .fresh⟩

/-- The connections of both are up, and the first takes up the logon. -/
def sampleOpening : List (Hub.Call Bool) :=
  [.connect false sampleServices, .connect true sampleServices,
    .message false sampleServices sampleLogon]

/-- The logon arrives at the second as well, and both connections end. -/
def sampleCalls : List (Hub.Call Bool) :=
  sampleOpening ++ .message true sampleServices sampleLogon :: [.disconnect true, .disconnect false]

/-- The first of two acceptors holds the session until it ends, and the second is
turned away. -/
theorem directories_after_sample :
    ∃ id, sampleCrew.IsRun sampleCalls ∧
      (∃ i, sampleCrew.channel i = 1 ∧ sampleCrew.Holds sampleOpening i id ∧
        sampleCrew.WasEstablished sampleOpening i) ∧
      sampleCrew.TurnsAway sampleOpening (.message true sampleServices sampleLogon)
        [.disconnect true, .disconnect false] id ∧
      (sampleCrew.after sampleCalls).shared.sessions = Directory.empty ∧
      (sampleCrew.after sampleCalls).shared.senders = Directory.empty := by
  have hnone : sampleCrew.IsRun [] := fun _ _ _ hnil => absurd hnil (by simp)
  have hopening : sampleCrew.IsRun sampleOpening :=
    isRun_concat (isRun_concat (isRun_concat hnone rfl) rfl) rfl
  have hrun : sampleCrew.IsRun sampleCalls := by
    have hcalls := isRun_concat (isRun_concat (isRun_concat hopening
      (c := .message true sampleServices sampleLogon) rfl) (c := .disconnect true) rfl)
      (c := .disconnect false) rfl
    exact hcalls
  have hgone : ∀ i, (sampleCrew.after sampleCalls).stage i ≠ .up := by decide
  have hasks : (sampleCrew.after sampleOpening).AsksFor (.message true sampleServices sampleLogon)
      (SessionId.ofInbound sampleLogon.header) := .logon rfl rfl rfl
  have hfound : (sampleCrew.after sampleOpening).shared.senders.find?
      (SessionId.ofInbound sampleLogon.header) = some 1 := rfl
  have hheld : (sampleCrew.after sampleOpening).shared.sessions.find?
      (SessionId.ofInbound sampleLogon.header) ≠ none := Option.some_ne_none 1
  obtain ⟨-, -, -, hsenders, -⟩ := directories_after sampleCrew sampleOpening hopening
  obtain ⟨i, hi, hholds, hestablished, -⟩ := (hsenders _ 1).1 hfound
  obtain ⟨-, -, hturned, -, hempty⟩ := directories_after sampleCrew sampleCalls hrun
  exact ⟨_, hrun, ⟨i, hi, hholds, hestablished⟩, hturned _ _ _ _ rfl hasks hheld, hempty hgone⟩

end FixEngine.Crew
