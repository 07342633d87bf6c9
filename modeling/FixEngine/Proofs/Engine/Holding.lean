import FixEngine.Proofs.Engine.Lifetime
import Mathlib.Logic.Function.Basic

/-!
# What a handler holds in the directories

The session of a handler stands in the one directory under the number of the
handler, and once the handler has been established it stands in the other under the
number of its channel.  `Directory.Lists` says this of a directory and its holders.
A turn changes the directories in a few ways only, and `Turn.Moves` lists them.
-/

namespace FixEngine

theorem Table.eq_empty_of_find? {κ α : Type} [DecidableEq κ] {t : Table κ α}
    (h : ∀ key, t.find? key = none) : t = Table.empty := by
  obtain ⟨entries⟩ := t
  cases entries with
  | nil => rfl
  | cons entry rest =>
    have hfirst := h entry.1
    simp [find?] at hfirst

namespace Directory

variable {ι : Type} {d : Directory} {held : ι → Option SessionId} {number : ι → Owner}
  {id : SessionId} {i j : ι}

/-- A directory lists what some holders hold, each under its number. -/
def Lists (d : Directory) (held : ι → Option SessionId) (number : ι → Owner) : Prop :=
  ∀ id owner, d.find? id = some owner ↔ ∃ i, number i = owner ∧ held i = some id

theorem Lists.find?_eq (h : d.Lists held number) (hi : held i = some id) :
    d.find? id = some (number i) :=
  (h id _).2 ⟨i, rfl, hi⟩

/-- Nobody holds what the directory does not list. -/
theorem Lists.ne_of_find? (h : d.Lists held number) (hfree : d.find? id = none) (i : ι) :
    held i ≠ some id := by
  intro hi
  rw [h.find?_eq hi] at hfree
  contradiction

/-- No two hold the same. -/
theorem Lists.eq_of_held (h : d.Lists held number) (hnumber : Function.Injective number)
    (hi : held i = some id) (hj : held j = some id) : i = j :=
  hnumber (Option.some.inj ((h.find?_eq hi).symm.trans (h.find?_eq hj)))

theorem Lists.eq_empty (h : d.Lists held number) (hnone : ∀ i, held i = none) :
    d = Directory.empty := by
  apply Table.eq_empty_of_find?
  intro id
  rw [Option.eq_none_iff_forall_ne_some]
  intro owner hfound
  obtain ⟨i, -, hi⟩ := (h id owner).1 hfound
  rw [hnone i] at hi
  contradiction

/-- The empty directory lists what nobody holds. -/
theorem lists_empty (hnone : ∀ i, held i = none) : Lists Directory.empty held number := by
  intro id owner
  refine ⟨fun hfound => absurd hfound (Option.some_ne_none owner).symm, ?_⟩
  rintro ⟨i, -, hi⟩
  rw [hnone i] at hi
  contradiction

variable [DecidableEq ι]

/-- What is held of one identity stays when a holder changes in another. -/
theorem update_eq_some_iff {value : Option SessionId} {key : SessionId}
    (hi : ∀ other, held i = some other → other = id)
    (hvalue : ∀ other, value = some other → other = id) (hkey : key ≠ id) (j : ι) :
    Function.update held i value j = some key ↔ held j = some key := by
  by_cases hj : j = i
  · subst hj
    rw [Function.update_self]
    exact ⟨fun hnew => absurd (hvalue key hnew) hkey, fun hold => absurd (hi key hold) hkey⟩
  · rw [Function.update_of_ne hj]

/-- A holder is entered for what no other holder holds. -/
theorem Lists.insert (h : d.Lists held number) (hid : ∀ j, held j = some id → j = i)
    (hi : ∀ other, held i = some other → other = id) :
    Lists (Table.insert d id (number i)) (Function.update held i (some id)) number := by
  intro key owner
  by_cases hkey : key = id
  · subst hkey
    rw [Table.find?_insert_self]
    constructor
    · rintro ⟨rfl⟩
      exact ⟨i, rfl, Function.update_self i (some key) held⟩
    · rintro ⟨j, rfl, hj⟩
      have hji : j = i := by
        by_contra hne
        rw [Function.update_of_ne hne] at hj
        exact hne (hid j hj)
      rw [hji]
  · rw [Table.find?_insert_of_ne d _ hkey, h key owner]
    have hvalue : ∀ other, some id = some other → other = id := by
      rintro _ ⟨rfl⟩
      rfl
    exact exists_congr fun j => and_congr_right fun _ => (update_eq_some_iff hi hvalue hkey j).symm

/-- A holder gives up what it holds, if anything. -/
theorem Lists.release (h : d.Lists held number) (hnumber : Function.Injective number)
    (hi : ∀ other, held i = some other → other = id) :
    Lists (Directory.release d id (number i)) (Function.update held i none) number := by
  by_cases hheld : held i = some id
  · rw [Directory.release, if_pos (h.find?_eq hheld)]
    intro key owner
    by_cases hkey : key = id
    · subst hkey
      rw [Table.find?_erase_self]
      refine ⟨fun hnone => absurd hnone (Option.some_ne_none owner).symm, ?_⟩
      rintro ⟨j, -, hj⟩
      by_cases hji : j = i
      · subst hji
        rw [Function.update_self] at hj
        contradiction
      · rw [Function.update_of_ne hji] at hj
        exact absurd (h.eq_of_held hnumber hj hheld) hji
    · rw [Table.find?_erase_of_ne d hkey, h key owner]
      have hvalue : ∀ other, none = some other → other = id := by simp
      exact exists_congr fun j => and_congr_right fun _ =>
        (update_eq_some_iff hi hvalue hkey j).symm
  · have hnone : held i = none := by
      rw [Option.eq_none_iff_forall_ne_some]
      intro other hother
      exact hheld (hi other hother ▸ hother)
    have hfind : d.find? id ≠ some (number i) := by
      intro hfound
      obtain ⟨j, hj, hsome⟩ := (h id _).1 hfound
      exact hheld (hnumber hj ▸ hsome)
    rw [Directory.release, if_neg hfind, ← hnone, Function.update_eq_self]
    exact h

end Directory

/-- The identity for which the channel of a handler is published. -/
def Handler.sender? (h : Handler) : Option SessionId :=
  if h.loggedOn then h.sessionId? else none

theorem Handler.sender?_of_sessionId? {h : Handler} (hnone : h.sessionId? = none) :
    h.sender? = none := by
  rw [sender?, hnone, ite_self]

theorem Handler.sender?_eq_some_iff {h : Handler} {id : SessionId} :
    h.sender? = some id ↔ h.sessionId? = some id ∧ h.loggedOn = true := by
  rw [sender?]
  split
  · next hloggedOn => exact (and_iff_left hloggedOn).symm
  · next hnot => exact iff_of_false (Option.some_ne_none id).symm fun h => hnot h.2

namespace Turn

variable {t t' t'' : Turn} {s : Session} {m : Message} {services : Services}

/-- A turn goes on without touching the directories or what the handler holds in
them. -/
structure Spares (t t' : Turn) : Prop where
  sessions : t'.shared.sessions = t.shared.sessions
  senders : t'.shared.senders = t.shared.senders
  owner : t'.handler.owner = t.handler.owner
  channel : t'.handler.channel = t.handler.channel
  sessionId? : t'.handler.sessionId? = t.handler.sessionId?
  loggedOn : t'.handler.loggedOn = t.handler.loggedOn

theorem Spares.refl (t : Turn) : t.Spares t := ⟨rfl, rfl, rfl, rfl, rfl, rfl⟩

theorem Spares.trans (h : t.Spares t') (h' : t'.Spares t'') : t.Spares t'' where
  sessions := h'.sessions.trans h.sessions
  senders := h'.senders.trans h.senders
  owner := h'.owner.trans h.owner
  channel := h'.channel.trans h.channel
  sessionId? := h'.sessionId?.trans h.sessionId?
  loggedOn := h'.loggedOn.trans h.loggedOn

theorem spares_send (t : Turn) (now : Timestamp) (m : Message) : t.Spares (t.send now m) := by
  cases hsession : t.handler.session with
  | none =>
    rw [send_of_none hsession]
    exact .refl t
  | some s =>
    have hhandler := (sends_send hsession now m).handler
    have hshared := shared_send t now m
    refine ⟨?_, ?_, ?_, ?_, ?_, ?_⟩
    all_goals simp only [hhandler, hshared, Handler.sessionId?, hsession]
    rfl

theorem spares_close (t : Turn) (reason : DisconnectReason) : t.Spares (t.close reason) :=
  ⟨rfl, rfl, rfl, rfl, rfl, rfl⟩

theorem spares_sendLogout (t : Turn) (now : Timestamp) (text : Option String) :
    t.Spares (t.sendLogout now text) := by
  have hmark : t.Spares { t with handler.logoutSent := true } := ⟨rfl, rfl, rfl, rfl, rfl, rfl⟩
  exact hmark.trans (spares_send _ now _)

theorem spares_refuse (t : Turn) (now : Timestamp) (reason : DisconnectReason) :
    t.Spares (t.refuse now reason) :=
  (spares_sendLogout t now _).trans (spares_close _ reason)

theorem spares_replies (t : Turn) (now : Timestamp) (replies : List Message) :
    t.Spares (replies.foldl (fun t reply => t.send now reply) t) := by
  induction replies generalizing t with
  | nil => exact .refl t
  | cons reply rest ih => exact (spares_send t now reply).trans (ih _)

theorem spares_dispatch (t : Turn) (services : Services) (id : SessionId) (msgType : MsgType)
    (m : Message) : t.Spares (t.dispatch services id msgType m) := by
  have htold : t.Spares (t.tell (.received id m)) := ⟨rfl, rfl, rfl, rfl, rfl, rfl⟩
  unfold dispatch
  split
  · exact htold.trans (spares_replies _ services.now _)
  · exact htold.trans (spares_send _ services.now _)

/-- Another session of the same identity is held in its place. -/
theorem spares_withSession {s' : Session} (hsession : t.handler.session = some s)
    (hid : s'.id = s.id) : t.Spares (t.withSession s') := by
  refine ⟨rfl, rfl, rfl, rfl, ?_, rfl⟩
  rw [Handler.sessionId?, Handler.sessionId?, hsession, Option.map_some, ← hid]
  rfl

theorem spares_resetSequence (t : Turn) (m : Message) : t.Spares (t.resetSequence m) := by
  unfold resetSequence
  split
  · split
    · refine ⟨rfl, rfl, rfl, rfl, ?_, rfl⟩
      exact Option.map_map _ _ t.handler.session
    · exact .refl t
  · exact .refl t

theorem spares_process (t : Turn) (services : Services) (id : SessionId) (msgType : MsgType)
    (m : Message) : t.Spares (t.process services id msgType m) := by
  cases msgType with
  | heartbeat => exact .refl t
  | testRequest => exact spares_send t services.now _
  | logout =>
    have hanswered :
        t.Spares (if t.handler.logoutSent then t else t.sendLogout services.now none) := by
      split
      · exact .refl t
      · exact spares_sendLogout t services.now none
    exact hanswered.trans (spares_close _ .logout)
  | sequenceReset => exact spares_resetSequence t m
  | _ => exact spares_dispatch t services id _ m

theorem Checked.spares {now : Timestamp} {result : Turn × Bool}
    (hsession : t.handler.session = some s) (h : t.Checked now s m result) :
    t.Spares result.1 := by
  cases h with
  | unnumbered | repeated | dropped | tolerated => exact .refl t
  | counted =>
    refine ⟨rfl, rfl, rfl, rfl, ?_, rfl⟩
    rw [Handler.sessionId?, Handler.sessionId?, hsession]
    rfl
  | tooLow => exact spares_refuse t now _
  | @requested n =>
    have hmark : t.Spares { t with handler.resendUntil := some n } :=
      ⟨rfl, rfl, rfl, rfl, rfl, rfl⟩
    exact hmark.trans (spares_send _ now _)

/-- The traffic of a session leaves the directories alone. -/
theorem Treated.spares (h : t.Treated services m t') : t.Spares t' := by
  cases h with
  | ignored => exact .refl t
  | logon => exact spares_refuse t services.now .duplicateLogon
  | reset => exact spares_resetSequence t m
  | stopped hchecked hcheck => exact (Checked.of_eq hcheck).spares hchecked.session
  | processed hchecked hcheck =>
    exact ((Checked.of_eq hcheck).spares hchecked.session).trans
      (spares_process _ services _ _ m)

/-! ### Changes of the directories -/

/-- How a turn changes the directories and what the handler holds in them. -/
inductive Moves : Turn → Turn → Prop
  | spares {t t' : Turn} (h : t.Spares t') : Moves t t'
  | registers {t : Turn} {s : Session} (hsession : t.handler.session = none)
      (hloggedOn : t.handler.loggedOn = false) (hfree : t.IsFree s) : Moves t (t.registered s)
  | establishes {t : Turn} {id : SessionId} (hid : t.handler.sessionId? = some id) :
      Moves t (t.establish id)
  | releases (t : Turn) : Moves t { t with handler.loggedOn := false }.release
  | trans {t t' t'' : Turn} (h : Moves t t') (h' : Moves t' t'') : Moves t t''

theorem Moves.release (hloggedOn : t.handler.loggedOn = false) : t.Moves t.release := by
  have hsame : { t with handler.loggedOn := false } = t := by rw [← hloggedOn]
  have hreleases := Moves.releases t
  rwa [hsame] at hreleases

/-- The number and the channel of a handler stay. -/
theorem Moves.number (h : t.Moves t') :
    t'.handler.owner = t.handler.owner ∧ t'.handler.channel = t.handler.channel := by
  induction h with
  | spares h => exact ⟨h.owner, h.channel⟩
  | registers | establishes => exact ⟨rfl, rfl⟩
  | releases t =>
    unfold Turn.release
    split <;> exact ⟨rfl, rfl⟩
  | trans _ _ ih ih' => exact ⟨ih'.1.trans ih.1, ih'.2.trans ih.2⟩

theorem moves_disconnect (t : Turn) : t.Moves t.disconnect := by
  unfold disconnect
  refine .trans (.spares ?_) (.trans (.releases _) (.spares ⟨rfl, rfl, rfl, rfl, rfl, rfl⟩))
  -- The application may be told of the end first.
  split
  · exact ⟨rfl, rfl, rfl, rfl, rfl, rfl⟩
  · exact .refl t

/-- A connection without a session ends without notice. -/
theorem shared_disconnect (hsession : t.handler.session = none) :
    t.disconnect.shared = t.shared := by
  cases hloggedOn : t.handler.loggedOn with
  | false => simp only [disconnect, release, hsession, hloggedOn]
  | true => simp only [disconnect, release, hsession, hloggedOn]

/-- What a turn comes to that asks for a session: the connection is closed, or the
session is registered. -/
inductive Claims (t : Turn) (s : Session) : Turn → Prop
  | closed {t' : Turn} (hshared : t'.shared = t.shared) (h : t.Spares t')
      (hphase : t'.handler.phase = .closed) : Claims t s t'
  | waits {t' : Turn} (hfree : t.IsFree s) (h : (t.registered s).Spares t')
      (hphase : t'.handler.phase = .awaitingLogonAck) : Claims t s t'
  | opens {t' : Turn} (hfree : t.IsFree s) (h : (t.registered s).Spares t') :
      Claims t s (t'.establish s.id)
  | stale {t' : Turn} (hfree : t.IsFree s) (h : (t.registered s).Spares t')
      (hphase : t'.handler.phase = .closed) : Claims t s t'.release

theorem Accepts.claims {logon : Message} (h : t.Accepts services logon t') :
    t.Claims (.ofLogon services logon) t' := by
  cases h with
  | unknown | unnumbered => exact .closed rfl (spares_close t _) rfl
  | duplicate => exact .closed rfl ⟨rfl, rfl, rfl, rfl, rfl, rfl⟩ rfl
  | inOrder _ hfree =>
    have hcounted := spares_withSession (t := t.registered (.ofLogon services logon)) rfl
      (Session.stamps_counted _).id
    exact .opens hfree (hcounted.trans (spares_send _ services.now _))
  | @ahead n _ hfree =>
    have hskipped := spares_withSession (t := t.registered (.ofLogon services logon)) rfl
      (Session.stamps_skipped _ n).id
    exact .opens hfree
      ((hskipped.trans (spares_send _ services.now _)).trans (spares_send _ services.now _))
  | stale _ hfree =>
    have hsame := spares_withSession (t := t.registered (.ofLogon services logon)) rfl rfl
    exact .stale hfree (hsame.trans (spares_refuse _ services.now _)) rfl

theorem Asks.claims {settings : Settings} (h : t.Asks services settings t') :
    t.Claims (.ofSettings services settings) t' := by
  cases h with
  | duplicate => exact .closed rfl (spares_close t _) rfl
  | asked hfree =>
    have hsent := spares_send (t.registered (.ofSettings services settings)) services.now
      (Admin.logonOf settings)
    refine .waits hfree (hsent.trans ?_) rfl
    exact ⟨rfl, rfl, rfl, rfl, rfl, rfl⟩

theorem Claims.moves (h : t.Claims s t') (hsession : t.handler.session = none)
    (hloggedOn : t.handler.loggedOn = false) : t.Moves t' := by
  cases h with
  | closed _ h => exact .spares h
  | waits hfree h => exact .trans (.registers hsession hloggedOn hfree) (.spares h)
  | opens hfree h =>
    exact .trans (.registers hsession hloggedOn hfree)
      (.trans (.spares h) (.establishes h.sessionId?))
  | stale hfree h =>
    exact .trans (.registers hsession hloggedOn hfree)
      (.trans (.spares h) (.release (h.loggedOn.trans hloggedOn)))

/-- What any other turn comes to before the connection is gone: it spares the
directories, or the session that the handler holds is established. -/
inductive Proceeds (t : Turn) : Turn → Prop
  | spares {t' : Turn} (h : t.Spares t')
      (hphase : t'.handler.phase = t.handler.phase ∨ t'.handler.phase = .closed) : Proceeds t t'
  | establishes {t' t'' : Turn} {id : SessionId} (h : t.Spares t')
      (hid : t'.handler.sessionId? = some id) (h' : (t'.establish id).Spares t'')
      (hphase : t''.handler.phase = .established) : Proceeds t t''

theorem Treated.proceeds (h : t.Treated services m t') : t.Proceeds t' :=
  .spares h.spares h.stays.phase

theorem Hears.proceeds {logon : Message} (h : t.Hears services logon t') : t.Proceeds t' := by
  cases h with
  | ignored => exact .spares (.refl t) (.inl rfl)
  | unnumbered => exact .spares (spares_close t _) (.inr rfl)
  | @inOrder s hsession =>
    exact .establishes (spares_withSession hsession s.stamps_counted.id) rfl (.refl _) rfl
  | @ahead s n hsession =>
    exact .establishes (spares_withSession hsession (s.stamps_skipped n).id) rfl
      (spares_send _ services.now _) (phase_send _ services.now _)
  | @stale s n hsession =>
    exact .spares ((spares_withSession hsession rfl).trans (spares_refuse _ services.now _))
      (.inr rfl)

theorem Proceeds.moves (h : t.Proceeds t') : t.Moves t' := by
  cases h with
  | spares h => exact .spares h
  | establishes h hid h' => exact .trans (.spares h) (.trans (.establishes hid) (.spares h'))

/-! ### What the handler holds after a turn -/

@[simp]
theorem loggedOn_release (t : Turn) : t.release.handler.loggedOn = t.handler.loggedOn := by
  unfold release
  split <;> rfl

/-- A turn that asks for a held session changes nothing but the handler, and closes
the connection. -/
theorem Claims.of_not_isFree (h : t.Claims s t') (hheld : ¬t.IsFree s) :
    t'.shared = t.shared ∧ t.Spares t' ∧ t'.handler.phase = .closed := by
  cases h with
  | closed hshared h hphase => exact ⟨hshared, h, hphase⟩
  | waits hfree | opens hfree | stale hfree => exact absurd hfree hheld

/-- A turn that asks for a session tells the application of a logon just if the
session is established. -/
theorem Claims.loggedOn_iff (h : t.Claims s t') (hloggedOn : t.handler.loggedOn = false) :
    t'.handler.loggedOn = true ↔ t'.handler.phase = .established := by
  have hnot {t' : Turn} (hsame : t'.handler.loggedOn = t.handler.loggedOn) :
      ¬t'.handler.loggedOn = true := by
    rw [hsame, hloggedOn]
    exact Bool.false_ne_true
  cases h with
  | closed _ h hphase => exact iff_of_false (hnot h.loggedOn) (hphase ▸ Phase.noConfusion)
  | waits _ h hphase => exact iff_of_false (hnot h.loggedOn) (hphase ▸ Phase.noConfusion)
  | opens => exact iff_of_true rfl rfl
  | stale _ h hphase =>
    refine iff_of_false (hnot ((loggedOn_release _).trans h.loggedOn)) ?_
    rw [phase_release, hphase]
    exact Phase.noConfusion

/-- A handler that comes to hold a session by asking for it found its identity
free. -/
theorem Claims.sessionId?_cases {id : SessionId} (h : t.Claims s t')
    (hid : t'.handler.sessionId? = some id) :
    t.handler.sessionId? = some id ∨ (id = s.id ∧ t.IsFree s) := by
  cases h with
  | closed _ h => exact .inl (h.sessionId?.symm.trans hid)
  | waits hfree h | opens hfree h =>
    have hregistered : some s.id = some id := h.sessionId?.symm.trans hid
    exact .inr ⟨(Option.some.inj hregistered).symm, hfree⟩
  | stale =>
    rw [Handler.sessionId?, session_release] at hid
    contradiction

theorem Proceeds.loggedOn_iff (h : t.Proceeds t')
    (hphase : t.handler.phase = .established → t.handler.loggedOn = true) :
    t'.handler.loggedOn = true ↔
      t.handler.loggedOn = true ∨ t'.handler.phase = .established := by
  cases h with
  | spares h hstays =>
    rw [h.loggedOn]
    refine ⟨.inl, ?_⟩
    rintro (hloggedOn | hestablished)
    · exact hloggedOn
    · rcases hstays with hsame | hclosed
      · exact hphase (hsame.symm.trans hestablished)
      · exact absurd (hclosed.symm.trans hestablished) Phase.noConfusion
  | establishes _ _ h' hestablished => exact iff_of_true h'.loggedOn (.inr hestablished)

theorem Proceeds.sessionId?_eq (h : t.Proceeds t') :
    t'.handler.sessionId? = t.handler.sessionId? := by
  cases h with
  | spares h => exact h.sessionId?
  | establishes h _ h' => exact h'.sessionId?.trans h.sessionId?

end Turn

end FixEngine
