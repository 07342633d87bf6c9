import FixEngine.Proofs.Engine.Authorship
import FixEngine.Proofs.Wire.Received

/-!
# What the messages of a handler hold

A handler stamps what it builds itself with the names of a session.  All else in such a
message may stand on the wire, the texts of the other side among it, for they were read
from there.  So the message may be written just if the names may, and for a logon the name
and the password of the user as well.
-/

namespace FixEngine

/-! ### Names -/

/-- The parts of an identity that may be left out. -/
def SessionId.details (id : SessionId) : List (Option String) :=
  [id.senderSubId, id.targetSubId, id.senderLocationId, id.targetLocationId]

theorem SessionId.forall_details_iff {id : SessionId} {P : Option String → Prop} :
    (∀ detail ∈ id.details, P detail) ↔
      P id.senderSubId ∧ P id.targetSubId ∧ P id.senderLocationId ∧ P id.targetLocationId := by
  simp [details]

/-- The names of an identity may stand on the wire. -/
structure SessionId.IsWritable (id : SessionId) : Prop where
  senderCompId : Utf8.IsWritable id.senderCompId
  targetCompId : Utf8.IsWritable id.targetCompId
  details : ∀ detail ∈ id.details, ∀ text, detail = some text → Utf8.IsWritable text

/-- The names under which a session speaks may stand on the wire. -/
structure Session.IsWritable (s : Session) : Prop where
  beginString : Utf8.IsWritable s.beginString
  id : s.id.IsWritable

/-- A header that bears the names of a session may be written just if the names may, and
it has a type. -/
theorem Session.Marks.isEncodable_iff {s : Session} {m : Message} (hmarks : s.Marks m) :
    m.header.IsEncodable ↔
      (∃ t, m.header.msgType = some t ∧ Utf8.IsWritable t.text) ∧ s.IsWritable := by
  obtain ⟨hbegin, hid⟩ := hmarks
  constructor
  · intro h
    refine ⟨h.msgType, ?_, ?_⟩
    · rw [← hbegin]
      exact h.beginString
    · rw [← hid]
      exact ⟨h.senderCompId, h.targetCompId, SessionId.forall_details_iff.2
        ⟨h.senderSubId, h.targetSubId, h.senderLocationId, h.targetLocationId⟩⟩
  · rintro ⟨htype, hversion, hnames⟩
    rw [← hbegin] at hversion
    rw [← hid] at hnames
    obtain ⟨hsub, htargetSub, hplace, htargetPlace⟩ :=
      SessionId.forall_details_iff.1 hnames.details
    exact ⟨htype, hversion, hnames.senderCompId, hnames.targetCompId, hsub, htargetSub, hplace,
      htargetPlace⟩

/-- A session for a logon that was read has names that may stand on the wire just if the
logon names both companies. -/
theorem Session.isWritable_ofLogon_iff (services : Services) {logon : Message}
    (hlogon : logon.IsReceived) :
    (Session.ofLogon services logon).IsWritable ↔
      logon.header.senderCompId ≠ "" ∧ logon.header.targetCompId ≠ "" := by
  constructor
  · intro h
    exact ⟨h.id.targetCompId.ne_empty, h.id.senderCompId.ne_empty⟩
  · rintro ⟨hsender, htarget⟩
    obtain ⟨hsub, htargetSub, hplace, htargetPlace⟩ :=
      Header.forall_partyDetails_iff
        (P := fun detail => ∀ text, detail = some text → Utf8.IsWritable text).1
          hlogon.partyDetails
    refine ⟨hlogon.beginString, hlogon.targetCompId htarget, hlogon.senderCompId hsender, ?_⟩
    exact SessionId.forall_details_iff.2 ⟨htargetSub, hsub, htargetPlace, hplace⟩

/-! ### Settings -/

namespace Settings

variable {settings : Settings}

/-- The texts that go into every message do not break it: those that are required hold
no delimiter, and those that may be left out are not empty either. -/
structure IsUnbroken (settings : Settings) : Prop where
  required : ∀ setting ∈ settings.required, Utf8.delimiter ∉ setting.2.toList
  details : ∀ detail ∈ settings.id.details, ∀ text, detail = some text → Utf8.IsWritable text

/-- What the settings say of the user. -/
def credentials (settings : Settings) : List String :=
  settings.username.toList ++ settings.password.toList

theorem validate_eq_ok_iff :
    settings.validate = .ok () ↔ ∀ setting ∈ settings.required, setting.2 ≠ "" := by
  have hnone : settings.required.find? (·.2.isEmpty) = none ↔
      ∀ setting ∈ settings.required, setting.2 ≠ "" := by
    simp only [List.find?_eq_none, String.isEmpty_iff, ne_eq]
  rw [← hnone, validate]
  cases settings.required.find? (·.2.isEmpty) with
  | none => exact iff_of_true rfl rfl
  | some setting => exact iff_of_false nofun nofun

theorem isWritable_ofSettings_iff (services : Services) (hvalid : settings.validate = .ok ()) :
    (Session.ofSettings services settings).IsWritable ↔ settings.IsUnbroken := by
  have hnames : (Session.ofSettings services settings).beginString = settings.beginString ∧
      (Session.ofSettings services settings).id = settings.id := by
    unfold Session.ofSettings
    split
    · exact ⟨rfl, rfl⟩
    · exact ⟨rfl, rfl⟩
  rw [validate_eq_ok_iff] at hvalid
  constructor
  · rintro ⟨hbegin, hid⟩
    rw [hnames.1] at hbegin
    rw [hnames.2] at hid
    refine ⟨?_, hid.details⟩
    simp only [required, List.forall_mem_cons]
    exact ⟨hbegin.delimiter_not_mem, hid.senderCompId.delimiter_not_mem,
      hid.targetCompId.delimiter_not_mem, List.forall_mem_nil _⟩
  · rintro ⟨hrequired, hdetails⟩
    have hwritable : ∀ setting ∈ settings.required, Utf8.IsWritable setting.2 :=
      fun setting hmem => ⟨hvalid setting hmem, hrequired setting hmem⟩
    simp only [required, List.forall_mem_cons] at hwritable
    obtain ⟨hbegin, hsender, htarget, -⟩ := hwritable
    refine ⟨?_, ?_⟩
    · rw [hnames.1]
      exact hbegin
    · rw [hnames.2]
      exact ⟨hsender, htarget, hdetails⟩

end Settings

/-! ### Texts of the handler -/

namespace Utf8

instance : DecidablePred IsWritable := fun text =>
  decidable_of_iff (text ≠ "" ∧ delimiter ∉ text.toList)
    ⟨fun h => ⟨h.1, h.2⟩, fun h => ⟨h.ne_empty, h.delimiter_not_mem⟩⟩

theorem IsWritable.append {left right : String} (hleft : IsWritable left)
    (hright : delimiter ∉ right.toList) : IsWritable (left ++ right) where
  ne_empty := by simp [hleft.ne_empty]
  delimiter_not_mem := by
    rw [String.toList_append, List.mem_append, not_or]
    exact ⟨hleft.delimiter_not_mem, hright⟩

theorem delimiter_not_mem_toString (n : Nat) : delimiter ∉ (toString n).toList := by
  have hdigits : (toString n).toList = Nat.toDigits 10 n := by simp [toString, Nat.repr]
  rw [hdigits]
  intro hmem
  exact (Numeral.isWritable_ofNat n).soh_not_mem (List.mem_map_of_mem (f := Char.toUInt8) hmem)

end Utf8

theorem DisconnectReason.isWritable_message (reason : DisconnectReason) :
    Utf8.IsWritable reason.message := by
  cases reason with
  | sequenceTooLow expected received =>
    have hbegin : Utf8.IsWritable "MsgSeqNum too low, expecting " := by decide +kernel
    have hbetween : Utf8.delimiter ∉ " but received ".toList := by decide +kernel
    exact ((hbegin.append (Utf8.delimiter_not_mem_toString expected.toNat)).append
      hbetween).append (Utf8.delimiter_not_mem_toString received.toNat)
  | _ => decide +kernel

/-! ### Bodies of the handler -/

namespace Entry

variable {entry : Entry} {entries left right : List Entry} {tag : Tag}

/-- All that stands among the entries may be written. -/
def AllAllowed (entries : List Entry) : Prop := ∀ e : Entry, e.Within entries → e.IsAllowed

theorem allAllowed_iff :
    AllAllowed entries ↔ ∀ f ∈ fieldsOf entries, (field f).IsAllowed := by
  simp only [AllAllowed, ← checkAll_iff, checkAll_eq_forM, forM_eq_ok_iff, isAllowed_field_iff]

@[simp]
theorem allAllowed_nil : AllAllowed [] := allAllowed_iff.2 (List.forall_mem_nil _)

@[simp]
theorem allAllowed_append_iff : AllAllowed (left ++ right) ↔ AllAllowed left ∧ AllAllowed right := by
  simp only [allAllowed_iff, fieldsOf_append, List.forall_mem_append]

@[simp]
theorem allAllowed_cons_iff {f : Field} :
    AllAllowed (field f :: entries) ↔ (field f).IsAllowed ∧ AllAllowed entries := by
  simp only [allAllowed_iff, fieldsOf, fields, List.singleton_append, List.forall_mem_cons]

theorem isAllowed_text_iff {text : String} (htag : tag ∉ Tag.reserved) :
    (field ⟨tag, .text text⟩).IsAllowed ↔ Utf8.IsWritable text := by
  constructor
  · intro h
    exact h.text tag text rfl
  · intro h
    refine ⟨htag, ?_, nofun⟩
    rintro _ _ ⟨⟩
    exact h

theorem isAllowed_integer (n : Int64) (htag : tag ∉ Tag.reserved) :
    (field ⟨tag, .integer n⟩).IsAllowed := ⟨htag, nofun, nofun⟩

theorem isAllowed_flag (b : Bool) (htag : tag ∉ Tag.reserved) :
    (field ⟨tag, .flag b⟩).IsAllowed := ⟨htag, nofun, nofun⟩

theorem allAllowed_optionalText_iff {text? : Option String} (htag : tag ∉ Tag.reserved) :
    AllAllowed (Admin.optionalText tag text?) ↔
      ∀ text, text? = some text → Utf8.IsWritable text := by
  cases text? with
  | none => exact iff_of_true allAllowed_nil nofun
  | some text =>
    calc AllAllowed [field ⟨tag, .text text⟩]
      _ ↔ (field ⟨tag, .text text⟩).IsAllowed := by simp
      _ ↔ Utf8.IsWritable text := isAllowed_text_iff htag
      _ ↔ ∀ text', some text = some text' → Utf8.IsWritable text' := by simp

/-- A text that is left out if it is empty may be written just if it holds no delimiter. -/
theorem allAllowed_optionalText_filter_iff {text? : Option String} (htag : tag ∉ Tag.reserved) :
    AllAllowed (Admin.optionalText tag (text?.filter (!·.isEmpty))) ↔
      ∀ text ∈ text?.toList, Utf8.delimiter ∉ text.toList := by
  rw [allAllowed_optionalText_iff htag]
  constructor
  · intro h text htext
    by_cases hempty : text = ""
    · rw [hempty]
      exact List.not_mem_nil
    · refine (h text (Option.filter_eq_some_iff.2 ⟨Option.mem_toList.1 htext, ?_⟩)).delimiter_not_mem
      simpa using hempty
  · intro h text hfilter
    obtain ⟨htext, hne⟩ := Option.filter_eq_some_iff.1 hfilter
    exact ⟨by simpa using hne, h text (Option.mem_toList.2 htext)⟩

/-- The body of a logon without the user. -/
theorem allAllowed_logon (heartbeat : Int64) (reset : Bool) :
    AllAllowed (Admin.logon heartbeat reset).body := by
  refine allAllowed_append_iff.2 ⟨?_, ?_⟩
  · exact allAllowed_cons_iff.2 ⟨isAllowed_integer 0 (by decide),
      allAllowed_cons_iff.2 ⟨isAllowed_integer heartbeat (by decide), allAllowed_nil⟩⟩
  · cases reset with
    | false => exact allAllowed_nil
    | true => exact allAllowed_cons_iff.2 ⟨isAllowed_flag true (by decide), allAllowed_nil⟩

end Entry

/-- What a handler builds when a message has arrived that was read, but for refusals, has a
type and a body that may be written. -/
theorem Turn.Builds.exists_ofType {m draft : Message} (hbuilds : Turn.Builds m draft)
    (hm : m.IsReceived) (hown : draft.msgType? ≠ some .businessMessageReject) :
    ∃ msgType body, draft = .ofType msgType body ∧ Utf8.IsWritable msgType.text ∧
      Entry.AllAllowed body := by
  cases hbuilds with
  | logon => exact ⟨.logon, _, rfl, by decide, Entry.allAllowed_logon _ _⟩
  | logout reason =>
    refine ⟨.logout, _, rfl, by decide, (Entry.allAllowed_optionalText_iff (by decide)).2 ?_⟩
    intro text htext
    obtain ⟨reason, -, rfl⟩ := Option.map_eq_some_iff.1 htext
    exact reason.isWritable_message
  | heartbeat =>
    exact ⟨.heartbeat, _, rfl, by decide,
      (Entry.allAllowed_optionalText_iff (by decide)).2 (hm.text Tag.testReqId)⟩
  | resendRequest first last =>
    exact ⟨.resendRequest, _, rfl, by decide,
      Entry.allAllowed_cons_iff.2 ⟨Entry.isAllowed_integer _ (by decide),
        Entry.allAllowed_cons_iff.2 ⟨Entry.isAllowed_integer _ (by decide), Entry.allAllowed_nil⟩⟩⟩
  | refusal => exact absurd rfl hown

/-! ### Stamped messages -/

namespace Session

variable {s s₀ : Session} {now : Timestamp}

/-- A message that is stamped with the names of a session may be written just if they may,
and its type and its body may. -/
theorem isEncodable_stamp_iff {msgType : MsgType} {body : List Entry}
    (hmarks : s₀.Marks (s.stamp now (.ofType msgType body)).2) :
    (s.stamp now (.ofType msgType body)).2.IsEncodable ↔
      Utf8.IsWritable msgType.text ∧ s₀.IsWritable ∧ Entry.AllAllowed body := by
  constructor
  · rintro ⟨hheader, hentries⟩
    obtain ⟨⟨t, ht, htext⟩, hnames⟩ := hmarks.isEncodable_iff.1 hheader
    cases ht
    exact ⟨htext, hnames, fun entry hwithin => hentries entry (.inr hwithin)⟩
  · rintro ⟨htext, hnames, hbody⟩
    refine ⟨hmarks.isEncodable_iff.2 ⟨⟨msgType, rfl, htext⟩, hnames⟩, ?_⟩
    rintro entry (⟨f, hf, -⟩ | hwithin)
    · exact absurd hf List.not_mem_nil
    · exact hbody entry hwithin

/-- What a handler builds when a message has arrived may be written just if its names
may. -/
theorem isEncodable_stamp_of_builds {m draft : Message} (hbuilds : Turn.Builds m draft)
    (hm : m.IsReceived) (hown : draft.msgType? ≠ some .businessMessageReject)
    (hmarks : s₀.Marks (s.stamp now draft).2) :
    (s.stamp now draft).2.IsEncodable ↔ s₀.IsWritable := by
  obtain ⟨msgType, body, rfl, htext, hbody⟩ := hbuilds.exists_ofType hm hown
  rw [isEncodable_stamp_iff hmarks]
  exact ⟨fun h => h.2.1, fun h => ⟨htext, h, hbody⟩⟩

/-- The logon of a handler that initiates may be written just if its names may, and what it
says of the user holds no delimiter. -/
theorem isEncodable_stamp_logonOf {settings : Settings}
    (hmarks : s₀.Marks (s.stamp now (Admin.logonOf settings)).2) :
    (s.stamp now (Admin.logonOf settings)).2.IsEncodable ↔
      s₀.IsWritable ∧ ∀ text ∈ settings.credentials, Utf8.delimiter ∉ text.toList := by
  let plain := (Admin.logon settings.heartbeatSeconds settings.resetOnLogon).body
  let username := Admin.optionalText Tag.username (settings.username.filter (!·.isEmpty))
  let password := Admin.optionalText Tag.password (settings.password.filter (!·.isEmpty))
  have hlogon : Admin.logonOf settings = .ofType .logon (plain ++ (username ++ password)) := rfl
  have htype : Utf8.IsWritable MsgType.logon.text := by decide
  have hplain : Entry.AllAllowed plain := Entry.allAllowed_logon _ _
  rw [hlogon] at hmarks ⊢
  calc (s.stamp now (.ofType .logon (plain ++ (username ++ password)))).2.IsEncodable
    _ ↔ Utf8.IsWritable MsgType.logon.text ∧ s₀.IsWritable ∧
          Entry.AllAllowed (plain ++ (username ++ password)) := isEncodable_stamp_iff hmarks
    _ ↔ s₀.IsWritable ∧ Entry.AllAllowed username ∧ Entry.AllAllowed password := by
      simp only [htype, hplain, Entry.allAllowed_append_iff, true_and]
    _ ↔ s₀.IsWritable ∧ ∀ text ∈ settings.credentials, Utf8.delimiter ∉ text.toList := by
      rw [Entry.allAllowed_optionalText_filter_iff (by decide),
        Entry.allAllowed_optionalText_filter_iff (by decide), Settings.credentials,
        List.forall_mem_append]

end Session

end FixEngine
