import FixEngine.Message.Basic

/-!
# Identities of sessions

A session is known by the two companies that take part in it, each with an
optional desk and an optional place.  An identity is always seen from the local
side: the sender is this side.
-/

namespace FixEngine

/-- The identity of a session. -/
structure SessionId where
  senderCompId : String := ""
  targetCompId : String := ""
  senderSubId : Option String := none
  targetSubId : Option String := none
  senderLocationId : Option String := none
  targetLocationId : Option String := none
  deriving DecidableEq, Repr

namespace SessionId

/-- The identity as the other side sees it. -/
def reversed (id : SessionId) : SessionId :=
  { senderCompId := id.targetCompId
    targetCompId := id.senderCompId
    senderSubId := id.targetSubId
    targetSubId := id.senderSubId
    senderLocationId := id.targetLocationId
    targetLocationId := id.senderLocationId }

@[simp]
theorem reversed_reversed (id : SessionId) : id.reversed.reversed = id := rfl

/-- The identity that a header names, as its sender sees it. -/
def ofHeader (h : Header) : SessionId :=
  { senderCompId := h.senderCompId
    targetCompId := h.targetCompId
    senderSubId := h.senderSubId
    targetSubId := h.targetSubId
    senderLocationId := h.senderLocationId
    targetLocationId := h.targetLocationId }

/-- The identity of the session that a received header belongs to. -/
def ofInbound (h : Header) : SessionId := (ofHeader h).reversed

/-- A company with its desk and its place. -/
def sideShown (comp : String) (sub location : Option String) : String :=
  comp ++ (sub.map ("/" ++ ·)).getD "" ++ (location.map ("@" ++ ·)).getD ""

def shown (id : SessionId) : String :=
  sideShown id.senderCompId id.senderSubId id.senderLocationId ++ "->"
    ++ sideShown id.targetCompId id.targetSubId id.targetLocationId

/-- Orders optional texts; an absent one comes first. -/
def compareOptional : Option String → Option String → Ordering
  | none, none => .eq
  | none, some _ => .lt
  | some _, none => .gt
  | some a, some b => compare a b

instance : Ord SessionId where
  compare a b :=
    (compare a.senderCompId b.senderCompId).then <|
    (compare a.targetCompId b.targetCompId).then <|
    (compareOptional a.senderSubId b.senderSubId).then <|
    (compareOptional a.targetSubId b.targetSubId).then <|
    (compareOptional a.senderLocationId b.senderLocationId).then
      (compareOptional a.targetLocationId b.targetLocationId)

def sorted (ids : List SessionId) : List SessionId :=
  ids.mergeSort fun a b => (compare a b).isLE

end SessionId

end FixEngine
