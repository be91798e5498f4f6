import Chhaya.Dart.Core

/-!
# The client's data models

`lib/core/models`: identities, contacts, messages, conversations and the user's profile. `copyWith` is the structure
update; a `Duration` is its number of microseconds.
-/

namespace Chhaya

/-- A `ChhayaId`. `==` compares public keys only (`ChhayaId.equals`). -/
structure ChhayaId where
  publicKey : String
  createdAt : DateTime := ⟨0, false⟩
  deriving DecidableEq, Repr

/-- `ChhayaId.operator ==`. -/
def ChhayaId.equals (a b : ChhayaId) : Bool := a.publicKey == b.publicKey

@[simp] theorem ChhayaId.equals_iff {a b : ChhayaId} : a.equals b = true ↔ a.publicKey = b.publicKey := beq_iff_eq

structure Contact where
  id : String
  chhayaId : ChhayaId
  displayName : String
  avatarUrl : Option String := none
  verificationLevel : Int := 1
  isBlocked : Bool := false
  isPinned : Bool := false
  lastSeen : Option DateTime := none
  isOnline : Bool := false
  isVerified : Bool := false
  deriving DecidableEq, Repr

inductive MessageType
  | text | image | file | voice | system | poll
  deriving DecidableEq, Repr

structure Message where
  id : String
  conversationId : String
  senderId : String
  content : String
  type : MessageType := .text
  timestamp : DateTime
  isRead : Bool := false
  isDelivered : Bool := false
  isSent : Bool := true
  replyToId : Option String := none
  ttl : Option Int := none
  agreeUsers : List String := []
  disagreeUsers : List String := []
  deriving DecidableEq, Repr

/-- `Message.isExpired` at the time `now`. -/
def Message.isExpired (m : Message) (now : DateTime) : Bool :=
  match m.ttl with
  | none => false
  | some ttl => now.microsecondsSinceEpoch - m.timestamp.microsecondsSinceEpoch > ttl

structure Conversation where
  id : String
  participants : List Contact
  lastMessage : Option Message := none
  unreadCount : Int := 0
  isPinned : Bool := false
  isMuted : Bool := false
  isGroup : Bool := false
  groupName : Option String := none
  groupAvatarUrl : Option String := none
  createdAt : DateTime
  deriving DecidableEq, Repr

structure UserProfile where
  chhayaId : ChhayaId
  displayName : String
  avatarUrl : Option String := none
  recoveryPhrase : List String
  createdAt : DateTime
  deriving DecidableEq, Repr

/-- A `ChhayaKeyPair`. -/
structure ChhayaKeyPair (β : Type) where
  publicKey : Bytes
  privateKey : List β

end Chhaya
