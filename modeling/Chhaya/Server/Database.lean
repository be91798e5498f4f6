import Chhaya.Dart.Core
import Chhaya.Lib.Async
import Chhaya.Lib.Uuid
import Chhaya.Lib.Zod

/-!
# The server's database

`backend/server/src/db.ts` and the statements that `routes.ts`, `session.ts` and `identity-proof.ts` send: tables as lists
of rows, and one definition for each statement or transaction. A statement sees the time at which it runs, in
microseconds, and gives `none` where a constraint of the schema forbids it.

- `authenticate_eq_some`: whom a session token stands for.
- `isMember_iff`: who takes part in a conversation.
-/

namespace Chhaya

namespace Server

/-! ## Tables -/

structure UserRow where
  id : Uuid
  chhayaId : String
  displayName : String
  publicKey : String
  encryptedPrivateKey : String
  recoveryPhraseHash : String
  createdAt : Nat
  lastSeenAt : Option Nat := none
  isActive : Bool := true
  deriving DecidableEq

structure SessionRow where
  tokenHash : String
  userId : Uuid
  expiresAt : Nat
  deriving DecidableEq

structure ChallengeRow where
  id : Uuid
  publicKey : String
  deviceId : Uuid
  purpose : String
  proofHash : String
  expiresAt : Nat
  deriving DecidableEq

structure DeviceRow where
  id : Uuid
  userId : Uuid
  deviceName : String
  platform : String
  fcmToken : Option String
  publicKey : String
  lastActiveAt : Nat
  isLinked : Bool
  deriving DecidableEq

structure ContactRow where
  userId : Uuid
  contactId : Uuid
  displayName : String
  verificationLevel : Nat
  deriving DecidableEq

structure ConversationRow where
  id : Uuid
  type : String
  name : Option String
  avatarUrl : Option String
  createdBy : Uuid
  createdAt : Nat
  updatedAt : Nat
  deriving DecidableEq

structure ParticipantRow where
  conversationId : Uuid
  userId : Uuid
  isAdmin : Bool
  leftAt : Option Nat := none
  lastReadAt : Option Nat := some 0
  deriving DecidableEq

/-- `media_meta` is the text of its JSON. -/
structure MessageRow where
  id : Uuid
  conversationId : Uuid
  senderId : Uuid
  content : String
  messageType : String
  mediaUrl : Option String
  mediaMeta : Option (List Char)
  replyToId : Option Uuid
  sentAt : Nat
  deliveredAt : Option Nat := none
  readAt : Option Nat := none
  isDeleted : Bool := false
  deriving DecidableEq

/-- The tables that the modelled statements use, and the time. -/
structure Db where
  users : List UserRow := []
  sessions : List SessionRow := []
  challenges : List ChallengeRow := []
  devices : List DeviceRow := []
  contacts : List ContactRow := []
  conversations : List ConversationRow := []
  participants : List ParticipantRow := []
  messages : List MessageRow := []
  now : Nat := 0

/-! ## What comes from outside the source -/

/-- Functions of libraries: HMAC-SHA256 of a key and a message, X25519, SHA-256 of a text in hexadecimal, `scryptSync` of a
text and a salt, how the database reads the text of a time, and the URLs and times that `zod` accepts. -/
structure Platform where
  hmac : Bytes → Bytes → Bytes
  x25519 : Bytes → Bytes → Bytes
  x25519Public : Bytes → Bytes
  tokenHash : String → String
  scrypt : String → String → String
  timestamptz : String → Option Nat
  isUrl : String → Bool
  isDatetime : String → Bool

/-! ## What statements take and return -/

structure ParticipantView where
  id : Uuid
  displayName : String
  chhayaId : String
  publicKey : String

structure LastMessage where
  id : Uuid
  conversationId : Uuid
  content : String
  senderId : Uuid
  sentAt : Nat
  messageType : String

/-- A row of `GET /conversations`. An empty list of participants stands for `null`. -/
structure ConversationView where
  id : Uuid
  type : String
  name : Option String
  avatarUrl : Option String
  createdAt : Nat
  updatedAt : Nat
  participants : List ParticipantView
  lastMessage : Option LastMessage
  unreadCount : Nat

/-- A row of `GET /messages/:conversationId`. -/
structure MessageView where
  message : MessageRow
  senderName : String

/-- The values of an `INSERT INTO messages`. -/
structure NewMessage where
  id : String
  conversationId : String
  senderId : Uuid
  content : String
  messageType : String
  mediaUrl : Option String
  mediaMeta : Option (List Char)
  replyToId : Option String

/-- The values of an `INSERT INTO conversations`. -/
structure NewConversation where
  id : Uuid
  type : String
  name : Option String
  avatarUrl : Option String
  createdBy : Uuid

/-- The values of an `INSERT INTO users`. -/
structure NewUser where
  id : Uuid
  chhayaId : String
  displayName : String
  publicKey : String
  encryptedPrivateKey : String
  recoveryPhraseHash : String

/-- The values of an `INSERT INTO devices`. -/
structure NewDevice where
  userId : Uuid
  id : String
  deviceName : String
  platform : String
  fcmToken : Option String
  publicKey : String

/-- What `createIdentityChallenge` returns, with what it was asked for. -/
structure Challenge where
  challengeId : Uuid
  publicKey : String
  deviceId : String
  purpose : String
  serverPublicKey : String
  nonce : String
  context : String
  proofHash : String

/-- What a register or login request presents to be let in. -/
structure Claim where
  challengeId : String
  publicKey : String
  deviceId : String
  purpose : String
  identityProof : String
  deriving DecidableEq

/-- Where a page of messages ends. -/
inductive Cursor
  | newest
  | beforeId (id : String)
  | before (time : String)

/-- A statement or transaction. Ids that come from a request are texts. `insertSession` carries the claim that the session
is for, which no statement reads. -/
inductive Sql
  | authenticate (tokenHash : String)
  | insertSession (tokenHash : String) (userId : Uuid) (claim : Claim)
  | deleteSession (tokenHash : String)
  | deleteExpiredChallenges
  | insertChallenge (c : Challenge)
  | consumeChallenge (id publicKey deviceId purpose : String)
  | userExists (chhayaId : String)
  | insertAccount (u : NewUser) (v : NewDevice)
  | registerFCMToken (userId : Uuid) (deviceId token : String)
  | activeUser (chhayaId : String)
  | upsertDevice (v : NewDevice)
  | linkDevice (v : NewDevice)
  | touchLastSeen (userId : Uuid)
  | userByChhayaId (chhayaId : String)
  | contactExists (userId contactId : Uuid)
  | insertContact (userId contactId : Uuid) (displayName : String) (conversationId : Uuid)
  | insertConversation (c : NewConversation) (participants : List String)
  | conversationsOf (userId : Uuid)
  | participantCheck (conversationId : String) (userId : Uuid)
  | insertMessage (m : NewMessage)
  | messageById (id : String)
  | touchConversation (id : String)
  | otherParticipants (conversationId : String) (userId : Uuid)
  | messagesOf (conversationId : String) (cursor : Cursor) (limit : Nat)
  | messageParticipant (messageId : String) (userId : Uuid)
  | markLastRead (messageId : String) (userId : Uuid)
  | markRead (messageId : String) (userId : Uuid)

/-- The rows, or what the source uses of them. -/
@[reducible] def Sql.Rows : Sql → Type
  | authenticate _ => Option Uuid
  | insertSession _ _ _ => Unit
  | deleteSession _ => Unit
  | deleteExpiredChallenges => Unit
  | insertChallenge _ => Unit
  | consumeChallenge _ _ _ _ => Option String
  | userExists _ => Bool
  | insertAccount _ _ => Unit
  | registerFCMToken _ _ _ => Unit
  | activeUser _ => Option (Uuid × String × String)
  | upsertDevice _ => Nat
  | linkDevice _ => Nat
  | touchLastSeen _ => Unit
  | userByChhayaId _ => Option (Uuid × String)
  | contactExists _ _ => Bool
  | insertContact _ _ _ _ => Unit
  | insertConversation _ _ => Unit
  | conversationsOf _ => List ConversationView
  | participantCheck _ _ => Bool
  | insertMessage _ => Bool
  | messageById _ => Option MessageRow
  | touchConversation _ => Unit
  | otherParticipants _ _ => List Uuid
  | messagesOf _ _ _ => List MessageView
  | messageParticipant _ _ => Nat
  | markLastRead _ _ => Unit
  | markRead _ _ => Unit

namespace Db

variable (d : Db)

/-! ## Accounts and sessions -/

/-- `authenticateToken`: the users joined to the live sessions with the hash. -/
def authenticate (tokenHash : String) : Option Uuid :=
  (d.sessions.flatMap fun s => (d.users.filter fun u =>
    u.id == s.userId && s.tokenHash == tokenHash && decide (d.now < s.expiresAt) && u.isActive).map UserRow.id).head?

/-- `issueSession`: thirty days. -/
def insertSession (tokenHash : String) (userId : Uuid) : Option Db :=
  if (d.sessions.any fun s => s.tokenHash == tokenHash) || !(d.users.any fun u => u.id == userId) then none
  else some { d with sessions := ⟨tokenHash, userId, d.now + 30 * 24 * 3600 * 1000000⟩ :: d.sessions }

def deleteSession (tokenHash : String) : Db :=
  { d with sessions := d.sessions.filter fun s => s.tokenHash != tokenHash }

def deleteExpiredChallenges : Db :=
  { d with challenges := d.challenges.filter fun c => decide (d.now < c.expiresAt) }

/-- `issueIdentityChallenge`: two minutes. -/
def insertChallenge (c : Challenge) (deviceId : Uuid) : Option Db :=
  if d.challenges.any fun r => r.id == c.challengeId then none
  else some { d with challenges :=
    ⟨c.challengeId, c.publicKey, deviceId, c.purpose, c.proofHash, d.now + 120 * 1000000⟩ :: d.challenges }

/-- Whether `consumeIdentityChallenge` deletes the row. -/
def consumes (id : Uuid) (publicKey : String) (deviceId : Uuid) (purpose : String) (r : ChallengeRow) : Bool :=
  r.id == id && r.publicKey == publicKey && r.deviceId == deviceId && r.purpose == purpose && decide (d.now < r.expiresAt)

/-- `DELETE FROM identity_challenges ... RETURNING proof_hash`. -/
def consumeChallenge (id : Uuid) (publicKey : String) (deviceId : Uuid) (purpose : String) : Option String × Db :=
  ((d.challenges.find? (d.consumes id publicKey deviceId purpose)).map ChallengeRow.proofHash,
    { d with challenges := d.challenges.filter fun r => !d.consumes id publicKey deviceId purpose r })

/-- The transaction of `POST /auth/register`. -/
def insertAccount (u : NewUser) (v : NewDevice) (deviceId : Uuid) : Option Db :=
  if (d.users.any fun r => r.id == u.id || r.chhayaId == u.chhayaId) || (d.devices.any fun r => r.id == deviceId) then none
  else some { d with
    users := ⟨u.id, u.chhayaId, u.displayName, u.publicKey, u.encryptedPrivateKey, u.recoveryPhraseHash, d.now, none, true⟩
      :: d.users
    devices := ⟨deviceId, v.userId, v.deviceName, v.platform, v.fcmToken, v.publicKey, d.now, false⟩ :: d.devices }

/-- The `INSERT INTO devices ... ON CONFLICT (id) DO UPDATE` of `POST /auth/login`, with its row count. -/
def upsertDevice (v : NewDevice) (deviceId : Uuid) : Nat × Db :=
  match d.devices.find? fun r => r.id == deviceId with
  | none => (1, { d with devices :=
      ⟨deviceId, v.userId, v.deviceName, v.platform, v.fcmToken, v.publicKey, d.now, false⟩ :: d.devices })
  | some r =>
    if r.userId = v.userId then
      (1, { d with devices := d.devices.map fun r => if r.id = deviceId then
        { r with deviceName := v.deviceName, platform := v.platform, fcmToken := v.fcmToken, lastActiveAt := d.now } else r })
    else (0, d)

/-- The `INSERT INTO devices ... ON CONFLICT (id) DO UPDATE` of `POST /devices/link`, with its row count. -/
def linkDevice (v : NewDevice) (deviceId : Uuid) : Nat × Db :=
  match d.devices.find? fun r => r.id == deviceId with
  | none => (1, { d with devices :=
      ⟨deviceId, v.userId, v.deviceName, v.platform, v.fcmToken, v.publicKey, d.now, true⟩ :: d.devices })
  | some r =>
    if r.userId = v.userId then
      (1, { d with devices := d.devices.map fun r => if r.id = deviceId then
        { r with isLinked := true, lastActiveAt := d.now } else r })
    else (0, d)

/-- `removeFCMTokens` of `push.ts`: the devices of a user lose the tokens that the push service has refused. -/
def removeFCMTokens (userId : Uuid) (tokens : List String) : Db :=
  { d with devices := d.devices.map fun r =>
    if r.userId = userId ∧ ∃ token ∈ tokens, r.fcmToken = some token then { r with fcmToken := none } else r }

def touchLastSeen (userId : Uuid) : Db :=
  { d with users := d.users.map fun u => if u.id = userId then { u with lastSeenAt := some d.now } else u }

/-! ## Reading conversations -/

/-- `user` takes part in `conversation` and has not left. -/
def IsMember (conversation user : Uuid) : Prop :=
  ∃ p ∈ d.participants, p.conversationId = conversation ∧ p.userId = user ∧ p.leftAt = none

def isMember (conversation user : Uuid) : Bool :=
  d.participants.any fun p => p.conversationId == conversation && p.userId == user && p.leftAt.isNone

/-- The message with the id. -/
def message (id : Uuid) : Option MessageRow := d.messages.find? fun m => m.id == id

/-- The users who take part and have not left, but for `user`. -/
def otherParticipants (conversation user : Uuid) : List Uuid :=
  (d.participants.filter fun p => p.conversationId == conversation && p.userId != user && p.leftAt.isNone &&
    d.users.any fun u => u.id == p.userId).map ParticipantRow.userId

/-- Whether `m` comes before `m'` in `ORDER BY sent_at DESC, id DESC`. -/
def newer (m m' : MessageRow) : Bool := decide (m'.sentAt < m.sentAt) || (m.sentAt == m'.sentAt && m'.id.le m.id)

/-- The messages of a conversation that satisfy `p`, the newest first. -/
def messagesWhere (conversation : Uuid) (p : MessageRow → Bool) : List MessageRow :=
  (d.messages.filter fun m => m.conversationId == conversation && !m.isDeleted && p m).mergeSort newer

/-- The messages of a conversation that the cursor leaves, the newest first. -/
def messagesBefore (platform : Platform) (conversation : Uuid) : Cursor → Option (List MessageRow)
  | .newest => some (d.messagesWhere conversation fun _ => true)
  | .beforeId id => do
    let id ← Uuid.read id
    match d.messages.find? fun m => m.id == id && m.conversationId == conversation with
    | none => some []
    | some c => some (d.messagesWhere conversation fun m =>
      decide (m.sentAt < c.sentAt) || (m.sentAt == c.sentAt && m.id.le c.id && m.id != c.id))
  | .before time => do
    let time ← platform.timestamptz time
    some (d.messagesWhere conversation fun m => decide (m.sentAt < time))

/-- The rows of a page: the messages with their senders' names. -/
def messagesOf (platform : Platform) (conversation : Uuid) (cursor : Cursor) (limit : Nat) : Option (List MessageView) := do
  let ms ← d.messagesBefore platform conversation cursor
  some ((ms.flatMap fun m => (d.users.filter fun u => u.id == m.senderId).map fun u => ⟨m, u.displayName⟩).take limit)

/-- The subselects of `GET /conversations` for one row. -/
def conversationView (c : ConversationRow) (cp : ParticipantRow) : ConversationView where
  id := c.id
  type := c.type
  name := c.name
  avatarUrl := c.avatarUrl
  createdAt := c.createdAt
  updatedAt := c.updatedAt
  participants := (d.participants.filter fun p => p.conversationId == c.id && p.leftAt.isNone).flatMap fun p =>
    (d.users.filter fun u => u.id == p.userId).map fun u => ⟨u.id, u.displayName, u.chhayaId, u.publicKey⟩
  lastMessage := ((d.messages.filter fun m => m.conversationId == c.id && !m.isDeleted).mergeSort fun m m' =>
    decide (m'.sentAt ≤ m.sentAt)).head?.map fun m => ⟨m.id, m.conversationId, m.content, m.senderId, m.sentAt, m.messageType⟩
  unreadCount := (d.messages.filter fun m => m.conversationId == c.id &&
    match cp.lastReadAt with
    | some t => decide (t < m.sentAt)
    | none => false).length

/-- `GET /conversations`. -/
def conversationsOf (user : Uuid) : List ConversationView :=
  ((d.conversations.flatMap fun c => (d.participants.filter fun cp =>
    cp.conversationId == c.id && cp.userId == user && cp.leftAt.isNone).map fun cp => (c, cp)).mergeSort fun x y =>
      decide (y.1.updatedAt ≤ x.1.updatedAt)).map fun x => d.conversationView x.1 x.2

/-- The number of rows of messages with the id joined to memberships of `user`. -/
def messageParticipant (id user : Uuid) : Nat :=
  (d.messages.flatMap fun m => d.participants.filter fun p =>
    m.id == id && p.conversationId == m.conversationId && p.userId == user && p.leftAt.isNone).length

/-! ## Writing conversations -/

/-- `INSERT INTO messages ... ON CONFLICT (id) DO NOTHING`: whether a row was inserted. -/
def insertMessage (m : NewMessage) (id conversationId : Uuid) (replyToId : Option Uuid) : Option (Bool × Db) :=
  if (d.message id).isSome then some (false, d)
  else if (d.conversations.any fun c => c.id == conversationId) && (d.users.any fun u => u.id == m.senderId) &&
      replyToId.all fun r => (d.message r).isSome || r == id then
    some (true, { d with messages := ⟨id, conversationId, m.senderId, m.content, m.messageType, m.mediaUrl, m.mediaMeta,
      replyToId, d.now, none, none, false⟩ :: d.messages })
  else none

/-- `UPDATE conversations SET updated_at = NOW()`. -/
def touchConversation (id : Uuid) : Db :=
  { d with conversations := d.conversations.map fun c => if c.id = id then { c with updatedAt := d.now } else c }

/-- The rows of a conversation and its participants, where the keys allow it. -/
def insertConversation (c : NewConversation) (participants : List Uuid) : Option Db :=
  if (d.conversations.any fun r => r.id == c.id) || !decide participants.Nodup ||
      !(participants.all fun u => d.users.any fun r => r.id == u) || !(d.users.any fun r => r.id == c.createdBy) then none
  else some { d with
    conversations := ⟨c.id, c.type, c.name, c.avatarUrl, c.createdBy, d.now, d.now⟩ :: d.conversations
    participants := participants.map (fun u => ⟨c.id, u, u == c.createdBy, none, some 0⟩) ++ d.participants }

/-- The transaction of `POST /contacts`. -/
def insertContact (user contact : Uuid) (displayName : String) (conversation : Uuid) : Option Db :=
  if d.contacts.any fun r => r.userId == user && r.contactId == contact then none
  else ({ d with contacts := ⟨user, contact, displayName, 1⟩ :: d.contacts }).insertConversation
    ⟨conversation, "direct", none, none, user⟩ [user, contact]

/-- `UPDATE conversation_participants SET last_read_at = GREATEST(...)`. -/
def markLastRead (id user : Uuid) : Db :=
  match d.message id with
  | none => d
  | some m => { d with participants := d.participants.map fun p =>
      if p.userId = user ∧ p.conversationId = m.conversationId then
        { p with lastReadAt := some (max (p.lastReadAt.getD 0) m.sentAt) }
      else p }

/-- `UPDATE messages SET read_at = NOW(), ...`. -/
def markRead (id user : Uuid) : Db :=
  { d with messages := d.messages.map fun m =>
      if m.id = id ∧ m.readAt = none ∧ m.senderId ≠ user then
        { m with readAt := some d.now, deliveredAt := some (m.deliveredAt.getD d.now) }
      else m }

end Db

/-- What a statement returns and makes of the database; `none` is an error. -/
def exec (platform : Platform) (d : Db) : (q : Sql) → Option (q.Rows × Db)
  | .authenticate tokenHash => some (d.authenticate tokenHash, d)
  | .insertSession tokenHash userId _ => (d.insertSession tokenHash userId).map fun d' => ((), d')
  | .deleteSession tokenHash => some ((), d.deleteSession tokenHash)
  | .deleteExpiredChallenges => some ((), d.deleteExpiredChallenges)
  | .insertChallenge c => do
    let deviceId ← Uuid.read c.deviceId
    return ((), ← d.insertChallenge c deviceId)
  | .consumeChallenge id publicKey deviceId purpose => do
    let id ← Uuid.read id
    let deviceId ← Uuid.read deviceId
    return d.consumeChallenge id publicKey deviceId purpose
  | .userExists chhayaId => some (d.users.any fun u => u.chhayaId == chhayaId, d)
  | .insertAccount u v => do
    let deviceId ← Uuid.read v.id
    return ((), ← d.insertAccount u v deviceId)
  -- the row lacks `public_key`, which is NOT NULL, and that is checked before the conflict
  | .registerFCMToken _ _ _ => none
  | .activeUser chhayaId => some ((d.users.find? fun u => u.chhayaId == chhayaId && u.isActive).map fun u =>
    (u.id, u.publicKey, u.recoveryPhraseHash), d)
  | .upsertDevice v => do
    let deviceId ← Uuid.read v.id
    return d.upsertDevice v deviceId
  | .linkDevice v => do
    let deviceId ← Uuid.read v.id
    return d.linkDevice v deviceId
  | .touchLastSeen userId => some ((), d.touchLastSeen userId)
  | .userByChhayaId chhayaId => some ((d.users.find? fun u => u.chhayaId == chhayaId).map fun u => (u.id, u.publicKey), d)
  | .contactExists user contact => some (d.contacts.any fun r => r.userId == user && r.contactId == contact, d)
  | .insertContact user contact displayName conversation =>
    (d.insertContact user contact displayName conversation).map fun d' => ((), d')
  | .insertConversation c participants => do
    let participants ← participants.mapM Uuid.read
    return ((), ← d.insertConversation c participants)
  | .conversationsOf user => some (d.conversationsOf user, d)
  | .participantCheck conversation user => do
    let conversation ← Uuid.read conversation
    return (d.isMember conversation user, d)
  | .insertMessage m => do
    let id ← Uuid.read m.id
    let conversationId ← Uuid.read m.conversationId
    let replyToId ← m.replyToId.mapM Uuid.read
    d.insertMessage m id conversationId replyToId
  | .messageById id => do
    let id ← Uuid.read id
    return (d.message id, d)
  | .touchConversation id => do
    let id ← Uuid.read id
    return ((), d.touchConversation id)
  | .otherParticipants conversation user => do
    let conversation ← Uuid.read conversation
    return (d.otherParticipants conversation user, d)
  | .messagesOf conversation cursor limit => do
    let conversation ← Uuid.read conversation
    return (← d.messagesOf platform conversation cursor limit, d)
  | .messageParticipant id user => do
    let id ← Uuid.read id
    return (d.messageParticipant id user, d)
  | .markLastRead id user => do
    let id ← Uuid.read id
    return ((), d.markLastRead id user)
  | .markRead id user => do
    let id ← Uuid.read id
    return ((), d.markRead id user)

/-! ## Who is who -/

/-- Whoever is authenticated has a live session. -/
theorem authenticate_eq_some {d : Db} {tokenHash : String} {user : Uuid} (h : d.authenticate tokenHash = some user) :
    ∃ s ∈ d.sessions, ∃ u ∈ d.users, s.tokenHash = tokenHash ∧ d.now < s.expiresAt ∧ u.id = s.userId ∧
      u.isActive = true ∧ u.id = user := by
  obtain ⟨s, hs, hm⟩ := List.mem_flatMap.mp (List.mem_of_mem_head? h)
  obtain ⟨u, hf, rfl⟩ := List.mem_map.mp hm
  obtain ⟨hu, hc⟩ := List.mem_filter.mp hf
  simp only [Bool.and_eq_true, beq_iff_eq, decide_eq_true_eq] at hc
  exact ⟨s, hs, u, hu, hc.1.1.2, hc.1.2, hc.1.1.1, hc.2, rfl⟩

theorem isMember_iff {d : Db} {c u : Uuid} : d.isMember c u = true ↔ d.IsMember c u := by
  simp [Db.isMember, Db.IsMember, and_assoc]

end Server

end Chhaya
