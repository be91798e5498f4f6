import Chhaya.Server.Auth

/-!
# The routes of conversations and devices

`backend/server/src/routes.ts`: the handlers that read or write conversations, participants and messages, and the one that
links a device.
-/

namespace Chhaya

namespace Server

open Zod

/-! ## Schemas -/

section Schemas

variable (platform : Platform)

structure AddContact where
  chhayaId : String
  displayName : String

def addContactSchema : Schema AddContact := object fun o =>
  AddContact.mk <$> property o "chhayaId" (string [regex isChhayaId])
    <*> property o "displayName" (string [minLength 1, maxLength 100])

structure CreateConversation where
  type : String
  participantIds : List String
  name : Option String
  avatarUrl : Option String

def createConversationSchema : Schema CreateConversation := object fun o =>
  CreateConversation.mk <$> property o "type" (enum ["direct", "group"])
    <*> property o "participantIds" (array (string [uuid]) 1 32)
    <*> property o "name" (optional (string []))
    <*> property o "avatarUrl" (optional (string [(platform.isUrl, "invalid_string")]))

structure SendMessage where
  messageId : Option String
  conversationId : String
  content : String
  messageType : String
  mediaUrl : Option String
  mediaMeta : Option (List (List Char × Json))
  replyToId : Option String

def sendMessageSchema : Schema SendMessage := object fun o =>
  SendMessage.mk <$> property o "messageId" (optional (string [uuid]))
    <*> property o "conversationId" (string [uuid])
    <*> property o "content" (string [minLength 1, maxLength 10000])
    <*> property o "messageType" (withDefault "text" (enum ["text", "image", "file", "voice", "location"]))
    <*> property o "mediaUrl" (optional (string [(platform.isUrl, "invalid_string")]))
    <*> property o "mediaMeta" (optional record)
    <*> property o "replyToId" (optional (string [uuid]))

structure LinkDevice where
  deviceId : String
  deviceName : Option String
  platform : Option String
  publicKey : String

def linkDeviceSchema : Schema LinkDevice := object fun o =>
  LinkDevice.mk <$> property o "deviceId" (string [uuid])
    <*> property o "deviceName" (optional (string [maxLength 100]))
    <*> property o "platform" (optional (string [maxLength 30]))
    <*> property o "publicKey" (string [regex isHex64])

/-- The values that a message is inserted with. -/
def SendMessage.row (data : SendMessage) (messageId : String) (userId : Uuid) : NewMessage :=
  ⟨messageId, data.conversationId, userId, data.content, data.messageType, orNull data.mediaUrl,
    data.mediaMeta.map fun fields => (Json.obj fields).encode, orNull data.replyToId⟩

end Schemas

/-! ## Membership -/

/-- `participantCheck`, and the answer where it finds nothing. -/
def asParticipant (conversationId : String) (userId : Uuid) (next : Prog Response) : Prog Response := do
  if ← sql (.participantCheck conversationId userId) then next else failure 403 "Not a participant"

/-! ## Handlers -/

section Handlers

variable (platform : Platform) (userId : Uuid)

/-- The rest of `POST /contacts` once the target is known. -/
def addContact (data : AddContact) (target : Uuid × String) : Prog Response := do
  if target.1 = userId then failure 400 "Cannot add yourself"
  else if ← sql (.contactExists userId target.1) then failure 409 "Already contacts"
  else do
    let convoId ← randomUUID
    sql (.insertContact userId target.1 data.displayName convoId)
    return ⟨201, .contact target.1 convoId target.2⟩

/-- `POST /contacts`. -/
def postContacts (body : Option Json) : Prog Response := do
  let data ← parse addContactSchema body
  match ← sql (.userByChhayaId data.chhayaId) with
  | none => failure 404 "User not found"
  | some target => addContact userId data target

/-- `POST /conversations`. -/
def postConversations (body : Option Json) : Prog Response := do
  let data ← parse (createConversationSchema platform) body
  if data.type = "direct" ∧ data.participantIds.length ≠ 1 then
    failure 400 "Direct conversation requires exactly 1 participant"
  else do
    let convoId ← randomUUID
    let allParticipants := (userId.text :: data.participantIds).eraseDups
    if allParticipants.length ≠ data.participantIds.length + 1 then failure 400 "Duplicate or self participant"
    else do
      sql (.insertConversation ⟨convoId, data.type, orNull data.name, orNull data.avatarUrl, userId⟩
        allParticipants)
      return ⟨201, .conversation convoId⟩

/-- `GET /conversations`. -/
def getConversations : Prog Response := do
  let rows ← sql (.conversationsOf userId)
  return ⟨200, .conversations rows⟩

/-- The answer to a message that was stored before. -/
def answerRetry (data : SendMessage) (messageId : String) : Prog Response := do
  match ← sql (.messageById messageId) with
  | some message =>
    if message.senderId ≠ userId ∨ message.conversationId.text ≠ data.conversationId ∨ message.content ≠ data.content then
      failure 409 "Message identifier conflict"
    else return ⟨200, .message message⟩
  | none => failure 409 "Message identifier conflict"

/-- What follows on an insert: the timestamp of the conversation, the notifications, and the row. -/
def announce (data : SendMessage) (messageId : String) : Prog Response := do
  sql (.touchConversation data.conversationId)
  let otherParticipants ← sql (.otherParticipants data.conversationId userId)
  notify ⟨otherParticipants, data.conversationId, messageId⟩
  match ← sql (.messageById messageId) with
  | some saved =>
    if saved.senderId ≠ userId ∨ saved.conversationId.text ≠ data.conversationId then
      failure 409 "Message identifier conflict"
    else return ⟨201, .message saved⟩
  | none => failure 409 "Message identifier conflict"

/-- The insert of `POST /messages` and what follows on it. -/
def storeMessage (data : SendMessage) (messageId : String) : Prog Response := do
  if ← sql (.insertMessage (data.row messageId userId)) then announce userId data messageId
  else answerRetry userId data messageId

/-- `POST /messages`. -/
def postMessages (body : Option Json) : Prog Response := do
  let data ← parse (sendMessageSchema platform) body
  asParticipant data.conversationId userId do
    match data.messageId with
    | some messageId => storeMessage userId data messageId
    | none => do
      let messageId ← randomUUID
      storeMessage userId data messageId.text

/-- White space of `parseInt`. -/
def isJsSpace (c : Char) : Bool :=
  c.toNat ∈ [9, 10, 11, 12, 13, 32, 0xA0, 0x1680, 0x2028, 0x2029, 0x202F, 0x205F, 0x3000, 0xFEFF] ||
    (0x2000 ≤ c.toNat && c.toNat ≤ 0x200A)

/-- `parseInt`; `none` is `NaN`. -/
def parseInt (text : List Char) : Option Int :=
  let signed := text.dropWhile isJsSpace
  let (neg, unsigned) := match signed with
    | '-' :: r => (true, r)
    | '+' :: r => (false, r)
    | r => (false, r)
  let digits := match unsigned with
    | '0' :: 'x' :: r | '0' :: 'X' :: r => (r.takeWhile isHexDigit).map fun c => (Json.hexValue c).getD 0
    | r => (r.takeWhile Char.isDigit).map fun c => c.toNat - 48
  let base := match unsigned with
    | '0' :: 'x' :: _ | '0' :: 'X' :: _ => 16
    | _ => 10
  if digits = [] then none
  else
    let n : Int := digits.foldl (fun n d => n * base + d) 0
    some (if neg then -n else n)

/-- `Math.max(1, Math.min(200, parseInt(limit) || 50))`. -/
def pageLimit (limit : Option String) : Nat :=
  let n := match parseInt (limit.getD "undefined").toList with
    | none | some 0 => 50
    | some n => n
  (max 1 (min 200 n)).toNat

/-- `GET /messages/:conversationId`. -/
def getMessages (conversationId : String) (limit : Option String) (before beforeId : Option Json) : Prog Response := do
  let before ← parse (optional (string [(platform.isDatetime, "invalid_string")])) before
  let beforeId ← parse (optional (string [uuid])) beforeId
  asParticipant conversationId userId do
    let cursor := match beforeId, before with
      | some id, _ => Cursor.beforeId id
      | none, some time => Cursor.before time
      | none, none => Cursor.newest
    let rows ← sql (.messagesOf conversationId cursor (pageLimit limit))
    return ⟨200, .messages rows.reverse⟩

/-- `POST /messages/:messageId/read`. -/
def postRead (messageId : String) : Prog Response := do
  let allowed ← sql (.messageParticipant messageId userId)
  if allowed ≠ 1 then failure 403 "Not a participant"
  else do
    sql (.markLastRead messageId userId)
    sql (.markRead messageId userId)
    return ⟨200, .success⟩

/-- `POST /devices/link`. -/
def postLink (body : Option Json) : Prog Response := do
  let data ← parse linkDeviceSchema body
  let linked ← sql (.linkDevice ⟨userId, data.deviceId, orElse data.deviceName "Linked Device",
    orElse data.platform "unknown", none, data.publicKey⟩)
  if linked ≠ 1 then failure 409 "Device belongs to another account" else return ⟨200, .success⟩

end Handlers

end Server

end Chhaya
