import Chhaya.Client.Messaging
import Chhaya.Codec.Records

/-!
# Syncing

`sync` of `lib/services/messaging/messaging_service.dart`: the conversations the server names, the contact rows that are kept
or taken for their participants, the pages of messages fetched backwards, and what is decrypted and stored of them.
-/

namespace Chhaya

open SessionState (asInt)

variable {β : Type}

namespace MessagingService

/-- `old ?? peer`. -/
def kept (contacts : List Contact) (peer : Contact) : Contact :=
  (contacts.find? fun c => c.id == peer.id && c.chhayaId.equals peer.chhayaId).getD peer

/-- The loop over the participants of a conversation. -/
def mergePeers (contacts : List Contact) : List Contact → ServiceProg β (List Contact)
  | [] => return []
  | peer :: participants => do
    ask (.addContact (kept contacts peer))
    let peers ← mergePeers contacts participants
    return kept contacts peer :: peers

/-- The loop over pages, of which `n` are left. A full page has a first message. -/
def fetchPages (conversationId : String) (known : List String) :
    Nat → Option String → List Message → ServiceProg β (List Message)
  | 0, _, batches => return batches
  | n + 1, beforeId, batches => do
    let batch ← ask (.fetchMessages conversationId 200 beforeId)
    if batch.length < 200 || batch.any (fun m => known.contains m.id) then return batch ++ batches
    else fetchPages conversationId known n (batch.head?.map Message.id) (batch ++ batches)

/-- The row of a message from what was decrypted of it. -/
def received (message : Message) (payload : JsonFields) : Except DartError Message := do
  let content ← asString (field payload "content")
  match ← unlessNull asInt (field payload "ttlMs") with
  | some ms => return { message with content, ttl := some (int64 (1000 * ms)) }
  | none => return { message with content }

/-- `codec.decrypt` with its commit. -/
def openAndStore (P : Primitives β) (codec : RatchetMessageCodec β) (peer : Contact) (conversationId : String)
    (message : Message) : ServiceProg β Unit := do
  let saved ← ask (.loadSession (sessionKey peer conversationId))
  let fresh ← ask .seed
  let opened ← Async.ofExcept (codec.decrypt P saved peer conversationId message.id message.senderId message.content fresh)
  let received ← Async.ofExcept (received message opened.payload)
  ask (.commitReceivedMessage opened.state received)

/-- What `sync` does with one message that it fetched: `stored` is what was there before. -/
def apply (P : Primitives β) (codec : RatchetMessageCodec β) (stored : List Message) (peer : Contact)
    (conversationId : String) (message : Message) : ServiceProg β Unit := do
  let userId ← ask .userId
  if some message.senderId = userId then
    match stored.find? fun m => m.id == message.id with
    | some saved => ask (.addMessage { saved with isRead := message.isRead, isDelivered := message.isDelivered })
    | none => return
  else if (stored.map Message.id).contains message.id then return
  else openAndStore P codec peer conversationId message

def applyEach (P : Primitives β) (codec : RatchetMessageCodec β) (stored : List Message) (peer : Contact)
    (conversationId : String) : List Message → ServiceProg β Unit
  | [] => return
  | message :: batches => do
    apply P codec stored peer conversationId message
    applyEach P codec stored peer conversationId batches

/-- The messages of a conversation are fetched where its only peer is verified. -/
def receive (P : Primitives β) (stored : List Message) (conversation : Conversation) : List Contact → ServiceProg β Unit
  | [peer] =>
    if !conversation.isGroup && peer.isVerified then do
      let batches ← fetchPages conversation.id (stored.map Message.id) 50 none []
      let codec ← codec
      applyEach P codec stored peer conversation.id batches
    else return
  | _ => return

/-- `where((m) => !m.isExpired)`, which reads the clock for each message. -/
def unexpired : List Message → ServiceProg β (List Message)
  | [] => return []
  | m :: messages => do
    let now ← ask .now
    let rest ← unexpired messages
    return if m.isExpired now then rest else m :: rest

/-- The loop over the conversations of the server. -/
def syncEach (P : Primitives β) (contacts : List Contact) (existing : List Conversation) :
    List Conversation → ServiceProg β (List Conversation)
  | [] => return []
  | conversation :: remote => do
    let peers ← mergePeers contacts conversation.participants
    let previous := existing.find? fun c => c.id == conversation.id
    let updated := { conversation with
      participants := peers
      isMuted := (previous.map Conversation.isMuted).getD conversation.isMuted
      isPinned := (previous.map Conversation.isPinned).getD conversation.isPinned }
    ask (.addConversation updated)
    let stored ← ask (.getMessages conversation.id)
    receive P stored conversation peers
    let messages ← ask (.getMessages conversation.id)
    let messages ← unexpired messages
    let updated := { updated with lastMessage := messages.getLast?.or updated.lastMessage }
    ask (.addConversation updated)
    let result ← syncEach P contacts existing remote
    return updated :: result

/-- `sync`. -/
def sync (P : Primitives β) : ServiceProg β (List Conversation) := do
  if ← ask .isAuthenticated then do
    let contacts ← ask .getAllContacts
    let remote ← ask .getConversations
    let existing ← ask .getAllConversations
    syncEach P contacts existing remote
  else ask .getAllConversations

end MessagingService

end Chhaya
