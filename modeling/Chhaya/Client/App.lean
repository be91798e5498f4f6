import Chhaya.Client.Retry
import Chhaya.Client.Sync
import Chhaya.Codec.Release
import Chhaya.Lib.Serial

/-!
# The app while it runs

One install with its messaging service, its screens and a server. The service runs `send`, `retryPending` and `sync` one
after the other (`_serial`); between any two of their calls the user acts on the screens, which read and write the same
database. The server answers anything of the right type; what is fetched satisfies a predicate. A crash drops what runs.

- `AppEffect`: what a call of the service returns and does.
- `UserStep`: the steps of the screens.
- `App.Run`: the runs.
-/

namespace Chhaya

open MessagingService

variable {β : Type}

/-- The install, what the screens hold and what the server holds. `confirmed` are the identities that the user compared,
`publics` the public keys had or seen, `sealed` what was committed to be sent, and `requested` what the server was asked to
take. -/
structure App (β : Type) where
  db : LocalDatabase β := {}
  shown : List Contact := []
  listed : List Conversation := []
  confirmed : List String := []
  publics : List Bytes
  sealed : List MessagingService.Posted := []
  requested : List MessagingService.Posted := []
  held : List MessagingService.Posted := []

namespace App

/-- A call that returns a value with `φ` or throws, and changes nothing. -/
def Reads {α : Type} (s : App β) (a : Except DartError α) (s' : App β) (φ : α → Prop) : Prop :=
  s' = s ∧ ∀ v, a = .ok v → φ v

/-- A call that returns and leaves `t`, or throws and changes nothing. -/
def Writes {α : Type} (s : App β) (a : Except DartError α) (s' t : App β) : Prop :=
  match a with
  | .ok _ => s' = t
  | .error _ => s' = s

/-- `POST /messages`: a new id is taken, the same request again is answered as before, another one under a taken id is
refused; the answer may be lost. -/
inductive Takes (held : List MessagingService.Posted) (p : MessagingService.Posted) :
    Except DartError Unit → List MessagingService.Posted → Prop
  | taken (a : Except DartError Unit) (new : p.messageId ∉ held.map MessagingService.Posted.messageId) :
    Takes held p a (p :: held)
  | again (a : Except DartError Unit) (old : p ∈ held) : Takes held p a held
  | refused (e : DartError) : Takes held p (.error e) held

/-- The keys of a session that is committed have been had or seen from then on. -/
def seen (s : App β) (state : SessionState β) : List Bytes := state.ourPublicKey :: state.remotePublicKey :: s.publics

end App

open App in
/-- What a call returns and does. A generated id is none that was sealed before, and a generated key pair is new. -/
def AppEffect (P : Primitives β) (codec : RatchetMessageCodec β) (fetched : Message → Prop) (s : App β) :
    (op : ServiceOp β) → Except DartError (ServiceAns β op) → App β → Prop
  | .getContact id, a, s' => Reads s a s' (· = s.db.getContact id)
  | .getAllContacts, a, s' => Reads s a s' (·.Perm s.db.contacts)
  | .addContact contact, a, s' => Writes s a s' { s with db := s.db.addContact contact }
  | .getAllConversations, a, s' => Reads s a s' (·.Perm s.db.conversations)
  | .addConversation conversation, a, s' =>
    Writes s a s' { s with db := s.db.addConversation conversation, listed := conversation :: s.listed }
  | .getMessages conversationId, a, s' => Reads s a s' (· = s.db.getMessages conversationId)
  | .addMessage message, a, s' => Writes s a s' { s with db := s.db.addMessage message }
  | .loadSession key, a, s' => Reads s a s' (· = s.db.sessions key)
  | .loadOutbox messageId, a, s' => Reads s a s' (· = s.db.outbox messageId)
  | .commitReceivedMessage state message, a, s' =>
    Writes s a s' { s with db := s.db.commitReceivedMessage state message, publics := s.seen state }
  | .commitOutgoingMessage state message envelope, a, s' =>
    Writes s a s' { s with
      db := s.db.commitOutgoingMessage state message envelope
      publics := s.seen state
      sealed := ⟨message.conversationId, envelope, message.id⟩ :: s.sealed }
  | .commitMessageSent message, a, s' => Writes s a s' { s with db := s.db.commitMessageSent message }
  | .getUserProfile, a, s' => Reads s a s' fun r => ∀ profile ∈ r, profile.chhayaId.publicKey = codec.ownId
  | .getKeyPair, a, s' => Reads s a s' fun r => ∀ identity ∈ r, identity = codec.identity
  | .sendMessage conversationId content messageId, a, s' =>
    (s' = s ∧ ∃ e, a = .error e) ∨ ∃ held, Takes s.held ⟨conversationId, content, messageId⟩ a held ∧
      s' = { s with requested := ⟨conversationId, content, messageId⟩ :: s.requested, held }
  | .getConversations, a, s' => Reads s a s' fun remote => ∀ k ∈ remote, ∀ c ∈ k.participants, c.isVerified = false
  | .fetchMessages _ _ _, a, s' => Reads s a s' fun batch => ∀ m ∈ batch, fetched m
  | .uuid, a, s' => Reads s a s' (· ∉ s.sealed.map MessagingService.Posted.messageId)
  | .seed, a, s' => Reads s a s' fun fresh => P.x25519Public fresh.1 ∉ s.publics
  | _, a, s' => Reads s a s' fun _ => True

/-- The steps of the screens: what they have read they hold, and write back with a field changed. The three deletes that
the database awaits for a conversation are a step each. -/
inductive UserStep : App β → App β → Prop
  | contacts (s : App β) : UserStep s { s with shown := s.db.contacts ++ s.shown }
  | conversations (s : App β) : UserStep s { s with listed := s.db.conversations ++ s.listed }
  | verify {s : App β} {contact : Contact} (h : contact ∈ s.shown) : UserStep s { s with
    db := s.db.addContact { contact with isVerified := true, verificationLevel := 3 }
    shown := { contact with isVerified := true, verificationLevel := 3 } :: s.shown
    confirmed := contact.chhayaId.publicKey :: s.confirmed }
  | toggleBlock {s : App β} {contact : Contact} (h : contact ∈ s.shown) (blocked : Bool) : UserStep s { s with
    db := s.db.addContact { contact with isBlocked := blocked }
    shown := { contact with isBlocked := blocked } :: s.shown }
  | addContact {s : App β} {contact : Contact} (h : contact.isVerified = false) : UserStep s { s with
    db := s.db.addContact contact }
  | startChat {s : App β} {contact : Contact} (h : contact ∈ s.shown) {conversation : Conversation}
    (hc : conversation.participants = [contact]) : UserStep s { s with
    db := s.db.addConversation conversation
    listed := conversation :: s.listed }
  | pin {s : App β} {conversation : Conversation} (h : conversation ∈ s.listed) (pinned : Bool) : UserStep s { s with
    db := s.db.addConversation { conversation with isPinned := pinned }
    listed := { conversation with isPinned := pinned } :: s.listed }
  | deleteConversation (s : App β) (id : String) : UserStep s { s with
    db := { s.db with conversations := s.db.conversations.filter fun k => k.id != id } }
  | deleteMessages (s : App β) (conversationId : String) : UserStep s { s with
    db := { s.db with messages := s.db.messages.filter fun m => m.conversationId != conversationId } }
  | deleteParticipants (s : App β) (conversationId : String) : UserStep s { s with
    db := { s.db with
      conversations := s.db.conversations.map fun k => if k.id = conversationId then { k with participants := [] } else k } }
  | deleteMessage (s : App β) (id : String) : UserStep s { s with
    db := { s.db with messages := s.db.messages.filter fun m => m.id != id } }
  | markRead (s : App β) {message : Message} (h : message.senderId ≠ "me") : UserStep s { s with
    db := s.db.addMessage { message with isRead := true } }

/-- The calls of the service. -/
inductive ServiceCall
  | send (conversation : Conversation) (text : String) (ttl : Option Int)
  | retryPending (conversationId : String)
  | sync

/-- What a call runs. -/
def ServiceCall.body (P : Primitives β) : ServiceCall → ServiceProg β Unit
  | send conversation text ttl => do
    let _ ← MessagingService.send P conversation text ttl
  | retryPending conversationId => MessagingService.retryPending conversationId
  | sync => do
    let _ ← MessagingService.sync P

/-- Messages are sent in conversations that a screen lists. -/
def ServiceCall.Allowed (s : App β) : ServiceCall → Prop
  | send conversation _ _ => conversation ∈ s.listed
  | _ => True

/-- The service, and the state it runs on. -/
abbrev App.Service (β : Type) := Async.Pool ServiceCall (ServiceOp β) (ServiceAns β) DartError Unit (App β)

/-- The runs of the app from the state `s`. -/
def App.Run (P : Primitives β) (codec : RatchetMessageCodec β) (fetched : Message → Prop) (s : App β) :
    App.Service β → Prop :=
  Async.Pool.Reachable (AppEffect P codec fetched) (ServiceCall.body P) UserStep (Async.Serial ServiceCall.Allowed) s

end Chhaya
