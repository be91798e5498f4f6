import Chhaya.Codec.MessageCodec
import Chhaya.Lib.Async

/-!
# The messaging service

`lib/services/messaging/messaging_service.dart` over `lib/core/database/local_database.dart`: what an install stores of
contacts, conversations, messages, sessions and the outbox, and the programs `send` and `retryPending`, which await
the database, the server, the key store and the generator. Rows are what is read back of them, in the order in which they
were written; the programs of one service run one after the other.

- `LocalDatabase.mem_upsert`, `LocalDatabase.upsert_nodup`: a message replaces the one with its id.
- `LocalDatabase.mem_getMessages`: the messages of a conversation.
- `LocalDatabase.pair_getMessages`: the order in which they are read.
-/

namespace Chhaya

variable {β : Type}

/-! ## The local database -/

/-- The tables. Sessions and envelopes of the outbox are rows of one table under keys that differ. -/
structure LocalDatabase (β : Type) where
  contacts : List Contact := []
  conversations : List Conversation := []
  messages : List Message := []
  sessions : String → Option (SessionState β) := fun _ => none
  outbox : String → Option String := fun _ => none

namespace LocalDatabase

variable (d : LocalDatabase β)

/-- `DbQueries.upsert` on the messages: the row with the id is replaced. -/
def upsert (messages : List Message) (m : Message) : List Message := messages.filter (fun r => r.id != m.id) ++ [m]

def addMessage (m : Message) : LocalDatabase β := { d with messages := upsert d.messages m }

def addContact (c : Contact) : LocalDatabase β :=
  { d with contacts := d.contacts.filter (fun r => r.id != c.id) ++ [c] }

def addConversation (c : Conversation) : LocalDatabase β :=
  { d with conversations := d.conversations.filter (fun r => r.id != c.id) ++ [c] }

def getContact (id : String) : Option Contact := d.contacts.find? fun c => c.id == id

/-- Whether `m` comes before `m'` in `ORDER BY sent_at`. -/
def older (m m' : Message) : Bool :=
  decide (m.timestamp.millisecondsSinceEpoch ≤ m'.timestamp.millisecondsSinceEpoch)

def getMessages (conversationId : String) : List Message :=
  (d.messages.filter fun m => m.conversationId == conversationId).mergeSort older

def commitReceivedMessage (state : SessionState β) (m : Message) : LocalDatabase β :=
  { d with
    messages := upsert d.messages m
    sessions := Function.update d.sessions state.peerId (some state) }

def commitOutgoingMessage (state : SessionState β) (m : Message) (envelope : String) : LocalDatabase β :=
  { d with
    messages := upsert d.messages m
    sessions := Function.update d.sessions state.peerId (some state)
    outbox := Function.update d.outbox m.id (some envelope) }

def commitMessageSent (m : Message) : LocalDatabase β :=
  { d with
    messages := upsert d.messages m
    outbox := Function.update d.outbox m.id none }

/-- The primary key of messages. -/
def Keyed : Prop := (d.messages.map Message.id).Nodup

variable {d} {l : List Message} {m r : Message}

/-- A message replaces the one with its id. -/
theorem mem_upsert : r ∈ upsert l m ↔ r = m ∨ r ∈ l ∧ r.id ≠ m.id := by
  rw [upsert, List.mem_append, List.mem_filter, List.mem_singleton, bne_iff_ne, or_comm]

theorem upsert_nodup (h : (l.map Message.id).Nodup) : ((upsert l m).map Message.id).Nodup := by
  rw [upsert, List.map_append, List.nodup_append]
  refine ⟨h.sublist (List.filter_sublist.map _), List.nodup_singleton _, fun id hid id' hid' he => ?_⟩
  obtain ⟨x, hx, rfl⟩ := List.mem_map.mp hid
  obtain rfl := List.mem_singleton.mp hid'
  simpa [he] using (List.mem_filter.mp hx).2

/-- The messages of a conversation. -/
theorem mem_getMessages {conversationId : String} :
    m ∈ d.getMessages conversationId ↔ m ∈ d.messages ∧ m.conversationId = conversationId := by
  rw [getMessages, (List.mergeSort_perm _ _).mem_iff, List.mem_filter, beq_iff_eq]

theorem getMessages_nodup (h : d.Keyed) (conversationId : String) :
    ((d.getMessages conversationId).map Message.id).Nodup := by
  refine ((List.mergeSort_perm _ _).map _).nodup_iff.mpr ?_
  exact List.Nodup.sublist (List.filter_sublist.map _) h

/-- The order of two messages: by their times, and by their rows where these are the same. -/
def Before (d : LocalDatabase β) (m r : Message) : Prop :=
  m.timestamp.millisecondsSinceEpoch < r.timestamp.millisecondsSinceEpoch ∨
    m.timestamp.millisecondsSinceEpoch = r.timestamp.millisecondsSinceEpoch ∧ [m, r].Sublist d.messages

/-- One of two elements comes first. -/
theorem pair_sublist {α : Type} {a b : α} (hne : a ≠ b) : ∀ {l : List α}, a ∈ l → b ∈ l →
    [a, b].Sublist l ∨ [b, a].Sublist l
  | x :: l, ha, hb => by
    rcases List.mem_cons.mp ha with rfl | hal
    · have hbl := (List.mem_cons.mp hb).resolve_left hne.symm
      exact Or.inl ((List.singleton_sublist.mpr hbl).cons_cons a)
    · rcases List.mem_cons.mp hb with rfl | hbl
      · exact Or.inr ((List.singleton_sublist.mpr hal).cons_cons b)
      · exact (pair_sublist hne hal hbl).imp (fun h => h.cons x) fun h => h.cons x

/-- Not both come first. -/
theorem not_pair_sublist {α : Type} {a b : α} {l : List α} (hl : l.Nodup) (h : [a, b].Sublist l) (h' : [b, a].Sublist l) :
    False := by
  induction l with
  | nil => cases h
  | cons x l ih =>
    obtain ⟨hx, hl⟩ := List.nodup_cons.mp hl
    cases h with
    | cons _ h =>
      cases h' with
      | cons _ h' => exact ih hl h h'
      | cons_cons _ h' => exact hx (h.subset (by simp))
    | cons_cons _ h =>
      cases h' with
      | cons _ h' => exact hx (h'.subset (by simp))
      | cons_cons _ h' => exact hx (List.singleton_sublist.mp h')

/-- Messages are read in their order. -/
theorem pair_getMessages (h : d.Keyed) {conversationId : String} (hm : m ∈ d.getMessages conversationId)
    (hr : r ∈ d.getMessages conversationId) (hne : m ≠ r) :
    [m, r].Sublist (d.getMessages conversationId) ↔ d.Before m r := by
  have htrans : ∀ a b c : Message, older a b = true → older b c = true → older a c = true := by
    simp only [older, decide_eq_true_eq]
    exact fun a b c => le_trans
  have htotal : ∀ a b : Message, (older a b || older b a) = true := by
    simp only [older, Bool.or_eq_true, decide_eq_true_eq]
    exact fun a b => le_total _ _
  have hsorted : (d.getMessages conversationId).Pairwise fun a b => older a b = true :=
    List.pairwise_mergeSort htrans htotal _
  have hnodup : (d.getMessages conversationId).Nodup := (getMessages_nodup h conversationId).of_map
  have hin := fun {m} (hm : m ∈ d.getMessages conversationId) => (List.mergeSort_perm _ _).mem_iff.mp hm
  have hsub : (d.messages.filter fun m => m.conversationId == conversationId).Sublist d.messages := List.filter_sublist
  -- rows with the same time stay in their order
  have hstable : ∀ {m r}, [m, r].Sublist (d.messages.filter fun m => m.conversationId == conversationId) →
      m.timestamp.millisecondsSinceEpoch = r.timestamp.millisecondsSinceEpoch →
      [m, r].Sublist (d.getMessages conversationId) := fun {m r} hs ht =>
    List.pair_sublist_mergeSort htrans htotal (decide_eq_true ht.le) hs
  constructor
  · intro hs
    have hle := of_decide_eq_true (List.pairwise_iff_forall_sublist.mp hsorted hs)
    rcases hle.lt_or_eq with hlt | heq
    · exact Or.inl hlt
    · refine Or.inr ⟨heq, ?_⟩
      rcases pair_sublist hne (hin hm) (hin hr) with hp | hp
      · exact hp.trans hsub
      · exact (not_pair_sublist hnodup hs (hstable hp heq.symm)).elim
  · rintro (hlt | ⟨heq, hs⟩)
    · refine (pair_sublist hne hm hr).resolve_right fun hp => ?_
      have := of_decide_eq_true (List.pairwise_iff_forall_sublist.mp hsorted hp)
      omega
    · have hf := hs.filter fun m => m.conversationId == conversationId
      have hboth : [m, r].filter (fun m => m.conversationId == conversationId) = [m, r] := by
        rw [List.filter_eq_self]
        intro a ha
        simp only [List.mem_cons, List.not_mem_nil, or_false] at ha
        rcases ha with rfl | rfl
        · exact beq_iff_eq.mpr (mem_getMessages.mp hm).2
        · exact beq_iff_eq.mpr (mem_getMessages.mp hr).2
      rw [hboth] at hf
      exact hstable hf heq

end LocalDatabase

/-! ## Programs -/

/-- What the service awaits. The first group is `database`, the second `api`, the third `keys` and the rest. -/
inductive ServiceOp (β : Type)
  | getContact (id : String)
  | getAllContacts
  | addContact (contact : Contact)
  | getAllConversations
  | addConversation (conversation : Conversation)
  | getMessages (conversationId : String)
  | addMessage (message : Message)
  | loadSession (key : String)
  | loadOutbox (messageId : String)
  | commitReceivedMessage (state : SessionState β) (message : Message)
  | commitOutgoingMessage (state : SessionState β) (message : Message) (envelope : String)
  | commitMessageSent (message : Message)
  | getUserProfile
  | getBlockedContacts
  | getGlobalDisappearingDuration
  | isAuthenticated
  | userId
  | sendMessage (conversationId content messageId : String)
  | getConversations
  | fetchMessages (conversationId : String) (limit : Nat) (beforeId : Option String)
  | getKeyPair
  | uuid
  | now
  | seed

@[reducible] def ServiceAns (β : Type) : ServiceOp β → Type
  | .getContact _ => Option Contact
  | .getAllContacts => List Contact
  | .getAllConversations => List Conversation
  | .getMessages _ => List Message
  | .loadSession _ => Option (SessionState β)
  | .loadOutbox _ => Option String
  | .getUserProfile => Option UserProfile
  | .getBlockedContacts => List String
  | .getGlobalDisappearingDuration => Int
  | .isAuthenticated => Bool
  | .userId => Option String
  | .getConversations => List Conversation
  | .fetchMessages _ _ _ => List Message
  | .getKeyPair => Option (ChhayaKeyPair β)
  | .uuid => String
  | .now => DateTime
  | .seed => X25519Seed β
  | _ => Unit

abbrev ServiceProg (β α : Type) := Async (ServiceOp β) (ServiceAns β) DartError α

namespace MessagingService

/-- One call. -/
def ask (op : ServiceOp β) : ServiceProg β (ServiceAns β op) := Async.await op

def raise {α : Type} (e : DartError) : ServiceProg β α := .throw e

/-- `_codec`. -/
def codec : ServiceProg β (RatchetMessageCodec β) := do
  let identity ← ask .getKeyPair
  let profile ← ask .getUserProfile
  match identity, profile with
  | some identity, some profile => return ⟨identity, profile.chhayaId.publicKey⟩
  | _, _ => raise (.state "Account is locked")

/-! ## Sending -/

/-- `_deliver`. -/
def deliver (message : Message) (envelope : String) : ServiceProg β Message := do
  ask (.sendMessage message.conversationId envelope message.id)
  let sent := { message with isSent := true }
  ask (.commitMessageSent sent)
  return sent

/-- The loop of `retryPending`. -/
def retryEach : List Message → ServiceProg β Unit
  | [] => return
  | message :: messages =>
    if message.senderId ≠ "me" ∨ message.isSent then retryEach messages
    else do
      match ← ask (.loadOutbox message.id) with
      | some envelope => do
        let _ ← deliver message envelope
        retryEach messages
      | none => retryEach messages

/-- `retryPending`. -/
def retryPending (conversationId : String) : ServiceProg β Unit := do
  let messages ← ask (.getMessages conversationId)
  retryEach messages

/-- `effectiveTtl?.inMilliseconds`. -/
def ttlMs : Option Int → Json
  | some ttl => .int (int64 (ttl.tdiv 1000))
  | none => .null

/-- The payload of a message. -/
def payload (content : String) (ttl : Option Int) : JsonMap where
  fields := [("content".toList, .str content.toList), ("ttlMs".toList, ttlMs ttl)]
  wf := by
    have hkeys : ["content".toList, "ttlMs".toList].Nodup := by decide
    refine ⟨hkeys, trivial, ?_, trivial⟩
    cases ttl with
    | none => exact trivial
    | some ttl => exact decide_eq_true ⟨le_int64 _, int64_lt _⟩

/-- `send` once the peer is known. -/
def sealAndDeliver (P : Primitives β) (conversation : Conversation) (peer : Contact) (text : String) (ttl : Option Int) :
    ServiceProg β Message := do
  let globalTtl ← ask .getGlobalDisappearingDuration
  let effectiveTtl := match ttl with
    | some ttl => some ttl
    | none => if 0 < globalTtl then some (int64 (globalTtl * 1000000)) else none
  let message : Message :=
    { id := ← ask .uuid, conversationId := conversation.id, senderId := "me", content := text, timestamp := ← ask .now,
      isSent := false, ttl := effectiveTtl }
  let codec ← codec
  match ← ask .userId with
  | none => raise (.type "Null check operator used on a null value")
  | some userId => do
    let saved ← ask (.loadSession (sessionKey peer conversation.id))
    let result ← Async.ofExcept (codec.encrypt P saved peer conversation.id message.id userId
      (payload text effectiveTtl) (← ask .seed))
    ask (.commitOutgoingMessage result.state message result.envelope)
    deliver message result.envelope

/-- `send`. -/
def send (P : Primitives β) (conversation : Conversation) (text : String) (ttl : Option Int) : ServiceProg β Message := do
  if ← ask .isAuthenticated then
    match conversation.isGroup, conversation.participants with
    | false, [participant] => do
      let peer := (← ask (.getContact participant.id)).getD participant
      let blocked ← ask .getBlockedContacts
      if peer.isBlocked || blocked.contains peer.id then raise (.state "Unblock this contact before sending messages")
      else sealAndDeliver P conversation peer text ttl
    | _, _ => raise (.state "Encrypted group messaging is not available yet")
  else raise (.state "Connect your server in Settings first")

end MessagingService

end Chhaya
