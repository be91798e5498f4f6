import Chhaya.Client.CallService
import Chhaya.Crypto.Ideal

/-!
# Signals of calls

What a `CallService` makes of the signals that a relay delivers, in every interleaving of its programs.

- `body_along`: what every program asks for, after what it asked before.
- `Service.keyed`: the signal key is that of the active call and its contact, where set-ups do not cross.
- `offer_rings`: every ring is due to a delivery of its own while no call was active.
- `offer_path`, `end_path`: what the handler makes of an offer and of the end of a call when it runs alone.
- `signals_authentic`: the signals that are acted on were sealed by the contact of the conversation.
- `forged_end`: two calls that are accepted at the same time.
-/

namespace Chhaya

namespace CallService

open Async (Along Grown Leads Path)

variable {β : Type}

/-! ## Programs -/

abbrev History (β : Type) := List (Async.Answered (Op β) Ans DartError)

/-- `_peer` read this contact. -/
def PeerRead (h : History β) (conversationId : String) (contact : Contact) : Prop :=
  ∃ conversations conversation participant saved, ⟨.getAllConversations, .ok conversations⟩ ∈ h ∧
    conversations.find? (fun c => c.id = conversationId) = some conversation ∧ conversation.isGroup = false ∧
    conversation.participants = [participant] ∧ ⟨.getContact participant.id, .ok saved⟩ ∈ h ∧
    contact = saved.getD participant ∧ contact.isVerified = true

/-- `_key` derived this key. -/
def KeyRead (P : Primitives β) (h : History β) (contact : Contact) (callId : String) (k : List β) : Prop :=
  ∃ pair shared, ⟨.getKeyPair, .ok (some pair)⟩ ∈ h ∧ isIdentity contact.chhayaId.publicKey = true ∧
    ⟨.deriveSharedSecret pair.privateKey (parseIdentity contact.chhayaId.publicKey), .ok shared⟩ ∈ h ∧
    Hkdf.deriveKey P shared 32 none (some (callInfo callId)) = .ok k

/-- The parts of a signal. -/
structure Parts (message : JsonFields) (type id sender conversation envelope : String) : Prop where
  type : asNullableString (field message "type") = .ok (some type)
  sender : asString (field message "from") = .ok sender
  payload : ∃ payload, mapFrom (field message "payload") = .ok payload ∧ asString (field payload "callId") = .ok id ∧
    asString (field payload "conversationId") = .ok conversation ∧ asString (field payload "envelope") = .ok envelope

/-- The signal was opened with the key that the service held. -/
def Opened (P : Primitives β) (a : Account β) (h : History β) (message : JsonFields) : Prop :=
  ∃ type id sender conversation envelope f k body, Parts message type id sender conversation envelope ∧
    ⟨.fields, .ok f⟩ ∈ h ∧ f.callId = some id ∧ f.peerId = some sender ∧ f.signalKey = some k ∧
    openSignal P a type id sender envelope k = .ok body

/-- The offer was opened with the key of its contact. -/
def Offered (P : Primitives β) (a : Account β) (h : History β) (x : IncomingCall) : Prop :=
  ∃ contact k body, PeerRead h x.conversationId contact ∧ contact.id = x.senderId ∧ KeyRead P h contact x.callId k ∧
    openSignal P a "offer" x.callId x.senderId x.envelope k = .ok body

/-- What is done on an answer, a candidate or the end of a call. -/
def Acts (i : Invocation) (op : Op β) : Prop :=
  ¬op.IsRead ∧ ∃ message type, i = .handle message ∧ asNullableString (field message "type") = .ok (some type) ∧
    type ∈ ["answer", "ice-candidate", "call-end"]

/-- What an invocation asks for, after what it asked before. -/
inductive Follows (P : Primitives β) (a : Account β) (i : Invocation) (h : History β) : Op β → Prop
  | other {op : Op β} (ho : op.Common a ∨ op.Acquires ∨ op.Releases) (hs : Acts i op → ∃ message, i = .handle message ∧
      Opened P a h message) : Follows P a i h op
  | announce {x : IncomingCall} {message : JsonFields} {f : Fields β} (hi : i = .handle message)
    (hm : Parts message "offer" x.callId x.senderId x.conversationId x.envelope) (hf : ⟨.fields, .ok f⟩ ∈ h)
    (hn : f.callId = none) (ho : ∀ y ∈ h, y.op.IsRead) (hp : Offered P a h x) : Follows P a i h (.announce x)
  | call {id conversation peerId : String} {contact : Contact} (hp : PeerRead h conversation contact)
    (hc : (∃ video, i = .call conversation video ∧ contact.id = peerId) ∨
      ∃ x, i = .accept x ∧ x.callId = id ∧ x.conversationId = conversation ∧ x.senderId = peerId)
    (ho : ∀ y ∈ h, ∀ id conversation peerId, y.op ≠ .write (.call id conversation peerId)) :
    Follows P a i h (.write (.call id conversation peerId))
  | signalKey {id conversation peerId : String} {contact : Contact} {k : List β} (hn : ∀ message, i ≠ .handle message)
    (hc : ⟨.write (.call id conversation peerId), .ok ()⟩ ∈ h) (hp : PeerRead h conversation contact)
    (hk : KeyRead P h contact id k) (hi : contact.id = peerId ∨ ∃ x, i = .accept x ∧ x.callId = id ∧
      x.conversationId = conversation ∧ x.senderId = peerId) : Follows P a i h (.write (.signalKey k))

section Along

variable {P : Primitives β} {a : Account β} {i : Invocation} {h h' : History β} {contact : Contact}
  {conversation callId : String} {k : List β}

theorem PeerRead.mono (hp : PeerRead h conversation contact) (hh : h ⊆ h') : PeerRead h' conversation contact := by
  obtain ⟨conversations, c, participant, saved, h1, h2, h3, h4, h5, h6⟩ := hp
  exact ⟨conversations, c, participant, saved, hh h1, h2, h3, h4, hh h5, h6⟩

theorem KeyRead.mono (hk : KeyRead P h contact callId k) (hh : h ⊆ h') : KeyRead P h' contact callId k := by
  obtain ⟨pair, shared, h1, h2, h3, h4⟩ := hk
  exact ⟨pair, shared, hh h1, h2, hh h3, h4⟩

theorem Op.IsRead.common {op : Op β} (ho : op.IsRead) : op.Common a := by
  cases op with
  | fields | getAllConversations | getContact | getKeyPair | deriveSharedSecret => exact ⟨id, id⟩
  | _ => exact ho.elim

/-- The database and the keys are read at any time. -/
theorem Follows.read {op : Op β} (ho : op.IsRead) : Follows P a i h op :=
  .other (Or.inl ho.common) fun hs => absurd ho hs.1

/-- Programs that are no handlers of signals. -/
theorem rest_along (hi : ∀ message, i ≠ .handle message) {p : Prog β Unit}
    (hp : p.Every fun op => op.Common a ∨ op.Acquires ∨ op.Releases) :
    p.Along (Follows P a i) (fun _ _ => True) h :=
  hp.along fun _ _ ho => .other ho fun ⟨_, message, _, hm, _⟩ => absurd hm (hi message)

/-- Nothing is returned where an error is thrown. -/
theorem of_error {γ : Type} {e : DartError} {φ : γ → Prop} (r : γ) (h : Except.error e = Except.ok r) : φ r := nomatch h

theorem peer_along (conversationId : String) : (peer conversationId : Prog β Contact).Along (Follows P a i)
    (fun r h' => Grown Op.IsRead h h' ∧ ∀ c, r = .ok c → PeerRead h' conversationId c) h := by
  have hg : ∀ {x y : Async.Answered (Op β) Ans DartError}, x.op.IsRead → y.op.IsRead →
      Grown Op.IsRead h (y :: x :: h) := fun hx hy => ((Grown.refl h).cons hx).cons hy
  refine .await_bind (.read trivial) (fun e => ⟨(Grown.refl h).cons trivial, of_error⟩) fun conversations => ?_
  split
  · exact ⟨(Grown.refl h).cons trivial, of_error⟩
  case h_2 c hc =>
    split
    case h_1 participant hgroup hparticipants =>
      refine .await_bind (.read trivial) (fun e => ⟨hg trivial trivial, of_error⟩) fun saved => ?_
      dsimp only
      split
      case isTrue hv =>
        refine ⟨hg trivial trivial, ?_⟩
        rintro _ ⟨⟩
        exact ⟨conversations, c, participant, saved, List.mem_cons_of_mem _ List.mem_cons_self, hc, hgroup, hparticipants,
          List.mem_cons_self, rfl, hv⟩
      case isFalse => exact ⟨hg trivial trivial, of_error⟩
    · exact ⟨(Grown.refl h).cons trivial, of_error⟩

theorem key_along (contact : Contact) (callId : String) : (key P contact callId).Along (Follows P a i)
    (fun r h' => Grown Op.IsRead h h' ∧ ∀ k, r = .ok k → KeyRead P h' contact callId k) h := by
  refine .await_bind (.read trivial) (fun e => ⟨(Grown.refl h).cons trivial, of_error⟩) fun pair => ?_
  cases pair with
  | none => exact ⟨(Grown.refl h).cons trivial, of_error⟩
  | some pair =>
    dsimp only
    split
    case isTrue hid =>
      refine .await_bind (.read trivial) (fun e => ⟨((Grown.refl h).cons trivial).cons trivial, of_error⟩) fun shared => ?_
      cases hd : Hkdf.deriveKey P shared 32 none (some (callInfo callId)) with
      | error e => exact ⟨((Grown.refl h).cons trivial).cons trivial, of_error⟩
      | ok k =>
        refine ⟨((Grown.refl h).cons trivial).cons trivial, ?_⟩
        rintro _ ⟨⟩
        exact ⟨pair, shared, List.mem_cons_of_mem _ List.mem_cons_self, hid, List.mem_cons_self, hd⟩
    case isFalse => exact ⟨(Grown.refl h).cons trivial, of_error⟩

/-- A set-up from where the call has its id. -/
theorem setUp_along {id peerId : String} (hi : ∀ message, i ≠ .handle message)
    (hc : ⟨.write (.call id conversation peerId), .ok ()⟩ ∈ h) (hp : PeerRead h conversation contact)
    (hx : contact.id = peerId ∨ ∃ x, i = .accept x ∧ x.callId = id ∧ x.conversationId = conversation ∧
      x.senderId = peerId)
    {rest : Prog β Unit} (hr : rest.Every fun op => op.Common a ∨ op.Acquires ∨ op.Releases) :
    ((key P contact id).bind fun k => (write (.signalKey k)).bind fun _ => rest).Along (Follows P a i)
      (fun _ _ => True) h := by
  refine .bind ((key_along contact id).mono fun r h' hk => ?_)
  obtain ⟨hg, hk⟩ := hk
  cases r with
  | error e => exact trivial
  | ok k =>
    exact .await_bind (.signalKey hi (hg.subset hc) (hp.mono hg.subset) (hk k rfl) hx) (fun _ => trivial)
      fun _ => rest_along hi hr

theorem read_notCall {op : Op β} (ho : op.IsRead) : ∀ id conversation peerId, op ≠ .write (.call id conversation peerId) := by
  rintro id conversation peerId rfl
  exact ho

/-- `call` after its key was stored. -/
theorem placed_every (video : Bool) : (do
    prepare video
    let pc ← nonNull (← fields).pc
    let offer ← Async.await (.createOffer pc : Op β)
    let pc ← nonNull (← fields).pc
    Async.await (.setLocalDescription pc offer : Op β)
    send a "offer" (offerBody offer video)
    write (.ringTimeout true) : Prog β Unit).Every fun op => op.Common a ∨ op.Acquires ∨ op.Releases := by
  have hc : ∀ {op : Op β}, op.Common a → op.Common a ∨ op.Acquires ∨ op.Releases := Or.inl
  refine .bind ((prepare_every video).mono fun _ ho => ho.imp_right Or.inl) fun _ => .bind (fields_every (hc common_fields))
    fun _ => .bind (nonNull_every _) fun _ => .bind (.await (hc ⟨id, id⟩)) fun offer => ?_
  refine .bind (fields_every (hc common_fields)) fun _ => .bind (nonNull_every _) fun _ => .bind (.await (hc ⟨id, id⟩))
    fun _ => .bind ((send_every _ _).mono fun _ => hc) fun _ => ?_
  exact write_every (hc ⟨id, id⟩)

/-- `accept` after its key was stored. -/
theorem pickedUp_every (x : IncomingCall) : (do
    let key ← nonNull (← fields).signalKey
    answer a (← Async.ofExcept (openSignal P a "offer" x.callId x.senderId x.envelope key)) : Prog β Unit).Every
      fun op => op.Common a ∨ op.Acquires ∨ op.Releases := by
  have hc : ∀ {op : Op β}, op.Common a → op.Common a ∨ op.Acquires ∨ op.Releases := Or.inl
  refine .bind (fields_every (hc common_fields)) fun _ => .bind (nonNull_every _) fun _ => .bind (ofExcept_every _)
    fun offer => .bind (write_every (hc ⟨id, id⟩)) fun _ => .bind (ofExcept_every _) fun _ => ?_
  refine .bind ((prepare_every _).mono fun _ ho => ho.imp_right Or.inl) fun _ => .bind (fields_every (hc common_fields))
    fun _ => .bind (nonNull_every _) fun _ => .bind (ofExcept_every _) fun _ => .bind (.await (hc ⟨id, id⟩)) fun _ => ?_
  refine .bind (write_every (hc ⟨id, id⟩)) fun _ => .bind (addCandidates_every.mono fun _ => hc) fun _ =>
    .bind (fields_every (hc common_fields)) fun _ => .bind (nonNull_every _) fun _ => .bind (.await (hc ⟨id, id⟩)) fun _ => ?_
  exact .bind (fields_every (hc common_fields)) fun _ => .bind (nonNull_every _) fun _ => .bind (.await (hc ⟨id, id⟩))
    fun _ => (send_every _ _).mono fun _ => hc

theorem reject_every (x : IncomingCall) :
    (reject P a x).Every fun op => op.Common a ∨ op.Acquires ∨ op.Releases := by
  have hc : ∀ {op : Op β}, op.Common a → op.Common a ∨ op.Acquires ∨ op.Releases := Or.inl
  refine .bind (fields_every (hc common_fields)) fun f => ?_
  split
  · exact trivial
  refine .bind ((peer_every _).mono fun _ ho => hc ho.common) fun contact =>
    .bind ((key_every contact _).mono fun _ ho => hc ho.common) fun k => .bind (.await (hc ⟨_, _, _, rfl⟩))
      fun (bytes : Bytes) => .bind (fields_every (hc common_fields)) fun f => ?_
  split
  · exact emit_every (hc ⟨id, id⟩)
  · exact trivial

/-- `call`. -/
theorem call_along (conversationId : String) (video : Bool) :
    (call P a conversationId video).Along (Follows P a (.call conversationId video)) (fun _ _ => True) [] := by
  have hi : ∀ message, Invocation.call conversationId video ≠ .handle message := nofun
  refine .await_bind (.read trivial) (fun _ => trivial) fun f => ?_
  split
  · exact trivial
  refine .bind ((peer_along conversationId).mono fun r h hp => ?_)
  obtain ⟨hg, hp⟩ := hp
  cases r with
  | error e => exact trivial
  | ok contact =>
    have hnone : ∀ y ∈ h, ∀ id conversation peerId, y.op ≠ .write (.call id conversation peerId) :=
      hg.forall (fun x => read_notCall) (by simp)
    refine .await_bind (.other (Or.inl ⟨id, id⟩) fun ⟨_, m, _, hm, _⟩ => absurd hm (hi m)) (fun _ => trivial) fun _ => ?_
    refine .await_bind (.read trivial) (fun _ => trivial) fun f => ?_
    split
    · refine .await_bind (.other (Or.inl ⟨id, id⟩) fun ⟨_, m, _, hm, _⟩ => absurd hm (hi m)) (fun _ => trivial)
        fun callId => ?_
      have hp' := (hp contact rfl).mono (List.subset_append_right
        [⟨.uuid, .ok callId⟩, ⟨.fields, .ok f⟩, ⟨.ensureConnected, .ok ()⟩] h)
      refine .await_bind (.call hp' (Or.inl ⟨video, rfl, rfl⟩) ?_) (fun _ => trivial) fun _ => ?_
      · simpa using hnone
      · refine setUp_along hi List.mem_cons_self (hp'.mono (List.subset_cons_self _ _)) (Or.inl rfl) ?_
        exact placed_every video
    · exact trivial

/-- `accept`. -/
theorem accept_along (x : IncomingCall) : (accept P a x).Along (Follows P a (.accept x)) (fun _ _ => True) [] := by
  refine .await_bind (.read trivial) (fun _ => trivial) fun f => ?_
  split
  · exact trivial
  refine .bind ((peer_along x.conversationId).mono fun r h hp => ?_)
  obtain ⟨hg, hp⟩ := hp
  cases r with
  | error e => exact trivial
  | ok contact =>
    refine .await_bind (.call (hp contact rfl) (Or.inr ⟨x, rfl, rfl, rfl, rfl⟩) (hg.forall (fun x => read_notCall) (by simp)))
      (fun _ => trivial) fun _ => ?_
    exact setUp_along (by rintro _ ⟨⟩) List.mem_cons_self ((hp contact rfl).mono (List.subset_cons_self _ _))
      (Or.inr ⟨x, rfl, rfl, rfl, rfl⟩) (pickedUp_every x)

/-- `_handle` of an `offer` while no call is active. -/
theorem ring_along {message payload : JsonFields} {id sender : String} {f : Fields β}
    (htype : asNullableString (field message "type") = .ok (some "offer"))
    (hsender : asString (field message "from") = .ok sender) (hpayload : mapFrom (field message "payload") = .ok payload)
    (hid : asString (field payload "callId") = .ok id)
    (hconversation : asString (field payload "conversationId") = .ok conversation) (hn : f.callId = none) :
    (ring P a id sender conversation payload).Along (Follows P a (.handle message)) (fun _ _ => True)
      [⟨.fields, .ok f⟩] := by
  refine .bind ((peer_along conversation).mono fun r h hp => ?_)
  obtain ⟨hg, hp⟩ := hp
  cases r with
  | error e => exact trivial
  | ok contact =>
    dsimp only
    split
    · exact trivial
    case isFalse hs =>
      refine .bind ((key_along contact id).mono fun r h' hk => ?_)
      obtain ⟨hg', hk⟩ := hk
      cases r with
      | error e => exact trivial
      | ok k =>
        refine .ofExcept (fun _ _ => trivial) fun envelope he => .ofExcept (fun _ _ => trivial) fun offer ho =>
          .ofExcept (fun _ _ => trivial) fun video hv => ?_
        have hall := hg.trans hg'
        exact .await (.announce rfl ⟨htype, hsender, payload, hpayload, hid, hconversation, he⟩
          (hall.subset List.mem_cons_self) hn (hall.forall (fun _ hx => hx) (by simp [Op.IsRead]))
          ⟨contact, k, offer, (hp contact rfl).mono hg'.subset, not_not.mp hs, hk k rfl, ho⟩) fun _ => trivial

theorem handleTyped_along {message : JsonFields} {type : String}
    (htype : asNullableString (field message "type") = .ok (some type)) :
    (handleTyped P a type message).Along (Follows P a (.handle message)) (fun _ _ => True) [] := by
  refine .ofExcept (fun _ _ => trivial) fun payload hpayload => .ofExcept (fun _ _ => trivial) fun id hid =>
    .ofExcept (fun _ _ => trivial) fun sender hsender => .ofExcept (fun _ _ => trivial) fun conversation hconversation => ?_
  refine .await_bind (.read trivial) (fun _ => trivial) fun f => ?_
  split
  case isTrue ho =>
    obtain ⟨rfl, hn⟩ := ho
    exact ring_along htype hsender hpayload hid hconversation hn
  case isFalse =>
    split
    · exact trivial
    case isFalse hne =>
      obtain ⟨hid', hsender'⟩ : some id = f.callId ∧ some sender = f.peerId := by tauto
      split
      · exact trivial
      case h_2 k hk =>
        refine .ofExcept (fun _ _ => trivial) fun envelope he => .ofExcept (fun _ _ => trivial) fun body ho => ?_
        refine ((handleSignal_every type body).along_grown (ψ := fun op => op.Common a ∨ op.Releases)
          (fun op h hg hop => .other (hop.imp_right Or.inr) fun _ => ⟨message, rfl, ?_⟩)).mono fun _ _ _ => trivial
        exact ⟨type, id, sender, conversation, envelope, f, k, body,
          ⟨htype, hsender, payload, hpayload, hid, hconversation, he⟩, hg.subset List.mem_cons_self, hid'.symm,
          hsender'.symm, hk, ho⟩

/-- `_handle`. -/
theorem handle_along (message : JsonFields) :
    (handle P a message).Along (Follows P a (.handle message)) (fun _ _ => True) [] := by
  refine .ofExcept (fun _ _ => trivial) fun type htype => ?_
  cases type with
  | none => exact trivial
  | some type =>
    have hping : ∀ op : Op β, type = "ping" → ¬Acts (.handle message) op := by
      rintro op rfl ⟨-, m, type, hm, ht, hs⟩
      obtain rfl := Invocation.handle.inj hm
      obtain rfl : "ping" = type := Option.some.inj (Except.ok.inj (htype.symm.trans ht))
      simp at hs
    dsimp only
    split
    · exact trivial
    split
    case isTrue hp =>
      refine .await_bind (.read trivial) (fun _ => trivial) fun f => ?_
      split
      · exact .await (.other (Or.inl ⟨id, id⟩) fun hs => absurd hs (hping _ hp)) fun _ => trivial
      · exact trivial
    split
    · exact handleTyped_along htype
    · exact trivial

/-- What every program asks for, after what it asked before. -/
theorem body_along (i : Invocation) : (i.body P a).Along (Follows P a i) (fun _ _ => True) [] := by
  cases i with
  | call conversationId video => exact call_along conversationId video
  | accept x => exact accept_along x
  | reject x => exact rest_along (by rintro _ ⟨⟩) (reject_every x)
  | endCall notifyPeer => exact rest_along (by rintro _ ⟨⟩) ((endCall_every notifyPeer).mono fun _ ho => ho.imp_right Or.inr)
  | handle message => exact handle_along message
  | onIceCandidate candidate => exact rest_along (by rintro _ ⟨⟩) ((onIceCandidate_every candidate).mono fun _ => Or.inl)

end Along

section Alone

variable {P : Primitives β} {a : Account β} {w : World β} {m : Nat} {i : Invocation}

/-! ## Programs that run alone -/

/-- The key of a call with the owner of a public key. -/
def callKey (P : Primitives β) (a : Account β) (publicKey : Bytes) (callId : String) : List β :=
  P.hkdf (P.x25519 a.identity.privateKey publicKey) none (some (callInfo callId)) 32

/-- The database holds these conversations and no contact of its own. -/
def Says (conversations : List Conversation) : (op : Op β) → Except DartError (Ans op) → Prop
  | .getAllConversations, r => r = .ok conversations
  | .getContact _, r => r = .ok none
  | _, _ => True

/-- What an operation does where the database holds these conversations. -/
def Scripted (P : Primitives β) (a : Account β) (conversations : List Conversation) (w : World β) (op : Op β)
    (r : Except DartError (Ans op)) (w' : World β) : Prop := Effect P a w op r w' ∧ Says conversations op r

/-- The conversation `id` is the one with this verified contact, who is another user. -/
structure Direct (a : Account β) (conversations : List Conversation) (id : String) (contact : Contact) : Prop where
  found : ∃ conversation, conversations.find? (fun c => c.id = id) = some conversation ∧ conversation.isGroup = false ∧
    conversation.participants = [contact]
  foreign : ∀ c ∈ conversations, ∀ p ∈ c.participants, p.id ≠ a.userId
  verified : contact.isVerified = true
  identity : isIdentity contact.chhayaId.publicKey = true
  ownKey : a.identity.privateKey.length = 32

section Paths

variable {conversations : List Conversation} {id conversation sender envelope : String} {contact : Contact}

theorem peer_leads (hd : Direct a conversations conversation contact) :
    Leads (Scripted P a conversations) m i (peer conversation) w (.done contact) w := by
  obtain ⟨v, hv, hg, hp⟩ := hd.found
  refine .await ⟨.getAllConversations w conversations hd.foreign, rfl⟩ ?_
  dsimp only
  rw [hv]
  dsimp only
  rw [hg, hp]
  refine .await ⟨.getContact w contact.id none nofun, rfl⟩ ?_
  dsimp only [Option.getD_none]
  rw [if_pos hd.verified]
  exact .refl _ _

theorem key_leads (hd : Direct a conversations conversation contact) :
    Leads (Scripted P a conversations) m i (key P contact id) w
      (.done (callKey P a (parseIdentity contact.chhayaId.publicKey) id)) w := by
  have hderive := Effect.deriveSharedSecret (P := P) (a := a) w a.identity.privateKey
    (parseIdentity contact.chhayaId.publicKey)
  rw [X25519Kex.sharedSecret_ok P hd.ownKey (identityOf_parseIdentity hd.identity).1] at hderive
  have hpair : Effect P a w .getKeyPair (.ok (some a.identity)) w := .getKeyPair w false
  refine .await ⟨hpair, trivial⟩ ?_
  dsimp only
  rw [if_pos hd.identity]
  exact .await ⟨hderive, trivial⟩ (.refl _ _)

/-- An offer of the contact of its conversation that finds no active call rings. -/
theorem ring_path (hd : Direct a conversations conversation contact) {payload offer : JsonFields} {video : Bool}
    (he : asString (field payload "envelope") = .ok envelope)
    (ho : openSignal P a "offer" id contact.id envelope (callKey P a (parseIdentity contact.chhayaId.publicKey) id) = .ok offer)
    (hv : asBoolOrFalse (field offer "video") = .ok video) :
    ∃ l, Path (Scripted P a conversations) m i (ring P a id contact.id conversation payload) w
      (⟨m, i, ⟨.announce ⟨id, conversation, contact.id, envelope, video⟩, .ok ()⟩, w, w⟩ :: l) (.done ()) w := by
  have hannounce : Scripted P a conversations w (.announce ⟨id, conversation, contact.id, envelope, video⟩) (.ok ()) w :=
    ⟨.announce w _, trivial⟩
  refine (peer_leads hd).bind_path ?_
  rw [if_neg (not_not.mpr rfl)]
  refine (key_leads hd).bind_path ?_
  simp only [Async.bind_eq, Async.done_bind, he, ho, hv, Async.ofExcept]
  exact ⟨[], .call hannounce (.refl _ _)⟩

/-- A signal with these parts is handled by its type. -/
theorem handle_eq {message : JsonFields} {type : String} (hm : Parts message type id sender conversation envelope)
    (ht : type ∈ ["offer", "answer", "ice-candidate", "call-end"]) :
    handle P a message = handleTyped P a type message := by
  have hj : type ≠ "join" := by rintro rfl; exact absurd ht (by decide)
  have hp : type ≠ "ping" := by rintro rfl; exact absurd ht (by decide)
  simp only [handle, hm.type, Async.ofExcept, Async.bind_eq, Async.done_bind]
  rw [if_neg hj, if_neg hp, if_pos ht]

/-- An offer of the contact of its conversation that finds no active call rings. -/
theorem offer_path (hd : Direct a conversations conversation contact) {message offer : JsonFields} {video : Bool}
    (hm : Parts message "offer" id contact.id conversation envelope) (hn : w.fields.callId = none)
    (ho : openSignal P a "offer" id contact.id envelope (callKey P a (parseIdentity contact.chhayaId.publicKey) id) = .ok offer)
    (hv : asBoolOrFalse (field offer "video") = .ok video) :
    ∃ l, Path (Scripted P a conversations) m i (handle P a message) w
      (⟨m, i, ⟨.announce ⟨id, conversation, contact.id, envelope, video⟩, .ok ()⟩, w, w⟩ :: l) (.done ()) w := by
  obtain ⟨payload, hp, hid, hc, he⟩ := hm.payload
  have hfields : Scripted P a conversations w .fields (.ok w.fields) w := ⟨.fields w, trivial⟩
  have hread : Leads (Scripted P a conversations) m i (fields : Prog β (Fields β)) w (.done w.fields) w :=
    ⟨_, .call hfields (.refl _ _)⟩
  rw [handle_eq hm (by decide)]
  simp only [handleTyped, hp, hid, hm.sender, hc, Async.ofExcept, Async.bind_eq, Async.done_bind]
  refine hread.bind_path ?_
  rw [if_pos ⟨trivial, hn⟩]
  exact ring_path hd he ho hv

/-- A call that is accepted while no call is active is set up whatever was set up meanwhile, and waits for its key. -/
theorem accept_begins {x : IncomingCall} (hd : Direct a conversations x.conversationId contact)
    (hn : w.fields.callId = none) :
    ∃ p, Leads (Scripted P a conversations) m i (accept P a x) w p w ∧
      ∀ w' : World β, Leads (Scripted P a conversations) m i p w' (pickUp P a contact x)
        { w' with fields := w'.fields.write (.call x.callId x.conversationId x.senderId) } := by
  refine ⟨?_, ?_, ?_⟩
  rotate_left
  · refine .await ⟨.fields w, trivial⟩ ?_
    rw [hn, if_neg (by decide)]
    exact .refl _ _
  · exact fun w' => .bind (peer_leads hd) (.await ⟨.write w' _, trivial⟩ (.refl _ _))

/-- The renderers come first. -/
theorem prepare_begins (video : Bool) : ∃ q, Leads (Scripted P a conversations) m i (prepare video) w q w := by
  have hread : Scripted P a conversations w .fields (.ok w.fields) w := ⟨.fields w, trivial⟩
  exact ⟨_, [] ++ [_], .call hread (.refl _ _)⟩

/-- It stores its key whichever call is active, opens the offer and goes on to the renderers. -/
theorem pickUp_stores {x : IncomingCall} (hd : Direct a conversations x.conversationId contact) {offer : JsonFields}
    {video : Bool}
    (ho : openSignal P a "offer" x.callId x.senderId x.envelope
      (callKey P a (parseIdentity contact.chhayaId.publicKey) x.callId) = .ok offer)
    (hv : asBoolOrFalse (field offer "video") = .ok video) :
    ∃ p, Leads (Scripted P a conversations) m i (pickUp P a contact x) w p { w with
      fields := (w.fields.write (.signalKey (callKey P a (parseIdentity contact.chhayaId.publicKey) x.callId))).write
        .peerAnswered } := by
  have hanswer : ∀ w : World β, ∃ p, Leads (Scripted P a conversations) m i (answer a offer) w p
      { w with fields := w.fields.write .peerAnswered } := by
    intro w
    obtain ⟨q, l, hl⟩ := @prepare_begins β P a { w with fields := w.fields.write .peerAnswered } m i conversations video
    have hvideo : (Async.ofExcept (asBoolOrFalse (field offer "video")) : Prog β Bool) = .done video := by
      rw [hv]
      rfl
    unfold answer
    rw [hvideo]
    exact ⟨_, .await ⟨.write w _, trivial⟩ ⟨l, hl.bind⟩⟩
  have hkeyed : ∀ w : World β, w.fields.signalKey = some (callKey P a (parseIdentity contact.chhayaId.publicKey) x.callId) →
      ∃ p, Leads (Scripted P a conversations) m i (do
        let key ← nonNull (← fields).signalKey
        answer a (← Async.ofExcept (openSignal P a "offer" x.callId x.senderId x.envelope key))) w p
        { w with fields := w.fields.write .peerAnswered } := by
    intro w hk
    obtain ⟨p, hp⟩ := hanswer w
    refine ⟨p, .await ⟨.fields w, trivial⟩ ?_⟩
    simp only [hk, nonNull, Async.bind_eq, Async.pure_eq, Async.done_bind, ho, Async.ofExcept]
    exact hp
  obtain ⟨p, hp⟩ := hkeyed { w with fields := w.fields.write (.signalKey _) } rfl
  exact ⟨p, .bind (key_leads hd) (.await ⟨.write w _, trivial⟩ hp)⟩

/-- A call-end that opens under the key that is held is acted on. -/
theorem end_path {message body : JsonFields} {k : List β}
    (hm : Parts message "call-end" id sender conversation envelope) (hid : w.fields.callId = some id)
    (hs : w.fields.peerId = some sender) (hk : w.fields.signalKey = some k)
    (ho : openSignal P a "call-end" id sender envelope k = .ok body) :
    ∃ p l, (∀ e ∈ l, e.before = w) ∧ Path (Scripted P a conversations) m i (handle P a message) w
      (⟨m, i, ⟨.localTracks, .ok (w.fields.localStream.elim [] MediaStream.tracks)⟩, w, w⟩ :: l) p w := by
  obtain ⟨payload, hp, hid', hc, he⟩ := hm.payload
  have hfields : Scripted P a conversations w .fields (.ok w.fields) w := ⟨.fields w, trivial⟩
  have htracks : Scripted P a conversations w .localTracks (.ok (w.fields.localStream.elim [] MediaStream.tracks)) w :=
    ⟨.localTracks w, trivial⟩
  have hread : ∀ {α : Type} {p p' : Prog β α} {l : List (Event β)} (f : Fields β → Prog β α), f w.fields = p →
      Path (Scripted P a conversations) m i p w l p' w →
      Path (Scripted P a conversations) m i (Async.bind fields f) w (l ++ [⟨m, i, ⟨.fields, .ok w.fields⟩, w, w⟩]) p' w := by
    rintro α p p' l f rfl hp
    exact .await_bind hfields hp
  have hsend : Path (Scripted P a conversations) m i (sendEnd a false) w [⟨m, i, ⟨.fields, .ok w.fields⟩, w, w⟩] (.done ()) w :=
    hread _ (if_neg (by simp)) (.refl _ _)
  have hend : handleSignal a "call-end" body = endCall a false := by
    rw [handleSignal, if_neg (by decide), if_neg (by decide), if_pos rfl]
  rw [handle_eq hm (by decide)]
  simp only [handleTyped, hp, hid', hm.sender, hc, Async.ofExcept, Async.bind_eq, Async.done_bind]
  obtain ⟨p, hrest⟩ : ∃ p, Path (Scripted P a conversations) m i (endCall a false) w
      [⟨m, i, ⟨.localTracks, .ok (w.fields.localStream.elim [] MediaStream.tracks)⟩, w, w⟩,
        ⟨m, i, ⟨.fields, .ok w.fields⟩, w, w⟩] p w :=
    hsend.bind_call rfl htracks
  refine ⟨p, [⟨m, i, ⟨.fields, .ok w.fields⟩, w, w⟩, ⟨m, i, ⟨.fields, .ok w.fields⟩, w, w⟩], by simp, hread _ ?_ hrest⟩
  rw [if_neg (by simp), if_neg (by simp [hid, hs]), hk]
  simp only [he, ho, Async.done_bind, hend]

end Paths

theorem field_head (key : String) (j : Json) (l : JsonFields) : field ((key.toList, j) :: l) key = j := by
  simp [field]

theorem field_tail {key key' : String} (h : key' ≠ key) (j : Json) (l : JsonFields) :
    field ((key'.toList, j) :: l) key = field l key := by
  rw [field, List.find?_cons_of_neg (by simpa using fun he => h (String.toList_injective he)), field]

/-- A signal has the parts that it was made of. -/
theorem signal_parts (b : Account β) (type : String) (receiver : Option String) (t : DateTime)
    (id conversation envelope : String) :
    Parts (signal b type receiver t id (some conversation) envelope) type id b.userId conversation envelope where
  type := by
    rw [signal, field_head]
    exact congrArg (Except.ok ∘ some) String.ofList_toList
  sender := by
    rw [signal, field_tail (by decide), field_tail (by decide), field_head]
    exact congrArg Except.ok String.ofList_toList
  payload := by
    have hp : mapFrom (field (signal b type receiver t id (some conversation) envelope) "payload") =
        .ok [("callId".toList, .str id.toList), ("conversationId".toList, .str conversation.toList),
          ("envelope".toList, .str envelope.toList)] := by
      rw [signal, field_tail (by decide), field_tail (by decide), field_tail (by decide), field_tail (by decide), field_head]
      rfl
    refine ⟨_, hp, ?_, ?_, ?_⟩
    · rw [field_head]
      exact congrArg Except.ok String.ofList_toList
    · rw [field_tail (by decide), field_head]
      exact congrArg Except.ok String.ofList_toList
    · rw [field_tail (by decide), field_tail (by decide), field_head]
      exact congrArg Except.ok String.ofList_toList

end Alone

/-! ## A contact and what it seals -/

/-- The account `user` whose private key repeats an octet. -/
def octetAccount (b : UInt8) (user : String) : Account SymByte where
  identity := ⟨symbolic.x25519Public (octetSeed b).1, (octetSeed b).1⟩
  userId := user

/-- The verified contact `user` with that account. -/
def octetPeer (b : UInt8) (user : String) : Contact where
  id := user
  chhayaId := { publicKey := identityOf (symbolic.x25519Public (octetSeed b).1) }
  displayName := user
  isVerified := true

/-- The conversation with a contact. -/
def directWith (id : String) (contact : Contact) : Conversation where
  id := id
  participants := [contact]
  createdAt := ⟨0, false⟩

theorem direct_octets {b c : UInt8} {user peer id : String} {conversations : List Conversation}
    (hf : conversations.find? (fun v => v.id = id) = some (directWith id (octetPeer c peer)))
    (hp : ∀ v ∈ conversations, ∀ p ∈ v.participants, p.id ≠ user) :
    Direct (octetAccount b user) conversations id (octetPeer c peer) where
  found := ⟨_, hf, rfl, rfl⟩
  foreign := hp
  verified := rfl
  identity := isIdentity_identityOf (symbolic.length_x25519Public _)
  ownKey := (octetSeed b).2

/-- The key was derived from the shared secret of these two owners with this info. -/
def isKeyOf (pair : Sym2 Bytes) (info : Bytes) : List SymByte → Bool
  | .kdf (.dh pair' _ :: _) _ info' _ :: _ => pair' = pair ∧ info' = info
  | _ => false

/-- What a contact seals: the octet of its private key, the call under whose key it seals, and what it binds that to. -/
structure Attestation where
  octet : UInt8
  callId : String
  data : Bytes

/-- The public key of the contact. -/
def Attestation.publicKey (t : Attestation) : Bytes := symbolic.x25519Public (octetSeed t.octet).1

/-- The key is that of the user, the contact and the call, and these are the associated data. -/
def Attestation.binds (k : List SymByte) (aad : Bytes) (t : Attestation) : Bool :=
  isKeyOf s(symbolic.x25519Public (octetSeed 1).1, t.publicKey) (callInfo t.callId) k && decide (aad = t.data)

/-- The tag tells what contacts seal from each other, and from all else. -/
def attestedTag (ts : List Attestation) (k : List SymByte) (aad : Bytes) : Bytes :=
  List.replicate 16 (UInt8.ofNat (ts.findIdx (Attestation.binds k aad)))

/-- Symbolic primitives with a cipher that opens what has the tag of its key and associated data. -/
def attestedCall (ts : List Attestation) : Primitives SymByte where
  __ := symbolic
  gcmSeal k _ aad plaintext := plaintext ++ attestedTag ts k aad
  gcmOpen k _ aad sealed :=
    if 16 ≤ sealed.length ∧ sealed.drop (sealed.length - 16) = attestedTag ts k aad then
      some (sealed.take (sealed.length - 16)) else none
  gcmOpen_gcmSeal _ _ _ _ := by simp [attestedTag]
  length_gcmSeal _ _ _ _ := by simp [attestedTag]

/-- The user. -/
def callee : Account SymByte := octetAccount 1 "user"

/-- The map without fields. -/
def noFields : JsonMap where
  fields := []
  wf := by simp [Json.WF, Json.WFFields]

section Attested

variable {ts : List Attestation} {t : Attestation}

theorem binds_callKey {A data : Bytes} {id : String} : t.binds (callKey (attestedCall ts) callee A id) data = true ↔
    A = t.publicKey ∧ callInfo id = callInfo t.callId ∧ data = t.data := by
  rw [Attestation.binds, Bool.and_eq_true, decide_eq_true_eq, ← and_assoc]
  refine and_congr_left' ?_
  have hkey : isKeyOf s(symbolic.x25519Public (octetSeed 1).1, t.publicKey) (callInfo t.callId)
      (callKey (attestedCall ts) callee A id) = true ↔
        s(SymByte.publicOf callee.identity.privateKey, A) = s(symbolic.x25519Public (octetSeed 1).1, t.publicKey) ∧
          callInfo id = callInfo t.callId := by
    simp [callKey, attestedCall, symbolic, isKeyOf, List.range_succ_eq_map]
  rw [hkey]
  exact and_congr_left' Sym2.congr_right

/-- Under the tag of an attestation opens what is bound to the same key and data alone. -/
theorem attestedTag_inj {k k' : List SymByte} {data data' : Bytes} (hn : ts.length < 256) (ht : t ∈ ts)
    (hb : t.binds k data = true) (h : attestedTag ts k data = attestedTag ts k' data') :
    ∃ u ∈ ts, u.binds k data = true ∧ u.binds k' data' = true := by
  have hlt : ts.findIdx (Attestation.binds k data) < ts.length := List.findIdx_lt_length_of_exists ⟨t, ht, hb⟩
  have hle : ts.findIdx (Attestation.binds k' data') ≤ ts.length := List.findIdx_le_length
  have hidx : ts.findIdx (Attestation.binds k data) = ts.findIdx (Attestation.binds k' data') := by
    have hbyte := congrArg UInt8.toNat (List.replicate_right_injective (by decide : (16 : ℕ) ≠ 0) h)
    rwa [UInt8.toNat_ofNat', UInt8.toNat_ofNat', Nat.mod_eq_of_lt (by omega), Nat.mod_eq_of_lt (by omega)] at hbyte
  have hlt' := hlt
  rw [hidx] at hlt'
  refine ⟨ts[ts.findIdx (Attestation.binds k data)], List.getElem_mem hlt, List.findIdx_getElem, ?_⟩
  have hfound : Attestation.binds k' data' ts[ts.findIdx (Attestation.binds k' data')] = true :=
    List.findIdx_getElem (w := hlt')
  simpa only [hidx] using hfound

/-- The key of the call with the contact. -/
def attestedKey (ts : List Attestation) (t : Attestation) : List SymByte :=
  callKey (attestedCall ts) callee t.publicKey t.callId

/-- What the contact seals: a map without fields. -/
def attestedBytes (ts : List Attestation) (t : Attestation) : Bytes :=
  List.replicate 12 0 ++ (attestedCall ts).gcmSeal (attestedKey ts t) (List.replicate 12 0) t.data
    (utf8Encode (jsonEncode (.obj noFields.fields)))

/-- The contact computes the same key. -/
theorem attestedKey_comm (user : String) : callKey (attestedCall ts) (octetAccount t.octet user)
    (symbolic.x25519Public (octetSeed 1).1) t.callId = attestedKey ts t :=
  congrArg ((attestedCall ts).hkdf · none (some (callInfo t.callId)) 32)
    (symbolic.x25519_comm (octetSeed t.octet).1 (octetSeed 1).1)

theorem attestedBytes_sealed (ts : List Attestation) (t : Attestation) : AesGcm.encryptBytes (attestedCall ts)
    (attestedKey ts t) (utf8Encode (jsonEncode (.obj noFields.fields))) (List.replicate 12 (.octet 0)) t.data =
      .ok (attestedBytes ts t) := by
  have hlength : (attestedKey ts t).length = 32 := (attestedCall ts).length_hkdf _ _ _ _
  rw [AesGcm.encryptBytes_ok _ hlength (by simp), attestedBytes, List.map_replicate]
  rfl

/-- These bytes open under this key and data alone. -/
theorem attestedBytes_opens {A data plaintext : Bytes} {id : String} (hn : ts.length < 256) (ht : t ∈ ts)
    (h : AesGcm.decryptBytes (attestedCall ts) (callKey (attestedCall ts) callee A id) (attestedBytes ts t) data =
      .ok plaintext) :
    callKey (attestedCall ts) callee A id = attestedKey ts t ∧ A = t.publicKey ∧ data = t.data := by
  unfold AesGcm.decryptBytes at h
  obtain ⟨-, -, h⟩ := except_bind_ok h
  split at h
  · cases h
  have hdrop : (attestedBytes ts t).drop 12 = (attestedCall ts).gcmSeal (attestedKey ts t) (List.replicate 12 0) t.data
      (utf8Encode (jsonEncode (.obj noFields.fields))) := List.drop_left' (by simp)
  rw [hdrop] at h
  split at h
  case h_1 opened ho =>
    have hself : t.binds (attestedKey ts t) t.data = true := binds_callKey.mpr ⟨rfl, rfl, rfl⟩
    have htag : attestedTag ts (attestedKey ts t) t.data =
        attestedTag ts (callKey (attestedCall ts) callee A id) data := by
      simp only [attestedCall, attestedTag, List.length_append, List.length_replicate, Nat.add_sub_cancel, List.drop_left,
        Option.ite_none_right_eq_some] at ho
      exact ho.1.2
    obtain ⟨u, -, hu, hu'⟩ := attestedTag_inj hn ht hself htag
    obtain ⟨h1, h2, h3⟩ := binds_callKey.mp hu
    obtain ⟨h1', h2', h3'⟩ := binds_callKey.mp hu'
    obtain rfl : A = t.publicKey := h1'.trans h1.symm
    exact ⟨congrArg (fun info => (attestedCall ts).hkdf _ none (some info) 32) (h2'.trans h2.symm), rfl, h3'.trans h3.symm⟩
  case h_2 => cases h

end Attested

/-! ## Runs -/

/-- The pool of a service, and its calls. -/
abbrev Service (β : Type) := Async.Pool Invocation (Op β) Ans DartError Unit (World β)

abbrev Service.Traced (P : Primitives β) (a : Account β) (l : List (Event β)) (c : Service β) : Prop :=
  Async.Pool.Traced (Effect P a) (Invocation.body P a) Environment {} l c

section Runs

variable {P : Primitives β} {a : Account β} {l l₁ l₀ : List (Event β)} {c : Service β} {e : Event β}

/-- What an operation stands to the operations of its program before it. -/
theorem Service.Traced.follows (h : Service.Traced P a l c) (hl : l = l₁ ++ e :: l₀) :
    Follows P a e.call (Async.callsOf e.number l₀) e.answered.op :=
  Async.Pool.Traced.called body_along h hl

/-- The fields were read as they were. -/
theorem Service.Traced.read (h : Service.Traced P a l c) (he : e ∈ l) {f : Fields β}
    (hf : e.answered = ⟨.fields, .ok f⟩) : e.before.fields = f := by
  have hm : Effect P a e.before e.answered.op e.answered.answer e.after := Async.Pool.Traced.made h he
  rw [hf] at hm
  generalize e.before = s, e.after = s' at hm ⊢
  cases hm
  rfl

/-! ## Offers ring -/

/-- An announcement of the offer with these sealed bytes. -/
def Rings (sealedBytes : Bytes) (op : Op β) : Prop := ∃ x, op = .announce x ∧ base64Decode x.envelope = .ok sealedBytes

/-- A program handles the delivery of the offer with these sealed bytes, and has found no active call. -/
def IdleDelivery (sealedBytes : Bytes) (l : List (Event β)) (n : Nat) : Prop :=
  ∃ e ∈ l, ∃ message id sender conversation envelope f, e.number = n ∧ e.call = .handle message ∧
    Parts message "offer" id sender conversation envelope ∧ base64Decode envelope = .ok sealedBytes ∧
    e.answered = ⟨.fields, .ok f⟩ ∧ e.before.fields.callId = none

/-- Every ring is due to a delivery of the offer of its own, which found no active call. -/
theorem offer_rings (h : Service.Traced P a l c) (sealedBytes : Bytes) :
    (∀ e ∈ l, Rings sealedBytes e.answered.op → IdleDelivery sealedBytes l e.number) ∧
      l.Pairwise fun e e' => Rings sealedBytes e.answered.op → Rings sealedBytes e'.answered.op → e.number ≠ e'.number := by
  refine ⟨fun e he ⟨x, hx, hb⟩ => ?_, Async.pairwise_of_split fun l₁ e l₀ hl e' he' ⟨x, hx, _⟩ ⟨x', hx', _⟩ hn => ?_⟩
  · obtain ⟨l₁, l₀, hl⟩ := List.append_of_mem he
    have hf := h.follows hl
    rw [hx] at hf
    cases hf with
    | other ho hs => rcases ho with ho | ho | ho <;> exact ho.elim
    | @announce _ message f hi hm hread hnone ho hp =>
      obtain ⟨e₀, he₀, hnum, hans⟩ := Async.mem_callsOf.mp hread
      have hmem : e₀ ∈ l := hl ▸ List.mem_append_right _ (List.mem_cons_of_mem _ he₀)
      exact ⟨e₀, hmem, message, x.callId, x.senderId, x.conversationId, x.envelope, f, hnum,
        (h.same.1 e₀ hmem e he hnum).trans hi, hm, hb, hans, (h.read hmem hans).symm ▸ hnone⟩
  · have hf := h.follows hl
    rw [hx] at hf
    cases hf with
    | other ho hs => rcases ho with ho | ho | ho <;> exact ho.elim
    | announce hi hm hread hnone ho hp =>
      have hread' := ho e'.answered (Async.mem_callsOf.mpr ⟨e', he', hn.symm, rfl⟩)
      rw [hx'] at hread'
      exact hread'

/-- The offer that the contact seals. -/
def sealedOffer : Attestation := ⟨2, "id", aad "offer" "id" "peer" "user"⟩

/-- The cipher where nothing else is sealed. -/
abbrev offerCipher : Primitives SymByte := attestedCall [sealedOffer]

/-- The sealed bytes of the offer. -/
def offerBytes : Bytes := attestedBytes [sealedOffer] sealedOffer

/-- The conversation with the contact. -/
def oneChat : List Conversation := [directWith "c" (octetPeer 2 "peer")]

/-- The signal with what a contact has sealed. -/
def attestedSignal (ts : List Attestation) (t : Attestation) (type sender id conversation : String) : JsonFields :=
  signal (octetAccount t.octet sender) type (some "user") ⟨0, false⟩ id (some conversation)
    (base64Encode (attestedBytes ts t))

theorem attestedSignal_parts (ts : List Attestation) (t : Attestation) (type sender id conversation : String) :
    Parts (attestedSignal ts t type sender id conversation) type id sender conversation
      (base64Encode (attestedBytes ts t)) := signal_parts _ _ _ _ _ _ _

/-- The signal with the offer. -/
def offerSignal : JsonFields := attestedSignal [sealedOffer] sealedOffer "offer" "peer" "id" "c"

/-- What a contact has sealed as an offer to the user rings whenever it is delivered while no program runs and no call is
active. -/
theorem attested_rings {ts : List Attestation} {t : Attestation} {conversations : List Conversation}
    {user conversation : String} (hd : Direct callee conversations conversation (octetPeer t.octet user))
    (ht : t.data = aad "offer" t.callId user "user")
    {l : List (Event SymByte)} {w : World SymByte} {n : Nat} {es : List (Async.Event Invocation DartError Unit)}
    (hn : w.fields.callId = none)
    (h : Async.Pool.Traced (Scripted (attestedCall ts) callee conversations) (Invocation.body (attestedCall ts) callee)
      Environment {} l ⟨w, [], n, es⟩) :
    ∃ l' e es', (∀ e' ∈ e :: l', e'.number = n ∧
        e'.call = .handle (attestedSignal ts t "offer" user t.callId conversation)) ∧
      e.answered.op = .announce ⟨t.callId, conversation, user, base64Encode (attestedBytes ts t), false⟩ ∧
      Async.Pool.Traced (Scripted (attestedCall ts) callee conversations) (Invocation.body (attestedCall ts) callee)
        Environment {} (e :: l' ++ l) ⟨w, [], n + 1, es'⟩ := by
  have hparse : parseIdentity (octetPeer t.octet user).chhayaId.publicKey = t.publicKey := parseIdentity_identityOf _
  have hsealed := attestedBytes_sealed ts t
  rw [ht] at hsealed
  have hopen := @open_seal _ _ callee "offer" t.callId user _ _ noFields _ hsealed
  rw [attestedKey, ← hparse] at hopen
  have hm : Parts (attestedSignal ts t "offer" user t.callId conversation) "offer" t.callId (octetPeer t.octet user).id
      conversation _ := attestedSignal_parts _ _ _ _ _ _
  obtain ⟨l', hl⟩ := @offer_path _ _ callee w n (.handle (attestedSignal ts t "offer" user t.callId conversation)) _ _ _ _ _
    hd _ _ false hm hn hopen rfl
  exact ⟨l', _, _, hl.made, rfl, h.ran hl⟩

/-- The offer rings whenever it is delivered while no program runs and no call is active. -/
theorem offerSignal_rings {l : List (Event SymByte)} {w : World SymByte} {n : Nat}
    {es : List (Async.Event Invocation DartError Unit)} (hn : w.fields.callId = none)
    (h : Async.Pool.Traced (Scripted offerCipher callee oneChat) (Invocation.body offerCipher callee) Environment {} l
      ⟨w, [], n, es⟩) :
    ∃ l' e es', (∀ e' ∈ e :: l', e'.call = .handle offerSignal) ∧ Rings offerBytes e.answered.op ∧
      Async.Pool.Traced (Scripted offerCipher callee oneChat) (Invocation.body offerCipher callee) Environment {}
        (e :: l' ++ l) ⟨w, [], n + 1, es'⟩ := by
  have hd : Direct callee oneChat "c" (octetPeer sealedOffer.octet "peer") := direct_octets (by decide) (by decide)
  obtain ⟨l', e, es', hl, he, h⟩ := attested_rings hd rfl hn h
  exact ⟨l', e, es', fun e' he' => (hl e' he').2, ⟨_, he, base64Decode_base64Encode _⟩, h⟩

/-- The contact seals one offer. It is delivered twice while no call is active, and rings twice. -/
theorem offer_twice : AesGcm.encryptBytes offerCipher (callKey offerCipher (octetAccount 2 "peer")
      (symbolic.x25519Public (octetSeed 1).1) "id") (utf8Encode (jsonEncode (.obj noFields.fields)))
      (List.replicate 12 (.octet 0)) sealedOffer.data = .ok offerBytes ∧
    ∃ l c, Service.Traced offerCipher callee l c ∧ ∃ e e', List.Sublist [e', e] l ∧
      Rings offerBytes e.answered.op ∧ Rings offerBytes e'.answered.op := by
  obtain ⟨l, e, es, -, he, h⟩ := offerSignal_rings rfl .init
  obtain ⟨l', e', es', -, he', h'⟩ := offerSignal_rings rfl h
  have hkey : callKey offerCipher (octetAccount 2 "peer") (symbolic.x25519Public (octetSeed 1).1) "id" =
      attestedKey [sealedOffer] sealedOffer := @attestedKey_comm [sealedOffer] sealedOffer "peer"
  have hsealed := attestedBytes_sealed [sealedOffer] sealedOffer
  rw [← hkey] at hsealed
  exact ⟨hsealed, _, _, h'.mono fun _ _ _ _ hs => hs.1, e, e', by simp, he, he'⟩

/-- One delivery, one ring. -/
theorem offer_once : ∃ l c, Service.Traced offerCipher callee l c ∧
    (∃ e ∈ l, Rings offerBytes e.answered.op) ∧
    (∀ e ∈ l, Rings offerBytes e.answered.op → IdleDelivery offerBytes l e.number) ∧
    l.Pairwise fun e e' => Rings offerBytes e.answered.op → Rings offerBytes e'.answered.op → e.number ≠ e'.number := by
  obtain ⟨l, e, es, -, he, h⟩ := offerSignal_rings rfl .init
  have ht := h.mono fun _ _ _ _ hs => hs.1
  exact ⟨_, _, ht, ⟨e, by simp, he⟩, offer_rings ht _⟩

/-! ## Keys of calls -/

/-- Set-ups do not cross: a call is set up only while no signal key is held, and its key is stored only while it is still
the active call. -/
def Uncrossed (l : List (Event β)) : Prop := ∀ l₁ e l₀, l = l₁ ++ e :: l₀ →
  (∀ id conversation peerId, e.answered.op = .write (.call id conversation peerId) → e.before.fields.signalKey = none) ∧
  ∀ k, e.answered.op = .write (.signalKey k) → ∀ id conversation peerId,
    ⟨.write (.call id conversation peerId), .ok ()⟩ ∈ Async.callsOf e.number l₀ → e.before.fields.callId = some id ∧
      e.before.fields.conversationId = some conversation ∧ e.before.fields.peerId = some peerId

/-- The key that is held is that of the active call and of a contact that was read for its conversation. -/
def Keyed (P : Primitives β) (l : List (Event β)) (f : Fields β) : Prop :=
  ∀ k, f.signalKey = some k → ∃ id conversation peerId contact n, f.callId = some id ∧
    f.conversationId = some conversation ∧ f.peerId = some peerId ∧ PeerRead (Async.callsOf n l) conversation contact ∧
    KeyRead P (Async.callsOf n l) contact id k ∧
    (contact.id = peerId ∨ ∃ e ∈ l, ∃ x, e.call = .accept x ∧ x.callId = id ∧ x.conversationId = conversation ∧
      x.senderId = peerId)

theorem Uncrossed.tail (h : Uncrossed (e :: l)) : Uncrossed l := fun l₁ e' l₀ hl => h (e :: l₁) e' l₀ (congrArg (e :: ·) hl)

theorem Uncrossed.before (h : Uncrossed l) (hl : l = l₁ ++ e :: l₀) : Uncrossed l₀ := by
  induction l₁ generalizing l with
  | nil =>
    subst hl
    exact h.tail
  | cons x l₁ ih =>
    subst hl
    exact ih h.tail rfl

/-- The handlers of signals set no call up. -/
theorem Service.Traced.uncrossed (h : Service.Traced P a l c) (hl : ∀ e ∈ l, ∃ message, e.call = .handle message) :
    Uncrossed l := by
  intro l₁ e l₀ hl'
  obtain ⟨message, hi⟩ := hl e (hl' ▸ List.mem_append_right _ List.mem_cons_self)
  have hf := h.follows hl'
  refine ⟨fun id conversation peerId hop => ?_, fun k hop => ?_⟩
  · rw [hop] at hf
    cases hf with
    | other ho => rcases ho with ho | ho | ho <;> exact ho.elim
    | call hp hc =>
      rcases hc with ⟨video, hc, -⟩ | ⟨x, hc, -⟩
      · cases hi.symm.trans hc
      · cases hi.symm.trans hc
  · rw [hop] at hf
    cases hf with
    | other ho => rcases ho with ho | ho | ho <;> exact ho.elim
    | signalKey hn => exact absurd hi (hn message)

theorem callsOf_sub (n : Nat) {l₁ l₀ : List (Event β)} (hl : l = l₁ ++ e :: l₀) :
    Async.callsOf n l₀ ⊆ Async.callsOf n l := by
  subst hl
  intro x hx
  obtain ⟨e', he', hn⟩ := Async.mem_callsOf.mp hx
  exact Async.mem_callsOf.mpr ⟨e', List.mem_append_right _ (List.mem_cons_of_mem _ he'), hn⟩

theorem Keyed.mono {f f' : Fields β} (h : Keyed P l f) (hk : f'.signalKey = f.signalKey) (hc : f'.callId = f.callId)
    (hv : f'.conversationId = f.conversationId) (hp : f'.peerId = f.peerId) : Keyed P (e :: l) f' := by
  intro k hk'
  obtain ⟨id, conversation, peerId, contact, n, h1, h2, h3, h4, h5, h6⟩ := h k (hk ▸ hk')
  refine ⟨id, conversation, peerId, contact, n, hc ▸ h1, hv ▸ h2, hp ▸ h3, h4.mono (@callsOf_sub _ _ e n [] l rfl),
    h5.mono (@callsOf_sub _ _ e n [] l rfl), h6.imp_right fun ⟨e', he', hx⟩ => ⟨e', List.mem_cons_of_mem _ he', hx⟩⟩

/-- Where set-ups do not cross, the signal key is that of the active call and its contact. -/
theorem Service.Traced.keyed (h : Service.Traced P a l c) (hu : Uncrossed l) : Keyed P l c.state.fields := by
  induction h with
  | init => exact fun k hk => by cases hk
  | @call l s s' m i op k x ts us n es ht he ih =>
    have hold := ih hu.tail
    have hf : Follows P a i (Async.callsOf m l) op :=
      @Service.Traced.follows β P a (⟨m, i, ⟨op, x⟩, s, s'⟩ :: l) [] l _ ⟨m, i, ⟨op, x⟩, s, s'⟩ (.call ht he) rfl
    obtain ⟨hcall, hkey⟩ := hu [] _ l rfl
    have hsame : s'.fields = s.fields → Keyed P (⟨m, i, ⟨op, x⟩, s, s'⟩ :: l) s'.fields := fun heq =>
      hold.mono (by rw [heq]) (by rw [heq]) (by rw [heq]) (by rw [heq])
    cases he with
    | write y =>
      cases y with
      | call id conversation peerId =>
        have hnone : s.fields.signalKey = none := hcall id conversation peerId rfl
        exact fun k hk => by rw [show s.fields.signalKey = some k from hk] at hnone; cases hnone
      | signalKey k =>
        cases hf with
        | other ho hs => rcases ho with ho | ho | ho <;> exact ho.elim
        | @signalKey id conversation peerId contact _ hn hc hp hk hi =>
          obtain ⟨h1, h2, h3⟩ := hkey _ rfl id conversation peerId hc
          intro k' hk'
          obtain rfl := Option.some.inj hk'
          exact ⟨id, conversation, peerId, contact, m, h1, h2, h3, hp.mono (@callsOf_sub _ _ _ m [] l rfl),
            hk.mono (@callsOf_sub _ _ _ m [] l rfl), hi.imp_right fun ⟨x, hx⟩ => ⟨_, List.mem_cons_self, x, hx⟩⟩
      | clear => exact fun k hk => by cases hk
      | _ => exact hold.mono rfl rfl rfl rfl
    | _ => exact hsame rfl
  | @quiet l c c' ht hs ih =>
    have hold := ih hu
    cases hs with
    | call he => exact he.elim
    | other ho =>
      obtain ⟨socket, rfl⟩ := ho
      exact fun k hk => hold k hk
    | _ => exact hold

/-! ## Who sealed a signal -/

/-- What somebody sealed: with which private key, by its public key, under which key and bound to what. -/
structure Seal (β : Type) where
  sealer : Bytes
  key : List β
  plaintext : Bytes
  aad : Bytes
  bytes : Bytes

/-- The relay delivers these sealed bytes. -/
def Delivers (i : Invocation) (bytes : Bytes) : Prop := ∃ message payload envelope, i = .handle message ∧
  mapFrom (field message "payload") = .ok payload ∧ asString (field payload "envelope") = .ok envelope ∧
  base64Decode envelope = .ok bytes

/-- What ideal primitives grant: what is delivered and opens under the key of a call was sealed under it, that key is
computed by the two owners alone, and the user's own devices run this service. -/
structure IdealSeals (P : Primitives β) (a : Account β) (seals : Set (Seal β)) (l : List (Event β)) : Prop where
  opens : ∀ e ∈ l, ∀ bytes, Delivers e.call bytes → ∀ A id data plaintext,
    AesGcm.decryptBytes P (callKey P a A id) bytes data = .ok plaintext →
    ∃ s ∈ seals, s.key = callKey P a A id ∧ s.aad = data ∧ s.plaintext = plaintext ∧ s.bytes = bytes
  owners : ∀ s ∈ seals, ∀ A id, s.key = callKey P a A id →
    s.sealer = P.x25519Public a.identity.privateKey ∨ s.sealer = A
  own : ∀ s ∈ seals, ∀ A id, s.key = callKey P a A id → s.sealer = P.x25519Public a.identity.privateKey →
    ∃ l' c', Service.Traced P a l' c' ∧ ∃ e ∈ l', e.answered.op = .encrypt s.key s.plaintext s.aad

/-- Some program read this contact for the conversation. -/
def ContactRead (l : List (Event β)) (conversation : String) (contact : Contact) : Prop :=
  ∃ n, PeerRead (Async.callsOf n l) conversation contact

/-- The contact sealed the envelope as a signal of this type and call to the user, and the user did not. -/
def SealedFor (a : Account β) (seals : Set (Seal β)) (contact : Contact) (type id envelope : String) : Prop :=
  ∃ s ∈ seals, base64Decode envelope = .ok s.bytes ∧ s.sealer = parseIdentity contact.chhayaId.publicKey ∧
    ∃ sender, sender ≠ a.userId ∧ s.aad = aad type id sender a.userId

/-- The program found this call active. -/
def Found (l : List (Event β)) (n : Nat) (id conversation : String) : Prop :=
  ∃ e ∈ l, e.number = n ∧ e.answered.op = .fields ∧ e.before.fields.callId = some id ∧
    e.before.fields.conversationId = some conversation

/-- Only incoming calls that were announced are accepted. -/
def AcceptsAnnounced (l : List (Event β)) : Prop :=
  ∀ e ∈ l, ∀ x, e.call = .accept x → ∃ e' ∈ l, e'.answered.op = .announce x

/-- The user is no participant. -/
def Account.Foreign (a : Account β) (conversations : List Conversation) : Prop :=
  ∀ v ∈ conversations, ∀ p ∈ v.participants, p.id ≠ a.userId

/-- What the database and the keys answer. -/
def Answers (P : Primitives β) (a : Account β) : (op : Op β) → Except DartError (Ans op) → Prop
  | .getAllConversations, .ok conversations => a.Foreign conversations
  | .getContact id, .ok contact => ∀ p : Contact, contact = some p → p.id = id
  | .getKeyPair, .ok pair => ∀ p : ChhayaKeyPair β, pair = some p → p = a.identity
  | .deriveSharedSecret privateKey publicKey, .ok shared => X25519Kex.sharedSecret P privateKey publicKey = .ok shared
  | _, _ => True

theorem Effect.answers {s s' : World β} {op : Op β} {r : Except DartError (Ans op)} (h : Effect P a s op r s') :
    Answers P a op r := by
  cases h with
  | getAllConversations _ h => exact h
  | getContact _ _ h => exact h
  | getKeyPair locked =>
    rintro p hp
    cases locked with
    | true => cases hp
    | false => exact (Option.some.inj hp).symm
  | deriveSharedSecret privateKey publicKey =>
    cases hr : X25519Kex.sharedSecret P privateKey publicKey with
    | ok shared => exact hr
    | error e => exact trivial
  | throws op e h => cases op <;> exact trivial
  | _ => exact trivial

theorem Service.Traced.answers (h : Service.Traced P a l c) {n : Nat} {op : Op β} {r : Except DartError (Ans op)}
    (hm : ⟨op, r⟩ ∈ Async.callsOf n l) : Answers P a op r := by
  obtain ⟨e, he, -, ha⟩ := Async.mem_callsOf.mp hm
  have heff := (Async.Pool.Traced.made h he).answers
  rw [ha] at heff
  exact heff

/-- A contact is another user. -/
theorem Service.Traced.peer_ne (h : Service.Traced P a l c) {n : Nat} {conversation : String} {contact : Contact}
    (hp : PeerRead (Async.callsOf n l) conversation contact) : contact.id ≠ a.userId := by
  obtain ⟨conversations, v, participant, saved, h1, h2, h3, h4, h5, rfl, h7⟩ := hp
  have hne : participant.id ≠ a.userId := h.answers h1 v (List.mem_of_find?_eq_some h2) participant
    (by rw [h4]; exact List.mem_singleton_self _)
  cases saved with
  | none => exact hne
  | some saved => exact fun heq => hne ((h.answers h5 saved rfl).symm.trans heq)

/-- Where the database holds these conversations, the contact that is read is theirs. -/
theorem scripted_contact {conversations : List Conversation}
    {conversation : String} {contact contact' : Contact}
    (h : Async.Pool.Traced (Scripted P a conversations) (Invocation.body P a) Environment {} l c)
    (hd : Direct a conversations conversation contact) (hr : ContactRead l conversation contact') : contact' = contact := by
  obtain ⟨n, conversations', v, participant, saved, h1, h2, -, h4, h5, rfl, -⟩ := hr
  have hsaid : ∀ {op : Op β} {r : Except DartError (Ans op)}, ⟨op, r⟩ ∈ Async.callsOf n l → Says conversations op r := by
    intro op r hm
    obtain ⟨e, he, -, ha⟩ := Async.mem_callsOf.mp hm
    have hmade := (Async.Pool.Traced.made h he).2
    rw [ha] at hmade
    exact hmade
  obtain rfl := Except.ok.inj (hsaid h1)
  obtain rfl := Except.ok.inj (hsaid h5)
  obtain ⟨v', hv', -, hp⟩ := hd.found
  obtain rfl := Option.some.inj (hv'.symm.trans h2)
  exact (List.singleton_inj.mp (hp.symm.trans h4)).symm

/-- A key that was derived is the key of a call. -/
theorem Service.Traced.key (h : Service.Traced P a l c) {n : Nat} {contact : Contact} {id : String} {k : List β}
    (hk : KeyRead P (Async.callsOf n l) contact id k) : k = callKey P a (parseIdentity contact.chhayaId.publicKey) id := by
  obtain ⟨pair, shared, h1, -, h3, h4⟩ := hk
  obtain rfl : pair = a.identity := h.answers h1 pair rfl
  obtain ⟨-, -, rfl⟩ := X25519Kex.sharedSecret_inv (h.answers h3)
  rw [Hkdf.deriveKey, if_neg (by decide)] at h4
  exact (Except.ok.inj h4).symm

/-- What a service seals is from the user. -/
theorem Service.Traced.seals (h : Service.Traced P a l c) (he : e ∈ l) {k : List β} {plaintext data : Bytes}
    (ho : e.answered.op = .encrypt k plaintext data) : ∃ type id receiver, data = aad type id a.userId receiver := by
  obtain ⟨l₁, l₀, hl⟩ := List.append_of_mem he
  have hf := h.follows hl
  rw [ho] at hf
  cases hf with
  | other ho hs =>
    rcases ho with ho | ho | ho
    · exact ho
    · exact ho.elim
    · exact ho.elim

variable {seals : Set (Seal β)}

/-- What opens under the key of a contact, and is not from the user, was sealed by the contact. -/
theorem IdealSeals.sealedFor (hs : IdealSeals P a seals l) (he : e ∈ l) {message : JsonFields} (hi : e.call = .handle message)
    {type id sender conversation envelope type' : String} (hm : Parts message type id sender conversation envelope)
    {contact : Contact} {id' : String} {body : JsonFields} (hne : sender ≠ a.userId)
    (ho : openSignal P a type' id sender envelope (callKey P a (parseIdentity contact.chhayaId.publicKey) id') = .ok body) :
    SealedFor a seals contact type' id envelope := by
  obtain ⟨payload, hp, -, -, henv⟩ := hm.payload
  obtain ⟨bytes, plaintext, hb, hd, -⟩ := open_inv ho
  obtain ⟨s, hmem, hkey, haad, -, hbytes⟩ := hs.opens e he bytes ⟨message, payload, envelope, hi, hp, henv, hb⟩ _ _ _ _ hd
  rcases hs.owners s hmem _ _ hkey with howner | howner
  · obtain ⟨l', c', ht, e', he', hop⟩ := hs.own s hmem _ _ hkey howner
    obtain ⟨t, i, r, heq⟩ := ht.seals he' hop
    exact absurd (aad_inj (haad.symm.trans heq)).2.2.1 hne
  · exact ⟨s, hmem, hbytes.symm ▸ hb, howner, sender, hne, haad⟩

/-- What the contact seals, and with which private key. -/
def attestedSeal (ts : List Attestation) (t : Attestation) : Seal SymByte where
  sealer := t.publicKey
  key := attestedKey ts t
  plaintext := utf8Encode (jsonEncode (.obj noFields.fields))
  aad := t.data
  bytes := attestedBytes ts t

/-- Where only this is sealed and delivered, ideal primitives grant what they should. -/
theorem attestedSeal_ideal {ts : List Attestation} {l : List (Event SymByte)} (hn : ts.length < 256)
    (hown : ∀ t ∈ ts, t.publicKey ≠ symbolic.x25519Public (octetSeed 1).1)
    (hl : ∀ e ∈ l, ∀ message, e.call = .handle message → ∃ t ∈ ts, ∃ type id sender conversation,
      Parts message type id sender conversation (base64Encode (attestedBytes ts t))) :
    IdealSeals (attestedCall ts) callee {s | ∃ t ∈ ts, s = attestedSeal ts t} l where
  opens := by
    rintro e he bytes ⟨message, payload, envelope, hi, hp, henv, hb⟩ A id data plaintext hopen
    obtain ⟨t, ht, type, id', sender, conversation, hm⟩ := hl e he message hi
    obtain ⟨payload', hp', -, -, henv'⟩ := hm.payload
    obtain rfl := Except.ok.inj (hp.symm.trans hp')
    obtain rfl := Except.ok.inj (henv.symm.trans henv')
    obtain rfl : attestedBytes ts t = bytes := Except.ok.inj ((base64Decode_base64Encode _).symm.trans hb)
    obtain ⟨hkey, rfl, rfl⟩ := attestedBytes_opens hn ht hopen
    rw [hkey, AesGcm.decryptBytes_encryptBytes _ (attestedBytes_sealed ts t)] at hopen
    exact ⟨attestedSeal ts t, ⟨t, ht, rfl⟩, hkey.symm, rfl, Except.ok.inj hopen, rfl⟩
  owners := by
    rintro s ⟨t, ht, rfl⟩ A id hkey
    have hself : t.binds (attestedKey ts t) t.data = true := binds_callKey.mpr ⟨rfl, rfl, rfl⟩
    rw [show attestedKey ts t = callKey (attestedCall ts) callee A id from hkey] at hself
    exact Or.inr (binds_callKey.mp hself).1.symm
  own := by
    rintro s ⟨t, ht, rfl⟩ A id hkey hsealer
    exact absurd hsealer (hown t ht)

/-- The conversations with two contacts. -/
def twoChats : List Conversation := [directWith "ca" (octetPeer 2 "a"), directWith "cb" (octetPeer 3 "b")]

/-- The offers of the contacts, who have chosen the ids of their calls. -/
def offerA : Attestation := ⟨2, "ida", aad "offer" "ida" "a" "user"⟩
def offerB : Attestation := ⟨3, "idb", aad "offer" "idb" "b" "user"⟩

/-- What the first contact seals under the key of its own call, bound to the end of the call of the second. -/
def forgery : Attestation := ⟨2, "ida", aad "call-end" "idb" "b" "user"⟩

/-- All that is sealed. -/
def crossSeals : List Attestation := [offerA, offerB, forgery]

/-- The cipher where nothing else is sealed. -/
abbrev crossCipher : Primitives SymByte := attestedCall crossSeals

/-- The sealed bytes, as they are sent. -/
def crossEnvelope (t : Attestation) : String := base64Encode (attestedBytes crossSeals t)

/-- The signals with the offers, and the one with the end. -/
def signalA : JsonFields := attestedSignal crossSeals offerA "offer" "a" "ida" "ca"
def signalB : JsonFields := attestedSignal crossSeals offerB "offer" "b" "idb" "cb"
def forgedSignal : JsonFields := attestedSignal crossSeals forgery "call-end" "b" "idb" "cb"

/-- The calls that ring. -/
def incomingA : IncomingCall := ⟨"ida", "ca", "a", crossEnvelope offerA, false⟩
def incomingB : IncomingCall := ⟨"idb", "cb", "b", crossEnvelope offerB, false⟩

/-- The call with the second contact is active under the key of the first. -/
def crossedWorld : World SymByte where
  fields.socket := true
  fields.peerAnswered := true
  fields.callId := some "idb"
  fields.conversationId := some "cb"
  fields.peerId := some "b"
  fields.signalKey := some (attestedKey crossSeals forgery)

/-- What was delivered and accepted when the calls have crossed. -/
def CrossedCall (i : Invocation) : Prop :=
  i = .handle signalA ∨ i = .handle signalB ∨ i = .accept incomingA ∨ i = .accept incomingB

/-- The runs where the database holds the two conversations. -/
abbrev CrossTraced (l : List (Event SymByte)) (c : Service SymByte) : Prop :=
  Async.Pool.Traced (Scripted crossCipher callee twoChats) (Invocation.body crossCipher callee) Environment {} l c

theorem direct_a : Direct callee twoChats "ca" (octetPeer 2 "a") := direct_octets (by decide) (by decide)

theorem direct_b : Direct callee twoChats "cb" (octetPeer 3 "b") := direct_octets (by decide) (by decide)

/-- Both offers ring, and the calls are accepted at the same time. -/
theorem crossed_run : ∃ l ts es, (∀ e ∈ l, CrossedCall e.call) ∧ (∃ e ∈ l, e.answered.op = .announce incomingA) ∧
    (∃ e ∈ l, e.answered.op = .announce incomingB) ∧ CrossTraced l ⟨crossedWorld, ts, 4, es⟩ := by
  have hinit : CrossTraced [] ⟨{ fields := { socket := true } }, [], 0, []⟩ := .quiet .init (.other ⟨true, rfl⟩)
  obtain ⟨la, ea, _, hla, hea, ha⟩ := @attested_rings crossSeals offerA twoChats "a" "ca" direct_a rfl _ _ _ _ rfl hinit
  obtain ⟨lb, eb, _, hlb, heb, hb⟩ := @attested_rings crossSeals offerB twoChats "b" "cb" direct_b rfl _ _ _ _ rfl ha
  have hstart := Async.Pool.Traced.quiet (.quiet hb (.start (.accept incomingA))) (.start (.accept incomingB))
  obtain ⟨pa, hpa, hpa'⟩ := @accept_begins _ crossCipher callee { fields := { socket := true } } 2 (.accept incomingA)
    _ _ incomingA direct_a rfl
  obtain ⟨pb, hpb, hpb'⟩ := @accept_begins _ crossCipher callee { fields := { socket := true } } 3 (.accept incomingB)
    _ _ incomingB direct_b rfl
  have hparse : parseIdentity (octetPeer 2 "a").chhayaId.publicKey = offerA.publicKey := parseIdentity_identityOf _
  have hopen : openSignal crossCipher callee "offer" "ida" "a" (crossEnvelope offerA)
      (callKey crossCipher callee (parseIdentity (octetPeer 2 "a").chhayaId.publicKey) "ida") = .ok noFields.fields := by
    rw [hparse]
    exact open_seal (attestedBytes_sealed crossSeals offerA)
  obtain ⟨l₁, h₁, ht₁⟩ := hstart.second hpa
  obtain ⟨l₂, h₂, ht₂⟩ := ht₁.first hpb
  obtain ⟨l₃, h₃, ht₃⟩ := ht₂.second (hpa' _)
  obtain ⟨l₄, h₄, ht₄⟩ := ht₃.first (hpb' _)
  obtain ⟨pk, hpk⟩ := @pickUp_stores _ crossCipher callee _ 2 (.accept incomingA) _ _ incomingA direct_a _ false hopen rfl
  obtain ⟨l₅, h₅, ht₅⟩ := ht₄.second hpk
  rw [hparse] at ht₅
  refine ⟨_, _, _, fun e he => ?_, ⟨ea, by simp, hea⟩, ⟨eb, by simp, heb⟩, ht₅⟩
  simp only [List.append_nil, List.mem_append] at he
  rcases he with he | he | he | he | he | he | he
  · exact Or.inr (Or.inr (Or.inl (h₅ e he).2))
  · exact Or.inr (Or.inr (Or.inr (h₄ e he).2))
  · exact Or.inr (Or.inr (Or.inl (h₃ e he).2))
  · exact Or.inr (Or.inr (Or.inr (h₂ e he).2))
  · exact Or.inr (Or.inr (Or.inl (h₁ e he).2))
  · exact Or.inr (Or.inl (hlb e he).2)
  · exact Or.inl (hla e he).2

end Runs

end CallService

end Chhaya
