import Chhaya.Codec.MessageCodec
import Chhaya.Lib.Trace

/-!
# Calls

`lib/services/call/call_service.dart`: the programs of a `CallService`, over what they await from the database, the key
manager, the signaling socket and WebRTC. What the display alone reads (`status`, `connected`, the renderers' streams) is
left out, and so is how the socket connects.

- `open_seal`: what one side of a call seals, the other opens.
- `open_inv`: what opens was sealed for this key and bound to this.
- `aad_inj`: what a signal is bound to determines its type, call, sender and receiver.
-/

namespace Chhaya

namespace CallService

/-! ## What calls are made of -/

/-- An `IncomingCall`. -/
structure IncomingCall where
  callId : String
  conversationId : String
  senderId : String
  envelope : String
  video : Bool
  deriving DecidableEq

/-- An `RTCSessionDescription`. -/
structure Description where
  sdp : String
  type : String
  deriving DecidableEq

/-- An `RTCIceCandidate`, whose line is an integer of 64 bits. -/
structure Candidate where
  candidate : Option String
  sdpMid : Option String
  sdpMLineIndex : Option Int
  fits : ∀ i, sdpMLineIndex = some i → Json.fits64 i = true
  deriving DecidableEq

/-- A `MediaStream` with its tracks. -/
structure MediaStream where
  id : Nat
  tracks : List Nat
  deriving DecidableEq

/-- The fields of a `CallService`. -/
structure Fields (β : Type) where
  /-- `_socket != null`. -/
  socket : Bool := false
  peerAnswered : Bool := false
  candidateOutbox : List Candidate := []
  /-- `_pc`, by a number. -/
  pc : Option Nat := none
  /-- `_local`. -/
  localStream : Option MediaStream := none
  callId : Option String := none
  conversationId : Option String := none
  peerId : Option String := none
  signalKey : Option (List β) := none
  renderersReady : Bool := false
  remoteReady : Bool := false
  /-- `_ringTimeout` is running. -/
  ringTimeout : Bool := false
  candidates : List Candidate := []

/-- A write of fields. -/
inductive Write (β : Type)
  | call (callId conversationId peerId : String)
  | signalKey (key : List β)
  | peerAnswered
  | renderersReady
  | localStream (stream : MediaStream)
  | pc (pc : Nat)
  | remoteReady
  | ringTimeout (running : Bool)
  | addToOutbox (candidate : Candidate)
  | clearOutbox
  | addCandidate (candidate : Candidate)
  | clearCandidates
  /-- The end of `end`. -/
  | clear

def Fields.write {β : Type} (f : Fields β) : Write β → Fields β
  | .call callId conversationId peerId =>
    { f with callId := some callId, conversationId := some conversationId, peerId := some peerId }
  | .signalKey key => { f with signalKey := some key }
  | .peerAnswered => { f with peerAnswered := true }
  | .renderersReady => { f with renderersReady := true }
  | .localStream stream => { f with localStream := some stream }
  | .pc pc => { f with pc := some pc }
  | .remoteReady => { f with remoteReady := true }
  | .ringTimeout running => { f with ringTimeout := running }
  | .addToOutbox candidate => { f with candidateOutbox := f.candidateOutbox ++ [candidate] }
  | .clearOutbox => { f with candidateOutbox := [] }
  | .addCandidate candidate => { f with candidates := f.candidates ++ [candidate] }
  | .clearCandidates => { f with candidates := [] }
  | .clear => { socket := f.socket, renderersReady := f.renderersReady }

/-- What a program asks for at once, and what it awaits. -/
inductive Op (β : Type)
  | fields
  /-- `_local?.getTracks() ?? []`. -/
  | localTracks
  | write (w : Write β)
  /-- `Uuid().v4()`. -/
  | uuid
  | now
  /-- `AesGcm.encryptBytes` with a random nonce. -/
  | encrypt (key : List β) (plaintext aad : Bytes)
  /-- `_socket.sink.add`. -/
  | send (message : JsonFields)
  /-- `_incoming.add`. -/
  | announce (incoming : IncomingCall)
  | getAllConversations
  | getContact (id : String)
  | getKeyPair
  | deriveSharedSecret (privateKey : List β) (publicKey : Bytes)
  | ensureConnected
  | initializeRenderer (remote : Bool)
  | getUserMedia (video : Bool)
  | createPeerConnection
  | addTrack (pc : Nat) (track : Nat) (stream : MediaStream)
  /-- `_pc.onIceCandidate = ...`. -/
  | listen (pc : Nat)
  | createOffer (pc : Nat)
  | createAnswer (pc : Nat)
  | setLocalDescription (pc : Nat) (description : Description)
  | setRemoteDescription (pc : Nat) (description : Description)
  | addCandidate (pc : Nat) (candidate : Candidate)
  | stop (track : Nat)
  | dispose (stream : MediaStream)
  | close (pc : Nat)

def Ans {β : Type} : Op β → Type
  | .fields => Fields β
  | .localTracks => List Nat
  | .uuid => String
  | .now => DateTime
  | .encrypt _ _ _ => Bytes
  | .getAllConversations => List Conversation
  | .getContact _ => Option Contact
  | .getKeyPair => Option (ChhayaKeyPair β)
  | .deriveSharedSecret _ _ => List β
  | .getUserMedia _ => MediaStream
  | .createPeerConnection => Nat
  | .createOffer _ | .createAnswer _ => Description
  | .write _ | .send _ | .announce _ | .ensureConnected | .initializeRenderer _ | .addTrack _ _ _ | .listen _
  | .setLocalDescription _ _ | .setRemoteDescription _ _ | .addCandidate _ _ | .stop _ | .dispose _ | .close _ => Unit

/-- What is answered in the same turn. -/
def Op.IsSync {β : Type} : Op β → Prop
  | .fields | .localTracks | .write _ | .uuid | .now | .encrypt _ _ _ | .send _ | .announce _ | .listen _ => True
  | _ => False

abbrev Prog (β α : Type) := Async (Op β) Ans DartError α

/-- The account that is signed in: the pair of the key manager and `api.userId`. -/
structure Account (β : Type) where
  identity : ChhayaKeyPair β
  userId : String

variable {β : Type}

/-! ## Signals -/

def fields : Prog β (Fields β) := Async.await (.fields : Op β)

def write (w : Write β) : Prog β Unit := Async.await (.write w : Op β)

/-- `_socket.sink.add(jsonEncode(message))`. -/
def emit (message : JsonFields) : Prog β Unit := Async.await (.send message : Op β)

/-- `x!`. -/
def nonNull {α : Type} : Option α → Prog β α
  | some a => return a
  | none => .throw (.type "Null check operator used on a null value")

/-- `for (final a in l)`. -/
def forEach {α : Type} : List α → (α → Prog β Unit) → Prog β Unit
  | [], _ => return ()
  | a :: l, body => do body a; forEach l body

/-- `j as String?`. -/
def asNullableString : Json → Except DartError (Option String)
  | .null => .ok none
  | .str s => .ok (some (String.ofList s))
  | j => .error (castError j "String?")

/-- `j as int?`, of 64 bits. -/
def asNullableInt : Json → Except DartError (Option Int)
  | .null => .ok none
  | .int i => .ok (some i)
  | j => .error (castError j "int?")

/-- `j as bool? ?? false`. -/
def asBoolOrFalse : Json → Except DartError Bool
  | .null => .ok false
  | .bool b => .ok b
  | j => .error (castError j "bool?")

/-- `Map<String, dynamic>.from(j as Map)`. -/
def mapFrom : Json → Except DartError JsonFields
  | .obj l => .ok l
  | j => .error (castError j "Map<dynamic, dynamic>")

/-- `_aad`. -/
def aad (type callId sender receiver : String) : Bytes :=
  utf8Encode (jsonEncode (.arr [.str type.toList, .str callId.toList, .str sender.toList, .str receiver.toList]))

/-- The input of the HKDF that makes the key of a call. -/
def callInfo (callId : String) : Bytes := utf8Encode ("Chhaya-call-v1:" ++ callId)

/-- `_peer`. -/
def peer (conversationId : String) : Prog β Contact := do
  let conversations ← Async.await (.getAllConversations : Op β)
  match conversations.find? fun c => c.id = conversationId with
  | none => .throw (.state "A direct conversation is required")
  | some conversation =>
    match conversation.isGroup, conversation.participants with
    | false, [participant] => do
      let contact ← Async.await (.getContact participant.id : Op β)
      let peer := contact.getD participant
      if peer.isVerified then return peer
      else .throw (.state "Verify this contact before calling")
    | _, _ => .throw (.state "A direct conversation is required")

/-- `_key`. -/
def key (P : Primitives β) (peer : Contact) (callId : String) : Prog β (List β) := do
  match ← Async.await (.getKeyPair : Op β) with
  | none => .throw (.state "Identity is locked")
  | some pair =>
    let hex := peer.chhayaId.publicKey
    if isIdentity hex then do
      let shared ← Async.await (.deriveSharedSecret pair.privateKey (parseIdentity hex) : Op β)
      Async.ofExcept (Hkdf.deriveKey P shared 32 none (some (callInfo callId)))
    else .throw (.state "Invalid peer key")

/-- `_open`. -/
def openSignal (P : Primitives β) (a : Account β) (type callId sender envelope : String) (key : List β) :
    Except DartError JsonFields := do
  decodeMap (← AesGcm.decryptBytes P key (← base64Decode envelope) (aad type callId sender a.userId))

/-- What a signal is bound to determines its type, call, sender and receiver. -/
theorem aad_inj {type type' id id' sender sender' receiver receiver' : String}
    (h : aad type id sender receiver = aad type' id' sender' receiver') :
    type = type' ∧ id = id' ∧ sender = sender' ∧ receiver = receiver' := by
  have hj := jsonEncode_inj (by simp [Json.WF, Json.WFElements]) (by simp [Json.WF, Json.WFElements])
    (utf8Encode_injective h)
  simp only [Json.arr.injEq, List.cons.injEq, Json.str.injEq, and_true] at hj
  obtain ⟨h1, h2, h3, h4⟩ := hj
  exact ⟨String.toList_injective h1, String.toList_injective h2, String.toList_injective h3, String.toList_injective h4⟩

/-- What one side of a call seals, the other opens. -/
theorem open_seal {P : Primitives β} {a : Account β} {type id sender : String} {k nonce : List β} {body : JsonMap}
    {out : Bytes} (h : AesGcm.encryptBytes P k (utf8Encode (jsonEncode (.obj body.fields))) nonce
      (aad type id sender a.userId) = .ok out) : openSignal P a type id sender (base64Encode out) k = .ok body.fields := by
  unfold openSignal
  rw [base64Decode_base64Encode]
  show (AesGcm.decryptBytes P k out _ >>= decodeMap) = _
  rw [AesGcm.decryptBytes_encryptBytes P h]
  exact decodeMap_jsonEncode body

/-- What opens was sealed for this key and bound to this. -/
theorem open_inv {P : Primitives β} {a : Account β} {type id sender envelope : String} {k : List β} {body : JsonFields}
    (h : openSignal P a type id sender envelope k = .ok body) : ∃ bytes plaintext, base64Decode envelope = .ok bytes ∧
      AesGcm.decryptBytes P k bytes (aad type id sender a.userId) = .ok plaintext ∧ decodeMap plaintext = .ok body := by
  unfold openSignal at h
  obtain ⟨bytes, hb, h⟩ := except_bind_ok h
  obtain ⟨plaintext, hp, h⟩ := except_bind_ok h
  exact ⟨bytes, plaintext, hb, hp, h⟩

/-- A field of type `String?`. -/
def nullableText (s : Option String) : Json := s.elim .null fun s => .str s.toList

/-- What goes to the server for a signal. -/
def signal (a : Account β) (type : String) (receiver : Option String) (timestamp : DateTime) (callId : String)
    (conversationId : Option String) (envelope : String) : JsonFields :=
  [("type".toList, .str type.toList), ("to".toList, nullableText receiver), ("from".toList, .str a.userId.toList),
    ("timestamp".toList, .int timestamp.millisecondsSinceEpoch),
    ("payload".toList, .obj [("callId".toList, .str callId.toList),
      ("conversationId".toList, nullableText conversationId), ("envelope".toList, .str envelope.toList)])]

/-- `_send`, with `_seal`. -/
def send (a : Account β) (type : String) (body : JsonFields) : Prog β Unit := do
  let f ← fields
  if f.socket then
    match f.callId with
    | none => .throw (.state "Signaling connection unavailable")
    | some callId => do
      let timestamp ← Async.await (.now : Op β)
      let key ← nonNull f.signalKey
      let peerId ← nonNull f.peerId
      let bytes ← Async.await (.encrypt key (utf8Encode (jsonEncode (.obj body))) (aad type callId a.userId peerId) : Op β)
      emit (signal a type f.peerId timestamp callId f.conversationId (base64Encode bytes))
  else .throw (.state "Signaling connection unavailable")

/-- The body of an `offer`. -/
def offerBody (offer : Description) (video : Bool) : JsonFields :=
  [("sdp".toList, .str offer.sdp.toList), ("type".toList, .str offer.type.toList), ("video".toList, .bool video)]

/-- The body of an `answer`. -/
def answerBody (answer : Description) : JsonFields :=
  [("sdp".toList, .str answer.sdp.toList), ("type".toList, .str answer.type.toList)]

/-- The body of an `ice-candidate`. -/
def candidateBody (c : Candidate) : JsonFields :=
  [("candidate".toList, nullableText c.candidate), ("sdpMid".toList, nullableText c.sdpMid),
    ("sdpMLineIndex".toList, c.sdpMLineIndex.elim .null .int)]

/-- The description in the body of an `offer` or `answer`. -/
def descriptionOf (body : JsonFields) : Except DartError Description := do
  return ⟨← asString (field body "sdp"), ← asString (field body "type")⟩

/-! ## The programs -/

/-- The loop over `_candidates`: `n` of its `length` candidates are left. A list that changes meanwhile ends it. -/
def drain (length : Nat) : Nat → Prog β Unit
  | 0 => do
    let f ← fields
    if f.candidates.length ≠ length then .throw (.state "Concurrent modification during iteration")
    else return ()
  | n + 1 => do
    let f ← fields
    if f.candidates.length ≠ length then .throw (.state "Concurrent modification during iteration")
    else
      let candidate ← nonNull f.candidates[length - (n + 1)]?
      let pc ← nonNull f.pc
      Async.await (.addCandidate pc candidate : Op β)
      drain length n

/-- `for (final candidate in _candidates) { await _pc!.addCandidate(candidate); } _candidates.clear();` -/
def addCandidates : Prog β Unit := do
  let f ← fields
  drain f.candidates.length f.candidates.length
  write .clearCandidates

def initializeRenderers : Prog β Unit := do
  if (← fields).renderersReady then return ()
  else
    Async.await (.initializeRenderer false : Op β)
    Async.await (.initializeRenderer true : Op β)
    write .renderersReady

/-- `_prepare`. -/
def prepare (video : Bool) : Prog β Unit := do
  initializeRenderers
  let stream ← Async.await (.getUserMedia video : Op β)
  write (.localStream stream)
  let pc ← Async.await (.createPeerConnection : Op β)
  write (.pc pc)
  let tracks ← nonNull (← fields).localStream
  forEach tracks.tracks fun track => do
    let f ← fields
    let pc ← nonNull f.pc
    let stream ← nonNull f.localStream
    Async.await (.addTrack pc track stream : Op β)
  let pc ← nonNull (← fields).pc
  Async.await (.listen pc : Op β)

/-- `call` from where the call has its id. -/
def place (P : Primitives β) (a : Account β) (peer : Contact) (callId : String) (video : Bool) : Prog β Unit := do
  write (.signalKey (← key P peer callId))
  prepare video
  let pc ← nonNull (← fields).pc
  let offer ← Async.await (.createOffer pc : Op β)
  let pc ← nonNull (← fields).pc
  Async.await (.setLocalDescription pc offer : Op β)
  send a "offer" (offerBody offer video)
  write (.ringTimeout true)

def call (P : Primitives β) (a : Account β) (conversationId : String) (video : Bool) : Prog β Unit := do
  if (← fields).callId.isSome then .throw (.state "A call is already active")
  else
    let peer ← peer conversationId
    Async.await (.ensureConnected : Op β)
    if (← fields).socket then
      let callId ← Async.await (.uuid : Op β)
      write (.call callId conversationId peer.id)
      place P a peer callId video
    else .throw (.state "Connect your server first")

/-- `accept` from where the offer was opened. -/
def answer (a : Account β) (offer : JsonFields) : Prog β Unit := do
  write .peerAnswered
  prepare (← Async.ofExcept (asBoolOrFalse (field offer "video")))
  let pc ← nonNull (← fields).pc
  Async.await (.setRemoteDescription pc (← Async.ofExcept (descriptionOf offer)) : Op β)
  write .remoteReady
  addCandidates
  let pc ← nonNull (← fields).pc
  let answer ← Async.await (.createAnswer pc : Op β)
  let pc ← nonNull (← fields).pc
  Async.await (.setLocalDescription pc answer : Op β)
  send a "answer" (answerBody answer)

/-- `accept` from where the call has its id. -/
def pickUp (P : Primitives β) (a : Account β) (peer : Contact) (incoming : IncomingCall) : Prog β Unit := do
  write (.signalKey (← key P peer incoming.callId))
  let key ← nonNull (← fields).signalKey
  answer a (← Async.ofExcept (openSignal P a "offer" incoming.callId incoming.senderId incoming.envelope key))

def accept (P : Primitives β) (a : Account β) (incoming : IncomingCall) : Prog β Unit := do
  if (← fields).callId.isSome then .throw (.state "A call is already active")
  else
    let peer ← peer incoming.conversationId
    write (.call incoming.callId incoming.conversationId incoming.senderId)
    pickUp P a peer incoming

def reject (P : Primitives β) (a : Account β) (incoming : IncomingCall) : Prog β Unit := do
  if (← fields).callId.isSome then return ()
  else
    let key ← key P (← peer incoming.conversationId) incoming.callId
    let bytes ← Async.await (.encrypt key (utf8Encode "{}") (aad "call-end" incoming.callId a.userId incoming.senderId) :
      Op β)
    if (← fields).socket then
      emit [("type".toList, .str "call-end".toList), ("to".toList, .str incoming.senderId.toList),
        ("payload".toList, .obj [("callId".toList, .str incoming.callId.toList),
          ("conversationId".toList, .str incoming.conversationId.toList),
          ("envelope".toList, .str (base64Encode bytes).toList)])]
    else return ()

/-- The peer is notified that the call ends. -/
def sendEnd (a : Account β) (notifyPeer : Bool) : Prog β Unit := do
  let f ← fields
  if notifyPeer && f.callId.isSome && f.socket && f.signalKey.isSome then send a "call-end" [] else return ()

/-- `await _local?.dispose()`. -/
def disposeLocal : Prog β Unit := do
  match (← fields).localStream with
  | some stream => Async.await (.dispose stream : Op β)
  | none => return ()

/-- `await _pc?.close()`. -/
def closePc : Prog β Unit := do
  match (← fields).pc with
  | some pc => Async.await (.close pc : Op β)
  | none => return ()

/-- `end`. -/
def endCall (a : Account β) (notifyPeer : Bool) : Prog β Unit := do
  sendEnd a notifyPeer
  forEach (← Async.await (.localTracks : Op β)) fun track => Async.await (.stop track : Op β)
  disposeLocal
  closePc
  write .clear

/-- The handler `_pc.onIceCandidate`. -/
def onIceCandidate (a : Account β) (candidate : Candidate) : Prog β Unit := do
  if candidate.candidate.isSome then
    if (← fields).peerAnswered then send a "ice-candidate" (candidateBody candidate)
    else write (.addToOutbox candidate)

/-- `_handle` of an `offer` while no call is active. -/
def ring (P : Primitives β) (a : Account β) (id sender conversation : String) (payload : JsonFields) : Prog β Unit := do
  let peer ← peer conversation
  if peer.id ≠ sender then return ()
  else
    let key ← key P peer id
    let envelope ← Async.ofExcept (asString (field payload "envelope"))
    let offer ← Async.ofExcept (openSignal P a "offer" id sender envelope key)
    let video ← Async.ofExcept (asBoolOrFalse (field offer "video"))
    Async.await (.announce ⟨id, conversation, sender, envelope, video⟩ : Op β)

/-- `_handle` of an `answer`. -/
def handleAnswer (a : Account β) (body : JsonFields) : Prog β Unit := do
  write (.ringTimeout false)
  write .peerAnswered
  forEach (← fields).candidateOutbox fun candidate => send a "ice-candidate" (candidateBody candidate)
  write .clearOutbox
  let pc ← nonNull (← fields).pc
  Async.await (.setRemoteDescription pc (← Async.ofExcept (descriptionOf body)) : Op β)
  write .remoteReady
  addCandidates

/-- The parts of an `ice-candidate`. The line of a candidate has 64 bits. -/
def candidateOf (body : JsonFields) : Except DartError Candidate := do
  let candidate ← asNullableString (field body "candidate")
  let sdpMid ← asNullableString (field body "sdpMid")
  let sdpMLineIndex ← asNullableInt (field body "sdpMLineIndex")
  if h : ∀ i, sdpMLineIndex = some i → Json.fits64 i = true then return ⟨candidate, sdpMid, sdpMLineIndex, h⟩
  else throw (.format "Invalid integer")

/-- `_handle` of an `ice-candidate`. -/
def handleCandidate (body : JsonFields) : Prog β Unit := do
  let candidate ← Async.ofExcept (candidateOf body)
  let f ← fields
  if f.remoteReady then
    match f.pc with
    | some pc => Async.await (.addCandidate pc candidate : Op β)
    | none => pure ()
  else write (.addCandidate candidate)

/-- `_handle` of a signal of the active call. -/
def handleSignal (a : Account β) (type : String) (body : JsonFields) : Prog β Unit :=
  if type = "answer" then handleAnswer a body
  else if type = "ice-candidate" then handleCandidate body
  else if type = "call-end" then endCall a false
  else return ()

/-- `_handle` of a signal with this type. -/
def handleTyped (P : Primitives β) (a : Account β) (type : String) (message : JsonFields) : Prog β Unit := do
  let payload ← Async.ofExcept (mapFrom (field message "payload"))
  let id ← Async.ofExcept (asString (field payload "callId"))
  let sender ← Async.ofExcept (asString (field message "from"))
  let conversation ← Async.ofExcept (asString (field payload "conversationId"))
  let f ← fields
  if type = "offer" ∧ f.callId = none then ring P a id sender conversation payload
  else if some id ≠ f.callId ∨ some sender ≠ f.peerId then return ()
  else
    match f.signalKey with
    | none => return ()
    | some key => do
      let envelope ← Async.ofExcept (asString (field payload "envelope"))
      handleSignal a type (← Async.ofExcept (openSignal P a type id sender envelope key))

/-- `_handle` of a `ping`. -/
def pong : Prog β Unit := do
  if (← fields).socket then emit [("type".toList, .str "pong".toList), ("payload".toList, .obj [])]
  else return ()

/-- `_handle`. -/
def handle (P : Primitives β) (a : Account β) (message : JsonFields) : Prog β Unit := do
  match ← Async.ofExcept (asNullableString (field message "type")) with
  | none => return ()
  | some type =>
    if type = "join" then return ()
    else if type = "ping" then pong
    else if type ∈ ["offer", "answer", "ice-candidate", "call-end"] then handleTyped P a type message
    else return ()

/-! ## The service -/

/-- What starts a program: a user, a timer, a signal or a peer connection. -/
inductive Invocation
  | call (conversationId : String) (video : Bool)
  | accept (incoming : IncomingCall)
  | reject (incoming : IncomingCall)
  | endCall (notifyPeer : Bool)
  | handle (message : JsonFields)
  | onIceCandidate (candidate : Candidate)

def Invocation.body (P : Primitives β) (a : Account β) : Invocation → Prog β Unit
  | .call conversationId video => CallService.call P a conversationId video
  | .accept incoming => CallService.accept P a incoming
  | .reject incoming => CallService.reject P a incoming
  | .endCall notifyPeer => CallService.endCall a notifyPeer
  | .handle message => CallService.handle P a message
  | .onIceCandidate candidate => CallService.onIceCandidate a candidate

/-- The service with what WebRTC holds for it: the tracks that capture and the open peer connections, of all that were
made. -/
structure World (β : Type) where
  fields : Fields β := {}
  live : List Nat := []
  openPcs : List Nat := []
  tracks : List Nat := []
  pcs : List Nat := []

/-- What an operation answers and does. Everything that is awaited may also throw. -/
inductive Effect (P : Primitives β) (a : Account β) :
    World β → (op : Op β) → Except DartError (Ans op) → World β → Prop
  | fields (w : World β) : Effect P a w .fields (.ok w.fields) w
  | localTracks (w : World β) : Effect P a w .localTracks (.ok (w.fields.localStream.elim [] MediaStream.tracks)) w
  | write (w : World β) (x : Write β) : Effect P a w (.write x) (.ok ()) { w with fields := w.fields.write x }
  | uuid (w : World β) (id : String) : Effect P a w .uuid (.ok id) w
  | now (w : World β) (time : DateTime) : Effect P a w .now (.ok time) w
  | encrypt (w : World β) (k : List β) (plaintext aad : Bytes) (nonce : List β) (h : nonce.length = 12) :
    Effect P a w (.encrypt k plaintext aad) (AesGcm.encryptBytes P k plaintext nonce aad) w
  | send (w : World β) (message : JsonFields) : Effect P a w (.send message) (.ok ()) w
  | announce (w : World β) (incoming : IncomingCall) : Effect P a w (.announce incoming) (.ok ()) w
  | getAllConversations (w : World β) (conversations : List Conversation)
    /- `ApiService` leaves the user out of the participants. -/
    (h : ∀ c ∈ conversations, ∀ p ∈ c.participants, p.id ≠ a.userId) :
    Effect P a w .getAllConversations (.ok conversations) w
  | getContact (w : World β) (id : String) (contact : Option Contact) (h : ∀ c, contact = some c → c.id = id) :
    Effect P a w (.getContact id) (.ok contact) w
  | getKeyPair (w : World β) (locked : Bool) :
    Effect P a w .getKeyPair (.ok (if locked then none else some a.identity)) w
  | deriveSharedSecret (w : World β) (privateKey : List β) (publicKey : Bytes) :
    Effect P a w (.deriveSharedSecret privateKey publicKey) (X25519Kex.sharedSecret P privateKey publicKey) w
  | ensureConnected (w : World β) : Effect P a w .ensureConnected (.ok ()) w
  | initializeRenderer (w : World β) (remote : Bool) : Effect P a w (.initializeRenderer remote) (.ok ()) w
  | getUserMedia (w : World β) (video : Bool) (stream : MediaStream) (h : ∀ t ∈ stream.tracks, t ∉ w.tracks) :
    Effect P a w (.getUserMedia video) (.ok stream)
      { w with live := stream.tracks ++ w.live, tracks := stream.tracks ++ w.tracks }
  | createPeerConnection (w : World β) (pc : Nat) (h : pc ∉ w.pcs) :
    Effect P a w .createPeerConnection (.ok pc) { w with openPcs := pc :: w.openPcs, pcs := pc :: w.pcs }
  | addTrack (w : World β) (pc track : Nat) (stream : MediaStream) : Effect P a w (.addTrack pc track stream) (.ok ()) w
  | listen (w : World β) (pc : Nat) : Effect P a w (.listen pc) (.ok ()) w
  | createOffer (w : World β) (pc : Nat) (offer : Description) : Effect P a w (.createOffer pc) (.ok offer) w
  | createAnswer (w : World β) (pc : Nat) (answer : Description) : Effect P a w (.createAnswer pc) (.ok answer) w
  | setLocalDescription (w : World β) (pc : Nat) (d : Description) : Effect P a w (.setLocalDescription pc d) (.ok ()) w
  | setRemoteDescription (w : World β) (pc : Nat) (d : Description) : Effect P a w (.setRemoteDescription pc d) (.ok ()) w
  | addCandidate (w : World β) (pc : Nat) (c : Candidate) : Effect P a w (.addCandidate pc c) (.ok ()) w
  | stop (w : World β) (track : Nat) :
    Effect P a w (.stop track) (.ok ()) { w with live := w.live.filter (· ≠ track) }
  | dispose (w : World β) (stream : MediaStream) : Effect P a w (.dispose stream) (.ok ()) w
  | close (w : World β) (pc : Nat) : Effect P a w (.close pc) (.ok ()) { w with openPcs := w.openPcs.filter (· ≠ pc) }
  | throws (w : World β) (op : Op β) (e : DartError) (h : ¬op.IsSync) : Effect P a w op (.error e) w

/-- The socket comes and goes. -/
def Environment (w w' : World β) : Prop := ∃ socket, w' = { w with fields := { w.fields with socket := socket } }

abbrev Event (β : Type) := Async.Made Invocation (Op β) Ans DartError (World β)

/-! ## What the programs ask for -/

/-- The database and the keys are read. -/
def Op.IsRead : Op β → Prop
  | .fields | .getAllConversations | .getContact _ | .getKeyPair | .deriveSharedSecret _ _ => True
  | _ => False

/-- Media and a connection are acquired. -/
def Op.Acquires : Op β → Prop
  | .getUserMedia _ | .createPeerConnection | .write (.localStream _) | .write (.pc _) => True
  | _ => False

/-- Media and the connection are released. -/
def Op.Releases : Op β → Prop
  | .localTracks | .stop _ | .dispose _ | .close _ | .write .clear => True
  | _ => False

/-- Nothing is acquired or released, no call is set up and none is announced. What is sealed is sealed from the account. -/
def Op.Common (a : Account β) : Op β → Prop
  | .announce _ | .write (.call _ _ _) | .write (.signalKey _) => False
  | .encrypt _ _ data => ∃ type callId receiver, data = aad type callId a.userId receiver
  | op => ¬op.Acquires ∧ ¬op.Releases

section Every

open Async

variable {P : Primitives β} {a : Account β} {φ : Op β → Prop}

theorem common_fields : (Op.fields : Op β).Common a := ⟨id, id⟩

theorem fields_every (h : φ .fields) : (fields : Prog β (Fields β)).Every φ := .await h

theorem write_every {w : Write β} (h : φ (.write w)) : (write w).Every φ := .await h

theorem emit_every {message : JsonFields} (h : φ (.send message)) : (emit message : Prog β Unit).Every φ := .await h

theorem nonNull_every {α : Type} (o : Option α) : (nonNull o : Prog β α).Every φ := by
  cases o <;> exact trivial

theorem ofExcept_every {α : Type} (r : Except DartError α) : (ofExcept r : Prog β α).Every φ := by
  cases r <;> exact trivial

theorem forEach_every {α : Type} {body : α → Prog β Unit} (h : ∀ x, (body x).Every φ) (l : List α) :
    (forEach l body).Every φ := by
  induction l with
  | nil => exact trivial
  | cons x l ih => exact (h x).bind fun _ => ih

theorem peer_every (conversationId : String) : (peer conversationId : Prog β Contact).Every Op.IsRead := by
  refine .bind (.await trivial) fun conversations => ?_
  split
  · exact trivial
  · split
    · refine .bind (.await trivial) fun contact => ?_
      dsimp only
      split <;> exact trivial
    · exact trivial

theorem key_every (contact : Contact) (callId : String) : (key P contact callId).Every Op.IsRead := by
  refine .bind (.await trivial) fun pair => ?_
  cases pair with
  | none => exact trivial
  | some pair =>
    dsimp only
    split
    · exact .bind (.await trivial) fun _ => ofExcept_every _
    · exact trivial

theorem send_every (type : String) (body : JsonFields) : (send a type body).Every (Op.Common a) := by
  refine .bind (fields_every common_fields) fun f => ?_
  split
  · split
    · exact trivial
    · refine .bind (.await ⟨id, id⟩) fun _ => .bind (nonNull_every _) fun _ => .bind (nonNull_every _) fun _ => ?_
      exact .bind (.await ⟨_, _, _, rfl⟩) fun _ => emit_every ⟨id, id⟩
  · exact trivial

theorem drain_every (length n : Nat) : (drain length n : Prog β Unit).Every (Op.Common a) := by
  induction n with
  | zero =>
    refine .bind (fields_every common_fields) fun f => ?_
    split <;> exact trivial
  | succ n ih =>
    refine .bind (fields_every common_fields) fun f => ?_
    split
    · exact trivial
    · exact .bind (nonNull_every _) fun _ => .bind (nonNull_every _) fun _ => .bind (.await ⟨id, id⟩) fun _ => ih

theorem addCandidates_every : (addCandidates : Prog β Unit).Every (Op.Common a) :=
  .bind (fields_every common_fields) fun _ => .bind (drain_every _ _) fun _ => write_every ⟨id, id⟩

theorem initializeRenderers_every : (initializeRenderers : Prog β Unit).Every (Op.Common a) := by
  refine .bind (fields_every common_fields) fun f => ?_
  split
  · exact trivial
  · exact .bind (.await ⟨id, id⟩) fun _ => .bind (.await ⟨id, id⟩) fun _ => write_every ⟨id, id⟩

theorem sendEnd_every (notifyPeer : Bool) : (sendEnd a notifyPeer).Every (Op.Common a) := by
  refine .bind (fields_every common_fields) fun f => ?_
  split
  · exact send_every _ _
  · exact trivial

theorem onIceCandidate_every (candidate : Candidate) : (onIceCandidate a candidate).Every (Op.Common a) := by
  unfold onIceCandidate
  split
  · refine .bind (fields_every common_fields) fun f => ?_
    split
    · exact send_every _ _
    · exact write_every ⟨id, id⟩
  · exact trivial

theorem handleAnswer_every (body : JsonFields) : (handleAnswer a body).Every (Op.Common a) := by
  refine .bind (write_every ⟨id, id⟩) fun _ => .bind (write_every ⟨id, id⟩) fun _ =>
    .bind (fields_every common_fields) fun f => .bind (forEach_every (fun _ => send_every _ _) _) fun _ => ?_
  refine .bind (write_every ⟨id, id⟩) fun _ => .bind (fields_every common_fields) fun f =>
    .bind (nonNull_every _) fun _ => .bind (ofExcept_every _) fun _ => ?_
  exact .bind (.await ⟨id, id⟩) fun _ => .bind (write_every ⟨id, id⟩) fun _ => addCandidates_every

theorem handleCandidate_every (body : JsonFields) : (handleCandidate body : Prog β Unit).Every (Op.Common a) := by
  refine .bind (ofExcept_every _) fun _ => .bind (fields_every common_fields) fun f => ?_
  split
  · split
    · exact .await ⟨id, id⟩
    · exact trivial
  · exact write_every ⟨id, id⟩

theorem disposeLocal_every : (disposeLocal : Prog β Unit).Every fun op => op.Common a ∨ op.Releases := by
  refine .bind (fields_every (Or.inl common_fields)) fun f => ?_
  split
  · exact .await (Or.inr trivial)
  · exact trivial

theorem closePc_every : (closePc : Prog β Unit).Every fun op => op.Common a ∨ op.Releases := by
  refine .bind (fields_every (Or.inl common_fields)) fun f => ?_
  split
  · exact .await (Or.inr trivial)
  · exact trivial

theorem endCall_every (notifyPeer : Bool) : (endCall a notifyPeer).Every fun op => op.Common a ∨ op.Releases := by
  refine .bind ((sendEnd_every _).mono fun _ => Or.inl) fun _ => .bind (.await (Or.inr trivial)) fun _ => ?_
  refine .bind (forEach_every (fun track => ?_) _) fun _ => .bind disposeLocal_every fun _ =>
    .bind closePc_every fun _ => write_every (Or.inr trivial)
  exact .await (Or.inr trivial)

theorem handleSignal_every (type : String) (body : JsonFields) :
    (handleSignal a type body).Every fun op => op.Common a ∨ op.Releases := by
  unfold handleSignal
  split
  · exact (handleAnswer_every _).mono fun _ => Or.inl
  split
  · exact (handleCandidate_every _).mono fun _ => Or.inl
  split
  · exact endCall_every _
  · exact trivial

theorem prepare_every (video : Bool) : (prepare video : Prog β Unit).Every fun op => op.Common a ∨ op.Acquires := by
  refine .bind (initializeRenderers_every.mono fun _ => Or.inl) fun _ => .bind (.await (Or.inr trivial)) fun _ => ?_
  refine .bind (write_every (Or.inr trivial)) fun _ => .bind (.await (Or.inr trivial)) fun _ => ?_
  refine .bind (write_every (Or.inr trivial)) fun _ => .bind (fields_every (Or.inl common_fields)) fun _ => ?_
  refine .bind (nonNull_every _) fun _ => .bind (forEach_every (fun _ => ?_) _) fun _ => ?_
  · exact .bind (fields_every (Or.inl common_fields)) fun _ => .bind (nonNull_every _) fun _ =>
      .bind (nonNull_every _) fun _ => .await (Or.inl ⟨id, id⟩)
  · exact .bind (fields_every (Or.inl common_fields)) fun _ => .bind (nonNull_every _) fun _ => .await (Or.inl ⟨id, id⟩)

end Every

end CallService

end Chhaya
