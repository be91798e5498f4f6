import Chhaya.Server.Api

/-!
# The signaling server

`backend/server/src/signaling.ts` beside the API: sockets, the clients that joined on them, and the frames that are put on
them. A handler of a socket awaits statements; what it does between two of them is one act. Connections are numbered, where
the source draws a UUID for each.

- `Hub.act`: what the acts do.
- `serveHub`: the handlers of sockets and timers, and the requests of the API.
- `HubEffect`: what a call does.
- `handleMessage`: the handler of a frame.
-/

namespace Chhaya

namespace Server

/-! ## Clients and frames -/

/-- `SignalingMessage`, with `from` as `sender` and `to` as `recipient`. -/
structure Signal where
  type : String
  payload : Json
  sender : String
  recipient : Option String
  timestamp : Nat

/-- An object in the map of clients. `ref` says which one it is, since a handler may hold one that was replaced. -/
structure ConnectedClient where
  id : Nat
  ws : Nat
  userId : Uuid
  deviceId : Json
  conversationId : Option Json
  lastPing : Nat
  sessionToken : String
  ref : Nat

/-- Whether `readyState` is `OPEN`, and whether the interval of the heartbeat runs. -/
structure Socket where
  isOpen : Bool := false
  pingInterval : Bool := false

/-- The state of the module, and the frames that were sent, the newest first. -/
structure Hub where
  clients : AList fun _ : Nat => ConnectedClient := ∅
  userClients : AList fun _ : String => List Nat := ∅
  sockets : Nat → Socket := fun _ => {}
  connections : Nat := 0
  objects : Nat := 0
  sent : List (Nat × Signal) := []

namespace Hub

variable (h : Hub)

/-- The clients of a user. -/
def members (user : String) : List Nat := (h.userClients.lookup user).getD []

/-- `send`. -/
def send (ws : Nat) (signal : Signal) : Hub := if (h.sockets ws).isOpen then { h with sent := (ws, signal) :: h.sent } else h

/-- `ws.close()`. -/
def close (ws : Nat) : Hub := { h with sockets := Function.update h.sockets ws { h.sockets ws with isOpen := false } }

/-- `clearInterval(pingInterval)`. -/
def clearPing (ws : Nat) : Hub :=
  { h with sockets := Function.update h.sockets ws { h.sockets ws with pingInterval := false } }

/-- `clients.set(...)`, and the entry in `userClients`. -/
def register (client : ConnectedClient) : Hub :=
  let ids := h.members client.userId.text
  { h with
    clients := h.clients.insert client.id client
    userClients := h.userClients.insert client.userId.text (if client.id ∈ ids then ids else ids ++ [client.id])
    objects := h.objects + 1 }

/-- The id leaves the set of a user, and the set goes with its last member. -/
def leave (user : String) (id : Nat) : Hub :=
  match h.userClients.lookup user with
  | none => h
  | some ids =>
    let ids := ids.filter (· ≠ id)
    { h with userClients := if ids = [] then h.userClients.erase user else h.userClients.insert user ids }

/-- `handleDisconnect`. -/
def disconnect (id : Nat) : Hub :=
  match h.clients.lookup id with
  | none => h
  | some client => ({ h with clients := h.clients.erase id } : Hub).leave client.userId.text id

/-- `client.lastPing = Date.now()`, which is seen in the map while the object is there. -/
def pong (client : ConnectedClient) (now : Nat) : Hub :=
  match h.clients.lookup client.id with
  | none => h
  | some c => if c.ref = client.ref then { h with clients := h.clients.insert client.id { c with lastPing := now } } else h

/-- `broadcastToUser`. -/
def broadcast (user : String) (signal : Signal) : Hub :=
  (h.members user).foldl (fun h' id =>
    match h'.clients.lookup id with
    | some client => h'.send client.ws signal
    | none => h') h

/-- The heartbeat of a connection. -/
def heartbeat (id now : Nat) : Hub :=
  if (h.sockets id).pingInterval then
    match h.clients.lookup id with
    | none => h.clearPing id
    | some client =>
      if client.lastPing + 30000 < now then (h.clearPing id).disconnect id
      else h.send id ⟨"ping", .obj [], "server", none, now⟩
  else h

/-- `cleanupStaleClients`. -/
def cleanupStaleClients (now : Nat) : Hub :=
  h.clients.entries.foldl (fun h' e => if e.2.lastPing + 60000 < now then (h'.close e.2.ws).disconnect e.1 else h') h

end Hub

/-! ## Calls -/

/-- What is done at once. -/
inductive HubAct
  | connect
  | send (ws : Nat) (type : String) (payload : Json)
  | close (ws : Nat)
  | register (id : Nat) (userId : Uuid) (deviceId : Json) (conversationId : Option Json) (token : String)
  | pong (client : ConnectedClient)
  | broadcast (user type : String) (payload : Json) (sender : String)
  | closed (id : Nat)
  | heartbeat (id : Nat)
  | cleanup

/-- An act at a time. -/
def Hub.act (h : Hub) (now : Nat) : HubAct → Hub
  | .connect => { h with
      sockets := Function.update h.sockets h.connections ⟨true, true⟩
      connections := h.connections + 1 }
  | .send ws type payload => h.send ws ⟨type, payload, "server", none, now⟩
  | .close ws => h.close ws
  | .register id userId deviceId conversationId token =>
    h.register ⟨id, id, userId, deviceId, conversationId, now, token, h.objects⟩
  | .pong client => h.pong client now
  | .broadcast user type payload sender => h.broadcast user ⟨type, payload, sender, some user, now⟩
  | .closed id => (({ h with sockets := Function.update h.sockets id {} } : Hub).disconnect id)
  | .heartbeat id => h.heartbeat id now
  | .cleanup => h.cleanupStaleClients now

/-- The statements of the module, but for that of `authenticateToken`. The column `last_active_at` is not modelled. -/
inductive HubSql
  | userById (id : Uuid)
  | membership (conversationId : String) (userId : Uuid)
  | touchParticipant (conversationId : String) (userId : Uuid)
  | participantsAmong (conversationId : String) (users : List String)

@[reducible] def HubSql.Rows : HubSql → Type
  | userById _ => List Uuid
  | membership _ _ => Nat
  | touchParticipant _ _ => Unit
  | participantsAmong _ _ => List Uuid

/-- The active participants of a conversation among some users. -/
def Db.participantsAmong (d : Db) (conversation : Uuid) (users : List Uuid) : List Uuid :=
  (d.participants.filter fun p => p.conversationId == conversation && users.contains p.userId && p.leftAt.isNone).map
    ParticipantRow.userId

/-- What a statement returns; `none` is an error. -/
def HubSql.exec (d : Db) : (q : HubSql) → Option q.Rows
  | .userById id => some ((d.users.filter fun u => u.id == id).map UserRow.id)
  | .membership conversationId userId => do
    let conversation ← Uuid.read conversationId
    return (d.participantsAmong conversation [userId]).length
  | .touchParticipant conversationId _ => (Uuid.read conversationId).map fun _ => ()
  | .participantsAmong conversationId users => do
    let conversation ← Uuid.read conversationId
    let users ← users.mapM Uuid.read
    return d.participantsAmong conversation users

/-- What is called: by a request of the API, a statement, a look at the map of clients, or an act. -/
inductive HubOp
  | rest (op : Op)
  | query (q : HubSql)
  | getClient (id : Nat)
  | act (a : HubAct)

@[reducible] def HubAns : HubOp → Type
  | .rest op => Ans op
  | .query q => q.Rows
  | .getClient _ => Option ConnectedClient
  | .act _ => Unit

abbrev HubProg (α : Type) := Async HubOp HubAns ServerError α

/-- A program of the API. -/
def rest {α : Type} : Prog α → HubProg α
  | .done a => .done a
  | .throw e => .throw e
  | .call op k => .call (.rest op) fun a => rest (k a)

def ask (q : HubSql) : HubProg q.Rows := Async.await (HubOp.query q)

def getClient (id : Nat) : HubProg (Option ConnectedClient) := Async.await (HubOp.getClient id)

def act (a : HubAct) : HubProg Unit := Async.await (HubOp.act a)

/-- The server with its sockets. -/
structure HubState where
  world : World := {}
  hub : Hub := {}

/-- The frame of a new message. -/
def newMessage (n : Notification) (now : Nat) : Signal :=
  ⟨"new_message", .obj [("conversationId".toList, .str n.conversationId.toList), ("messageId".toList, .str n.messageId.toList)],
    "server", none, now⟩

/-- `broadcastToUser` in the loop over the participants of `POST /messages`. -/
def Hub.announce (h : Hub) (n : Notification) (now : Nat) : Hub :=
  n.users.foldl (fun h user => h.broadcast user.text (newMessage n now)) h

/-- What an operation of the API does to the sockets. -/
def Hub.notified (h : Hub) (now : Nat) : Op → Hub
  | .notify n => h.announce n now
  | _ => h

/-- What a call does. The time is what `Date.now()` gives. -/
inductive HubEffect (platform : Platform) : HubState → (op : HubOp) → Except ServerError (HubAns op) → HubState → Prop
  | rest {w w' : World} {op : Op} {a : Except ServerError (Ans op)} (h : Hub) (now : Nat) (he : Effect platform w op a w') :
    HubEffect platform ⟨w, h⟩ (.rest op) a ⟨w', h.notified now op⟩
  | query (w : World) (h : Hub) (q : HubSql) (t : Nat) (a : q.Rows) (he : q.exec (w.db.at t) = some a) :
    HubEffect platform ⟨w, h⟩ (.query q) (.ok a) ⟨{ w with db := w.db.at t }, h⟩
  | fails (s : HubState) (q : HubSql) (e : String) : HubEffect platform s (.query q) (.error (.error e)) s
  | getClient (s : HubState) (id : Nat) : HubEffect platform s (.getClient id) (.ok (s.hub.clients.lookup id)) s
  | act (w : World) (h : Hub) (now : Nat) (a : HubAct) : HubEffect platform ⟨w, h⟩ (.act a) (.ok ()) ⟨w, h.act now a⟩

/-! ## Reading a frame -/

/-- Whether a JavaScript value is truthy. A number that is not more than half the least double reads as zero. -/
def truthy : Option Json → Bool
  | none | some .null => false
  | some (.bool b) => b
  | some (.int i) => i != 0
  | some (.double d) => decide (1 / 2 ^ 1075 < |d.value|)
  | some (.str s) => s != []
  | some (.arr _) | some (.obj _) => true

/-- `value.key`, which throws on `undefined` and `null`. -/
def field (value : Option Json) (key : String) : HubProg (Option Json) :=
  match value with
  | none | some .null => .throw (.error "TypeError")
  | some (.obj fields) => return Zod.lookup fields key
  | some _ => return none

/-- `value?.key`. -/
def fieldOrUndefined (value : Option Json) (key : String) : Option Json :=
  match value with
  | some (.obj fields) => Zod.lookup fields key
  | _ => none

/-- The text of a statement's parameter for an id. What is not a string is never the text of an id. -/
def idText : Option Json → String
  | some (.str s) => String.ofList s
  | _ => ""

/-! ## Handlers -/

section Handlers

variable (platform : Platform)

/-- `authenticateToken` on a value of any type. -/
def authenticateValue : Option Json → HubProg (Option Uuid)
  | some (.str token) => rest (authenticateToken platform (String.ofList token))
  | _ => return none

/-- `{ message: text }` from the server. -/
def refuse (ws : Nat) (text : String) : HubProg Unit :=
  act (.send ws "error" (.obj [("message".toList, .str text.toList)]))

/-- The end of `handleJoin`. -/
def welcome (id : Nat) (userId : Uuid) (deviceId : Json) (conversationId : Option Json) (token : String) : HubProg Unit := do
  act (.register id userId deviceId conversationId token)
  act (.send id "join" (.obj [("status".toList, .str "ok".toList), ("clientId".toList, .str (toString id).toList)]))

/-- `handleJoin` from where the user is known. -/
def joinAs (id : Nat) (userId : Uuid) (deviceId : Json) (conversationId : Option Json) (token : String) : HubProg Unit := do
  let userResult ← ask (.userById userId)
  if userResult.length = 0 then
    refuse id "User not found"
    act (.close id)
  else if truthy conversationId then do
    let membership ← ask (.membership (idText conversationId) userId)
    if membership ≠ 1 then act (.close id)
    else do
      ask (.touchParticipant (idText conversationId) userId)
      welcome id userId deviceId conversationId token
  else welcome id userId deviceId conversationId token

/-- `handleJoin` from where the session was looked up. -/
def handleJoined (id : Nat) (found : Option Uuid) (deviceId conversationId token : Option Json) : HubProg Unit :=
  match found, deviceId with
  | some userId, some device =>
    if truthy (some device) then joinAs id userId device conversationId (idText token)
    else do
      refuse id "Missing userId or deviceId"
      act (.close id)
  | _, _ => do
    refuse id "Missing userId or deviceId"
    act (.close id)

/-- `handleJoin`. -/
def handleJoin (id : Nat) (msg : Json) : HubProg Unit := do
  let payload ← field (some msg) "payload"
  let deviceId ← field payload "deviceId"
  let conversationId ← field payload "conversationId"
  let token ← field payload "token"
  handleJoined id (← authenticateValue platform token) deviceId conversationId token

/-- `handleWebRTCSignal` for a client that is there. -/
def relay (type : String) (msg : Json) (fromClient : ConnectedClient) : HubProg Unit :=
  let payload := fieldOrUndefined (some msg) "payload"
  match fieldOrUndefined (some msg) "to", payload, fieldOrUndefined payload "conversationId",
    fieldOrUndefined payload "callId" with
  | some (.str recipient), some payload, some (.str conversationId), some (.str _) => do
    let allowed ← ask (.participantsAmong (String.ofList conversationId) [fromClient.userId.text, String.ofList recipient])
    if allowed.length ≠ 2 then return ()
    else act (.broadcast (String.ofList recipient) type payload fromClient.userId.text)
  | _, _, _, _ => return ()

/-- `handleWebRTCSignal`. -/
def handleWebRTCSignal (id : Nat) (type : String) (msg : Json) : HubProg Unit := do
  match ← getClient id with
  | none => return ()
  | some fromClient => relay type msg fromClient

/-- Whether the session of a client that has joined still stands for its user. -/
def sessionHolds : Option ConnectedClient → HubProg Bool
  | none => return true
  | some client => do return (← rest (authenticateToken platform client.sessionToken)) == some client.userId

/-- The `switch` of `handleMessage`. -/
def dispatch (id : Nat) (msg : Json) (client : Option ConnectedClient) : Option Json → HubProg Unit
  | some (.str type) =>
    if String.ofList type = "join" then handleJoin platform id msg
    else if String.ofList type ∈ ["offer", "answer", "ice-candidate", "call-end"] then
      handleWebRTCSignal id (String.ofList type) msg
    else if String.ofList type = "pong" then
      match client with
      | some client => act (.pong client)
      | none => return ()
    else return ()
  | _ => return ()

/-- `handleMessage`. -/
def handleMessage (id : Nat) (msg : Json) : HubProg Unit := do
  let client ← getClient id
  if ← sessionHolds platform client then dispatch platform id msg client (← field (some msg) "type")
  else act (.close id)

/-- The `try` of the handler of a frame; `none` stands for one that does not parse. -/
def handleData (id : Nat) : Option Json → HubProg Unit
  | none => .throw (.error "SyntaxError")
  | some msg => handleMessage platform id msg

/-- The handler of a frame. -/
def onMessage (id : Nat) (data : Option Json) : HubProg Unit := do
  match ← (handleData platform id data).attempt with
  | .ok () => return ()
  | .error _ => refuse id "Invalid message format"

/-- What happens on the server. -/
inductive HubCall
  | request (call : Call)
  | connection
  | message (id : Nat) (data : Option Json)
  | close (id : Nat)
  | heartbeat (id : Nat)
  | cleanup

/-- The handlers. Only a request is answered. -/
def serveHub : HubCall → HubProg (Option Response)
  | .request call => do return some (← rest (serve platform call))
  | .connection => do
    act .connect
    return none
  | .message id data => do
    onMessage platform id data
    return none
  | .close id => do
    act (.closed id)
    return none
  | .heartbeat id => do
    act (.heartbeat id)
    return none
  | .cleanup => do
    act .cleanup
    return none

end Handlers

end Server

end Chhaya
