import Chhaya.Codec.MessageCodec

/-!
# Stored sessions

`lib/core/crypto/ratchet/session_store.dart` and the JSON of `session_state.dart`. Both storages hold what a session was
written as and no session object, so an object that was loaded or saved shares nothing with them.

- `fromJson_toJson`: a session is read back as it was written.
- `LocalDatabaseSessionStorage.load_save`, `InMemorySessionStorage.load_save`: what was saved is loaded.
-/

namespace Chhaya

variable {β : Type}

/-! ## The interface -/

/-- A `SessionStorage`, where `Sessions` is what is stored. What throws stores nothing. -/
structure SessionStorage (β : Type) where
  Sessions : Type
  loadSession : Sessions → String → Except DartError (Option (SessionState β))
  saveSession : SessionState β → Sessions → Except DartError Sessions

/-! ## Sessions as JSON -/

namespace SessionState

/-- The text of a byte buffer in JSON. -/
def base64Json (bytes : Bytes) : Json := .str (base64Encode bytes).toList

/-- A skipped key in JSON. -/
def bundleJson (b : MessageKeyBundle UInt8) : Json :=
  .obj [("key".toList, base64Json b.messageKey), ("nonce".toList, base64Json b.nonce)]

/-- `toJson`. The newest entry of `skipped` stands first there and is written last. -/
def toJson (s : SessionState UInt8) : JsonFields :=
  [("peerId".toList, .str s.peerId.toList), ("initiatedByUs".toList, .bool s.initiatedByUs),
    ("rootKey".toList, base64Json s.rootKey), ("sendChainKey".toList, base64Json s.sendChainKey),
    ("sendCounter".toList, .int s.sendCounter), ("prevSendChainLength".toList, .int s.prevSendChainLength),
    ("sendInitialized".toList, .bool s.sendInitialized), ("recvChainKey".toList, base64Json s.recvChainKey),
    ("recvCounter".toList, .int s.recvCounter), ("recvGeneration".toList, .int s.recvGeneration),
    ("ourPrivateKey".toList, base64Json s.ourPrivateKey), ("ourPublicKey".toList, base64Json s.ourPublicKey),
    ("remotePublicKey".toList, base64Json s.remotePublicKey), ("spqrSeed".toList, base64Json s.spqrSeed),
    ("spqrEpoch".toList, .int s.spqrEpoch),
    ("skipped".toList, .obj (s.skipped.entries.reverse.map fun e => (e.1.toList, bundleJson e.2)))]

/-- `j as int`. -/
def asInt : Json → Except DartError Int
  | .int i => .ok i
  | j => .error (castError j "int")

/-- `j as bool`. -/
def asBool : Json → Except DartError Bool
  | .bool b => .ok b
  | j => .error (castError j "bool")

/-- The function `b64` of `fromJson`. -/
def b64 (json : JsonFields) (name : String) : Except DartError Bytes :=
  match field json name with
  | .str s => base64Decode (String.ofList s)
  | _ => .error (.format ("Session field " ++ name ++ " missing"))

/-- A skipped key of `fromJson`. -/
def readBundle (v : Json) : Except DartError (MessageKeyBundle UInt8) :=
  match v with
  | .obj fields =>
    match field fields "key", field fields "nonce" with
    | .str key, .str nonce => do
      MessageKeyBundle.create (← base64Decode (String.ofList key)) (← base64Decode (String.ofList nonce))
    | _, _ => .error (.format "Corrupt skipped key entry")
  | _ => .error (.format "Corrupt skipped key entry")

/-- The loop over the skipped keys. -/
def readSkipped : JsonFields → DartMap String (MessageKeyBundle UInt8) →
    Except DartError (DartMap String (MessageKeyBundle UInt8))
  | [], skipped => .ok skipped
  | (key, v) :: rest, skipped => do readSkipped rest (skipped.insert (String.ofList key) (← readBundle v))

/-- `fromJson`. -/
def fromJson (json : JsonFields) : Except DartError (SessionState UInt8) := do
  let skippedRaw ← match field json "skipped" with
    | .obj fields => .ok fields
    | _ => .error (.format "Session field skipped missing")
  let skipped ← readSkipped skippedRaw ∅
  return {
    peerId := ← asString (field json "peerId")
    initiatedByUs := ← asBool (field json "initiatedByUs")
    rootKey := ← b64 json "rootKey"
    sendChainKey := ← b64 json "sendChainKey"
    sendCounter := ← asInt (field json "sendCounter")
    prevSendChainLength := ← asInt (field json "prevSendChainLength")
    sendInitialized := ← match field json "sendInitialized" with
      | .null => .ok true
      | j => asBool j
    recvChainKey := ← b64 json "recvChainKey"
    recvCounter := ← asInt (field json "recvCounter")
    recvGeneration := ← asInt (field json "recvGeneration")
    ourPrivateKey := ← b64 json "ourPrivateKey"
    ourPublicKey := ← b64 json "ourPublicKey"
    remotePublicKey := ← b64 json "remotePublicKey"
    spqrSeed := ← b64 json "spqrSeed"
    spqrEpoch := ← asInt (field json "spqrEpoch")
    skipped }

/-! ## Writing and reading -/

@[simp] theorem asString_str (s : String) : asString (.str s.toList) = .ok s := by
  rw [asString, String.ofList_toList]

@[simp] theorem base64Decode_ofList (bytes : Bytes) :
    base64Decode (String.ofList (base64Encode bytes).toList) = .ok bytes := by
  rw [String.ofList_toList, base64Decode_base64Encode]

theorem readBundle_bundleJson (b : MessageKeyBundle UInt8) : readBundle (bundleJson b) = .ok b := by
  show (base64Decode (String.ofList (base64Encode b.messageKey).toList) >>= fun key =>
    base64Decode (String.ofList (base64Encode b.nonce).toList) >>= fun nonce => MessageKeyBundle.create key nonce) = _
  rw [base64Decode_ofList, base64Decode_ofList]
  exact MessageKeyBundle.create_ok b.messageKey_length b.nonce_length

/-- The entries of a map make the map when they are inserted from the oldest on. -/
theorem foldl_insert {V : Type} (m : DartMap String V) :
    m.entries.reverse.foldl (fun m e => m.insert e.1 e.2) ∅ = m := by
  induction m using AList.insertRec with
  | H0 => rfl
  | IH k v m hk ih =>
    rw [AList.entries_insert_of_notMem hk, List.reverse_cons, List.foldl_append, ih]
    rfl

theorem readSkipped_entries : ∀ (l : List (Sigma fun _ : String => MessageKeyBundle UInt8))
    (m : DartMap String (MessageKeyBundle UInt8)), readSkipped (l.map fun e => (e.1.toList, bundleJson e.2)) m =
      .ok (l.foldl (fun m e => m.insert e.1 e.2) m)
  | [], _ => rfl
  | e :: l, m => by
    rw [List.map_cons, List.foldl_cons, ← readSkipped_entries l]
    show (readBundle (bundleJson e.2) >>= fun b => readSkipped _ (m.insert (String.ofList e.1.toList) b)) = _
    rw [readBundle_bundleJson, String.ofList_toList]
    rfl

theorem b64_ok {json : JsonFields} {name : String} {bytes : Bytes} (h : field json name = base64Json bytes) :
    b64 json name = .ok bytes := by
  rw [b64, h]
  exact base64Decode_ofList bytes

/-- A session is read back as it was written. -/
theorem fromJson_toJson (s : SessionState UInt8) : fromJson s.toJson = .ok s := by
  have hskipped : readSkipped (s.skipped.entries.reverse.map fun e => (e.1.toList, bundleJson e.2)) ∅ = .ok s.skipped := by
    rw [readSkipped_entries, foldl_insert]
  have hraw : field s.toJson "skipped" = .obj (s.skipped.entries.reverse.map fun e => (e.1.toList, bundleJson e.2)) := rfl
  have hpeer : field s.toJson "peerId" = .str s.peerId.toList := rfl
  have hinitiated : field s.toJson "initiatedByUs" = .bool s.initiatedByUs := rfl
  have hroot : b64 s.toJson "rootKey" = .ok s.rootKey := b64_ok rfl
  have hsend : b64 s.toJson "sendChainKey" = .ok s.sendChainKey := b64_ok rfl
  have hcounter : field s.toJson "sendCounter" = .int s.sendCounter := rfl
  have hprev : field s.toJson "prevSendChainLength" = .int s.prevSendChainLength := rfl
  have hlive : field s.toJson "sendInitialized" = .bool s.sendInitialized := rfl
  have hrecv : b64 s.toJson "recvChainKey" = .ok s.recvChainKey := b64_ok rfl
  have hrecvCounter : field s.toJson "recvCounter" = .int s.recvCounter := rfl
  have hgeneration : field s.toJson "recvGeneration" = .int s.recvGeneration := rfl
  have hprivate : b64 s.toJson "ourPrivateKey" = .ok s.ourPrivateKey := b64_ok rfl
  have hpublic : b64 s.toJson "ourPublicKey" = .ok s.ourPublicKey := b64_ok rfl
  have hremote : b64 s.toJson "remotePublicKey" = .ok s.remotePublicKey := b64_ok rfl
  have hseed : b64 s.toJson "spqrSeed" = .ok s.spqrSeed := b64_ok rfl
  have hepoch : field s.toJson "spqrEpoch" = .int s.spqrEpoch := rfl
  simp only [fromJson, hraw, hpeer, hinitiated, hroot, hsend, hcounter, hprev, hlive, hrecv, hrecvCounter, hgeneration,
    hprivate, hpublic, hremote, hseed, hepoch, asString_str, asInt, asBool, hskipped, bind, Except.bind]
  rfl

/-- The counters are 64-bit integers. -/
structure Fits (s : SessionState β) : Prop where
  sendCounter : Json.fits64 s.sendCounter = true
  prevSendChainLength : Json.fits64 s.prevSendChainLength = true
  recvCounter : Json.fits64 s.recvCounter = true
  recvGeneration : Json.fits64 s.recvGeneration = true
  spqrEpoch : Json.fits64 s.spqrEpoch = true

theorem wfFields_map : ∀ l : List (Sigma fun _ : String => MessageKeyBundle UInt8),
    Json.WFFields (l.map fun e => (e.1.toList, bundleJson e.2))
  | [] => trivial
  | e :: l => ⟨⟨by show ["key".toList, "nonce".toList].Nodup; decide, trivial, trivial, trivial⟩, wfFields_map l⟩

/-- The names of the skipped keys are different. -/
theorem nodup_skipped (m : DartMap String (MessageKeyBundle UInt8)) :
    ((m.entries.reverse.map fun e => (e.1.toList, bundleJson e.2)).map Prod.fst).Nodup := by
  have hkeys : (m.entries.map Sigma.fst).Nodup := m.nodupKeys
  rw [List.map_map, List.map_reverse, List.nodup_reverse]
  have := hkeys.map (f := String.toList) fun _ _ h => String.toList_injective h
  rwa [List.map_map] at this

/-- What is written survives the text. -/
theorem jsonDecode_toJson {s : SessionState UInt8} (h : s.Fits) :
    jsonDecode (jsonEncode (.obj s.toJson)) = .ok (.obj s.toJson) := by
  have hwf : Json.WF (.obj s.toJson) := by
    refine ⟨?_, trivial, trivial, trivial, trivial, h.sendCounter, h.prevSendChainLength, trivial, trivial, h.recvCounter,
      h.recvGeneration, trivial, trivial, trivial, trivial, h.spqrEpoch, ⟨nodup_skipped _, wfFields_map _⟩, trivial⟩
    show ["peerId".toList, "initiatedByUs".toList, "rootKey".toList, "sendChainKey".toList, "sendCounter".toList,
      "prevSendChainLength".toList, "sendInitialized".toList, "recvChainKey".toList, "recvCounter".toList,
      "recvGeneration".toList, "ourPrivateKey".toList, "ourPublicKey".toList, "remotePublicKey".toList, "spqrSeed".toList,
      "spqrEpoch".toList, "skipped".toList].Nodup
    decide
  rw [jsonDecode, jsonEncode, String.toList_ofList, Json.decode_encode hwf]

end SessionState

/-! ## The storages -/

/-- The text that a session is stored as. -/
def writeSession (s : SessionState UInt8) : String := jsonEncode (.obj s.toJson)

/-- The map of a text. -/
def readMap (raw : String) : Except DartError JsonFields := jsonDecode raw >>= asMap

/-- `LocalDatabaseSessionStorage.loadSession`: a text that cannot be read counts as none. -/
def loadText (stored : String → Option String) (peerId : String) : Option (SessionState UInt8) :=
  (stored peerId).bind fun raw => (readMap raw >>= SessionState.fromJson).toOption

/-- `LocalDatabaseSessionStorage`: texts under the names of their sessions. -/
def LocalDatabaseSessionStorage : SessionStorage UInt8 where
  Sessions := String → Option String
  loadSession stored peerId := .ok (loadText stored peerId)
  saveSession state stored := .ok (Function.update stored state.peerId (some (writeSession state)))

/-- `InMemorySessionStorage.saveSession`: the session is written and read. -/
def saveMap (state : SessionState UInt8) (stored : String → Option JsonFields) :
    Except DartError (String → Option JsonFields) := do
  let raw ← readMap (writeSession state)
  return Function.update stored state.peerId (some raw)

/-- `InMemorySessionStorage.loadSession`. -/
def loadMap (stored : String → Option JsonFields) (peerId : String) : Except DartError (Option (SessionState UInt8)) :=
  (stored peerId).mapM SessionState.fromJson

/-- `InMemorySessionStorage`. -/
def InMemorySessionStorage : SessionStorage UInt8 where
  Sessions := String → Option JsonFields
  loadSession := loadMap
  saveSession := saveMap

theorem readMap_writeSession {s : SessionState UInt8} (h : s.Fits) : readMap (writeSession s) = .ok s.toJson := by
  rw [readMap, writeSession, SessionState.jsonDecode_toJson h]
  rfl

/-- What was saved is loaded. -/
theorem LocalDatabaseSessionStorage.load_save {s : SessionState UInt8} (h : s.Fits)
    {stored stored' : LocalDatabaseSessionStorage.Sessions}
    (hs : LocalDatabaseSessionStorage.saveSession s stored = .ok stored') :
    LocalDatabaseSessionStorage.loadSession stored' s.peerId = .ok (some s) := by
  have hload : ∀ st : String → Option String, loadText (Function.update st s.peerId (some (writeSession s))) s.peerId =
      some s := fun st => by
    rw [loadText, Function.update_self, Option.bind_some, readMap_writeSession h]
    show (SessionState.fromJson s.toJson).toOption = _
    rw [SessionState.fromJson_toJson]
    rfl
  cases hs
  exact congrArg Except.ok (hload stored)

theorem saveMap_eq {s : SessionState UInt8} (h : s.Fits) (stored : String → Option JsonFields) :
    saveMap s stored = .ok (Function.update stored s.peerId (some s.toJson)) := by
  rw [saveMap, readMap_writeSession h]
  rfl

theorem loadMap_update (s : SessionState UInt8) (stored : String → Option JsonFields) :
    loadMap (Function.update stored s.peerId (some s.toJson)) s.peerId = .ok (some s) := by
  rw [loadMap, Function.update_self]
  show some <$> SessionState.fromJson s.toJson = _
  rw [SessionState.fromJson_toJson]
  rfl

/-- What was saved is loaded. -/
theorem InMemorySessionStorage.load_save {s : SessionState UInt8} (h : s.Fits)
    {stored stored' : InMemorySessionStorage.Sessions}
    (hs : InMemorySessionStorage.saveSession s stored = .ok stored') :
    InMemorySessionStorage.loadSession stored' s.peerId = .ok (some s) := by
  obtain rfl := Except.ok.inj ((saveMap_eq h stored).symm.trans hs)
  exact loadMap_update s stored

end Chhaya
