import Chhaya.Client.Wipe
import Chhaya.Codec.Records
import Chhaya.Lib.Interrupt

/-!
# Restoring a backup

`AuthService.restoreFromBackup`: what it reads of a backup, and the writes to the key store and to the database that it makes
one after the other. Any of them may fail; the app's own catch-all then reports `false`.

- `readBackup_writeBackup`: a backup is read by whoever knows its phrase.
- `storeKeys_performs`, `storeRows_performs`: the writes of a backup in their order.
- `restored_run`, `restored_refused`: what a restore has done when it returns.
- `restore_atomic_iff`: when one that reports `false` has changed nothing.
-/

namespace Chhaya

open Interrupt

/-- The name of a row or an entry that an account is made of. -/
inductive AccountEntry
  | secure (key : String)
  | user (id : String)
  | kv (key : String)
  | contact (userId contactId : String)
  | conversation (id : String)
  | participant (conversationId userId : String)
  | message (id : String)
  deriving DecidableEq

/-- What is stored under a name: a text, before it is encrypted, or a participant. -/
inductive AccountRow
  | text (s : String)
  | participant (isAdmin : Bool)
  deriving DecidableEq

/-- The key store, the tables of the open database, and the user of the service. -/
structure Install where
  keys : KeyStore
  rows : AccountEntry → Option AccountRow
  initialized : Bool := true
  currentUser : Option UserProfile := none

namespace Install

/-- What is stored. -/
def stored (i : Install) : AccountEntry → Option AccountRow
  | .secure key => (i.keys.backend key).map .text
  | e => i.rows e

/-- The account of `i'` is that of `i`: everything that is stored, and the user. -/
def SameAccount (i' i : Install) : Prop := i'.stored = i.stored ∧ i'.currentUser = i.currentUser

end Install

abbrev AccountChange := Change AccountEntry AccountRow

/-- One entry is replaced. -/
def put (e : AccountEntry) (r : AccountRow) : AccountChange := fun e' => if e' = e then some (some r) else none

/-- `DELETE FROM participants WHERE conversation_id = ?`. -/
def dropParticipants (conversationId : String) : AccountChange
  | .participant c _ => if c = conversationId then some none else none
  | _ => none

/-! ## What the service awaits -/

/-- What an `AuthService` awaits, and its access to its own field. -/
inductive AuthOp
  | key (op : KeyManager.Op)
  | ensureInitialized
  | upsert (e : AccountEntry) (r : AccountRow)
  | deleteParticipants (conversationId : String)
  | setCurrentUser (profile : UserProfile)

def AuthAns : AuthOp → Type
  | .key op => KeyManager.Ans op
  | _ => Unit

abbrev AuthProg (α : Type) := Async AuthOp AuthAns DartError α

/-- A program of the key manager. -/
def onKeys {α : Type} : KeyManager.Prog α → AuthProg α
  | .done a => .done a
  | .throw e => .throw e
  | .call op k => .call (.key op) fun a => onKeys (k a)

/-- `for (final a in l) { await f(a); }`. -/
def forEach {α : Type} (f : α → AuthProg Unit) : List α → AuthProg Unit
  | [] => return ()
  | a :: l => do
    f a
    forEach f l

/-- `_ensureInitialized`. -/
def ensureInitialized : AuthProg Unit := Async.await AuthOp.ensureInitialized

/-- `DbQueries.upsert`. -/
def upsert (e : AccountEntry) (r : AccountRow) : AuthProg Unit := Async.await (AuthOp.upsert e r)

/-- `DbQueries.deleteWhere` on the participants of a conversation. -/
def deleteParticipants (conversationId : String) : AuthProg Unit := Async.await (AuthOp.deleteParticipants conversationId)

/-- `_currentUser = profile`. -/
def setCurrentUser (profile : UserProfile) : AuthProg Unit := Async.await (AuthOp.setCurrentUser profile)

/-- What the service runs on: the ciphers, the key derivation, the zone in force, and the owner of the database. -/
structure AuthService where
  crypto : Primitives UInt8
  pbkdf2 : Bytes → Bytes → Bytes
  zone : Zone
  ownerId : String

namespace AuthService

variable (a : AuthService)

/-! ## The database -/

/-- `jsonEncode(x.toJson())`. -/
def rowOf (fields : JsonFields) : AccountRow := .text (jsonEncode (.obj fields))

/-- `LocalDatabase.saveUserProfile`. -/
def saveUserProfile (p : UserProfile) : AuthProg Unit := do
  ensureInitialized
  upsert (.user p.chhayaId.publicKey) (rowOf (p.toJson a.zone))
  upsert (.kv "current_user_id") (.text p.chhayaId.publicKey)

/-- `LocalDatabase.addContact`. -/
def addContact (c : Contact) : AuthProg Unit := do
  ensureInitialized
  upsert (.contact a.ownerId c.id) (rowOf (c.toJson a.zone))

/-- The participants of a conversation, the first of which is its admin. -/
def participantRows (c : Conversation) : List (AccountEntry × AccountRow) :=
  c.participants.mapIdx fun i p => (.participant c.id p.id, .participant (i == 0))

/-- `LocalDatabase.addConversation`. -/
def addConversation (c : Conversation) : AuthProg Unit := do
  ensureInitialized
  upsert (.conversation c.id) (rowOf (c.toJson a.zone))
  deleteParticipants c.id
  forEach (fun e => upsert e.1 e.2) (participantRows c)

/-- `LocalDatabase.addMessage`. -/
def addMessage (m : Message) : AuthProg Unit := do
  ensureInitialized
  upsert (.message m.id) (rowOf (m.toJson a.zone))

/-! ## Backups -/

/-- What a backup holds. -/
structure Backup where
  profile : UserProfile
  pair : KeyManager.Pair
  contacts : List Contact
  conversations : List Conversation
  messages : List Message

/-- `j == 2`, also for the double 2.0: its literal rounds to 2, ties to even. -/
def isTwo : Json → Bool
  | .int i => i == 2
  | .double d => decide (2 - 1 / 2 ^ 53 ≤ d.value ∧ d.value ≤ 2 + 1 / 2 ^ 52)
  | _ => false

/-- `decryptMessage`. -/
def decryptMessage (encrypted : String) (key : Bytes) : Except DartError String := do
  let combined ← base64Decode encrypted
  utf8Decode (← AesGcm.decryptBytes a.crypto key combined [])

/-- `keyFromRecoveryPhrase`. -/
def keyFromRecoveryPhrase (phrase : List String) (salt : Bytes) : Bytes :=
  a.pbkdf2 (utf8Encode (" ".intercalate phrase)) salt

/-- `AccountIdentity.idFor`. -/
def idFor (pair : KeyManager.Pair) : String := "05" ++ hexOf pair.publicKey

/-- What `restoreFromBackup` does before it writes: `none` where it returns `false`. -/
def readBackup (backup : String) (phrase : List String) : Except DartError (Option Backup) := do
  let envelope ← jsonDecode backup >>= asMap
  if !isTwo (field envelope "version") then
    return none
  let salt ← base64Decode (← asString (field envelope "salt"))
  if salt.length ≠ 32 then
    return none
  let key := a.keyFromRecoveryPhrase phrase salt
  let payload ← jsonDecode (← a.decryptMessage (← asString (field envelope "ciphertext")) key) >>= asMap
  let profile ← UserProfile.fromJson a.zone (← asMap (field payload "profile"))
  if " ".intercalate profile.recoveryPhrase ≠ " ".intercalate phrase then
    return none
  let publicKey ← base64Decode (← asString (field payload "publicKey"))
  let privateKey ← base64Decode (← asString (field payload "privateKey"))
  let contacts ← (← asList (field payload "contacts")).mapM fun c => do Contact.fromJson a.zone (← asMap c)
  let conversations ← (← asList (field payload "conversations")).mapM fun c => do
    Conversation.fromJson a.zone (← asMap c)
  let messages ← (← asList (field payload "messages")).mapM fun m => do Message.fromJson a.zone (← asMap m)
  let pair : KeyManager.Pair := ⟨publicKey, privateKey⟩
  if privateKey.length ≠ 32 ∨ publicKey.length ≠ 32 then
    return none
  if profile.chhayaId.publicKey ≠ hexOf publicKey ∧ profile.chhayaId.publicKey ≠ idFor pair then
    return none
  return some { profile, pair, contacts, conversations, messages }

/-- The writes of `restoreFromBackup`. -/
def store (b : Backup) (phrase : List String) : AuthProg Unit := do
  onKeys (KeyManager.storeKeyPair b.pair)
  onKeys (KeyManager.storeRecoveryPhrase phrase)
  a.saveUserProfile b.profile
  forEach a.addContact b.contacts
  forEach a.addConversation b.conversations
  forEach a.addMessage b.messages
  setCurrentUser b.profile

/-- `restoreFromBackup`. -/
def restoreFromBackup (backup : String) (phrase : List String) : AuthProg Bool :=
  match a.readBackup backup phrase with
  | .ok (some b) => do
    match ← (a.store b phrase).attempt with
    | .ok () => return true
    | .error _ => return false
  | .ok none => return false
  | .error _ => return false

/-! ## What was written is read -/

/-- What `generateBackup` encrypts. -/
def Backup.payload (b : Backup) : JsonFields :=
  [("profile".toList, .obj (b.profile.toJson a.zone)), ("publicKey".toList, textJson (base64Encode b.pair.publicKey)),
    ("privateKey".toList, textJson (base64Encode b.pair.privateKey)),
    ("contacts".toList, .arr (b.contacts.map fun c => .obj (c.toJson a.zone))),
    ("conversations".toList, .arr (b.conversations.map fun c => .obj (c.toJson a.zone))),
    ("messages".toList, .arr (b.messages.map fun m => .obj (m.toJson a.zone)))]

/-- `encryptMessage`, with its nonce. -/
def encryptMessage (plaintext : String) (key nonce : Bytes) : Except DartError String := do
  return base64Encode (← AesGcm.encryptBytes a.crypto key (utf8Encode plaintext) nonce [])

/-- What `generateBackup` returns, with its salt and nonce. -/
def writeBackup (b : Backup) (phrase : List String) (salt nonce : Bytes) : Except DartError String := do
  let key := a.keyFromRecoveryPhrase phrase salt
  let ciphertext ← a.encryptMessage (jsonEncode (.obj (b.payload a))) key nonce
  return jsonEncode (.obj [("version".toList, .int 2), ("salt".toList, textJson (base64Encode salt)),
    ("ciphertext".toList, textJson ciphertext)])

/-- The times of everything in a backup. -/
def Backup.times (b : Backup) : List DateTime :=
  b.profile.times ++ (b.contacts.flatMap Contact.times ++ (b.conversations.flatMap Conversation.times ++
    b.messages.flatMap Message.times))

/-- The account of a user: its numbers fit 64 bits, its keys have their lengths, and its identity is that of the keys. -/
structure Backup.Sound (b : Backup) : Prop where
  valid : ∀ t ∈ b.times, t.Valid
  contacts : ∀ c ∈ b.contacts, c.Fits
  conversations : ∀ c ∈ b.conversations, c.Fits
  messages : ∀ m ∈ b.messages, m.Fits
  publicKey : b.pair.publicKey.length = 32
  privateKey : b.pair.privateKey.length = 32
  identity : b.profile.chhayaId.publicKey = hexOf b.pair.publicKey ∨ b.profile.chhayaId.publicKey = idFor b.pair

/-- What is read of a backup: times to live are in whole milliseconds. -/
def Backup.stored (b : Backup) : Backup :=
  { b with conversations := b.conversations.map Conversation.stored
           messages := b.messages.map fun m => m.stored m.timestamp }

section Read

variable {a} {b : Backup}

theorem Backup.wf_payload (h : b.Sound) : Json.WF (.obj (b.payload a)) := by
  refine ⟨?_, UserProfile.wf_toJson _ _, trivial, trivial, wfElements_map fun c hc => Contact.wf_toJson _ (h.contacts c hc),
    wfElements_map fun c hc => Conversation.wf_toJson _ (h.conversations c hc),
    wfElements_map fun m hm => Message.wf_toJson _ (h.messages m hm), trivial⟩
  show ["profile".toList, "publicKey".toList, "privateKey".toList, "contacts".toList, "conversations".toList,
    "messages".toList].Nodup
  decide

/-- The payload is decrypted. -/
theorem decryptMessage_payload {key nonce : Bytes} {ciphertext : String}
    (h : a.encryptMessage (jsonEncode (.obj (b.payload a))) key nonce = .ok ciphertext) :
    a.decryptMessage ciphertext key = .ok (jsonEncode (.obj (b.payload a))) := by
  obtain ⟨combined, hc, h⟩ := except_bind_ok h
  rw [← Except.ok.inj h]
  simp only [decryptMessage, base64Decode_base64Encode, AesGcm.decryptBytes_encryptBytes a.crypto hc, bind, Except.bind]
  exact utf8Decode_jsonEncode _

theorem mapM_records {α : Type} {f : α → JsonFields} {g : JsonFields → Except DartError α} {h : α → α} {l : List α}
    (hg : ∀ x ∈ l, g (f x) = .ok (h x)) :
    (l.map fun x => Json.obj (f x)).mapM (fun j => do g (← asMap j)) = .ok (l.map h) :=
  mapM_map_ok hg

/-- A backup whose times survive in the zone is read by whoever knows its phrase. -/
theorem readBackup_writeBackup {phrase : List String} {salt nonce : Bytes} {text : String} (hb : b.Sound)
    (hk : ∀ t ∈ b.times, t.Kept a.zone a.zone) (hs : salt.length = 32)
    (hp : " ".intercalate b.profile.recoveryPhrase = " ".intercalate phrase)
    (h : a.writeBackup b phrase salt nonce = .ok text) : a.readBackup text phrase = .ok (some b.stored) := by
  obtain ⟨ciphertext, hc, h⟩ := except_bind_ok h
  rw [← Except.ok.inj h]
  have hwf : Json.WF (.obj [("version".toList, .int 2), ("salt".toList, textJson (base64Encode salt)),
      ("ciphertext".toList, textJson ciphertext)]) := by
    refine ⟨?_, rfl, trivial, trivial, trivial⟩
    show ["version".toList, "salt".toList, "ciphertext".toList].Nodup
    decide
  have hversion : isTwo (field [("version".toList, .int 2), ("salt".toList, textJson (base64Encode salt)),
      ("ciphertext".toList, textJson ciphertext)] "version") = true := rfl
  have hsalt : field [("version".toList, .int 2), ("salt".toList, textJson (base64Encode salt)),
      ("ciphertext".toList, textJson ciphertext)] "salt" = textJson (base64Encode salt) := rfl
  have hciphertext : field [("version".toList, .int 2), ("salt".toList, textJson (base64Encode salt)),
      ("ciphertext".toList, textJson ciphertext)] "ciphertext" = textJson ciphertext := rfl
  have hprofile : field (b.payload a) "profile" = .obj (b.profile.toJson a.zone) := rfl
  have hpublic : field (b.payload a) "publicKey" = textJson (base64Encode b.pair.publicKey) := rfl
  have hprivate : field (b.payload a) "privateKey" = textJson (base64Encode b.pair.privateKey) := rfl
  have hcontacts : field (b.payload a) "contacts" = .arr (b.contacts.map fun c => .obj (c.toJson a.zone)) := rfl
  have hconversations : field (b.payload a) "conversations" =
      .arr (b.conversations.map fun c => .obj (c.toJson a.zone)) := rfl
  have hmessages : field (b.payload a) "messages" = .arr (b.messages.map fun m => .obj (m.toJson a.zone)) := rfl
  have hmem : ∀ {t : DateTime}, t ∈ b.profile.times ∨ (∃ c ∈ b.contacts, t ∈ c.times) ∨ (∃ c ∈ b.conversations, t ∈ c.times) ∨
      (∃ m ∈ b.messages, t ∈ m.times) → t ∈ b.times := by
    intro t ht
    simpa only [Backup.times, List.mem_append, List.mem_flatMap] using ht
  have hprofileOk : UserProfile.fromJson a.zone (b.profile.toJson a.zone) = .ok b.profile :=
    UserProfile.fromJson_kept (fun t ht => hb.valid t (hmem (Or.inl ht))) fun t ht => hk t (hmem (Or.inl ht))
  have hcontactsOk : (b.contacts.map fun c => Json.obj (c.toJson a.zone)).mapM (fun j => do
      Contact.fromJson a.zone (← asMap j)) = .ok b.contacts := by
    rw [mapM_records (h := fun c => c) fun c hc => Contact.fromJson_kept
      (fun t ht => hb.valid t (hmem (Or.inr (Or.inl ⟨c, hc, ht⟩)))) fun t ht => hk t (hmem (Or.inr (Or.inl ⟨c, hc, ht⟩))),
      List.map_id']
  have hconversationsOk : (b.conversations.map fun c => Json.obj (c.toJson a.zone)).mapM (fun j => do
      Conversation.fromJson a.zone (← asMap j)) = .ok (b.conversations.map Conversation.stored) :=
    mapM_records fun c hc => Conversation.fromJson_kept
      (fun t ht => hb.valid t (hmem (Or.inr (Or.inr (Or.inl ⟨c, hc, ht⟩)))))
      fun t ht => hk t (hmem (Or.inr (Or.inr (Or.inl ⟨c, hc, ht⟩))))
  have hmessagesOk : (b.messages.map fun m => Json.obj (m.toJson a.zone)).mapM (fun j => do
      Message.fromJson a.zone (← asMap j)) = .ok (b.messages.map fun m => m.stored m.timestamp) :=
    mapM_records fun m hm => Message.fromJson_kept
      (fun t ht => hb.valid t (hmem (Or.inr (Or.inr (Or.inr ⟨m, hm, ht⟩)))))
      fun t ht => hk t (hmem (Or.inr (Or.inr (Or.inr ⟨m, hm, ht⟩))))
  have hidentity : ¬(b.profile.chhayaId.publicKey ≠ hexOf b.pair.publicKey ∧
      b.profile.chhayaId.publicKey ≠ idFor b.pair) := fun h => hb.identity.elim h.1 h.2
  have hobj : ∀ l, asMap (.obj l) = .ok l := fun _ => rfl
  simp only [bind, Except.bind] at hcontactsOk hconversationsOk hmessagesOk
  simp only [readBackup, jsonDecode_jsonEncode hwf, hobj, hversion, hsalt, hciphertext, asString_textJson,
    base64Decode_base64Encode, decryptMessage_payload hc, jsonDecode_jsonEncode (Backup.wf_payload hb), hprofile, hprofileOk,
    hpublic, hprivate, hcontacts, hconversations, hmessages, asList, hp, hs, hb.publicKey, hb.privateKey, hcontactsOk,
    hconversationsOk, hmessagesOk, bind, Except.bind]
  rw [if_neg (by simp), if_neg (by simp), if_neg (by simp), if_neg (by simp), if_neg hidentity]
  rfl

end Read

/-! ## Writes that fail -/

/-- A write: it takes effect, or it is the one that fails. -/
def strike (i' : Install) : Install × Option Fault → Except DartError Unit × (Install × Option Fault)
  | (_, none) => (.ok (), (i', none))
  | (i, some f) =>
    if f.after = 0 then (.error (.storage "write failed"), (if f.took then i' else i, none))
    else (.ok (), (i', some (f.later 1)))

/-- How calls are answered. -/
def serve : (op : AuthOp) → Install × Option Fault → Except DartError (AuthAns op) × (Install × Option Fault)
  | .key (.read key), s => (.ok (s.1.keys.backend key), s)
  | .key (.write key value), s =>
    strike { s.1 with keys := { s.1.keys with backend := Function.update s.1.keys.backend key (some value) } } s
  | .key (.delete key), s =>
    strike { s.1 with keys := { s.1.keys with backend := Function.update s.1.keys.backend key none } } s
  | .key (.bytes length), s => (.ok ⟨List.replicate length 0, List.length_replicate⟩, s)
  | .key .foregroundIdentity, s => (.ok s.1.keys.foregroundIdentity, s)
  | .key (.setForegroundIdentity pair), s => (.ok (), ({ s.1 with keys := { s.1.keys with foregroundIdentity := pair } }, s.2))
  | .ensureInitialized, s =>
    (if s.1.initialized then .ok () else .error (.state "LocalDatabase not initialized. Call init() first."), s)
  | .upsert e r, s => strike { s.1 with rows := (put e r).apply s.1.rows } s
  | .deleteParticipants conversationId, s => strike { s.1 with rows := (dropParticipants conversationId).apply s.1.rows } s
  | .setCurrentUser profile, s => (.ok (), ({ s.1 with currentUser := some profile }, s.2))

/-- A restore on an install with a fault to come: what it returns and leaves. -/
def restored (backup : String) (phrase : List String) (i : Install) (fault : Option Fault) :
    Except DartError Bool × Install :=
  let r := (a.restoreFromBackup backup phrase).run serve (i, fault)
  (r.1, r.2.1)

/-! ## The writes of a backup -/

/-- The entries of the key store. -/
def Backup.keyChanges (b : Backup) (phrase : List String) : List AccountChange :=
  [put (.secure KeyManager.publicKeyKey) (.text (base64Encode b.pair.publicKey)),
    put (.secure KeyManager.privateKeyKey) (.text (base64Encode b.pair.privateKey)),
    put (.secure KeyManager.recoveryPhraseKey)
      (.text (jsonEncode (.arr (phrase.map fun word => .str word.toList))))]

/-- The rows of the database. -/
def Backup.rowChanges (b : Backup) : List AccountChange :=
  [put (.user b.profile.chhayaId.publicKey) (rowOf (b.profile.toJson a.zone)),
    put (.kv "current_user_id") (.text b.profile.chhayaId.publicKey)] ++
  (b.contacts.flatMap fun c => [put (.contact a.ownerId c.id) (rowOf (c.toJson a.zone))]) ++
  (b.conversations.flatMap fun c => put (.conversation c.id) (rowOf (c.toJson a.zone)) :: dropParticipants c.id ::
    (participantRows c).flatMap fun e => [put e.1 e.2]) ++
  b.messages.flatMap fun m => [put (.message m.id) (rowOf (m.toJson a.zone))]

/-- The changes that take effect before a restore of `b` gives up, if it does. -/
def Backup.taken (b : Backup) (phrase : List String) (i : Install) (fault : Option Fault) : Option (List AccountChange) :=
  if i.initialized then interrupted fault (b.keyChanges phrase ++ b.rowChanges a)
  else some ((interrupted fault (b.keyChanges phrase)).getD (b.keyChanges phrase))

/-- The backup is refused, or its writes go through, or those that take effect before one fails write under every name what is
there already. -/
def Harmless (backup : String) (phrase : List String) (i : Install) (fault : Option Fault) : Prop :=
  ∀ b, a.readBackup backup phrase = .ok (some b) → ∀ cs, b.taken a phrase i fault = some cs →
    ∀ e v, lastValue e cs = some v → i.stored e = v

/-! ## What programs write -/

/-- On an install whose database is open or not, as `opened` says, the program makes these changes one after the other, and
throws where one fails. -/
def Performs (opened : Bool) (p : AuthProg Unit) (cs : List AccountChange) : Prop :=
  ∀ (i : Install) (fault : Option Fault), i.initialized = opened → ∃ r i' fault',
    p.run serve (i, fault) = (r, (i', fault')) ∧ i'.currentUser = i.currentUser ∧ i'.initialized = opened ∧
    match interrupted fault cs with
    | some done => (∃ e, r = .error e) ∧ i'.stored = applyAll done i.stored
    | none => r = .ok () ∧ fault' = (fault.map fun f => f.later cs.length) ∧ i'.stored = applyAll cs i.stored

section Performs

variable {opened : Bool} {p q : AuthProg Unit} {cs ds : List AccountChange}

theorem later_zero (fault : Option Fault) : (fault.map fun f => f.later 0) = fault := by
  cases fault <;> rfl

theorem interrupted_nil (fault : Option Fault) : interrupted fault ([] : List AccountChange) = none := by
  cases fault <;> rfl

/-- A call that changes nothing. -/
theorem performs_quiet (h : ∀ i fault, i.initialized = opened → ∃ i', p.run serve (i, fault) = (.ok (), (i', fault)) ∧
    i'.stored = i.stored ∧ i'.currentUser = i.currentUser ∧ i'.initialized = opened) : Performs opened p [] := by
  intro i fault hi
  obtain ⟨i', hr, h1, h2, h3⟩ := h i fault hi
  refine ⟨.ok (), i', fault, hr, h2, h3, ?_⟩
  rw [interrupted_nil]
  exact ⟨rfl, (later_zero fault).symm, h1⟩

/-- A write. -/
theorem performs_strike {c : AccountChange} (update : Install → Install)
    (hr : ∀ i fault, p.run serve (i, fault) = strike (update i) (i, fault))
    (hs : ∀ i, (update i).stored = c.apply i.stored) (hc : ∀ i, (update i).currentUser = i.currentUser)
    (hi : ∀ i, (update i).initialized = i.initialized) : Performs opened p [c] := by
  intro i fault h
  cases fault with
  | none => exact ⟨.ok (), update i, none, hr i none, hc i, (hi i).trans h, rfl, rfl, hs i⟩
  | some f =>
    obtain ⟨n, took⟩ := f
    cases n with
    | zero =>
      cases took with
      | true => exact ⟨_, _, _, hr i _, hc i, (hi i).trans h, ⟨_, rfl⟩, hs i⟩
      | false => exact ⟨_, _, _, hr i _, rfl, h, ⟨_, rfl⟩, rfl⟩
    | succ n =>
      refine ⟨.ok (), update i, some ⟨n, took⟩, hr i _, hc i, (hi i).trans h, ?_⟩
      rw [interrupted, if_neg (by simp)]
      exact ⟨rfl, rfl, hs i⟩

/-- The rule of sequences. -/
theorem Performs.bind (hp : Performs opened p cs) (hq : Performs opened q ds) :
    Performs opened (p.bind fun _ => q) (cs ++ ds) := by
  intro i fault hi
  obtain ⟨r, i₁, fault₁, hr, hc, hi₁, hm⟩ := hp i fault hi
  rw [Async.run_bind, hr, interrupted_append]
  cases hd : interrupted fault cs with
  | some done =>
    rw [hd] at hm
    obtain ⟨⟨e, rfl⟩, hs⟩ := hm
    exact ⟨.error e, i₁, fault₁, rfl, hc, hi₁, ⟨e, rfl⟩, hs⟩
  | none =>
    rw [hd] at hm
    obtain ⟨rfl, rfl, hs⟩ := hm
    obtain ⟨r, i₂, fault₂, hr, hc₂, hi₂, hm⟩ := hq i₁ _ hi₁
    refine ⟨r, i₂, fault₂, hr, hc₂.trans hc, hi₂, ?_⟩
    dsimp only
    cases hd' : interrupted (fault.map fun f => f.later cs.length) ds with
    | some done =>
      rw [hd'] at hm
      refine ⟨hm.1, ?_⟩
      rw [hm.2, hs, applyAll_append]
    | none =>
      rw [hd'] at hm
      obtain ⟨rfl, rfl, hs'⟩ := hm
      refine ⟨rfl, ?_, ?_⟩
      · cases fault with
        | none => rfl
        | some f => simp [Fault.later, Nat.sub_sub]
      · rw [hs', hs, applyAll_append]

theorem performs_done : Performs opened (.done ()) [] :=
  performs_quiet fun i _ hi => ⟨i, rfl, rfl, rfl, hi⟩

/-- The rule of loops. -/
theorem performs_forEach {α : Type} {f : α → AuthProg Unit} {g : α → List AccountChange} :
    ∀ {l : List α}, (∀ x ∈ l, Performs opened (f x) (g x)) → Performs opened (forEach f l) (l.flatMap g)
  | [], _ => performs_done
  | x :: _, h => (h x List.mem_cons_self).bind (performs_forEach fun y hy => h y (List.mem_cons_of_mem x hy))

theorem performs_ensureInitialized : Performs true ensureInitialized [] :=
  performs_quiet fun i fault hi => by
    obtain ⟨keys, rows, opened, user⟩ := i
    cases (hi : opened = true)
    exact ⟨_, rfl, rfl, rfl, rfl⟩

theorem performs_upsert {e : AccountEntry} (he : ∀ key, e ≠ .secure key) (r : AccountRow) :
    Performs opened (upsert e r) [put e r] := by
  refine performs_strike (fun i => { i with rows := (put e r).apply i.rows })
    (fun i fault => Async.run_await serve (AuthOp.upsert e r) (i, fault)) (fun i => ?_) (fun _ => rfl) fun _ => rfl
  funext e'
  cases e' with
  | secure key =>
    have hne : put e r (.secure key) = none := if_neg (he key).symm
    simp only [Install.stored, Change.apply, hne, Option.getD_none]
  | _ => rfl

theorem performs_deleteParticipants (conversationId : String) :
    Performs opened (deleteParticipants conversationId) [dropParticipants conversationId] := by
  refine performs_strike (fun i => { i with rows := (dropParticipants conversationId).apply i.rows })
    (fun i fault => Async.run_await serve (AuthOp.deleteParticipants conversationId) (i, fault)) (fun i => ?_)
    (fun _ => rfl) fun _ => rfl
  funext e'
  cases e' <;> rfl

/-- A write of the key manager. -/
theorem performs_write (key value : String) :
    Performs opened (onKeys (KeyManager.write key value)) [put (.secure key) (.text value)] := by
  have hp : onKeys (KeyManager.write key value) = Async.await (AuthOp.key (.write key value)) := by
    refine congrArg (Async.call _) (funext fun r => ?_)
    cases r <;> rfl
  rw [hp]
  refine performs_strike
    (fun i => { i with keys := { i.keys with backend := Function.update i.keys.backend key (some value) } })
    (fun i fault => Async.run_await serve (AuthOp.key (.write key value)) (i, fault)) (fun i => ?_)
    (fun _ => rfl) fun _ => rfl
  funext e
  cases e with
  | secure key' =>
    simp only [Install.stored, Change.apply, put, Function.update_apply, AccountEntry.secure.injEq]
    split <;> rfl
  | _ => rfl

theorem performs_zeroizeCache : Performs opened (onKeys KeyManager.zeroizeCache) [] :=
  performs_quiet fun i _ hi => ⟨{ i with keys := { i.keys with foregroundIdentity := none } }, rfl, rfl, rfl, hi⟩

theorem onKeys_bind {α γ : Type} (p : KeyManager.Prog α) (f : α → KeyManager.Prog γ) :
    onKeys (p.bind f) = (onKeys p).bind fun x => onKeys (f x) := by
  induction p with
  | done x => rfl
  | throw e => rfl
  | call op k ih => exact congrArg (Async.call _) (funext ih)

variable (a : AuthService) (b : Backup) (phrase : List String)

/-- The writes to the key store, whether the database is open or not. -/
theorem storeKeys_performs : Performs opened ((onKeys (KeyManager.storeKeyPair b.pair)).bind fun _ =>
    onKeys (KeyManager.storeRecoveryPhrase phrase)) (b.keyChanges phrase) := by
  have hpair : Performs opened (onKeys (KeyManager.storeKeyPair b.pair))
      [put (.secure KeyManager.publicKeyKey) (.text (base64Encode b.pair.publicKey)),
        put (.secure KeyManager.privateKeyKey) (.text (base64Encode b.pair.privateKey))] := by
    have hw : onKeys (KeyManager.storeKeyPair b.pair) = (onKeys KeyManager.zeroizeCache).bind fun _ =>
        (onKeys (KeyManager.write KeyManager.publicKeyKey (base64Encode b.pair.publicKey))).bind fun _ =>
          onKeys (KeyManager.write KeyManager.privateKeyKey (base64Encode b.pair.privateKey)) := by
      rw [KeyManager.storeKeyPair, Async.bind_eq, onKeys_bind, KeyManager.writePair, Async.bind_eq, onKeys_bind]
    rw [hw]
    exact performs_zeroizeCache.bind ((performs_write _ _).bind (performs_write _ _))
  exact hpair.bind (performs_write _ _)

/-- The writes to the open database. -/
theorem storeRows_performs : Performs true ((a.saveUserProfile b.profile).bind fun _ =>
    (forEach a.addContact b.contacts).bind fun _ => (forEach a.addConversation b.conversations).bind fun _ =>
      forEach a.addMessage b.messages) (b.rowChanges a) := by
  have hprofile : Performs true (a.saveUserProfile b.profile)
      [put (.user b.profile.chhayaId.publicKey) (rowOf (b.profile.toJson a.zone)),
        put (.kv "current_user_id") (.text b.profile.chhayaId.publicKey)] :=
    performs_ensureInitialized.bind ((performs_upsert (by simp) _).bind (performs_upsert (by simp) _))
  have hcontact : ∀ c : Contact, Performs true (a.addContact c) [put (.contact a.ownerId c.id) (rowOf (c.toJson a.zone))] :=
    fun c => performs_ensureInitialized.bind (performs_upsert (by simp) _)
  have hmessage : ∀ m : Message, Performs true (a.addMessage m) [put (.message m.id) (rowOf (m.toJson a.zone))] :=
    fun m => performs_ensureInitialized.bind (performs_upsert (by simp) _)
  have hconversation : ∀ c : Conversation, Performs true (a.addConversation c) (put (.conversation c.id)
      (rowOf (c.toJson a.zone)) :: dropParticipants c.id :: (participantRows c).flatMap fun e => [put e.1 e.2]) := by
    intro c
    have hrows : ∀ e ∈ participantRows c, Performs true (upsert e.1 e.2) [put e.1 e.2] := by
      intro e he
      obtain ⟨n, hn, rfl⟩ := List.mem_mapIdx.mp he
      exact performs_upsert (by simp) _
    exact performs_ensureInitialized.bind ((performs_upsert (by simp) _).bind
      ((performs_deleteParticipants c.id).bind (performs_forEach hrows)))
  have := hprofile.bind ((performs_forEach fun c (_ : c ∈ b.contacts) => hcontact c).bind
    ((performs_forEach fun c (_ : c ∈ b.conversations) => hconversation c).bind
      (performs_forEach fun m (_ : m ∈ b.messages) => hmessage m)))
  rw [Backup.rowChanges, List.append_assoc, List.append_assoc]
  exact this

/-- What the writes of a backup come to. -/
theorem store_run (i : Install) (fault : Option Fault) : ∃ r i' fault',
    (a.store b phrase).run serve (i, fault) = (r, (i', fault')) ∧ match b.taken a phrase i fault with
      | some done => (∃ e, r = .error e) ∧ i'.stored = applyAll done i.stored ∧ i'.currentUser = i.currentUser
      | none => r = .ok () ∧ i'.stored = applyAll (b.keyChanges phrase ++ b.rowChanges a) i.stored ∧
        i'.currentUser = some b.profile := by
  have hstore : a.store b phrase = ((onKeys (KeyManager.storeKeyPair b.pair)).bind fun _ =>
      onKeys (KeyManager.storeRecoveryPhrase phrase)).bind fun _ => ((a.saveUserProfile b.profile).bind fun _ =>
        (forEach a.addContact b.contacts).bind fun _ => (forEach a.addConversation b.conversations).bind fun _ =>
          forEach a.addMessage b.messages).bind fun _ => setCurrentUser b.profile := by
    simp only [store, Async.bind_eq, Async.bind_assoc]
  rw [hstore, Backup.taken]
  cases hi : i.initialized with
  | true =>
    rw [if_pos rfl, ← Async.bind_assoc, Async.run_bind]
    obtain ⟨r, i', fault', hr, hc, -, hm⟩ :=
      ((storeKeys_performs b phrase).bind (storeRows_performs a b)) i fault hi
    rw [hr]
    cases hd : interrupted fault (b.keyChanges phrase ++ b.rowChanges a) with
    | some done =>
      rw [hd] at hm
      obtain ⟨⟨e, rfl⟩, hs⟩ := hm
      exact ⟨.error e, i', fault', rfl, ⟨e, rfl⟩, hs, hc⟩
    | none =>
      rw [hd] at hm
      obtain ⟨rfl, -, hs⟩ := hm
      exact ⟨.ok (), _, _, rfl, rfl, hs, rfl⟩
  | false =>
    rw [if_neg Bool.false_ne_true, Async.run_bind]
    obtain ⟨r, i', fault', hr, hc, hi', hm⟩ := storeKeys_performs b phrase i fault hi
    rw [hr]
    cases hd : interrupted fault (b.keyChanges phrase) with
    | some done =>
      rw [hd] at hm
      obtain ⟨⟨e, rfl⟩, hs⟩ := hm
      exact ⟨.error e, i', fault', rfl, ⟨e, rfl⟩, hs, hc⟩
    | none =>
      rw [hd] at hm
      obtain ⟨rfl, -, hs⟩ := hm
      obtain ⟨keys, rows, opened, user⟩ := i'
      cases (hi' : opened = false)
      exact ⟨.error _, _, _, rfl, ⟨_, rfl⟩, hs, hc⟩

end Performs

/-- What is thrown is caught. -/
theorem run_attempt {α : Type} (p : AuthProg α) (s : Install × Option Fault) :
    p.attempt.run serve s = (.ok (p.run serve s).1, (p.run serve s).2) := by
  induction p generalizing s with
  | done x => rfl
  | throw e => rfl
  | call op k ih => exact ih _ _

/-- A restore of a backup that was read: it gives up where a write fails, and else has made all of them. -/
theorem restored_run {a : AuthService} {backup : String} {phrase : List String} {b : Backup}
    (hb : a.readBackup backup phrase = .ok (some b)) (i : Install) (fault : Option Fault) :
    match b.taken a phrase i fault with
    | some done => (a.restored backup phrase i fault).1 = .ok false ∧
      (a.restored backup phrase i fault).2.stored = applyAll done i.stored ∧
      (a.restored backup phrase i fault).2.currentUser = i.currentUser
    | none => (a.restored backup phrase i fault).1 = .ok true ∧
      (a.restored backup phrase i fault).2.stored = applyAll (b.keyChanges phrase ++ b.rowChanges a) i.stored ∧
      (a.restored backup phrase i fault).2.currentUser = some b.profile := by
  obtain ⟨r, i', fault', hr, hm⟩ := store_run a b phrase i fault
  have hrun : (a.restoreFromBackup backup phrase).run serve (i, fault) = (.ok r.isOk, (i', fault')) := by
    rw [restoreFromBackup, hb]
    dsimp only
    rw [Async.bind_eq, Async.run_bind, run_attempt, hr]
    cases r <;> rfl
  unfold restored
  rw [hrun]
  cases ht : b.taken a phrase i fault with
  | none =>
    rw [ht] at hm
    obtain ⟨rfl, hs, hc⟩ := hm
    exact ⟨rfl, hs, hc⟩
  | some done =>
    rw [ht] at hm
    obtain ⟨⟨e, rfl⟩, hs, hc⟩ := hm
    exact ⟨rfl, hs, hc⟩

/-- What is not read changes nothing. -/
theorem restored_refused {a : AuthService} {backup : String} {phrase : List String}
    (hb : ∀ b, a.readBackup backup phrase ≠ .ok (some b)) (i : Install) (fault : Option Fault) :
    a.restored backup phrase i fault = (.ok false, i) := by
  unfold restored restoreFromBackup
  cases h : a.readBackup backup phrase with
  | error e => rfl
  | ok o =>
    cases o with
    | none => rfl
    | some b => exact absurd h (hb b)

/-- A restore that reports `false` has left the account as it was exactly if the backup was refused, or the writes that took
effect before one failed wrote under every name what was there already. -/
theorem restore_atomic_iff (a : AuthService) (backup : String) (phrase : List String) (i : Install) (fault : Option Fault) :
    ((a.restored backup phrase i fault).1 = .ok false → (a.restored backup phrase i fault).2.SameAccount i) ↔
      a.Harmless backup phrase i fault := by
  by_cases hb : ∃ b, a.readBackup backup phrase = .ok (some b)
  · obtain ⟨b, hb⟩ := hb
    have hm := restored_run hb i fault
    cases ht : b.taken a phrase i fault with
    | none =>
      rw [ht] at hm
      refine iff_of_true (fun h => ?_) fun b' hb' cs hcs => ?_
      · rw [hm.1] at h
        cases h
      · rw [hb] at hb'
        cases hb'
        rw [ht] at hcs
        cases hcs
    | some done =>
      rw [ht] at hm
      obtain ⟨hf, hs, hc⟩ := hm
      constructor
      · intro h b' hb' cs hcs
        rw [hb] at hb'
        cases hb'
        rw [ht] at hcs
        cases hcs
        exact applyAll_eq_iff.mp (hs.symm.trans (h hf).1)
      · intro h _
        exact ⟨hs.trans (applyAll_eq_iff.mpr (h b hb done ht)), hc⟩
  · have hr := restored_refused (fun b h => hb ⟨b, h⟩) i fault
    rw [hr]
    exact iff_of_true (fun _ => ⟨rfl, rfl⟩) fun b h => absurd ⟨b, h⟩ hb

/-! ## A backup that is half restored -/

/-- A service whose ciphers and key derivation answer zeros. -/
def zeroService : AuthService := ⟨zeroPrimitives, fun _ _ => List.replicate 32 0, .fixed 0 (by decide), "local"⟩

/-- The backup of an account without contacts. -/
def zeroBackup : Backup where
  profile := { chhayaId := ⟨hexOf (List.replicate 32 0), ⟨0, true⟩⟩, displayName := "Alice", recoveryPhrase := ["word"],
               createdAt := ⟨0, true⟩ }
  pair := ⟨List.replicate 32 0, List.replicate 32 0⟩
  contacts := []
  conversations := []
  messages := []

theorem zeroBackup_sound : zeroBackup.Sound where
  valid := by decide
  contacts c hc := (List.not_mem_nil hc).elim
  conversations c hc := (List.not_mem_nil hc).elim
  messages m hm := (List.not_mem_nil hm).elim
  publicKey := rfl
  privateKey := rfl
  identity := Or.inl rfl

/-- An install without an account. -/
def emptyInstall : Install := ⟨⟨fun _ => none, none⟩, fun _ => none, true, none⟩

/-- The write of the profile fails: the restore reports `false`, and the keys of the backup are stored without a profile. -/
theorem restore_leaves_keys : ∃ backup : String,
    (zeroService.restored backup ["word"] emptyInstall (some ⟨3, false⟩)).1 = .ok false ∧
    (zeroService.restored backup ["word"] emptyInstall (some ⟨3, false⟩)).2.stored (.secure KeyManager.privateKeyKey) =
      some (.text (base64Encode (List.replicate 32 0))) ∧
    emptyInstall.stored (.secure KeyManager.privateKeyKey) = none ∧
    ¬(zeroService.restored backup ["word"] emptyInstall (some ⟨3, false⟩)).2.SameAccount emptyInstall := by
  obtain ⟨backup, hw⟩ : ∃ backup, zeroService.writeBackup zeroBackup ["word"] (List.replicate 32 0) (List.replicate 12 0) =
      .ok backup := by
    rw [writeBackup, encryptMessage, AesGcm.encryptBytes_ok _ (by rfl) (by rfl)]
    exact ⟨_, rfl⟩
  have hkept : ∀ t ∈ zeroBackup.times, t.Kept zeroService.zone zeroService.zone := by
    intro t _
    exact Or.inr (by simp [Zone.Recovers, Zone.clock, Zone.fixed, zeroService])
  have hr : zeroService.readBackup backup ["word"] = .ok (some zeroBackup.stored) :=
    readBackup_writeBackup zeroBackup_sound hkept (by rfl) rfl hw
  obtain ⟨hf, hs, -⟩ := restored_run hr emptyInstall (some ⟨3, false⟩)
  have hkey : (zeroService.restored backup ["word"] emptyInstall (some ⟨3, false⟩)).2.stored
      (.secure KeyManager.privateKeyKey) = some (.text (base64Encode (List.replicate 32 0))) := by
    rw [hs, applyAll_apply]
    rfl
  refine ⟨backup, hf, hkey, rfl, fun h => ?_⟩
  rw [h.1] at hkey
  cases hkey

end AuthService

end Chhaya
