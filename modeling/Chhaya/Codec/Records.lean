import Chhaya.Codec.Storage
import Chhaya.Dart.DateTime
import Chhaya.Models

/-!
# Models as JSON

`toJson` and `fromJson` of identities, contacts, messages, conversations and profiles, in the zone in force.

- `Message.fromJson_toJson`, `Contact.fromJson_toJson`, `Conversation.fromJson_toJson`: what is read of what was written.
- `Message.fromJson_kept`, `Contact.fromJson_kept`, `Conversation.fromJson_kept`, `UserProfile.fromJson_kept`: when that is what
  was written.
- `timestamps_survive_iff`: for which times the instants survive.
-/

namespace Chhaya

open SessionState (asInt asBool)

/-! ## Casts -/

/-- `j as T?`, where `read` reads a `T`. -/
def orNull {α : Type} (type : String) (read : Json → Except DartError α) : Json → Except DartError (Option α)
  | .null => .ok none
  | j =>
    match read j with
    | .ok a => .ok (some a)
    | .error _ => .error (castError j (type ++ "?"))

/-- `j as List<dynamic>`. -/
def asList : Json → Except DartError (List Json)
  | .arr l => .ok l
  | j => .error (castError j "List<dynamic>")

/-- `(j as List<dynamic>?)?.map((e) => e as String).toList()`. -/
def asStrings (j : Json) : Except DartError (Option (List String)) := do
  match ← orNull "List<dynamic>" asList j with
  | none => return none
  | some l => return some (← l.mapM asString)

/-- A value or null. -/
def nullOr {α : Type} (write : α → Json) : Option α → Json
  | none => .null
  | some a => write a

/-- A text. -/
def textJson (s : String) : Json := .str s.toList

/-- `toIso8601String`. -/
def timeJson (w : Zone) (t : DateTime) : Json := textJson (t.toIso8601String w)

/-- `DateTime.parse(json[name] as String)`. -/
def parseTime (r : Zone) (j : Json) : Except DartError DateTime := do DateTime.parse r (← asString j)

/-! ## Identities and contacts -/

def ChhayaId.toJson (w : Zone) (i : ChhayaId) : JsonFields :=
  [("publicKey".toList, textJson i.publicKey), ("createdAt".toList, timeJson w i.createdAt)]

def ChhayaId.fromJson (r : Zone) (json : JsonFields) : Except DartError ChhayaId := do
  let publicKey ← asString (field json "publicKey")
  let createdAt ← parseTime r (field json "createdAt")
  return { publicKey, createdAt }

def Contact.toJson (w : Zone) (c : Contact) : JsonFields :=
  [("id".toList, textJson c.id), ("ChhayaId".toList, .obj (c.chhayaId.toJson w)),
    ("displayName".toList, textJson c.displayName), ("avatarUrl".toList, nullOr textJson c.avatarUrl),
    ("verificationLevel".toList, .int c.verificationLevel), ("isBlocked".toList, .bool c.isBlocked),
    ("isPinned".toList, .bool c.isPinned), ("lastSeen".toList, nullOr (timeJson w) c.lastSeen),
    ("isOnline".toList, .bool c.isOnline), ("isVerified".toList, .bool c.isVerified)]

/-- `json[name] as bool? ?? value`. -/
def boolOr (value : Bool) (j : Json) : Except DartError Bool := do return (← orNull "bool" asBool j).getD value

/-- `json[name] as int? ?? value`. -/
def intOr (value : Int) (j : Json) : Except DartError Int := do return (← orNull "int" asInt j).getD value

/-- What is read unless it is null. -/
def unlessNull {α : Type} (read : Json → Except DartError α) : Json → Except DartError (Option α)
  | .null => .ok none
  | j => do return some (← read j)

def Contact.fromJson (r : Zone) (json : JsonFields) : Except DartError Contact := do
  let id ← asString (field json "id")
  let chhayaId ← ChhayaId.fromJson r (← asMap (field json "ChhayaId"))
  let displayName ← asString (field json "displayName")
  let avatarUrl ← orNull "String" asString (field json "avatarUrl")
  let verificationLevel ← intOr 1 (field json "verificationLevel")
  let isBlocked ← boolOr false (field json "isBlocked")
  let isPinned ← boolOr false (field json "isPinned")
  let lastSeen ← unlessNull (parseTime r) (field json "lastSeen")
  let isOnline ← boolOr false (field json "isOnline")
  let isVerified ← boolOr false (field json "isVerified")
  return { id, chhayaId, displayName, avatarUrl, verificationLevel, isBlocked, isPinned, lastSeen, isOnline, isVerified }

/-! ## Messages and conversations -/

/-- `MessageType.values`. -/
def MessageType.values : List MessageType := [.text, .image, .file, .voice, .system, .poll]

def MessageType.name : MessageType → String
  | .text => "text"
  | .image => "image"
  | .file => "file"
  | .voice => "voice"
  | .system => "system"
  | .poll => "poll"

/-- `MessageType.values.firstWhere` with `text` where there is none. -/
def MessageType.ofName : Json → MessageType
  | .str s => (MessageType.values.find? fun e => e.name.toList == s).getD .text
  | _ => .text

/-- `ttl?.inMilliseconds`. -/
def Message.ttlMs (m : Message) : Option Int := m.ttl.map fun ttl => ttl.tdiv 1000

def Message.toJson (w : Zone) (m : Message) : JsonFields :=
  [("id".toList, textJson m.id), ("conversationId".toList, textJson m.conversationId),
    ("senderId".toList, textJson m.senderId), ("content".toList, textJson m.content),
    ("type".toList, textJson m.type.name), ("timestamp".toList, timeJson w m.timestamp),
    ("isRead".toList, .bool m.isRead), ("isDelivered".toList, .bool m.isDelivered), ("isSent".toList, .bool m.isSent),
    ("replyToId".toList, nullOr textJson m.replyToId), ("ttlMs".toList, nullOr Json.int m.ttlMs),
    ("agreeUsers".toList, .arr (m.agreeUsers.map textJson)),
    ("disagreeUsers".toList, .arr (m.disagreeUsers.map textJson))]

def Message.fromJson (r : Zone) (json : JsonFields) : Except DartError Message := do
  let id ← asString (field json "id")
  let conversationId ← asString (field json "conversationId")
  let senderId ← asString (field json "senderId")
  let content ← asString (field json "content")
  let type := MessageType.ofName (field json "type")
  let timestamp ← parseTime r (field json "timestamp")
  let isRead ← boolOr false (field json "isRead")
  let isDelivered ← boolOr false (field json "isDelivered")
  let isSent ← boolOr true (field json "isSent")
  let replyToId ← orNull "String" asString (field json "replyToId")
  let ttlMs ← unlessNull asInt (field json "ttlMs")
  let agreeUsers ← asStrings (field json "agreeUsers")
  let disagreeUsers ← asStrings (field json "disagreeUsers")
  let ttl := ttlMs.map fun ms => int64 (1000 * ms)
  return ⟨id, conversationId, senderId, content, type, timestamp, isRead, isDelivered, isSent, replyToId, ttl,
    agreeUsers.getD [], disagreeUsers.getD []⟩

def Conversation.toJson (w : Zone) (c : Conversation) : JsonFields :=
  [("id".toList, textJson c.id), ("participants".toList, .arr (c.participants.map fun p => .obj (p.toJson w))),
    ("lastMessage".toList, nullOr (fun m => .obj (Message.toJson w m)) c.lastMessage),
    ("unreadCount".toList, .int c.unreadCount), ("isPinned".toList, .bool c.isPinned),
    ("isMuted".toList, .bool c.isMuted), ("isGroup".toList, .bool c.isGroup),
    ("groupName".toList, nullOr textJson c.groupName), ("groupAvatarUrl".toList, nullOr textJson c.groupAvatarUrl),
    ("createdAt".toList, timeJson w c.createdAt)]

def Conversation.fromJson (r : Zone) (json : JsonFields) : Except DartError Conversation := do
  let id ← asString (field json "id")
  let participants ← (← asList (field json "participants")).mapM fun e => do Contact.fromJson r (← asMap e)
  let lastMessage ← unlessNull (fun j => do Message.fromJson r (← asMap j)) (field json "lastMessage")
  let unreadCount ← intOr 0 (field json "unreadCount")
  let isPinned ← boolOr false (field json "isPinned")
  let isMuted ← boolOr false (field json "isMuted")
  let isGroup ← boolOr false (field json "isGroup")
  let groupName ← orNull "String" asString (field json "groupName")
  let groupAvatarUrl ← orNull "String" asString (field json "groupAvatarUrl")
  let createdAt ← parseTime r (field json "createdAt")
  return { id, participants, lastMessage, unreadCount, isPinned, isMuted, isGroup, groupName, groupAvatarUrl, createdAt }

/-! ## Profiles -/

def UserProfile.toJson (w : Zone) (p : UserProfile) : JsonFields :=
  [("ChhayaId".toList, .obj (p.chhayaId.toJson w)), ("displayName".toList, textJson p.displayName),
    ("avatarUrl".toList, nullOr textJson p.avatarUrl), ("recoveryPhrase".toList, .arr (p.recoveryPhrase.map textJson)),
    ("createdAt".toList, timeJson w p.createdAt)]

/-- `UserProfile.fromJson`. The words of the phrase are cast where they are used, here at once. -/
def UserProfile.fromJson (r : Zone) (json : JsonFields) : Except DartError UserProfile := do
  let chhayaId ← ChhayaId.fromJson r (← asMap (field json "ChhayaId"))
  let displayName ← asString (field json "displayName")
  let avatarUrl ← orNull "String" asString (field json "avatarUrl")
  let recoveryPhrase ← (← asList (field json "recoveryPhrase")).mapM asString
  let createdAt ← parseTime r (field json "createdAt")
  return { chhayaId, displayName, avatarUrl, recoveryPhrase, createdAt }

/-! ## What was written is read -/

theorem asString_textJson (s : String) : asString (textJson s) = .ok s := by rw [textJson, asString, String.ofList_toList]

theorem orNull_textJson (o : Option String) : orNull "String" asString (nullOr textJson o) = .ok o := by
  cases o with
  | none => rfl
  | some s => simp [nullOr, orNull, textJson, asString]

theorem parseTime_timeJson {t : DateTime} (h : t.Valid) (w r : Zone) : parseTime r (timeJson w t) = t.reread w r := by
  rw [parseTime, timeJson, asString_textJson]
  exact DateTime.parse_toIso8601String h w r

theorem asStrings_textJson (l : List String) : asStrings (.arr (l.map textJson)) = .ok (some l) := by
  have h := mapM_map_ok (g := asString) (h := id) fun s (_ : s ∈ l) => asString_textJson s
  rw [asStrings]
  simp only [orNull, asList, bind, Except.bind, h]
  rw [List.map_id]
  rfl

theorem boolOr_bool (value b : Bool) : boolOr value (.bool b) = .ok b := rfl

theorem intOr_int (value i : Int) : intOr value (.int i) = .ok i := rfl

theorem ofName_name (t : MessageType) : MessageType.ofName (textJson t.name) = t := by cases t <;> rfl

/-! ## Times -/

/-- The times of a contact. -/
def Contact.times (c : Contact) : List DateTime := c.chhayaId.createdAt :: c.lastSeen.toList

/-- The times of a message. -/
def Message.times (m : Message) : List DateTime := [m.timestamp]

/-- The times of a conversation. -/
def Conversation.times (c : Conversation) : List DateTime :=
  c.participants.flatMap Contact.times ++ (c.lastMessage.toList.flatMap Message.times ++ [c.createdAt])

section Reread

variable {w r : Zone}

/-- A message with another time, and the time to live as it is stored. -/
def Message.stored (m : Message) (t : DateTime) : Message :=
  { m with timestamp := t, ttl := m.ttlMs.map fun ms => int64 (1000 * ms) }

theorem ChhayaId.fromJson_toJson {i : ChhayaId} (h : i.createdAt.Valid) :
    ChhayaId.fromJson r (i.toJson w) = (do return { i with createdAt := ← i.createdAt.reread w r }) := by
  have hkey : field (i.toJson w) "publicKey" = textJson i.publicKey := rfl
  have htime : field (i.toJson w) "createdAt" = timeJson w i.createdAt := rfl
  simp only [ChhayaId.fromJson, hkey, htime, asString_textJson, parseTime_timeJson h, bind, Except.bind]

theorem unlessNull_timeJson {o : Option DateTime} (h : ∀ t ∈ o, t.Valid) :
    unlessNull (parseTime r) (nullOr (timeJson w) o) = o.mapM (DateTime.reread w r) := by
  cases o with
  | none => rfl
  | some t =>
    have ht := parseTime_timeJson (h t rfl) w r
    simp only [timeJson, textJson] at ht
    simp only [nullOr, timeJson, textJson, unlessNull, ht]
    rfl

/-- A message as it is read. -/
theorem Message.fromJson_toJson {m : Message} (h : m.timestamp.Valid) :
    Message.fromJson r (m.toJson w) = (do return m.stored (← m.timestamp.reread w r)) := by
  have hid : field (m.toJson w) "id" = textJson m.id := rfl
  have hconversation : field (m.toJson w) "conversationId" = textJson m.conversationId := rfl
  have hsender : field (m.toJson w) "senderId" = textJson m.senderId := rfl
  have hcontent : field (m.toJson w) "content" = textJson m.content := rfl
  have htype : field (m.toJson w) "type" = textJson m.type.name := rfl
  have htime : field (m.toJson w) "timestamp" = timeJson w m.timestamp := rfl
  have hread : field (m.toJson w) "isRead" = .bool m.isRead := rfl
  have hdelivered : field (m.toJson w) "isDelivered" = .bool m.isDelivered := rfl
  have hsent : field (m.toJson w) "isSent" = .bool m.isSent := rfl
  have hreply : field (m.toJson w) "replyToId" = nullOr textJson m.replyToId := rfl
  have httl : field (m.toJson w) "ttlMs" = nullOr Json.int m.ttlMs := rfl
  have hagree : field (m.toJson w) "agreeUsers" = .arr (m.agreeUsers.map textJson) := rfl
  have hdisagree : field (m.toJson w) "disagreeUsers" = .arr (m.disagreeUsers.map textJson) := rfl
  have hms : unlessNull asInt (nullOr Json.int m.ttlMs) = .ok m.ttlMs := by cases m.ttlMs <;> rfl
  simp only [Message.fromJson, hid, hconversation, hsender, hcontent, htype, htime, hread, hdelivered, hsent, hreply, httl,
    hagree, hdisagree, asString_textJson, parseTime_timeJson h, boolOr_bool, orNull_textJson, hms, asStrings_textJson,
    ofName_name, bind, Except.bind]
  cases m.timestamp.reread w r <;> rfl

/-- A contact as it is read. -/
theorem Contact.fromJson_toJson {c : Contact} (h : ∀ t ∈ c.times, t.Valid) :
    Contact.fromJson r (c.toJson w) = (do
      let createdAt ← c.chhayaId.createdAt.reread w r
      let lastSeen ← c.lastSeen.mapM (DateTime.reread w r)
      return { c with chhayaId := { c.chhayaId with createdAt }, lastSeen }) := by
  have hid : field (c.toJson w) "id" = textJson c.id := rfl
  have hchhaya : field (c.toJson w) "ChhayaId" = .obj (c.chhayaId.toJson w) := rfl
  have hname : field (c.toJson w) "displayName" = textJson c.displayName := rfl
  have havatar : field (c.toJson w) "avatarUrl" = nullOr textJson c.avatarUrl := rfl
  have hlevel : field (c.toJson w) "verificationLevel" = .int c.verificationLevel := rfl
  have hblocked : field (c.toJson w) "isBlocked" = .bool c.isBlocked := rfl
  have hpinned : field (c.toJson w) "isPinned" = .bool c.isPinned := rfl
  have hseen : field (c.toJson w) "lastSeen" = nullOr (timeJson w) c.lastSeen := rfl
  have honline : field (c.toJson w) "isOnline" = .bool c.isOnline := rfl
  have hverified : field (c.toJson w) "isVerified" = .bool c.isVerified := rfl
  have hi : c.chhayaId.createdAt.Valid := h _ List.mem_cons_self
  have hl : ∀ t ∈ c.lastSeen, t.Valid := fun t ht => h t (List.mem_cons_of_mem _ (Option.mem_toList.mpr ht))
  simp only [Contact.fromJson, hid, hchhaya, hname, havatar, hlevel, hblocked, hpinned, hseen, honline, hverified,
    asString_textJson, asMap, ChhayaId.fromJson_toJson hi, orNull_textJson, intOr_int, boolOr_bool, unlessNull_timeJson hl,
    bind, Except.bind]
  cases c.chhayaId.createdAt.reread w r with
  | error e => rfl
  | ok t => cases c.lastSeen.mapM (DateTime.reread w r) <;> rfl

/-- `try` a message that may be missing. -/
theorem unlessNull_message {o : Option Message} (h : ∀ m ∈ o, m.timestamp.Valid) :
    unlessNull (fun j => do Message.fromJson r (← asMap j)) (nullOr (fun m => .obj (m.toJson w)) o) =
      o.mapM fun m => do return m.stored (← m.timestamp.reread w r) := by
  cases o with
  | none => rfl
  | some m =>
    have hm := Message.fromJson_toJson (w := w) (r := r) (h m rfl)
    simp only [nullOr, unlessNull, asMap, hm, bind, Except.bind]
    rfl

/-- A conversation as it is read. -/
theorem Conversation.fromJson_toJson {c : Conversation} (h : ∀ t ∈ c.times, t.Valid) :
    Conversation.fromJson r (c.toJson w) = (do
      let participants ← c.participants.mapM fun p => Contact.fromJson r (p.toJson w)
      let lastMessage ← c.lastMessage.mapM fun m => do return m.stored (← m.timestamp.reread w r)
      let createdAt ← c.createdAt.reread w r
      return { c with participants, lastMessage, createdAt }) := by
  have hid : field (c.toJson w) "id" = textJson c.id := rfl
  have hparticipants : field (c.toJson w) "participants" = .arr (c.participants.map fun p => .obj (p.toJson w)) := rfl
  have hlast : field (c.toJson w) "lastMessage" = nullOr (fun m => .obj (Message.toJson w m)) c.lastMessage := rfl
  have hunread : field (c.toJson w) "unreadCount" = .int c.unreadCount := rfl
  have hpinned : field (c.toJson w) "isPinned" = .bool c.isPinned := rfl
  have hmuted : field (c.toJson w) "isMuted" = .bool c.isMuted := rfl
  have hgroup : field (c.toJson w) "isGroup" = .bool c.isGroup := rfl
  have hname : field (c.toJson w) "groupName" = nullOr textJson c.groupName := rfl
  have havatar : field (c.toJson w) "groupAvatarUrl" = nullOr textJson c.groupAvatarUrl := rfl
  have hcreated : field (c.toJson w) "createdAt" = timeJson w c.createdAt := rfl
  have hlastValid : ∀ m ∈ c.lastMessage, m.timestamp.Valid := fun m hm => h _ (by
    simp only [times, Message.times, List.mem_append, List.mem_flatMap, Option.mem_toList, List.mem_singleton]
    exact Or.inr (Or.inl ⟨m, hm, rfl⟩))
  have hcreatedValid : c.createdAt.Valid := h _ (by simp [times])
  have hp : (c.participants.map fun p => Json.obj (p.toJson w)).mapM (fun e => do Contact.fromJson r (← asMap e)) =
      c.participants.mapM fun p => Contact.fromJson r (p.toJson w) := by
    simp only [List.mapM_map, Function.comp_def, asMap, bind, Except.bind]
  simp only [bind, Except.bind] at hp
  have hl := unlessNull_message (w := w) (r := r) hlastValid
  simp only [bind, Except.bind] at hl
  simp only [Conversation.fromJson, hid, hparticipants, hlast, hunread, hpinned, hmuted, hgroup, hname, havatar, hcreated,
    asString_textJson, asList, hp, hl, orNull_textJson, intOr_int, boolOr_bool, parseTime_timeJson hcreatedValid, bind,
    Except.bind]

/-- The time is in UTC, or the zone `r` takes the wall-clock time that the zone `w` showed for this very instant. -/
def DateTime.Kept (w r : Zone) (t : DateTime) : Prop := t.isUtc = true ∨ Zone.Recovers w r t.microsecondsSinceEpoch

/-- Times denote the same instants. -/
def SameInstants (ts ts' : List DateTime) : Prop :=
  ts.map DateTime.microsecondsSinceEpoch = ts'.map DateTime.microsecondsSinceEpoch

instance (ts ts' : List DateTime) : Decidable (SameInstants ts ts') := inferInstanceAs (Decidable (_ = _))

theorem DateTime.reread_kept {t : DateTime} (h : t.Valid) (hk : t.Kept w r) : t.reread w r = .ok t := by
  unfold reread
  obtain ⟨t, utc⟩ := t
  cases utc with
  | true => rfl
  | false =>
    have ht : r.resolve (w.clock t) = t := hk.resolve_left Bool.false_ne_true
    rw [if_neg Bool.false_ne_true]
    simp only [ht]
    exact if_pos h

theorem DateTime.kept_of_reread {t t' : DateTime} (h : t.reread w r = .ok t')
    (he : t'.microsecondsSinceEpoch = t.microsecondsSinceEpoch) : t.Kept w r := by
  unfold reread at h
  split at h
  · rename_i hu
    exact Or.inl hu
  · dsimp only at h
    split at h
    · rw [← Except.ok.inj h] at he
      exact Or.inr he
    · cases h

/-- The times that were read are those that were written, and denote the same instants. -/
theorem kept_of_forall₂ {ts ts' : List DateTime} (h : List.Forall₂ (fun t t' => t.reread w r = .ok t') ts ts')
    (he : SameInstants ts' ts) : ∀ t ∈ ts, t.Kept w r := by
  induction h with
  | nil => exact fun t ht => (List.not_mem_nil ht).elim
  | cons ht _ ih =>
    obtain ⟨h1, h2⟩ := List.cons.inj he
    exact List.forall_mem_cons.mpr ⟨DateTime.kept_of_reread ht h1, ih h2⟩

theorem forall₂_toList {α γ : Type} {f : α → Except DartError γ} {o : Option α} {o' : Option γ} (h : o.mapM f = .ok o') :
    List.Forall₂ (fun a b => f a = .ok b) o.toList o'.toList := by
  cases o with
  | none =>
    cases h
    exact .nil
  | some a =>
    obtain ⟨b, hb, h⟩ := except_bind_ok (h : (f a >>= fun b => pure (some b)) = .ok o')
    cases h
    exact .cons hb .nil

theorem mapM_option_ok {α : Type} {f : α → Except DartError α} {g : α → α} {o : Option α} (h : ∀ a ∈ o, f a = .ok (g a)) :
    o.mapM f = .ok (o.map g) := by
  cases o with
  | none => rfl
  | some a =>
    show (f a >>= fun b => pure (some b)) = _
    rw [h a rfl]
    rfl

/-! ### Contacts -/

theorem Contact.reread_times {c c' : Contact} (h : ∀ t ∈ c.times, t.Valid)
    (hr : Contact.fromJson r (c.toJson w) = .ok c') :
    List.Forall₂ (fun t t' => t.reread w r = .ok t') c.times c'.times := by
  rw [Contact.fromJson_toJson h] at hr
  obtain ⟨createdAt, h1, hr⟩ := except_bind_ok hr
  obtain ⟨lastSeen, h2, hr⟩ := except_bind_ok hr
  cases hr
  exact .cons h1 (forall₂_toList h2)

theorem Contact.fromJson_kept {c : Contact} (h : ∀ t ∈ c.times, t.Valid) (hk : ∀ t ∈ c.times, t.Kept w r) :
    Contact.fromJson r (c.toJson w) = .ok c := by
  have h1 := DateTime.reread_kept (h _ List.mem_cons_self) (hk _ List.mem_cons_self)
  have h2 : c.lastSeen.mapM (DateTime.reread w r) = .ok c.lastSeen := by
    have ht : ∀ t ∈ c.lastSeen, t ∈ c.times := fun t ht => List.mem_cons_of_mem _ (Option.mem_toList.mpr ht)
    have hall : ∀ t ∈ c.lastSeen, t.reread w r = .ok t := fun t hm => DateTime.reread_kept (h t (ht t hm)) (hk t (ht t hm))
    rw [mapM_option_ok (g := fun t => t) hall, Option.map_id']
  rw [Contact.fromJson_toJson h, h1, h2]
  rfl

/-! ### Messages -/

theorem Message.fromJson_kept {m : Message} (h : ∀ t ∈ m.times, t.Valid) (hk : ∀ t ∈ m.times, t.Kept w r) :
    Message.fromJson r (m.toJson w) = .ok (m.stored m.timestamp) := by
  rw [Message.fromJson_toJson (h _ List.mem_cons_self),
    DateTime.reread_kept (h _ List.mem_cons_self) (hk _ List.mem_cons_self)]
  rfl

/-! ### Profiles -/

/-- The times of a profile. -/
def UserProfile.times (p : UserProfile) : List DateTime := [p.chhayaId.createdAt, p.createdAt]

theorem UserProfile.fromJson_kept {p : UserProfile} (h : ∀ t ∈ p.times, t.Valid) (hk : ∀ t ∈ p.times, t.Kept w r) :
    UserProfile.fromJson r (p.toJson w) = .ok p := by
  have hchhaya : field (p.toJson w) "ChhayaId" = .obj (p.chhayaId.toJson w) := rfl
  have hname : field (p.toJson w) "displayName" = textJson p.displayName := rfl
  have havatar : field (p.toJson w) "avatarUrl" = nullOr textJson p.avatarUrl := rfl
  have hphrase : field (p.toJson w) "recoveryPhrase" = .arr (p.recoveryPhrase.map textJson) := rfl
  have htime : field (p.toJson w) "createdAt" = timeJson w p.createdAt := rfl
  have h1 : p.chhayaId.createdAt ∈ p.times := List.mem_cons_self
  have h2 : p.createdAt ∈ p.times := List.mem_cons_of_mem _ List.mem_cons_self
  have hwords : (p.recoveryPhrase.map textJson).mapM asString = .ok p.recoveryPhrase := by
    rw [mapM_map_ok (h := fun s => s) fun s _ => asString_textJson s, List.map_id']
  simp only [UserProfile.fromJson, hchhaya, hname, havatar, hphrase, htime, asMap, ChhayaId.fromJson_toJson (h _ h1),
    DateTime.reread_kept (h _ h1) (hk _ h1), asString_textJson, orNull_textJson, asList, hwords, parseTime_timeJson (h _ h2),
    DateTime.reread_kept (h _ h2) (hk _ h2), bind, Except.bind]
  rfl

/-! ### Conversations -/

theorem Conversation.reread_times {c c' : Conversation} (h : ∀ t ∈ c.times, t.Valid)
    (hr : Conversation.fromJson r (c.toJson w) = .ok c') :
    List.Forall₂ (fun t t' => t.reread w r = .ok t') c.times c'.times := by
  rw [Conversation.fromJson_toJson h] at hr
  obtain ⟨participants, h1, hr⟩ := except_bind_ok hr
  obtain ⟨lastMessage, h2, hr⟩ := except_bind_ok hr
  obtain ⟨createdAt, h3, hr⟩ := except_bind_ok hr
  cases hr
  have hp : ∀ p ∈ c.participants, ∀ t ∈ p.times, t.Valid := fun p hp t ht =>
    h t (List.mem_append_left _ (List.mem_flatMap.mpr ⟨p, hp, ht⟩))
  refine List.rel_append ?_ (List.rel_append ?_ (.cons h3 .nil))
  · refine List.rel_flatMap ((List.forall₂_and_left _ _).mpr ⟨hp, mapM_eq_ok_iff.mp h1⟩) ?_
    rintro p p' ⟨hv, hr⟩
    exact Contact.reread_times hv hr
  · refine List.rel_flatMap (forall₂_toList h2) ?_
    intro m m' hm
    obtain ⟨t, ht, hm⟩ := except_bind_ok hm
    cases hm
    exact .cons ht .nil

/-- A conversation as it is stored: the time to live of its last message is in whole milliseconds. -/
def Conversation.stored (c : Conversation) : Conversation :=
  { c with lastMessage := c.lastMessage.map fun m => m.stored m.timestamp }

theorem Conversation.fromJson_kept {c : Conversation} (h : ∀ t ∈ c.times, t.Valid) (hk : ∀ t ∈ c.times, t.Kept w r) :
    Conversation.fromJson r (c.toJson w) = .ok c.stored := by
  have hp : ∀ p ∈ c.participants, ∀ t ∈ p.times, t ∈ c.times := fun p hp t ht =>
    List.mem_append_left _ (List.mem_flatMap.mpr ⟨p, hp, ht⟩)
  have hm : ∀ m ∈ c.lastMessage, m.timestamp ∈ c.times := fun m hm => List.mem_append_right _
    (List.mem_append_left _ (List.mem_flatMap.mpr ⟨m, Option.mem_toList.mpr hm, List.mem_singleton_self _⟩))
  have hc : c.createdAt ∈ c.times :=
    List.mem_append_right _ (List.mem_append_right _ (List.mem_singleton_self _))
  have h1 : c.participants.mapM (fun p => Contact.fromJson r (p.toJson w)) = .ok c.participants := by
    refine mapM_eq_ok_iff.mpr (List.forall₂_same.mpr fun p hpm => ?_)
    exact Contact.fromJson_kept (fun t ht => h t (hp p hpm t ht)) fun t ht => hk t (hp p hpm t ht)
  have h2 : ∀ m ∈ c.lastMessage, (do return m.stored (← m.timestamp.reread w r)) =
      (.ok (m.stored m.timestamp) : Except DartError Message) := by
    intro m hmm
    rw [DateTime.reread_kept (h _ (hm m hmm)) (hk _ (hm m hmm))]
    rfl
  rw [Conversation.fromJson_toJson h, h1, mapM_option_ok h2, DateTime.reread_kept (h _ hc) (hk _ hc)]
  rfl

end Reread

/-! ## As text -/

/-- The time to live is a 64-bit integer. -/
def Message.Fits (m : Message) : Prop := ∀ ms ∈ m.ttlMs, Json.fits64 ms = true

/-- The numbers of a contact are 64-bit integers. -/
def Contact.Fits (c : Contact) : Prop := Json.fits64 c.verificationLevel = true

/-- The numbers of a conversation are 64-bit integers. -/
structure Conversation.Fits (c : Conversation) : Prop where
  unreadCount : Json.fits64 c.unreadCount = true
  participants : ∀ p ∈ c.participants, p.Fits
  lastMessage : ∀ m ∈ c.lastMessage, m.Fits

theorem wfElements_map {α : Type} {f : α → Json} : ∀ {l : List α}, (∀ x ∈ l, Json.WF (f x)) → Json.WFElements (l.map f)
  | [], _ => trivial
  | x :: _, h => ⟨h x List.mem_cons_self, wfElements_map fun y hy => h y (List.mem_cons_of_mem x hy)⟩

theorem wf_nullOr {α : Type} {f : α → Json} {o : Option α} (h : ∀ x ∈ o, Json.WF (f x)) : Json.WF (nullOr f o) := by
  cases o with
  | none => trivial
  | some x => exact h x rfl

theorem wf_texts (l : List String) : Json.WF (.arr (l.map textJson)) := wfElements_map fun _ _ => trivial

section WF

variable (w : Zone)

theorem ChhayaId.wf_toJson (i : ChhayaId) : Json.WF (.obj (i.toJson w)) := by
  refine ⟨?_, trivial, trivial, trivial⟩
  show ["publicKey".toList, "createdAt".toList].Nodup
  decide

theorem Contact.wf_toJson {c : Contact} (h : c.Fits) : Json.WF (.obj (c.toJson w)) := by
  refine ⟨?_, trivial, ChhayaId.wf_toJson w _, trivial, wf_nullOr fun _ _ => trivial, h, trivial, trivial,
    wf_nullOr fun _ _ => trivial, trivial, trivial, trivial⟩
  show ["id".toList, "ChhayaId".toList, "displayName".toList, "avatarUrl".toList, "verificationLevel".toList,
    "isBlocked".toList, "isPinned".toList, "lastSeen".toList, "isOnline".toList, "isVerified".toList].Nodup
  decide

theorem Message.wf_toJson {m : Message} (h : m.Fits) : Json.WF (.obj (m.toJson w)) := by
  refine ⟨?_, trivial, trivial, trivial, trivial, trivial, trivial, trivial, trivial, trivial, wf_nullOr fun _ _ => trivial,
    wf_nullOr h, wf_texts _, wf_texts _, trivial⟩
  show ["id".toList, "conversationId".toList, "senderId".toList, "content".toList, "type".toList, "timestamp".toList,
    "isRead".toList, "isDelivered".toList, "isSent".toList, "replyToId".toList, "ttlMs".toList, "agreeUsers".toList,
    "disagreeUsers".toList].Nodup
  decide

theorem Conversation.wf_toJson {c : Conversation} (h : c.Fits) : Json.WF (.obj (c.toJson w)) := by
  refine ⟨?_, trivial, wfElements_map fun p hp => Contact.wf_toJson w (h.participants p hp),
    wf_nullOr fun m hm => Message.wf_toJson w (h.lastMessage m hm), h.unreadCount, trivial, trivial, trivial,
    wf_nullOr fun _ _ => trivial, wf_nullOr fun _ _ => trivial, trivial, trivial⟩
  show ["id".toList, "participants".toList, "lastMessage".toList, "unreadCount".toList, "isPinned".toList,
    "isMuted".toList, "isGroup".toList, "groupName".toList, "groupAvatarUrl".toList, "createdAt".toList].Nodup
  decide

theorem UserProfile.wf_toJson (p : UserProfile) : Json.WF (.obj (p.toJson w)) := by
  refine ⟨?_, ChhayaId.wf_toJson w _, trivial, wf_nullOr fun _ _ => trivial, wf_texts _, trivial, trivial⟩
  show ["ChhayaId".toList, "displayName".toList, "avatarUrl".toList, "recoveryPhrase".toList, "createdAt".toList].Nodup
  decide

end WF

/-- What is well-formed survives the text. -/
theorem jsonDecode_jsonEncode {j : Json} (h : Json.WF j) : jsonDecode (jsonEncode j) = .ok j := by
  rw [jsonDecode, jsonEncode, String.toList_ofList, Json.decode_encode h]

/-- The text of a map survives its bytes: it begins with a brace. -/
theorem utf8Decode_jsonEncode (fields : JsonFields) :
    utf8Decode (utf8Encode (jsonEncode (.obj fields))) = .ok (jsonEncode (.obj fields)) := by
  refine utf8Decode_utf8Encode fun r h => ?_
  have h0 : (utf8Encode (jsonEncode (.obj fields))).head? = some 0x7B := by
    rw [jsonEncode, Json.encode, utf8Encode_cons]
    rfl
  rw [h] at h0
  cases h0

/-! ## What survives -/

/-- Times survive being stored in the zone `w` and read in the zone `r` exactly if each is in UTC or is the instant that `r`
takes for the wall-clock time that `w` showed at it. A message that survives is then read as the same message whatever the
zones are, and so are its place among others and its expiry. -/
theorem timestamps_survive_iff (w r : Zone) :
    (∀ m : Message, (∀ t ∈ m.times, t.Valid) →
      ((∃ m', Message.fromJson r (m.toJson w) = .ok m' ∧ SameInstants m'.times m.times) ↔ ∀ t ∈ m.times, t.Kept w r)) ∧
    (∀ c : Contact, (∀ t ∈ c.times, t.Valid) →
      ((∃ c', Contact.fromJson r (c.toJson w) = .ok c' ∧ SameInstants c'.times c.times) ↔ ∀ t ∈ c.times, t.Kept w r)) ∧
    (∀ c : Conversation, (∀ t ∈ c.times, t.Valid) →
      ((∃ c', Conversation.fromJson r (c.toJson w) = .ok c' ∧ SameInstants c'.times c.times) ↔
        ∀ t ∈ c.times, t.Kept w r)) ∧
    ∀ m : Message, (∀ t ∈ m.times, t.Valid) → (∀ t ∈ m.times, t.Kept w r) →
      Message.fromJson r (m.toJson w) = .ok (m.stored m.timestamp) := by
  refine ⟨fun m h => ⟨?_, fun hk => ⟨_, Message.fromJson_kept h hk, rfl⟩⟩, fun c h => ⟨?_, fun hk => ⟨c, Contact.fromJson_kept h hk, rfl⟩⟩,
    fun c h => ⟨?_, fun hk => ⟨c.stored, Conversation.fromJson_kept h hk, ?_⟩⟩, fun _ => Message.fromJson_kept⟩
  · rintro ⟨m', hr, he⟩
    rw [Message.fromJson_toJson (h _ List.mem_cons_self)] at hr
    obtain ⟨t, ht, hr⟩ := except_bind_ok hr
    cases hr
    exact kept_of_forall₂ (.cons ht .nil) he
  · rintro ⟨c', hr, he⟩
    exact kept_of_forall₂ (Contact.reread_times h hr) he
  · rintro ⟨c', hr, he⟩
    exact kept_of_forall₂ (Conversation.reread_times h hr) he
  · obtain ⟨id, ps, _ | m, n, p, mu, g, gn, ga, t⟩ := c <;> rfl

/-- A message that disappears after an hour. -/
def hourMessage (t : DateTime) : Message where
  id := "m"
  conversationId := "c"
  senderId := "me"
  content := ""
  timestamp := t
  ttl := some 3600000000

/-- Times in UTC survive every change of zone. -/
theorem timestamps_survive_utc : ∃ m', Message.fromJson (.fixed 0 (by decide))
    ((hourMessage ⟨0, true⟩).toJson (.fixed 3600000000 (by decide))) = .ok m' ∧
      SameInstants m'.times (hourMessage ⟨0, true⟩).times :=
  ((timestamps_survive_iff (.fixed 3600000000 (by decide)) (.fixed 0 (by decide))).1 (hourMessage ⟨0, true⟩)
    (List.forall_mem_singleton.mpr (by decide))).mpr (List.forall_mem_singleton.mpr (Or.inl rfl))

/-- A zone whose clock is put back by an hour, and which takes wall-clock times for the later of their instants. -/
def autumnZone : Zone where
  offset t := if t < 0 then 7200000000 else 3600000000
  resolve l := if l < 3600000000 then l - 7200000000 else l - 3600000000
  offset_lt t := by split <;> decide
  resolve_clock t := by split_ifs <;> omega

/-- A message of the app's own is read an hour later than it was written: after the device was moved to another zone, and
in one zone where the clock was put back. It then expires later. -/
theorem timestamps_shift :
    (∃ m', Message.fromJson (.fixed 0 (by decide)) ((hourMessage ⟨0, false⟩).toJson (.fixed 3600000000 (by decide))) = .ok m' ∧
      ¬SameInstants m'.times (hourMessage ⟨0, false⟩).times ∧
      ∃ now, (hourMessage ⟨0, false⟩).isExpired now = true ∧ m'.isExpired now = false) ∧
    ∃ m', Message.fromJson autumnZone ((hourMessage ⟨-1800000000, false⟩).toJson autumnZone) = .ok m' ∧
      ¬SameInstants m'.times (hourMessage ⟨-1800000000, false⟩).times ∧
      ∃ now, (hourMessage ⟨-1800000000, false⟩).isExpired now = true ∧ m'.isExpired now = false := by
  refine ⟨⟨_, Message.fromJson_toJson (by decide), by decide, ⟨3600000001, false⟩, by decide, by decide⟩,
    ⟨_, Message.fromJson_toJson (by decide), by decide, ⟨3000000000, false⟩, by decide, by decide⟩⟩

end Chhaya
