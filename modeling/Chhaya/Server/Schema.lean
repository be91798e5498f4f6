import Chhaya.Server.Program

/-!
# What statements do to the tables of messages

The tables of conversations, participants, messages and users, and the constraints of the schema on them.

- `exec_change`: what a statement can do to these tables.
- `exec_frame`: a statement writes its tables only.
- `Db.Keys.exec`: no statement breaks the primary key of messages.
- `Db.References.exec`: no statement breaks a foreign key.
- `Progress.exec`: messages stay, `updated_at` does not go back, and nobody joins a conversation that is there.
-/

namespace Chhaya

namespace Server

/-! ## What a statement can do -/

/-- The ways in which statements change these tables. -/
inductive Db.Change (d : Db) : Db → Prop
  | foreign {d' : Db} (conversations : d'.conversations = d.conversations) (participants : d'.participants = d.participants)
    (messages : d'.messages = d.messages) (users : ∀ u ∈ d.users, ∃ u' ∈ d'.users, u'.id = u.id)
    (now : d'.now = d.now) : Change d d'
  | insertMessage {d' : Db} {m : NewMessage} {id conversation : Uuid} {replyTo : Option Uuid} {b : Bool}
    (h : d.insertMessage m id conversation replyTo = some (b, d')) : Change d d'
  | touchConversation (id : Uuid) : Change d (d.touchConversation id)
  | markLastRead (id user : Uuid) : Change d (d.markLastRead id user)
  | markRead (id user : Uuid) : Change d (d.markRead id user)
  | insertConversation {d' : Db} {contacts : List ContactRow} {c : NewConversation} {participants : List Uuid}
    (h : ({ d with contacts := contacts } : Db).insertConversation c participants = some d') : Change d d'

/-- The rows differ in their marks at most. -/
def SameMessage (m m' : MessageRow) : Prop := m' = { m with readAt := m'.readAt, deliveredAt := m'.deliveredAt }

theorem SameMessage.refl (m : MessageRow) : SameMessage m m := rfl

theorem SameMessage.trans {m m' m'' : MessageRow} (h : SameMessage m m') (h' : SameMessage m' m'') : SameMessage m m'' := by
  unfold SameMessage at *
  rw [h', h]

theorem SameMessage.symm {m m' : MessageRow} (h : SameMessage m m') : SameMessage m' m := by
  unfold SameMessage at *
  rw [h]

theorem Db.message_spec {d : Db} {id : Uuid} {m : MessageRow} (h : d.message id = some m) : m ∈ d.messages ∧ m.id = id :=
  ⟨List.mem_of_find?_eq_some h, by simpa using List.find?_some h⟩

/-- The tables. -/
inductive Table
  | users
  | sessions
  | challenges
  | devices
  | contacts
  | conversations
  | participants
  | messages

/-- The tables that a statement writes. -/
def Sql.writes : Sql → List Table
  | .insertSession _ _ _ | .deleteSession _ => [.sessions]
  | .deleteExpiredChallenges | .insertChallenge _ | .consumeChallenge _ _ _ _ => [.challenges]
  | .insertAccount _ _ => [.users, .devices]
  | .upsertDevice _ | .linkDevice _ => [.devices]
  | .touchLastSeen _ => [.users]
  | .insertContact _ _ _ _ => [.contacts, .conversations, .participants]
  | .insertConversation _ _ => [.conversations, .participants]
  | .insertMessage _ | .markRead _ _ => [.messages]
  | .touchConversation _ => [.conversations]
  | .markLastRead _ _ => [.participants]
  | _ => []

/-- The tables are as they were, but for those that are written. -/
structure Db.Frame (writes : List Table) (d d' : Db) : Prop where
  users : .users ∉ writes → d'.users = d.users
  sessions : .sessions ∉ writes → d'.sessions = d.sessions
  challenges : .challenges ∉ writes → d'.challenges = d.challenges
  devices : .devices ∉ writes → d'.devices = d.devices
  contacts : .contacts ∉ writes → d'.contacts = d.contacts
  conversations : .conversations ∉ writes → d'.conversations = d.conversations
  participants : .participants ∉ writes → d'.participants = d.participants
  messages : .messages ∉ writes → d'.messages = d.messages

section Statements

variable {platform : Platform} {d d' : Db}

/-- The tables are as they were. -/
theorem Db.Change.same (d : Db) : d.Change d := .foreign rfl rfl rfl (fun u hu => ⟨u, hu, rfl⟩) rfl

/-- What a statement can do. -/
theorem exec_change {q : Sql} {a : q.Rows} (h : exec platform d q = some (a, d')) : d.Change d' := by
  cases q with
  | insertMessage m =>
    obtain ⟨id, -, h⟩ := Option.bind_eq_some_iff.mp h
    obtain ⟨c, -, h⟩ := Option.bind_eq_some_iff.mp h
    obtain ⟨replyTo, -, h⟩ := Option.bind_eq_some_iff.mp h
    exact .insertMessage h
  | touchConversation => obtain ⟨id, -, h⟩ := Option.bind_eq_some_iff.mp h; cases h; exact .touchConversation id
  | markLastRead _ user => obtain ⟨id, -, h⟩ := Option.bind_eq_some_iff.mp h; cases h; exact .markLastRead id user
  | markRead _ user => obtain ⟨id, -, h⟩ := Option.bind_eq_some_iff.mp h; cases h; exact .markRead id user
  | insertConversation =>
    obtain ⟨ids, -, h⟩ := Option.bind_eq_some_iff.mp h
    obtain ⟨d', hd, h⟩ := Option.bind_eq_some_iff.mp h
    cases h
    exact @Db.Change.insertConversation d _ d.contacts _ _ hd
  | insertContact =>
    obtain ⟨d', hd, h⟩ := Option.map_eq_some_iff.mp h
    cases h
    unfold Db.insertContact at hd
    split at hd
    · cases hd
    · exact @Db.Change.insertConversation d _ _ _ _ hd
  | insertAccount u =>
    obtain ⟨_, -, h⟩ := Option.bind_eq_some_iff.mp h
    obtain ⟨d', hd, h⟩ := Option.bind_eq_some_iff.mp h
    cases h
    unfold Db.insertAccount at hd
    split at hd <;> cases hd
    exact .foreign rfl rfl rfl (fun u hu => ⟨u, List.mem_cons_of_mem _ hu, rfl⟩) rfl
  | touchLastSeen id =>
    cases h
    refine .foreign rfl rfl rfl (fun u hu => ⟨_, List.mem_map.mpr ⟨u, hu, rfl⟩, ?_⟩) rfl
    split <;> rfl
  | upsertDevice v =>
    obtain ⟨deviceId, -, h⟩ := Option.bind_eq_some_iff.mp h
    obtain rfl : (d.upsertDevice v deviceId).2 = d' := congrArg Prod.snd (Option.some.inj h)
    unfold Db.upsertDevice
    split
    · exact .foreign rfl rfl rfl (fun u hu => ⟨u, hu, rfl⟩) rfl
    · split
      · exact .foreign rfl rfl rfl (fun u hu => ⟨u, hu, rfl⟩) rfl
      · exact .same d
  | linkDevice v =>
    obtain ⟨deviceId, -, h⟩ := Option.bind_eq_some_iff.mp h
    obtain rfl : (d.linkDevice v deviceId).2 = d' := congrArg Prod.snd (Option.some.inj h)
    unfold Db.linkDevice
    split
    · exact .foreign rfl rfl rfl (fun u hu => ⟨u, hu, rfl⟩) rfl
    · split
      · exact .foreign rfl rfl rfl (fun u hu => ⟨u, hu, rfl⟩) rfl
      · exact .same d
  | insertSession =>
    obtain ⟨d', hd, h⟩ := Option.map_eq_some_iff.mp h
    cases h
    unfold Db.insertSession at hd
    split at hd <;> cases hd
    exact .foreign rfl rfl rfl (fun u hu => ⟨u, hu, rfl⟩) rfl
  | insertChallenge =>
    obtain ⟨_, -, h⟩ := Option.bind_eq_some_iff.mp h
    obtain ⟨d', hd, h⟩ := Option.bind_eq_some_iff.mp h
    cases h
    unfold Db.insertChallenge at hd
    split at hd <;> cases hd
    exact .foreign rfl rfl rfl (fun u hu => ⟨u, hu, rfl⟩) rfl
  | consumeChallenge =>
    obtain ⟨_, -, h⟩ := Option.bind_eq_some_iff.mp h
    obtain ⟨_, -, h⟩ := Option.bind_eq_some_iff.mp h
    cases h
    exact .foreign rfl rfl rfl (fun u hu => ⟨u, hu, rfl⟩) rfl
  | deleteSession => cases h; exact .foreign rfl rfl rfl (fun u hu => ⟨u, hu, rfl⟩) rfl
  | deleteExpiredChallenges => cases h; exact .foreign rfl rfl rfl (fun u hu => ⟨u, hu, rfl⟩) rfl
  | registerFCMToken => cases h
  | authenticate => cases h; exact .same d
  | userExists => cases h; exact .same d
  | activeUser => cases h; exact .same d
  | userByChhayaId => cases h; exact .same d
  | contactExists => cases h; exact .same d
  | conversationsOf => cases h; exact .same d
  | participantCheck => obtain ⟨_, -, h⟩ := Option.bind_eq_some_iff.mp h; cases h; exact .same d
  | messageById => obtain ⟨_, -, h⟩ := Option.bind_eq_some_iff.mp h; cases h; exact .same d
  | otherParticipants => obtain ⟨_, -, h⟩ := Option.bind_eq_some_iff.mp h; cases h; exact .same d
  | messageParticipant => obtain ⟨_, -, h⟩ := Option.bind_eq_some_iff.mp h; cases h; exact .same d
  | messagesOf =>
    obtain ⟨_, -, h⟩ := Option.bind_eq_some_iff.mp h
    obtain ⟨_, -, h⟩ := Option.bind_eq_some_iff.mp h
    cases h; exact .same d

/-! ## Inversion -/

/-- A message that is inserted has an id of its own, and what it refers to is there. -/
theorem Db.insertMessage_inv {m : NewMessage} {id conversation : Uuid} {replyTo : Option Uuid} {b : Bool}
    (h : d.insertMessage m id conversation replyTo = some (b, d')) :
    (b = false ∧ d' = d ∧ (d.message id).isSome) ∨
    (b = true ∧ d.message id = none ∧ (∃ c ∈ d.conversations, c.id = conversation) ∧ (∃ u ∈ d.users, u.id = m.senderId) ∧
      d' = { d with messages := ⟨id, conversation, m.senderId, m.content, m.messageType, m.mediaUrl, m.mediaMeta, replyTo,
        d.now, none, none, false⟩ :: d.messages }) := by
  unfold Db.insertMessage at h
  split at h
  · rename_i hold
    cases h
    exact Or.inl ⟨rfl, rfl, hold⟩
  · rename_i hnew
    split at h
    · rename_i hrefs
      cases h
      simp only [Bool.and_eq_true, List.any_eq_true, beq_iff_eq] at hrefs
      exact Or.inr ⟨rfl, by simpa using hnew, hrefs.1.1, hrefs.1.2, rfl⟩
    · cases h

/-- A conversation that is inserted has an id of its own, and its participants are users. -/
theorem Db.insertConversation_inv {c : NewConversation} {participants : List Uuid}
    (h : d.insertConversation c participants = some d') :
    (∀ r ∈ d.conversations, r.id ≠ c.id) ∧ (∀ u ∈ participants, ∃ r ∈ d.users, r.id = u) ∧
      d' = { d with
        conversations := ⟨c.id, c.type, c.name, c.avatarUrl, c.createdBy, d.now, d.now⟩ :: d.conversations
        participants := participants.map (fun u => ⟨c.id, u, u == c.createdBy, none, some 0⟩) ++ d.participants } := by
  unfold Db.insertConversation at h
  split at h
  · cases h
  · rename_i hok
    cases h
    simp only [Bool.or_eq_true, not_or, Bool.not_eq_true, Bool.not_eq_false', List.all_eq_true, List.any_eq_true,
      beq_iff_eq] at hok
    exact ⟨fun r hr he => hok.1.1.1 ⟨r, hr, he⟩, hok.1.2, rfl⟩

/-- The row of a message, with marks or without them. -/
theorem markRead_row (m : MessageRow) (id user : Uuid) :
    SameMessage m (if m.id = id ∧ m.readAt = none ∧ m.senderId ≠ user then
      { m with readAt := some d.now, deliveredAt := some (m.deliveredAt.getD d.now) } else m) := by
  split <;> rfl

/-- A participant whose mark is moved is the same otherwise. -/
theorem Db.markLastRead_participants {id user : Uuid} {p : ParticipantRow}
    (h : p ∈ (d.markLastRead id user).participants) : ∃ p₀ ∈ d.participants, p = { p₀ with lastReadAt := p.lastReadAt } := by
  unfold Db.markLastRead at h
  cases hm : d.message id with
  | none =>
    rw [hm] at h
    exact ⟨p, h, rfl⟩
  | some m =>
    rw [hm] at h
    obtain ⟨p₀, hp₀, rfl⟩ := List.mem_map.mp h
    refine ⟨p₀, hp₀, ?_⟩
    split <;> rfl

/-- A mark moves in the table of participants only. -/
theorem Db.markLastRead_tables (d : Db) (id user : Uuid) : (d.markLastRead id user).messages = d.messages ∧
    (d.markLastRead id user).conversations = d.conversations ∧ (d.markLastRead id user).users = d.users := by
  unfold Db.markLastRead
  cases d.message id <;> exact ⟨rfl, rfl, rfl⟩

/-! ## Frames -/

theorem Db.Frame.refl (writes : List Table) (d : Db) : d.Frame writes d :=
  ⟨fun _ => rfl, fun _ => rfl, fun _ => rfl, fun _ => rfl, fun _ => rfl, fun _ => rfl, fun _ => rfl, fun _ => rfl⟩

/-- A conversation and its participants are inserted. -/
theorem Db.Frame.insertConversation {c : NewConversation} {participants : List Uuid}
    (h : d.insertConversation c participants = some d') : d.Frame [.conversations, .participants] d' := by
  obtain ⟨-, -, rfl⟩ := Db.insertConversation_inv h
  constructor <;> simp

/-- A statement writes its tables only. -/
theorem exec_frame {q : Sql} {x : q.Rows × Db} (h : exec platform d q = some x) : d.Frame q.writes x.2 := by
  cases q with
  | insertAccount u v =>
    obtain ⟨_, -, h⟩ := Option.bind_eq_some_iff.mp h
    obtain ⟨d', hd, h⟩ := Option.bind_eq_some_iff.mp h
    cases h
    unfold Db.insertAccount at hd
    split at hd <;> cases hd
    constructor <;> simp [Sql.writes]
  | insertMessage m =>
    obtain ⟨id, -, h⟩ := Option.bind_eq_some_iff.mp h
    obtain ⟨c, -, h⟩ := Option.bind_eq_some_iff.mp h
    obtain ⟨replyTo, -, h⟩ := Option.bind_eq_some_iff.mp h
    obtain ⟨-, he, -⟩ | ⟨-, -, -, -, he⟩ := @Db.insertMessage_inv d x.2 m id c replyTo x.1 h
    · rw [he]
      exact .refl _ d
    · rw [he]
      constructor <;> simp [Sql.writes]
  | insertConversation c =>
    obtain ⟨ids, -, h⟩ := Option.bind_eq_some_iff.mp h
    obtain ⟨d', hd, h⟩ := Option.bind_eq_some_iff.mp h
    cases h
    exact .insertConversation hd
  | insertContact =>
    obtain ⟨d', hd, h⟩ := Option.map_eq_some_iff.mp h
    cases h
    unfold Db.insertContact at hd
    split at hd
    · cases hd
    · obtain ⟨-, -, rfl⟩ := Db.insertConversation_inv hd
      constructor <;> simp [Sql.writes]
  | insertSession =>
    obtain ⟨d', hd, h⟩ := Option.map_eq_some_iff.mp h
    cases h
    unfold Db.insertSession at hd
    split at hd <;> cases hd
    constructor <;> simp [Sql.writes]
  | insertChallenge =>
    obtain ⟨_, -, h⟩ := Option.bind_eq_some_iff.mp h
    obtain ⟨d', hd, h⟩ := Option.bind_eq_some_iff.mp h
    cases h
    unfold Db.insertChallenge at hd
    split at hd <;> cases hd
    constructor <;> simp [Sql.writes]
  | upsertDevice v =>
    obtain ⟨deviceId, -, h⟩ := Option.bind_eq_some_iff.mp h
    obtain rfl := Option.some.inj h
    unfold Db.upsertDevice
    split
    · constructor <;> simp [Sql.writes]
    · split
      · constructor <;> simp [Sql.writes]
      · exact .refl _ d
  | linkDevice v =>
    obtain ⟨deviceId, -, h⟩ := Option.bind_eq_some_iff.mp h
    obtain rfl := Option.some.inj h
    unfold Db.linkDevice
    split
    · constructor <;> simp [Sql.writes]
    · split
      · constructor <;> simp [Sql.writes]
      · exact .refl _ d
  | consumeChallenge =>
    obtain ⟨_, -, h⟩ := Option.bind_eq_some_iff.mp h
    obtain ⟨_, -, h⟩ := Option.bind_eq_some_iff.mp h
    cases h
    constructor <;> simp [Sql.writes, Db.consumeChallenge]
  | markLastRead id =>
    obtain ⟨id, -, h⟩ := Option.bind_eq_some_iff.mp h
    cases h
    show d.Frame _ (d.markLastRead id _)
    unfold Db.markLastRead
    split
    · exact .refl _ d
    · constructor <;> simp [Sql.writes]
  | touchConversation | markRead =>
    obtain ⟨_, -, h⟩ := Option.bind_eq_some_iff.mp h
    cases h
    constructor <;> simp [Sql.writes, Db.touchConversation, Db.markRead]
  | messagesOf =>
    obtain ⟨_, -, h⟩ := Option.bind_eq_some_iff.mp h
    obtain ⟨_, -, h⟩ := Option.bind_eq_some_iff.mp h
    cases h
    exact .refl _ d
  | participantCheck | messageById | otherParticipants | messageParticipant =>
    obtain ⟨_, -, h⟩ := Option.bind_eq_some_iff.mp h
    cases h
    exact .refl _ d
  | deleteSession | deleteExpiredChallenges | touchLastSeen =>
    cases h
    constructor <;> simp [Sql.writes, Db.deleteSession, Db.deleteExpiredChallenges, Db.touchLastSeen]
  | registerFCMToken => cases h
  | authenticate | userExists | activeUser | userByChhayaId | contactExists | conversationsOf =>
    cases h
    exact .refl _ d

/-! ## The primary key of messages -/

/-- The primary key of messages. -/
def Db.Keys (d : Db) : Prop := (d.messages.map MessageRow.id).Nodup

/-- One row has the id. -/
theorem Db.Keys.eq (h : d.Keys) {m m' : MessageRow} (hm : m ∈ d.messages) (hm' : m' ∈ d.messages) (hid : m.id = m'.id) :
    m = m' := List.inj_on_of_nodup_map h hm hm' hid

theorem Db.Keys.change (h : d.Keys) (hc : d.Change d') : d'.Keys := by
  cases hc with
  | foreign _ _ hm _ => unfold Db.Keys; rwa [hm]
  | insertMessage hi =>
    obtain ⟨-, rfl, -⟩ | ⟨-, hnew, -, -, rfl⟩ := Db.insertMessage_inv hi
    · exact h
    · refine List.nodup_cons.mpr ⟨fun hm => ?_, h⟩
      obtain ⟨m', hm', he⟩ := List.mem_map.mp hm
      exact List.find?_eq_none.mp hnew m' hm' (by simpa using he)
  | touchConversation id => exact h
  | markLastRead id user => unfold Db.Keys; rwa [(d.markLastRead_tables id user).1]
  | markRead id user =>
    have hids : (d.markRead id user).messages.map MessageRow.id = d.messages.map MessageRow.id := by
      rw [Db.markRead, List.map_map]
      refine List.map_congr_left fun m _ => ?_
      show (if _ then _ else m : MessageRow).id = m.id
      split <;> rfl
    unfold Db.Keys
    rwa [hids]
  | insertConversation hi =>
    obtain ⟨-, -, rfl⟩ := Db.insertConversation_inv hi
    exact h

/-- No statement breaks the primary key of messages. -/
theorem Db.Keys.exec {q : Sql} {a : q.Rows} (h : d.Keys) (he : exec platform d q = some (a, d')) : d'.Keys :=
  h.change (exec_change he)

/-! ## Foreign keys -/

/-- There is a conversation with the id. -/
def Db.HasConversation (d : Db) (id : Uuid) : Prop := ∃ c ∈ d.conversations, c.id = id

/-- Messages and participants refer to rows that are there. -/
structure Db.References (d : Db) : Prop where
  messages : ∀ m ∈ d.messages, d.HasConversation m.conversationId
  participants : ∀ p ∈ d.participants, d.HasConversation p.conversationId ∧ ∃ u ∈ d.users, u.id = p.userId

/-- No conversation goes. -/
theorem Db.Change.hasConversation (hc : d.Change d') {id : Uuid} (h : d.HasConversation id) : d'.HasConversation id := by
  obtain ⟨c, hcm, hid⟩ := h
  cases hc with
  | foreign hconv => exact ⟨c, hconv ▸ hcm, hid⟩
  | insertMessage hi =>
    obtain ⟨-, rfl, -⟩ | ⟨-, -, -, -, rfl⟩ := Db.insertMessage_inv hi
    · exact ⟨c, hcm, hid⟩
    · exact ⟨c, hcm, hid⟩
  | touchConversation i =>
    refine ⟨_, List.mem_map.mpr ⟨c, hcm, rfl⟩, ?_⟩
    split <;> exact hid
  | markLastRead i user => exact ⟨c, (d.markLastRead_tables i user).2.1 ▸ hcm, hid⟩
  | markRead i user => exact ⟨c, hcm, hid⟩
  | insertConversation hi =>
    obtain ⟨-, -, rfl⟩ := Db.insertConversation_inv hi
    exact ⟨c, List.mem_cons_of_mem _ hcm, hid⟩

/-- No user goes. -/
theorem Db.Change.user (hc : d.Change d') {id : Uuid} (h : ∃ u ∈ d.users, u.id = id) : ∃ u ∈ d'.users, u.id = id := by
  obtain ⟨u, hu, hid⟩ := h
  cases hc with
  | foreign _ _ _ husers =>
    obtain ⟨u', hu', he⟩ := husers u hu
    exact ⟨u', hu', he.trans hid⟩
  | insertMessage hi =>
    obtain ⟨-, rfl, -⟩ | ⟨-, -, -, -, rfl⟩ := Db.insertMessage_inv hi
    · exact ⟨u, hu, hid⟩
    · exact ⟨u, hu, hid⟩
  | touchConversation i => exact ⟨u, hu, hid⟩
  | markLastRead i user => exact ⟨u, (d.markLastRead_tables i user).2.2 ▸ hu, hid⟩
  | markRead i user => exact ⟨u, hu, hid⟩
  | insertConversation hi =>
    obtain ⟨-, -, rfl⟩ := Db.insertConversation_inv hi
    exact ⟨u, hu, hid⟩

/-- Every message is an old one, with marks or without them, or a new one of a conversation that is there. -/
theorem Db.Change.messages (hc : d.Change d') {m : MessageRow} (hm : m ∈ d'.messages) :
    (∃ m₀ ∈ d.messages, SameMessage m₀ m) ∨ d.HasConversation m.conversationId := by
  cases hc with
  | foreign _ _ hmsg => exact Or.inl ⟨m, hmsg ▸ hm, .refl m⟩
  | insertMessage hi =>
    obtain ⟨-, rfl, -⟩ | ⟨-, -, hconv, -, rfl⟩ := Db.insertMessage_inv hi
    · exact Or.inl ⟨m, hm, .refl m⟩
    · rcases List.mem_cons.mp hm with rfl | hm
      · exact Or.inr hconv
      · exact Or.inl ⟨m, hm, .refl m⟩
  | touchConversation i => exact Or.inl ⟨m, hm, .refl m⟩
  | markLastRead i user => exact Or.inl ⟨m, (d.markLastRead_tables i user).1 ▸ hm, .refl m⟩
  | markRead i user =>
    obtain ⟨m₀, hm₀, rfl⟩ := List.mem_map.mp hm
    exact Or.inl ⟨m₀, hm₀, markRead_row m₀ i user⟩
  | insertConversation hi =>
    obtain ⟨-, -, rfl⟩ := Db.insertConversation_inv hi
    exact Or.inl ⟨m, hm, .refl m⟩

/-- Every participant was one, or takes part in a new conversation. -/
theorem Db.Change.participants (hc : d.Change d') {p : ParticipantRow} (hp : p ∈ d'.participants) :
    (∃ p₀ ∈ d.participants, p = { p₀ with lastReadAt := p.lastReadAt }) ∨
      (¬ d.HasConversation p.conversationId ∧ d'.HasConversation p.conversationId ∧ ∃ u ∈ d.users, u.id = p.userId) := by
  cases hc with
  | foreign _ hpart => exact Or.inl ⟨p, hpart ▸ hp, rfl⟩
  | insertMessage hi =>
    obtain ⟨-, rfl, -⟩ | ⟨-, -, -, -, rfl⟩ := Db.insertMessage_inv hi
    · exact Or.inl ⟨p, hp, rfl⟩
    · exact Or.inl ⟨p, hp, rfl⟩
  | touchConversation i => exact Or.inl ⟨p, hp, rfl⟩
  | markLastRead i user => exact Or.inl (Db.markLastRead_participants hp)
  | markRead i user => exact Or.inl ⟨p, hp, rfl⟩
  | insertConversation hi =>
    obtain ⟨hnew, husers, rfl⟩ := Db.insertConversation_inv hi
    rcases List.mem_append.mp hp with hp | hp
    · obtain ⟨u, hu, rfl⟩ := List.mem_map.mp hp
      exact Or.inr ⟨fun ⟨c, hc, hid⟩ => hnew c hc hid, ⟨_, List.mem_cons_self, rfl⟩, husers u hu⟩
    · exact Or.inl ⟨p, hp, rfl⟩

/-- No statement breaks a foreign key. -/
theorem Db.References.change (h : d.References) (hc : d.Change d') : d'.References := by
  constructor
  · intro m hm
    rcases hc.messages hm with ⟨m₀, hm₀, hs⟩ | hconv
    · rw [hs]
      exact hc.hasConversation (h.messages m₀ hm₀)
    · exact hc.hasConversation hconv
  · intro p hp
    rcases hc.participants hp with ⟨p₀, hp₀, hs⟩ | ⟨-, hconv, huser⟩
    · rw [hs]
      exact ⟨hc.hasConversation (h.participants p₀ hp₀).1, hc.user (h.participants p₀ hp₀).2⟩
    · exact ⟨hconv, hc.user huser⟩

/-! ## Progress -/

/-- What the tables never lose. -/
structure Progress (d d' : Db) : Prop where
  messages : ∀ m ∈ d.messages, ∃ m' ∈ d'.messages, SameMessage m m'
  conversations : ∀ id, d.HasConversation id → d'.HasConversation id
  updated : ∀ c' ∈ d'.conversations, d.HasConversation c'.id →
    ∃ c ∈ d.conversations, c.id = c'.id ∧ min c.updatedAt d.now ≤ c'.updatedAt
  participants : ∀ p' ∈ d'.participants, p'.leftAt = none → d.HasConversation p'.conversationId →
    ∃ p ∈ d.participants, p.conversationId = p'.conversationId ∧ p.userId = p'.userId ∧ p.leftAt = none
  now : d.now ≤ d'.now

theorem Progress.refl (d : Db) : Progress d d :=
  ⟨fun m hm => ⟨m, hm, .refl m⟩, fun _ h => h, fun c hc _ => ⟨c, hc, rfl, min_le_left _ _⟩,
    fun p hp hl _ => ⟨p, hp, rfl, rfl, hl⟩, le_refl _⟩

theorem Progress.trans {d'' : Db} (h : Progress d d') (h' : Progress d' d'') : Progress d d'' := by
  refine ⟨fun m hm => ?_, fun id hid => h'.conversations id (h.conversations id hid), fun c hc hid => ?_,
    fun p hp hl hid => ?_, h.now.trans h'.now⟩
  · obtain ⟨m', hm', hs⟩ := h.messages m hm
    obtain ⟨m'', hm'', hs'⟩ := h'.messages m' hm'
    exact ⟨m'', hm'', hs.trans hs'⟩
  · obtain ⟨c', hc', he, hle⟩ := h'.updated c hc (h.conversations _ hid)
    obtain ⟨c₀, hc₀, he₀, hle₀⟩ := h.updated c' hc' (he ▸ hid)
    refine ⟨c₀, hc₀, he₀.trans he, ?_⟩
    have := h.now
    omega
  · obtain ⟨p', hp', hc, hu, hl'⟩ := h'.participants p hp hl (h.conversations _ hid)
    obtain ⟨p₀, hp₀, hc₀, hu₀, hl₀⟩ := h.participants p' hp' hl' (hc ▸ hid)
    exact ⟨p₀, hp₀, hc₀.trans hc, hu₀.trans hu, hl₀⟩

/-- Time passes. -/
theorem Progress.at (d : Db) (t : Nat) : Progress d (d.at t) :=
  ⟨fun m hm => ⟨m, hm, .refl m⟩, fun _ h => h, fun c hc _ => ⟨c, hc, rfl, min_le_left _ _⟩,
    fun p hp hl _ => ⟨p, hp, rfl, rfl, hl⟩, le_max_left _ _⟩

/-- Messages stay but for their marks. -/
theorem Db.Change.kept (hc : d.Change d') {m : MessageRow} (hm : m ∈ d.messages) : ∃ m' ∈ d'.messages, SameMessage m m' := by
  cases hc with
  | foreign _ _ hmsg => exact ⟨m, hmsg ▸ hm, .refl m⟩
  | insertMessage hi =>
    obtain ⟨-, rfl, -⟩ | ⟨-, -, -, -, rfl⟩ := Db.insertMessage_inv hi
    · exact ⟨m, hm, .refl m⟩
    · exact ⟨m, List.mem_cons_of_mem _ hm, .refl m⟩
  | touchConversation i => exact ⟨m, hm, .refl m⟩
  | markLastRead i user => exact ⟨m, (d.markLastRead_tables i user).1 ▸ hm, .refl m⟩
  | markRead i user => exact ⟨_, List.mem_map.mpr ⟨m, hm, rfl⟩, markRead_row m i user⟩
  | insertConversation hi =>
    obtain ⟨-, -, rfl⟩ := Db.insertConversation_inv hi
    exact ⟨m, hm, .refl m⟩

/-- The time of a conversation does not go back behind the present. -/
theorem Db.Change.updated (hc : d.Change d') {c' : ConversationRow} (hc' : c' ∈ d'.conversations)
    (hid : d.HasConversation c'.id) : ∃ c ∈ d.conversations, c.id = c'.id ∧ min c.updatedAt d.now ≤ c'.updatedAt := by
  cases hc with
  | foreign hconv => exact ⟨c', hconv ▸ hc', rfl, min_le_left _ _⟩
  | insertMessage hi =>
    obtain ⟨-, rfl, -⟩ | ⟨-, -, -, -, rfl⟩ := Db.insertMessage_inv hi
    · exact ⟨c', hc', rfl, min_le_left _ _⟩
    · exact ⟨c', hc', rfl, min_le_left _ _⟩
  | touchConversation i =>
    obtain ⟨c, hc, rfl⟩ := List.mem_map.mp hc'
    refine ⟨c, hc, ?_⟩
    split
    · exact ⟨rfl, min_le_right _ _⟩
    · exact ⟨rfl, min_le_left _ _⟩
  | markLastRead i user => exact ⟨c', (d.markLastRead_tables i user).2.1 ▸ hc', rfl, min_le_left _ _⟩
  | markRead i user => exact ⟨c', hc', rfl, min_le_left _ _⟩
  | insertConversation hi =>
    obtain ⟨hnew, -, rfl⟩ := Db.insertConversation_inv hi
    rcases List.mem_cons.mp hc' with rfl | hc'
    · obtain ⟨c, hc, he⟩ := hid
      exact (hnew c hc he).elim
    · exact ⟨c', hc', rfl, min_le_left _ _⟩

theorem Db.Change.now (hc : d.Change d') : d'.now = d.now := by
  cases hc with
  | foreign _ _ _ _ hnow => exact hnow
  | insertMessage hi => obtain ⟨-, rfl, -⟩ | ⟨-, -, -, -, rfl⟩ := Db.insertMessage_inv hi <;> rfl
  | touchConversation i => rfl
  | markLastRead i user => unfold Db.markLastRead; cases d.message i <;> rfl
  | markRead i user => rfl
  | insertConversation hi => obtain ⟨-, -, rfl⟩ := Db.insertConversation_inv hi; rfl

/-- No statement loses anything. -/
theorem Progress.exec {q : Sql} {a : q.Rows} (he : exec platform d q = some (a, d')) : Progress d d' := by
  have hc := exec_change he
  refine ⟨fun m hm => hc.kept hm, fun id h => hc.hasConversation h, fun c' hc' h => hc.updated hc' h,
    fun p hp hl h => ?_, hc.now.ge⟩
  rcases hc.participants hp with ⟨p₀, hp₀, hs⟩ | ⟨hnew, -⟩
  · rw [hs] at hl ⊢
    exact ⟨p₀, hp₀, rfl, rfl, hl⟩
  · exact (hnew h).elim

end Statements

end Server

end Chhaya
