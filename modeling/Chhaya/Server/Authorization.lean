import Chhaya.Server.Api
import Chhaya.Server.Schema

/-!
# Who may read and write a conversation

What one request returns and changes: messages and participants are returned, and messages and marks are made, only for
an active user with a live session who takes part in the conversation and has not left.

- `Changes.insertMessage`, `Changes.markRead`, `Changes.markLastRead`: the statements that write.
- `serve_authorized`: one request on any database.
- `conversation_authorization`: every request of a sequence.
-/

namespace Chhaya

namespace Server

/-! ## Authority -/

section Authority

variable (platform : Platform) (d : Db) (call : Call)

/-- The token of the request is that of a live session of the active user. -/
def Authenticates (user : Uuid) : Prop :=
  ∃ token, call.authorization.bind bearer = some token ∧ ∃ s ∈ d.sessions, ∃ u ∈ d.users,
    s.tokenHash = platform.tokenHash token ∧ d.now < s.expiresAt ∧ u.id = s.userId ∧ u.isActive = true ∧ u.id = user

/-- The request is from `user`, who takes part in the conversation. -/
def MayAct (conversation user : Uuid) : Prop := Authenticates platform d call user ∧ d.IsMember conversation user

end Authority

/-- What a response shows of conversations are conversations that `may` allows: as participants users who take part in them
and have not left, and as messages messages that are in them. -/
def Body.Shows (may : Uuid → Prop) (d : Db) : Body → Prop
  | .conversations rows => ∀ r ∈ rows, may r.id ∧
      (∀ p ∈ r.participants, d.IsMember r.id p.id ∧ ∃ u ∈ d.users, p = ⟨u.id, u.displayName, u.chhayaId, u.publicKey⟩) ∧
      ∀ l ∈ r.lastMessage, ∃ m ∈ d.messages, m.conversationId = r.id ∧
        l = ⟨m.id, m.conversationId, m.content, m.senderId, m.sentAt, m.messageType⟩
  | .message row => may row.conversationId ∧ row ∈ d.messages
  | .messages rows => ∀ r ∈ rows, may r.message.conversationId ∧ r.message ∈ d.messages
  | _ => True

/-- What a request may change, where `may` says who acts in which conversation. -/
structure Changes (may : Uuid → Uuid → Prop) (d d' : Db) : Prop where
  /-- A message is new, and its sender acts; or somebody acts who marks it. -/
  messages : ∀ m ∈ d'.messages, m ∈ d.messages ∨
    ((∀ m₀ ∈ d.messages, m₀.id ≠ m.id) ∧ may m.conversationId m.senderId) ∨
    ∃ m₀ ∈ d.messages, SameMessage m₀ m ∧ ∃ user, may m.conversationId user
  kept : ∀ m ∈ d.messages, ∃ m' ∈ d'.messages, SameMessage m m'
  conversations : ∀ id, d.HasConversation id → d'.HasConversation id
  /-- A participant of a new conversation has read nothing; another one acts and marks what it has read. -/
  participants : ∀ p ∈ d'.participants, p ∈ d.participants ∨
    (¬d.HasConversation p.conversationId ∧ p.lastReadAt = some 0) ∨ may p.conversationId p.userId

/-- What was returned and changed is what the request has the authority for. -/
structure Authorized (platform : Platform) (call : Call) (w : World) (r : Option (Except ServerError Response))
    (w' : World) : Prop where
  returned : ∀ res, r = some (.ok res) → res.body.Shows (fun c => ∃ user, MayAct platform w.db call c user) w'.db
  changed : Changes (MayAct platform w.db call) w.db w'.db

/-! ## Statements -/

section Statements

variable {platform : Platform} {may : Uuid → Uuid → Prop} {d d' d'' : Db}

theorem Changes.refl (d : Db) : Changes may d d :=
  ⟨fun _ hm => Or.inl hm, fun m hm => ⟨m, hm, .refl m⟩, fun _ h => h, fun _ hp => Or.inl hp⟩

/-- The tables of messages and participants are as they were, and no conversation is lost. -/
theorem Changes.congr (h : Changes may d d') (hm : d''.messages = d'.messages) (hp : d''.participants = d'.participants)
    (hc : ∀ id, d'.HasConversation id → d''.HasConversation id) : Changes may d d'' :=
  ⟨hm ▸ h.messages, hm ▸ h.kept, fun id hid => hc id (h.conversations id hid), hp ▸ h.participants⟩

/-- Somebody acts who sends a message. -/
theorem Changes.insertMessage (h : Changes may d d') {m : NewMessage} {id conversation : Uuid} {replyTo : Option Uuid}
    {b : Bool} (hi : d'.insertMessage m id conversation replyTo = some (b, d'')) (ha : may conversation m.senderId) :
    Changes may d d'' := by
  unfold Db.insertMessage at hi
  split at hi
  · cases hi; exact h
  · rename_i hnew
    split at hi
    · cases hi
      refine ⟨fun m' hm' => ?_, fun m' hm' => ?_, h.conversations, h.participants⟩
      · rcases List.mem_cons.mp hm' with rfl | hm'
        · refine Or.inr (Or.inl ⟨fun m₀ hm₀ heq => hnew ?_, ha⟩)
          obtain ⟨m₁, hm₁, hs⟩ := h.kept m₀ hm₀
          rw [Db.message, List.find?_isSome]
          exact ⟨m₁, hm₁, by rw [hs]; simpa using heq⟩
        · exact h.messages m' hm'
      · obtain ⟨m₁, hm₁, hs⟩ := h.kept m' hm'
        exact ⟨m₁, List.mem_cons_of_mem _ hm₁, hs⟩
    · cases hi

/-- Somebody acts who marks a message. -/
theorem Changes.markRead (h : Changes may d d') {id user : Uuid}
    (ha : ∀ m ∈ d'.messages, m.id = id → ∃ user, may m.conversationId user) : Changes may d (d'.markRead id user) := by
  have hsame : ∀ m : MessageRow, SameMessage m (if m.id = id ∧ m.readAt = none ∧ m.senderId ≠ user then
      { m with readAt := some d'.now, deliveredAt := some (m.deliveredAt.getD d'.now) } else m) := fun m => by
    split <;> rfl
  refine ⟨fun m hm => ?_, fun m hm => ?_, h.conversations, h.participants⟩
  · obtain ⟨m₁, hm₁, rfl⟩ := List.mem_map.mp hm
    by_cases hc : m₁.id = id ∧ m₁.readAt = none ∧ m₁.senderId ≠ user
    · rw [if_pos hc]
      rcases h.messages m₁ hm₁ with hold | ⟨hnew, hmay⟩ | ⟨m₀, hm₀, hs, hmay⟩
      · exact Or.inr (Or.inr ⟨m₁, hold, rfl, ha m₁ hm₁ hc.1⟩)
      · exact Or.inr (Or.inl ⟨hnew, hmay⟩)
      · exact Or.inr (Or.inr ⟨m₀, hm₀, hs.trans rfl, hmay⟩)
    · rw [if_neg hc]
      exact h.messages m₁ hm₁
  · obtain ⟨m₁, hm₁, hs⟩ := h.kept m hm
    exact ⟨_, List.mem_map.mpr ⟨m₁, hm₁, rfl⟩, hs.trans (hsame m₁)⟩

/-- The user acts who marks how far a conversation was read. -/
theorem Changes.markLastRead (h : Changes may d d') {id user : Uuid}
    (ha : ∀ m, d'.message id = some m → may m.conversationId user) : Changes may d (d'.markLastRead id user) := by
  unfold Db.markLastRead
  cases hm : d'.message id with
  | none => exact h
  | some m =>
    refine ⟨h.messages, h.kept, h.conversations, fun p hp => ?_⟩
    obtain ⟨p₁, hp₁, rfl⟩ := List.mem_map.mp hp
    by_cases hc : p₁.userId = user ∧ p₁.conversationId = m.conversationId
    · rw [if_pos hc]
      exact Or.inr (Or.inr (hc.1 ▸ hc.2 ▸ ha m hm))
    · rw [if_neg hc]
      exact h.participants p₁ hp₁

/-- Who may mark the message with an id may still do so. -/
theorem Changes.mayMark (h : Changes may d d') {id : Uuid}
    (hmay : ∀ m ∈ d.messages, m.id = id → ∃ user, may m.conversationId user) :
    ∀ m ∈ d'.messages, m.id = id → ∃ user, may m.conversationId user := by
  intro m hm hid
  rcases h.messages m hm with hold | ⟨-, hmay⟩ | ⟨m₀, -, -, hmay⟩
  · exact hmay m hold hid
  · exact ⟨_, hmay⟩
  · exact hmay

/-- The participants of a new conversation have read nothing. -/
theorem Changes.insertConversation (h : Changes may d d') {c : NewConversation} {participants : List Uuid}
    (hi : d'.insertConversation c participants = some d'') : Changes may d d'' := by
  unfold Db.insertConversation at hi
  split at hi
  · cases hi
  · rename_i hnew
    cases hi
    simp only [Bool.or_eq_true, List.any_eq_true, beq_iff_eq, not_or, not_exists, not_and] at hnew
    refine ⟨h.messages, h.kept, fun id hid => ?_, fun p hp => ?_⟩
    · obtain ⟨r, hr, hid⟩ := h.conversations id hid
      exact ⟨r, List.mem_cons_of_mem _ hr, hid⟩
    · rcases List.mem_append.mp hp with hp | hp
      · obtain ⟨u, -, rfl⟩ := List.mem_map.mp hp
        refine Or.inr (Or.inl ⟨fun hold => ?_, rfl⟩)
        obtain ⟨r, hr, hid⟩ := h.conversations _ hold
        exact hnew.1.1.1 r hr hid
      · exact h.participants p hp

theorem Changes.insertContact (h : Changes may d d') {user contact conversation : Uuid} {displayName : String}
    (hi : d'.insertContact user contact displayName conversation = some d'') : Changes may d d'' := by
  unfold Db.insertContact at hi
  split at hi
  · cases hi
  · have h' : Changes may d { d' with contacts := ⟨user, contact, displayName, 1⟩ :: d'.contacts } :=
      h.congr rfl rfl fun _ hid => hid
    exact h'.insertConversation hi

end Statements

/-! ## One request -/

section Request

variable {platform : Platform} {call : Call} {w₀ w : World}

/-- What the handler of `call` has to show on `w₀`. -/
abbrev authority (platform : Platform) (call : Call) (w₀ : World) : Async.Rules Op Ans ServerError World :=
  rules platform Eq (fun _ _ => True) fun w => Changes (MayAct platform w₀.db call) w₀.db w.db

/-- Nothing was written yet. -/
structure Fresh (w₀ w : World) : Prop where
  users : w.db.users = w₀.db.users
  sessions : w.db.sessions = w₀.db.sessions
  participants : w.db.participants = w₀.db.participants
  conversations : w.db.conversations = w₀.db.conversations
  messages : w.db.messages = w₀.db.messages
  now : w₀.db.now ≤ w.db.now

theorem Fresh.changes (h : Fresh w₀ w) {may : Uuid → Uuid → Prop} : Changes may w₀.db w.db :=
  (Changes.refl w₀.db).congr h.messages h.participants fun _ hid => by
    rw [Db.HasConversation, h.conversations]
    exact hid

theorem Fresh.isMember (h : Fresh w₀ w) {c u : Uuid} (hm : w.db.IsMember c u) : w₀.db.IsMember c u := by
  unfold Db.IsMember at *
  rw [← h.participants]
  exact hm

/-- A statement that only reads. -/
theorem read_safe {q : Sql} {φ : q.Rows → World → Prop} (hw : Fresh w₀ w)
    (hq : ∀ d x, exec platform d q = some x → x.2 = d)
    (h : ∀ w' a, Fresh w₀ w' → exec platform w'.db q = some (a, w'.db) → φ a w') :
    (sql q).Safe (authority platform call w₀) (Returns φ) w := by
  refine sql_safe (fun w₁ hr hi t a d he => ?_) fun w₁ _ _ => ⟨trivial, fun _ => trivial⟩
  cases hr
  obtain rfl : d = w.db.at t := hq _ _ he
  have hf : Fresh w₀ ⟨w.db.at t, w.audit.record (w.db.at t) q⟩ :=
    ⟨hw.users, hw.sessions, hw.participants, hw.conversations, hw.messages, hw.now.trans (le_max_left _ _)⟩
  exact ⟨hf.changes, trivial, h _ a hf he, fun _ => trivial⟩

/-- A statement that changes what may be changed. -/
theorem write_safe {q : Sql} {φ : q.Rows → World → Prop}
    (hw : Changes (MayAct platform w₀.db call) w₀.db w.db)
    (hq : ∀ t a d', Changes (MayAct platform w₀.db call) w₀.db (w.db.at t) →
      exec platform (w.db.at t) q = some (a, d') → Changes (MayAct platform w₀.db call) w₀.db d')
    (h : ∀ w' d a, Changes (MayAct platform w₀.db call) w₀.db w'.db → exec platform d q = some (a, w'.db) → φ a w') :
    (sql q).Safe (authority platform call w₀) (Returns φ) w := by
  refine sql_safe (fun w₁ hr hi t a d he => ?_) fun w₁ _ _ => ⟨trivial, fun _ => trivial⟩
  cases hr
  have hc := hq t a d (hw.congr rfl rfl fun _ hid => hid) he
  exact ⟨hc, trivial, h _ _ a hc he, fun _ => trivial⟩

/-- The conversations that a response shows are ones in which somebody may act. -/
def Allowed (platform : Platform) (call : Call) (w₀ : World) (res : Response) (w : World) : Prop :=
  res.body.Shows (fun c => ∃ user, MayAct platform w₀.db call c user) w.db

/-- What a handler of `call` may answer. -/
abbrev answers (platform : Platform) (call : Call) (w₀ : World) : Except ServerError Response → World → Prop :=
  Returns (Allowed platform call w₀)

/-- The body shows no conversation. -/
def Body.silent : Body → Bool
  | .conversations _ | .message _ | .messages _ => false
  | _ => true

/-- A response that shows no conversation. -/
def Silent (res : Response) : Prop := res.body.silent = true

/-- A handler that ends with such a response. -/
theorem silent_safe {res : Response} (h : res.body.silent = true) :
    (Async.done res : Prog Response).Safe (authority platform call w₀) (answers platform call w₀) w := by
  obtain ⟨status, body⟩ := res
  cases body with
  | conversations | message | messages => cases h
  | _ => exact True.intro

/-- Behind the session check the user is authenticated. -/
theorem authMiddleware_safe {next : Uuid → Prog Response} (hw : Fresh w₀ w)
    (h : ∀ w' user, Fresh w₀ w' → Authenticates platform w₀.db call user →
      (next user).Safe (authority platform call w₀) (answers platform call w₀) w') :
    (authMiddleware platform call.authorization next).Safe (authority platform call w₀)
      (answers platform call w₀) w := by
  unfold authMiddleware
  cases ht : call.authorization.bind bearer with
  | none => exact silent_safe rfl
  | some token =>
    refine Returns.bind ?_
    unfold authenticateToken
    split
    · refine read_safe hw (fun d x hx => by cases hx; rfl) fun w' a hf he => ?_
      cases he
      cases ha : w'.db.authenticate (platform.tokenHash token) with
      | none => exact silent_safe rfl
      | some user =>
        refine h w' user hf ?_
        obtain ⟨s, hs, u, hu, h1, h2, h3⟩ := authenticate_eq_some ha
        exact ⟨token, ht, s, hf.sessions ▸ hs, u, hf.users ▸ hu, h1, lt_of_le_of_lt hf.now h2, h3⟩
    · have hres : (failure 401 "Invalid or expired token").Safe (authority platform call w₀) (answers platform call w₀) w :=
        silent_safe rfl
      exact hres

/-! ## Conversation routes -/

/-- Behind the membership check the user may act. -/
theorem asParticipant_safe {conversationId : String} {user : Uuid} {next : Prog Response} (hw : Fresh w₀ w)
    (ha : Authenticates platform w₀.db call user)
    (h : ∀ w' c, Fresh w₀ w' → Uuid.read conversationId = some c → MayAct platform w₀.db call c user →
      next.Safe (authority platform call w₀) (answers platform call w₀) w') :
    (asParticipant conversationId user next).Safe (authority platform call w₀) (answers platform call w₀) w := by
  have hread : ∀ d x, exec platform d (.participantCheck conversationId user) = some x →
      ∃ c, Uuid.read conversationId = some c ∧ x = (d.isMember c user, d) := fun d x hx => by
    obtain ⟨c, hc, hx⟩ := Option.bind_eq_some_iff.mp hx
    exact ⟨c, hc, (Option.some.inj hx).symm⟩
  refine Returns.bind (read_safe hw (fun d x hx => ?_) fun w' a hf he => ?_)
  · obtain ⟨c, -, rfl⟩ := hread d x hx
    rfl
  · obtain ⟨c, hc, hx⟩ := hread _ _ he
    split
    · rename_i hmem
      refine h w' c hf hc ⟨ha, hf.isMember (isMember_iff.mp ?_)⟩
      exact (Prod.ext_iff.mp hx).1.symm.trans hmem
    · exact silent_safe rfl

/-- A row of `GET /conversations` shows the participants and a message of its conversation. -/
theorem conversationView_shows (d : Db) (c : ConversationRow) (cp : ParticipantRow) :
    (∀ p ∈ (d.conversationView c cp).participants, d.IsMember c.id p.id ∧
      ∃ u ∈ d.users, p = ⟨u.id, u.displayName, u.chhayaId, u.publicKey⟩) ∧
    ∀ l ∈ (d.conversationView c cp).lastMessage, ∃ m ∈ d.messages, m.conversationId = c.id ∧
      l = ⟨m.id, m.conversationId, m.content, m.senderId, m.sentAt, m.messageType⟩ := by
  refine ⟨fun p hp => ?_, fun l hl => ?_⟩
  · obtain ⟨r, hr, hp⟩ := List.mem_flatMap.mp hp
    obtain ⟨hr, hactive⟩ := List.mem_filter.mp hr
    obtain ⟨u, hu, rfl⟩ := List.mem_map.mp hp
    obtain ⟨hu, hid⟩ := List.mem_filter.mp hu
    simp only [Bool.and_eq_true, beq_iff_eq, Option.isNone_iff_eq_none] at hactive hid
    exact ⟨⟨r, hr, hactive.1, hid.symm, hactive.2⟩, u, hu, rfl⟩
  · obtain ⟨m, hm, rfl⟩ := Option.map_eq_some_iff.mp hl
    obtain ⟨hmem, hin⟩ := List.mem_filter.mp ((List.mergeSort_perm _ _).mem_iff.mp (List.mem_of_mem_head? hm))
    simp only [Bool.and_eq_true, beq_iff_eq] at hin
    exact ⟨m, hmem, hin.1, rfl⟩

/-- The rows of `GET /conversations` are conversations of the user. -/
theorem mem_conversationsOf {d : Db} {user : Uuid} {v : ConversationView} (h : v ∈ d.conversationsOf user) :
    ∃ c cp, v = d.conversationView c cp ∧ d.IsMember c.id user := by
  obtain ⟨⟨c, cp⟩, hc, rfl⟩ := List.mem_map.mp h
  obtain ⟨c', -, hm⟩ := List.mem_flatMap.mp ((List.mergeSort_perm _ _).mem_iff.mp hc)
  obtain ⟨cp', hcp, he⟩ := List.mem_map.mp hm
  cases he
  obtain ⟨hcp, hcond⟩ := List.mem_filter.mp hcp
  simp only [Bool.and_eq_true, beq_iff_eq, Option.isNone_iff_eq_none] at hcond
  exact ⟨c, cp, rfl, cp, hcp, hcond.1.1, hcond.1.2, hcond.2⟩

/-- `GET /conversations` shows the conversations of the user. -/
theorem getConversations_safe {user : Uuid} (hw : Fresh w₀ w) (ha : Authenticates platform w₀.db call user) :
    (getConversations user).Safe (authority platform call w₀) (answers platform call w₀) w := by
  refine Returns.bind (read_safe hw (fun d x hx => by cases hx; rfl) fun w' a hf he => ?_)
  cases he
  intro v hv
  obtain ⟨c, cp, rfl, hmem⟩ := mem_conversationsOf hv
  exact ⟨⟨user, ha, hf.isMember hmem⟩, conversationView_shows w'.db c cp⟩

/-- A page holds messages of its conversation. -/
theorem mem_messagesOf {d : Db} {c : Uuid} {cursor : Cursor} {limit : Nat} {rows : List MessageView}
    (h : d.messagesOf platform c cursor limit = some rows) {v : MessageView} (hv : v ∈ rows) :
    v.message.conversationId = c ∧ v.message ∈ d.messages := by
  have hwhere : ∀ p, ∀ m ∈ d.messagesWhere c p, m.conversationId = c ∧ m ∈ d.messages := fun p m hm => by
    obtain ⟨hmem, hcond⟩ := List.mem_filter.mp ((List.mergeSort_perm _ _).mem_iff.mp hm)
    simp only [Bool.and_eq_true, beq_iff_eq] at hcond
    exact ⟨hcond.1.1, hmem⟩
  have hbefore : ∀ ms, d.messagesBefore platform c cursor = some ms → ∀ m ∈ ms, m.conversationId = c ∧ m ∈ d.messages := by
    intro ms hms
    cases cursor with
    | newest => cases hms; exact hwhere _
    | beforeId id =>
      obtain ⟨u, -, hms⟩ := Option.bind_eq_some_iff.mp hms
      split at hms
      · cases hms; exact fun m hm => (List.not_mem_nil hm).elim
      · cases hms; exact hwhere _
    | before time =>
      obtain ⟨t, -, hms⟩ := Option.bind_eq_some_iff.mp hms
      cases hms; exact hwhere _
  obtain ⟨ms, hms, hrows⟩ := Option.bind_eq_some_iff.mp h
  cases hrows
  obtain ⟨m, hm, hv⟩ := List.mem_flatMap.mp (List.mem_of_mem_take hv)
  obtain ⟨u, -, rfl⟩ := List.mem_map.mp hv
  exact hbefore ms hms m hm

/-- `GET /messages/:conversationId`. -/
theorem getMessages_safe {user : Uuid} (hw : Fresh w₀ w) (ha : Authenticates platform w₀.db call user)
    (conversationId : String) (limit : Option String) (before beforeId : Option Json) :
    (getMessages platform user conversationId limit before beforeId).Safe (authority platform call w₀)
      (answers platform call w₀) w := by
  refine Returns.bind (parse_safe (fun before _ => ?_) fun _ => trivial)
  refine Returns.bind (parse_safe (fun beforeId _ => ?_) fun _ => trivial)
  refine asParticipant_safe hw ha fun w' c hf hc hmay => ?_
  have hread : ∀ cursor d x, exec platform d (.messagesOf conversationId cursor (pageLimit limit)) = some x →
      x.2 = d ∧ d.messagesOf platform c cursor (pageLimit limit) = some x.1 := fun cursor d x hx => by
    obtain ⟨c', hc', hx⟩ := Option.bind_eq_some_iff.mp hx
    obtain ⟨rows, hrows, hx⟩ := Option.bind_eq_some_iff.mp hx
    cases hx
    obtain rfl := Option.some.inj (hc.symm.trans hc')
    exact ⟨rfl, hrows⟩
  refine Returns.bind (read_safe hf (fun d x hx => (hread _ d x hx).1) fun w'' rows hf' he => ?_)
  intro v hv
  obtain ⟨hin, hmem⟩ := mem_messagesOf (hread _ _ _ he).2 (List.mem_reverse.mp hv)
  exact ⟨⟨user, hin ▸ hmay⟩, hmem⟩

/-- What may be changed is as it was. -/
abbrev Changed (platform : Platform) (call : Call) (w₀ w : World) : Prop :=
  Changes (MayAct platform w₀.db call) w₀.db w.db

/-- A statement that leaves messages and participants alone. -/
theorem foreign_safe {q : Sql} {φ : q.Rows → World → Prop} (hw : Changed platform call w₀ w)
    (hq : ∀ d x, exec platform d q = some x → x.2.messages = d.messages ∧ x.2.participants = d.participants)
    (h : ∀ w' d a, Changed platform call w₀ w' → exec platform d q = some (a, w'.db) → φ a w') :
    (sql q).Safe (authority platform call w₀) (Returns φ) w :=
  write_safe hw (fun _ _ _ hc he => hc.congr (hq _ _ he).1 (hq _ _ he).2 fun _ hid => (exec_change he).hasConversation hid) h

theorem touchConversation_foreign {id : String} {d : Db} {x : Unit × Db}
    (h : exec platform d (.touchConversation id) = some x) :
    x.2.messages = d.messages ∧ x.2.participants = d.participants := by
  obtain ⟨u, -, hx⟩ := Option.bind_eq_some_iff.mp h
  cases hx
  exact ⟨rfl, rfl⟩

theorem messageById_eq {id : String} {d : Db} {x : Option MessageRow × Db}
    (h : exec platform d (.messageById id) = some x) : x.2 = d ∧ ∀ m, x.1 = some m → m ∈ d.messages := by
  obtain ⟨u, -, hx⟩ := Option.bind_eq_some_iff.mp h
  cases hx
  exact ⟨rfl, fun m hm => (Db.message_spec hm).1⟩

/-- A message that is stored and passes the check of its conversation may be shown. -/
theorem message_safe {data : SendMessage} {c user : Uuid} {m : MessageRow} {status : Nat}
    (hc : Uuid.read data.conversationId = some c) (hmay : MayAct platform w₀.db call c user)
    (hm : m.conversationId.text = data.conversationId) (hmem : m ∈ w.db.messages) :
    (Async.done ⟨status, .message m⟩ : Prog Response).Safe (authority platform call w₀) (answers platform call w₀) w := by
  rw [← hm, Uuid.read_text] at hc
  obtain rfl := Option.some.inj hc
  exact ⟨⟨user, hmay⟩, hmem⟩

/-- `POST /messages` after the membership check. -/
theorem storeMessage_safe {data : SendMessage} {messageId : String} {c user : Uuid} (hw : Changed platform call w₀ w)
    (hc : Uuid.read data.conversationId = some c) (hmay : MayAct platform w₀.db call c user) :
    (storeMessage user data messageId).Safe (authority platform call w₀) (answers platform call w₀) w := by
  refine Returns.bind (write_safe hw (fun d a d' hd he => ?_) fun w' d a hw' _ => ?_)
  · obtain ⟨id, -, he⟩ := Option.bind_eq_some_iff.mp he
    obtain ⟨c', hc', he⟩ := Option.bind_eq_some_iff.mp he
    obtain ⟨replyTo, -, he⟩ := Option.bind_eq_some_iff.mp he
    obtain rfl := Option.some.inj (hc.symm.trans hc')
    exact hd.insertMessage he hmay
  · have hread : ∀ (d : Db) (x : Option MessageRow × Db), exec platform d (.messageById messageId) = some x →
        x.2.messages = d.messages ∧ x.2.participants = d.participants := fun d x hx => by
      rw [(messageById_eq hx).1]; exact ⟨rfl, rfl⟩
    have hmem : ∀ (d : Db) (m : MessageRow) (d' : Db), exec platform d (.messageById messageId) = some (some m, d') →
        m ∈ d'.messages := fun d m d' hx => by
      obtain ⟨rfl, hm⟩ := messageById_eq hx
      exact hm m rfl
    cases a with
    | true =>
      refine Returns.bind (foreign_safe hw' (fun d x hx => touchConversation_foreign hx) fun w' d a hw' _ => ?_)
      refine Returns.bind (foreign_safe hw' (fun d x hx => ?_) fun w' d users hw' _ => ?_)
      · obtain ⟨u, -, hx⟩ := Option.bind_eq_some_iff.mp hx
        cases hx
        exact ⟨rfl, rfl⟩
      refine Returns.bind (notify_safe fun w₁ hr hi => ⟨hi, trivial, ?_⟩)
      refine Returns.bind (foreign_safe hi hread fun w' d m hw' he => ?_)
      cases m with
      | none => exact silent_safe rfl
      | some m =>
        show Async.Safe _ _ (if m.senderId ≠ user ∨ m.conversationId.text ≠ data.conversationId then _ else _) _
        split
        · exact silent_safe rfl
        · rename_i hcheck
          exact message_safe hc hmay (not_not.mp (not_or.mp hcheck).2) (hmem _ _ _ he)
    | false =>
      refine Returns.bind (foreign_safe hw' hread fun w' d m hw' he => ?_)
      cases m with
      | none => exact silent_safe rfl
      | some m =>
        show Async.Safe _ _ (if m.senderId ≠ user ∨ m.conversationId.text ≠ data.conversationId ∨ m.content ≠ data.content
          then _ else _) _
        split
        · exact silent_safe rfl
        · rename_i hcheck
          exact message_safe hc hmay (not_not.mp (not_or.mp (not_or.mp hcheck).2).1) (hmem _ _ _ he)

/-- `POST /messages`. -/
theorem postMessages_safe {user : Uuid} (hw : Fresh w₀ w) (ha : Authenticates platform w₀.db call user)
    (body : Option Json) : (postMessages platform user body).Safe (authority platform call w₀)
      (answers platform call w₀) w := by
  refine Returns.bind (parse_safe (fun data _ => ?_) fun _ => trivial)
  refine asParticipant_safe hw ha fun w' c hf hc hmay => ?_
  cases data.messageId with
  | some messageId => exact storeMessage_safe hf.changes hc hmay
  | none =>
    refine Returns.bind (randomUUID_safe fun w₁ hr hi => ⟨trivial, fun id => ?_⟩)
    cases hr
    exact storeMessage_safe hf.changes hc hmay

/-- One row of the join says that the user may act where the message is. -/
theorem messageParticipant_isMember {d : Db} {id user : Uuid} (hk : d.Keys) (h : d.messageParticipant id user = 1) :
    ∀ m ∈ d.messages, m.id = id → d.IsMember m.conversationId user := by
  obtain ⟨p, hp⟩ := List.length_eq_one_iff.mp h
  have hmem := hp ▸ List.mem_singleton_self p
  obtain ⟨m₁, hm₁, hf⟩ := List.mem_flatMap.mp hmem
  obtain ⟨hp₁, hcond⟩ := List.mem_filter.mp hf
  simp only [Bool.and_eq_true, beq_iff_eq, Option.isNone_iff_eq_none] at hcond
  intro m hm hid
  obtain rfl := List.inj_on_of_nodup_map hk hm hm₁ (hid.trans hcond.1.1.1.symm)
  exact ⟨p, hp₁, hcond.1.1.2, hcond.1.2, hcond.2⟩

/-- `POST /messages/:messageId/read`. -/
theorem postRead_safe {user : Uuid} (hw : Fresh w₀ w) (hk : w₀.db.Keys) (ha : Authenticates platform w₀.db call user)
    (messageId : String) : (postRead user messageId).Safe (authority platform call w₀) (answers platform call w₀) w := by
  have hread : ∀ d x, exec platform d (.messageParticipant messageId user) = some x →
      ∃ id, Uuid.read messageId = some id ∧ x = (d.messageParticipant id user, d) := fun d x hx => by
    obtain ⟨id, hid, hx⟩ := Option.bind_eq_some_iff.mp hx
    exact ⟨id, hid, (Option.some.inj hx).symm⟩
  refine Returns.bind (read_safe hw (fun d x hx => ?_) fun w' a hf he => ?_)
  · obtain ⟨id, -, rfl⟩ := hread d x hx
    rfl
  obtain ⟨id, hid, hx⟩ := hread _ _ he
  obtain rfl := (Prod.ext_iff.mp hx).1
  show Async.Safe _ _ (if w'.db.messageParticipant id user ≠ 1 then _ else _) _
  split
  · exact silent_safe rfl
  rename_i hone
  have hmay : ∀ m ∈ w₀.db.messages, m.id = id → MayAct platform w₀.db call m.conversationId user := by
    intro m hm hmid
    have hk' : w'.db.Keys := by unfold Db.Keys; rw [hf.messages]; exact hk
    have := messageParticipant_isMember hk' (not_not.mp hone) m (hf.messages ▸ hm) hmid
    exact ⟨ha, hf.isMember this⟩
  refine Returns.bind (write_safe hf.changes (fun d a d' hd he => ?_) fun w'' _ _ hw'' _ => ?_)
  · obtain ⟨id', hid', he⟩ := Option.bind_eq_some_iff.mp he
    obtain rfl := Option.some.inj (hid.symm.trans hid')
    cases he
    refine hd.markLastRead fun m hm => ?_
    obtain ⟨hmem, hmid⟩ := Db.message_spec hm
    exact hmay m (hf.messages ▸ hmem) hmid
  refine Returns.bind (write_safe hw'' (fun d a d' hd he => ?_) fun _ _ _ _ _ => silent_safe rfl)
  obtain ⟨id', hid', he⟩ := Option.bind_eq_some_iff.mp he
  obtain rfl := Option.some.inj (hid.symm.trans hid')
  cases he
  exact hd.markRead (hd.mayMark fun m hm hmid => ⟨user, hmay m hm hmid⟩)

/-- `POST /contacts`. -/
theorem postContacts_safe {user : Uuid} (hw : Changed platform call w₀ w) (body : Option Json) :
    (postContacts user body).Safe (authority platform call w₀) (answers platform call w₀) w := by
  refine Returns.bind (parse_safe (fun data _ => ?_) fun _ => trivial)
  refine Returns.bind (foreign_safe hw (fun d x hx => by cases hx; exact ⟨rfl, rfl⟩) fun w' d target hw' _ => ?_)
  cases target with
  | none => exact silent_safe rfl
  | some target =>
    show Async.Safe _ _ (if target.1 = user then _ else _) _
    split
    · exact silent_safe rfl
    refine Returns.bind (foreign_safe hw' (fun d x hx => by cases hx; exact ⟨rfl, rfl⟩) fun w' d found hw' _ => ?_)
    cases found with
    | true => exact silent_safe rfl
    | false =>
      refine Returns.bind (randomUUID_safe fun w₁ hr _ => ⟨trivial, fun convoId => ?_⟩)
      cases hr
      refine Returns.bind (write_safe hw' (fun d a d' hd he => ?_) fun _ _ _ _ _ => silent_safe rfl)
      obtain ⟨d'', hd'', he⟩ := Option.map_eq_some_iff.mp he
      cases he
      exact hd.insertContact hd''

/-- `POST /conversations`. -/
theorem postConversations_safe {user : Uuid} (hw : Changed platform call w₀ w) (body : Option Json) :
    (postConversations platform user body).Safe (authority platform call w₀) (answers platform call w₀) w := by
  refine Returns.bind (parse_safe (fun data _ => ?_) fun _ => trivial)
  show Async.Safe _ _ (if data.type = "direct" ∧ data.participantIds.length ≠ 1 then _ else _) _
  split
  · exact silent_safe rfl
  refine Returns.bind (randomUUID_safe fun w₁ hr _ => ⟨trivial, fun convoId => ?_⟩)
  cases hr
  show Async.Safe _ _ (if (user.text :: data.participantIds).eraseDups.length ≠ data.participantIds.length + 1 then _
    else _) _
  split
  · exact silent_safe rfl
  refine Returns.bind (write_safe hw (fun d a d' hd he => ?_) fun _ _ _ _ _ => silent_safe rfl)
  obtain ⟨ids, -, he⟩ := Option.bind_eq_some_iff.mp he
  obtain ⟨d'', hd'', he⟩ := Option.bind_eq_some_iff.mp he
  cases he
  exact hd.insertConversation hd''

/-- `POST /devices/link`. -/
theorem postLink_safe {user : Uuid} (hw : Changed platform call w₀ w) (body : Option Json) :
    (postLink user body).Safe (authority platform call w₀) (answers platform call w₀) w := by
  refine Returns.bind (parse_safe (fun data _ => ?_) fun _ => trivial)
  refine Returns.bind (foreign_safe hw (fun d x hx => ?_) fun w' d linked hw' _ => ?_)
  · obtain ⟨deviceId, -, hx⟩ := Option.bind_eq_some_iff.mp hx
    cases hx
    unfold Db.linkDevice
    split
    · exact ⟨rfl, rfl⟩
    · split <;> exact ⟨rfl, rfl⟩
  · show Async.Safe _ _ (if linked ≠ 1 then _ else _) _
    split <;> exact silent_safe rfl

/-! ## Account routes -/

/-- A program that leaves messages and participants alone, and what it returns. -/
def Quiet (platform : Platform) (call : Call) (w₀ : World) {α : Type} (φ : α → Prop) (p : Prog α) : Prop :=
  ∀ w, Changed platform call w₀ w →
    p.Safe (authority platform call w₀) (Returns fun a w' => Changed platform call w₀ w' ∧ φ a) w

variable {α γ : Type} {φ : α → Prop} {ψ : γ → Prop}

theorem Quiet.done {a : α} (h : φ a) : Quiet platform call w₀ φ (.done a) := fun _ hw => ⟨hw, h⟩

theorem Quiet.bind {p : Prog α} {f : α → Prog γ} (hp : Quiet platform call w₀ φ p)
    (hf : ∀ a, φ a → Quiet platform call w₀ ψ (f a)) : Quiet platform call w₀ ψ (p.bind f) := fun w hw =>
  Returns.bind ((hp w hw).mono fun r w' hr => by
    cases r with
    | ok a => exact hf a hr.2 w' hr.1
    | error e => exact trivial)

theorem Quiet.sql {q : Sql}
    (hq : ∀ d x, exec platform d q = some x → x.2.messages = d.messages ∧ x.2.participants = d.participants) :
    Quiet platform call w₀ (fun _ => True) (sql q) := fun _ hw => foreign_safe hw hq fun _ _ _ hw' _ => ⟨hw', trivial⟩

theorem Quiet.randomBytes {size : Nat} : Quiet platform call w₀ (fun _ => True) (randomBytes size) := fun _ hw =>
  randomBytes_safe fun _ hr _ => ⟨trivial, fun _ => ⟨hr ▸ hw, trivial⟩⟩

theorem Quiet.randomUUID : Quiet platform call w₀ (fun _ => True) randomUUID := fun _ hw =>
  randomUUID_safe fun _ hr _ => ⟨trivial, fun _ => ⟨hr ▸ hw, trivial⟩⟩

theorem Quiet.parse {s : Zod.Schema α} {j : Option Json} : Quiet platform call w₀ (fun _ => True) (parse s j) :=
  fun _ hw => parse_safe (fun _ _ => ⟨hw, trivial⟩) fun _ => trivial

theorem Quiet.failure {status : Nat} {text : String} : Quiet platform call w₀ Silent (failure status text) :=
  .done rfl

theorem Quiet.consume {claim : Claim} :
    Quiet platform call w₀ (fun _ => True) (consumeIdentityChallenge platform claim) := by
  refine (Quiet.sql fun d x hx => ?_).bind fun hash _ => ?_
  · obtain ⟨id, -, hx⟩ := Option.bind_eq_some_iff.mp hx
    obtain ⟨deviceId, -, hx⟩ := Option.bind_eq_some_iff.mp hx
    cases hx
    exact ⟨rfl, rfl⟩
  · cases hash <;> exact .done trivial

theorem Quiet.issueSession {user : Uuid} {claim : Claim} :
    Quiet platform call w₀ (fun _ => True) (issueSession platform user claim) := by
  refine Quiet.randomBytes.bind fun token _ => (Quiet.sql fun d x hx => ?_).bind fun _ _ => .done trivial
  obtain ⟨d', hd, rfl⟩ := Option.map_eq_some_iff.mp hx
  unfold Db.insertSession at hd
  split at hd
  · cases hd
  · cases hd; exact ⟨rfl, rfl⟩

theorem Quiet.registerToken {user : Uuid} {deviceId : String} {fcmToken : Option String} :
    Quiet platform call w₀ (fun _ => True) (registerToken user deviceId fcmToken) := by
  unfold Server.registerToken
  cases orNull fcmToken with
  | none => exact .done trivial
  | some token => exact .sql fun d x hx => by cases hx

theorem Quiet.createAccount {data : Register} : Quiet platform call w₀ Silent (createAccount platform data) := by
  refine (Quiet.sql fun d x hx => by cases hx; exact ⟨rfl, rfl⟩).bind fun found _ => ?_
  show Quiet _ _ _ _ (if found = true then _ else if data.chhayaId ≠ "05" ++ data.publicKey then _ else _)
  split
  · exact .failure
  split
  · exact .failure
  refine Quiet.randomUUID.bind fun userId _ => ?_
  refine (Quiet.randomBytes.bind fun salt _ => .done trivial : Quiet platform call w₀ (fun _ => True)
    (hashCredential platform data.recoveryPhraseHash)).bind fun hash _ => ?_
  refine (Quiet.sql fun d x hx => ?_).bind fun _ _ => Quiet.registerToken.bind fun _ _ =>
    Quiet.issueSession.bind fun _ _ => .done rfl
  obtain ⟨deviceId, -, hx⟩ := Option.bind_eq_some_iff.mp hx
  obtain ⟨d', hd, hx⟩ := Option.bind_eq_some_iff.mp hx
  cases hx
  unfold Db.insertAccount at hd
  split at hd
  · cases hd
  · cases hd; exact ⟨rfl, rfl⟩

theorem Quiet.checkCredentials {data : Login} : Quiet platform call w₀ Silent (checkCredentials platform data) := by
  refine (Quiet.sql fun d x hx => by cases hx; exact ⟨rfl, rfl⟩).bind fun found _ => ?_
  rcases found with - | ⟨userId, publicKey, recoveryPhraseHash⟩
  · exact .failure
  show Quiet _ _ _ _ (if verifyCredential platform data.recoveryPhraseHash recoveryPhraseHash = true then _ else _)
  split
  · refine (Quiet.sql fun d x hx => ?_).bind fun rows _ => ?_
    · obtain ⟨deviceId, -, hx⟩ := Option.bind_eq_some_iff.mp hx
      cases hx
      unfold Db.upsertDevice
      split
      · exact ⟨rfl, rfl⟩
      · split <;> exact ⟨rfl, rfl⟩
    show Quiet _ _ _ _ (if rows ≠ 1 then _ else _)
    split
    · exact .failure
    · exact Quiet.registerToken.bind fun _ _ => (Quiet.sql fun d x hx => by cases hx; exact ⟨rfl, rfl⟩).bind fun _ _ =>
        Quiet.issueSession.bind fun _ _ => .done rfl
  · exact .failure

/-- A handler in a `try`, and the answers of its `catch`. -/
theorem Quiet.attempt {p : Prog α} {f : Except ServerError α → Prog Response} (hp : Quiet platform call w₀ φ p)
    (hok : ∀ a, φ a → ∃ res, f (.ok a) = .done res ∧ Silent res)
    (herr : ∀ e, ∃ res, f (.error e) = .done res ∧ Silent res) (hw : Changed platform call w₀ w) :
    (p.attempt.bind f).Safe (authority platform call w₀) (answers platform call w₀) w := by
  refine Async.Safe.bind (Async.Safe.attempt ((hp w hw).mono fun r w' hr => ?_))
  cases r with
  | ok a =>
    obtain ⟨res, hres, hs⟩ := hok a hr.2
    show (f (.ok a)).Safe _ _ _
    rw [hres]
    exact silent_safe hs
  | error e =>
    obtain ⟨res, hres, hs⟩ := herr e
    show (f (.error e)).Safe _ _ _
    rw [hres]
    exact silent_safe hs

theorem catching_safe {failed : String} {p : Prog Response} (hp : Quiet platform call w₀ Silent p)
    (hw : Changed platform call w₀ w) :
    (catching failed p).Safe (authority platform call w₀) (answers platform call w₀) w :=
  hp.attempt (fun res h => ⟨res, rfl, h⟩) (fun e => by cases e <;> exact ⟨_, rfl, rfl⟩) hw

/-- `POST /auth/challenge`. -/
theorem postChallenge_safe (hw : Changed platform call w₀ w) (body : Option Json) :
    (postChallenge platform body).Safe (authority platform call w₀) (answers platform call w₀) w := by
  refine Returns.bind (parse_safe (fun data _ => ?_) fun _ => trivial)
  have hissue : Quiet platform call w₀ (fun _ => True)
      (issueIdentityChallenge platform data.publicKey data.deviceId data.purpose) := by
    refine (Quiet.bind (φ := fun _ => True) ?_ fun challenge _ => ?_)
    · refine Quiet.randomBytes.bind fun pair _ => ?_
      show Quiet _ _ _ _ (if (sharedSecret platform pair.1 data.publicKey).all (· == 0) = true then _ else _)
      split
      · exact fun _ _ => trivial
      · exact Quiet.randomUUID.bind fun _ _ => Quiet.randomBytes.bind fun _ _ => .done trivial
    · refine (Quiet.sql fun d x hx => by cases hx; exact ⟨rfl, rfl⟩).bind fun _ _ =>
        (Quiet.sql fun d x hx => ?_).bind fun _ _ => .done trivial
      obtain ⟨deviceId, -, hx⟩ := Option.bind_eq_some_iff.mp hx
      obtain ⟨d', hd, hx⟩ := Option.bind_eq_some_iff.mp hx
      cases hx
      unfold Db.insertChallenge at hd
      split at hd
      · cases hd
      · cases hd; exact ⟨rfl, rfl⟩
  exact hissue.attempt (fun c _ => ⟨_, rfl, rfl⟩) (fun e => ⟨_, rfl, rfl⟩) hw

/-- `POST /auth/register`. -/
theorem postRegister_safe (hw : Changed platform call w₀ w) (body : Option Json) :
    (postRegister platform body).Safe (authority platform call w₀) (answers platform call w₀) w := by
  refine catching_safe (Quiet.parse.bind fun data _ => Quiet.consume.bind fun accepted _ => ?_) hw
  cases accepted with
  | true => exact .createAccount
  | false => exact .failure

/-- `POST /auth/login`. -/
theorem postLogin_safe (hw : Changed platform call w₀ w) (body : Option Json) :
    (postLogin platform body).Safe (authority platform call w₀) (answers platform call w₀) w := by
  refine catching_safe (Quiet.parse.bind fun data _ => Quiet.consume.bind fun accepted _ => ?_) hw
  cases accepted with
  | true => exact .checkCredentials
  | false => exact .failure

/-- `POST /auth/logout`. -/
theorem postLogout_safe (hw : Changed platform call w₀ w) :
    (postLogout platform call.authorization).Safe (authority platform call w₀) (answers platform call w₀) w :=
  Returns.bind (foreign_safe hw (fun d x hx => by cases hx; exact ⟨rfl, rfl⟩) fun _ _ _ _ _ => silent_safe rfl)

/-! ## Every request -/

theorem handle_safe (hk : w₀.db.Keys) (hw : Fresh w₀ w) :
    (handle platform call).Safe (authority platform call w₀) (answers platform call w₀) w := by
  unfold handle
  cases call.request with
  | postChallenge body => exact postChallenge_safe hw.changes body
  | postRegister body => exact postRegister_safe hw.changes body
  | postLogin body => exact postLogin_safe hw.changes body
  | postLogout => exact authMiddleware_safe hw fun w' user hf _ => postLogout_safe hf.changes
  | postContacts body => exact authMiddleware_safe hw fun w' user hf _ => postContacts_safe hf.changes body
  | postConversations body => exact authMiddleware_safe hw fun w' user hf _ => postConversations_safe hf.changes body
  | getConversations => exact authMiddleware_safe hw fun w' user hf ha => getConversations_safe hf ha
  | postMessages body => exact authMiddleware_safe hw fun w' user hf ha => postMessages_safe hf ha body
  | getMessages conversationId limit before beforeId =>
    exact authMiddleware_safe hw fun w' user hf ha => getMessages_safe hf ha conversationId limit before beforeId
  | postRead messageId => exact authMiddleware_safe hw fun w' user hf ha => postRead_safe hf hk ha messageId
  | postLink body => exact authMiddleware_safe hw fun w' user hf _ => postLink_safe hf.changes body

theorem serve_safe (hk : w₀.db.Keys) :
    (serve platform call).Safe (authority platform call w₀) (answers platform call w₀) w₀ := by
  refine Returns.bind (Async.Safe.await fun w₁ hr hi a w₂ he => ?_)
  cases he
  cases hr
  have hf : Fresh w₀ { w₀ with audit.received := call :: w₀.audit.received } := ⟨rfl, rfl, rfl, rfl, rfl, le_refl _⟩
  refine ⟨hf.changes, trivial, Returns.bind (Async.Safe.attempt ((handle_safe hk hf).mono fun r w' hr => ?_))⟩
  cases r with
  | ok res => exact hr
  | error e => cases e <;> exact silent_safe rfl

/-- One request on any database: what it returns and changes, wherever it is cut off. -/
theorem serve_authorized {r : Option (Except ServerError Response)} (hk : w₀.db.Keys)
    (h : Async.Runs (Effect platform) (serve platform call) w₀ r w) : Authorized platform call w₀ r w := by
  obtain ⟨hc, hr⟩ := (serve_safe hk).runs (fun _ => rfl) h (Changes.refl w₀.db)
  exact ⟨fun res he => hr _ he, hc⟩

end Request

/-! ## Sequences of requests -/

/-- A request that was served, with the worlds before and after it. -/
structure Exchange where
  call : Call
  before : World
  response : Option (Except ServerError Response)
  after : World

/-- The worlds that requests lead to, with the requests. Between two of them accounts are deactivated, sessions expire and
participants leave: anything may change that keeps the primary key. -/
inductive Served (platform : Platform) : World → List Exchange → Prop
  | start (w : World) (hk : w.db.Keys) : Served platform w []
  | request {w w' : World} {es : List Exchange} {call : Call} {r : Option (Except ServerError Response)}
    (h : Served platform w es) (hr : Async.Runs (Effect platform) (serve platform call) w r w') :
    Served platform w' (⟨call, w, r, w'⟩ :: es)
  | outside {w w' : World} {es : List Exchange} (h : Served platform w es) (hk : w'.db.Keys) : Served platform w' es

section Sequences

variable {platform : Platform} {w : World} {es : List Exchange}

/-- A request keeps the primary key of messages. -/
theorem Db.Keys.serve {call : Call} {r : Option (Except ServerError Response)} {w' : World} (h : w.db.Keys)
    (hr : Async.Runs (Effect platform) (serve platform call) w r w') : w'.db.Keys := by
  have hstep : ∀ {w : World} {op : Op} {a : Except ServerError (Ans op)} {w' : World}, Effect platform w op a w' →
      w.db.Keys → w'.db.Keys := by
    intro w op a w' he hk
    cases he with
    | sql q t a d hx => exact @Db.Keys.exec _ (w.db.at t) _ _ _ hk hx
    | lost q t a d e hx => exact @Db.Keys.exec _ (w.db.at t) _ _ _ hk hx
    | receive => exact hk
    | fails => exact hk
    | randomUUID => exact hk
    | randomBytes => exact hk
    | notify => exact hk
  exact @Async.Runs.inv _ _ _ _ _ (Effect platform) (fun w => w.db.Keys) hstep _ _ _ _ hr h

/-- In every sequence of requests, messages and participants of a conversation are returned only to, and messages and
marks in it are made only by, an active user with a live session who takes part in it; the sender of a message is that
user. -/
theorem conversation_authorization (h : Served platform w es) :
    ∀ e ∈ es, Authorized platform e.call e.before e.response e.after := by
  have hboth : w.db.Keys ∧ ∀ e ∈ es, Authorized platform e.call e.before e.response e.after := by
    induction h with
    | start w hk => exact ⟨hk, fun e he => (List.not_mem_nil he).elim⟩
    | request _ hr ih =>
      refine ⟨ih.1.serve hr, fun e he => ?_⟩
      rcases List.mem_cons.mp he with rfl | he
      · exact serve_authorized ih.1 hr
      · exact ih.2 e he
    | outside _ hk ih => exact ⟨hk, ih.2⟩
  exact hboth.2

end Sequences

/-! ## One reader -/

namespace Reader

def token : String := String.ofList (List.replicate 64 '0')

/-- SHA-256 of the token; nothing else of the platform is used. -/
def platform : Platform where
  hmac := fun key _ => key
  x25519 := fun _ key => key
  x25519Public := id
  tokenHash := fun _ => "60e05bd1b195af2f94112fa7197a5c88289058840ce7c6df9693756bc6250f55"
  scrypt := fun phrase _ => phrase
  timestamptz := fun _ => none
  isUrl := fun _ => false
  isDatetime := fun _ => false

def uuid (n : UInt8) : Uuid := ⟨List.replicate 16 n, List.length_replicate⟩

def message : MessageRow :=
  { id := uuid 4, conversationId := uuid 3, senderId := uuid 2, content := "envelope", messageType := "text", mediaUrl := none,
    mediaMeta := none, replyToId := none, sentAt := 10 }

/-- A user with a session takes part in a conversation in which another one has sent a message, and which a third one has
left. -/
def db : Db :=
  { users := [⟨uuid 1, "05", "reader", "", "", "", 0, none, true⟩, ⟨uuid 2, "05", "sender", "", "", "", 0, none, true⟩,
      ⟨uuid 5, "05", "guest", "", "", "", 0, none, true⟩]
    sessions := [⟨platform.tokenHash token, uuid 1, 100⟩]
    conversations := [⟨uuid 3, "direct", none, none, uuid 2, 0, 10⟩]
    participants := [⟨uuid 3, uuid 1, false, none, some 0⟩, ⟨uuid 3, uuid 2, true, none, some 0⟩,
      ⟨uuid 3, uuid 5, false, some 15, some 0⟩]
    messages := [message]
    now := 20 }

def listCall : Call := ⟨some ("Bearer " ++ token), .getConversations⟩

def call : Call := ⟨some ("Bearer " ++ token), .postRead (uuid 4).text⟩

/-- What the user sees of the conversation. -/
def row : ConversationView :=
  ⟨uuid 3, "direct", none, none, 0, 10, [⟨uuid 1, "reader", "05", ""⟩, ⟨uuid 2, "sender", "05", ""⟩],
    some ⟨uuid 4, uuid 3, "envelope", uuid 2, 10, "text"⟩, 1⟩

/-- The conversations are listed. -/
def listed : World := ⟨db, { received := [listCall] }⟩

/-- The message is marked. -/
def marked : World :=
  ⟨((db.markLastRead (uuid 4) (uuid 1)).markRead (uuid 4) (uuid 1)), { received := [call, listCall] }⟩

theorem bearer_call : call.authorization.bind bearer = some token := by
  have hlen : "Bearer ".toList.length = 7 := rfl
  show bearer ("Bearer " ++ token) = some token
  rw [bearer, String.toList_append, ← hlen, List.take_left, List.drop_left, if_pos rfl, String.ofList_toList]

theorem isHex64_replicate {c : Char} (h : Zod.isLowerHexDigit c = true) :
    Zod.isHex64 (String.ofList (List.replicate 64 c)) = true := by
  simp only [Zod.isHex64, String.toList_ofList, List.length_replicate, List.all_replicate, h]
  simp

theorem isHex64_token : Zod.isHex64 token = true := isHex64_replicate (c := '0') (by decide)

theorem authenticate_token : db.authenticate (platform.tokenHash token) = some (uuid 1) := by
  have hid : (uuid 1 == uuid 1) = true ∧ (uuid 2 == uuid 1) = false := by decide
  simp [Db.authenticate, db, hid]

theorem auth : exec platform db (.authenticate (platform.tokenHash token)) = some (some (uuid 1), db) :=
  congrArg (fun a => some (a, db)) authenticate_token

theorem conversationsOf : db.conversationsOf (uuid 1) = [row] := by
  have hrows : (db.conversations.flatMap fun c => (db.participants.filter fun cp =>
      cp.conversationId == c.id && cp.userId == uuid 1 && cp.leftAt.isNone).map fun cp => (c, cp)) =
      [(⟨uuid 3, "direct", none, none, uuid 2, 0, 10⟩, ⟨uuid 3, uuid 1, false, none, some 0⟩)] := rfl
  have hlast : (db.messages.filter fun m => m.conversationId == uuid 3 && !m.isDeleted) = [message] := rfl
  unfold Db.conversationsOf
  rw [hrows, List.mergeSort_singleton, List.map_singleton]
  unfold Db.conversationView
  rw [hlast, List.mergeSort_singleton]
  rfl

/-- The conversations are answered. -/
theorem lists : Async.Runs (Effect platform) (serve platform listCall) ⟨db, {}⟩ (some (.ok ⟨200, .conversations [row]⟩))
    listed := by
  have hrows : exec platform db (.conversationsOf (uuid 1)) = some ([row], db) :=
    congrArg (fun rows => some (rows, db)) conversationsOf
  have hhandle : Async.Runs (Effect platform) (handle platform listCall) listed
      (some (.ok ⟨200, .conversations [row]⟩)) listed :=
    authMiddleware_runs bearer_call isHex64_token (.atOnce auth) (.call (.atOnce hrows) (.done _ _))
  exact serve_runs (.receive _ _) hhandle

/-- The request is answered. -/
theorem runs : Async.Runs (Effect platform) (serve platform call) listed (some (.ok ⟨200, .success⟩)) marked := by
  have hread := Uuid.read_text (uuid 4)
  have hallowed : exec platform db (.messageParticipant (uuid 4).text (uuid 1)) = some (1, db) := by
    simp only [exec, hread, Option.bind_eq_bind, Option.bind_some]
    rfl
  have hlast : exec platform db (.markLastRead (uuid 4).text (uuid 1)) = some ((), db.markLastRead (uuid 4) (uuid 1)) := by
    simp only [exec, hread, Option.bind_eq_bind, Option.bind_some]
    rfl
  have hmark : exec platform (db.markLastRead (uuid 4) (uuid 1)) (.markRead (uuid 4).text (uuid 1)) = some ((), marked.db) := by
    simp only [exec, hread, Option.bind_eq_bind, Option.bind_some]
    rfl
  have hnext : Async.Runs (Effect platform) (postRead (uuid 1) (uuid 4).text) ⟨db, { received := [call, listCall] }⟩
      (some (.ok ⟨200, .success⟩)) marked :=
    .call (.atOnce hallowed) (.call (.atOnce hlast) (.call (.atOnce hmark) (.done _ _)))
  have hhandle : Async.Runs (Effect platform) (handle platform call) ⟨db, { received := [call, listCall] }⟩
      (some (.ok ⟨200, .success⟩)) marked := authMiddleware_runs bearer_call isHex64_token (.atOnce auth) hnext
  exact serve_runs (.receive _ _) hhandle

/-- A participant lists the conversations and marks a message. -/
theorem served : Served platform marked
    [⟨call, listed, some (.ok ⟨200, .success⟩), marked⟩,
      ⟨listCall, ⟨db, {}⟩, some (.ok ⟨200, .conversations [row]⟩), listed⟩] :=
  .request (.request (.start ⟨db, {}⟩ (List.nodup_singleton _)) lists) runs

end Reader

/-- A participant sees who takes part and has not left, and marks a message. -/
theorem conversation_authorization_read :
    (∃ m ∈ Reader.marked.db.messages, m.readAt = some 20) ∧
      Reader.row.participants.map (·.displayName) = ["reader", "sender"] ∧
      Authorized Reader.platform Reader.listCall ⟨Reader.db, {}⟩ (some (.ok ⟨200, .conversations [Reader.row]⟩)) Reader.listed ∧
      Authorized Reader.platform Reader.call Reader.listed (some (.ok ⟨200, .success⟩)) Reader.marked :=
  have h := conversation_authorization Reader.served
  ⟨⟨{ Reader.message with readAt := some 20, deliveredAt := some 20 }, by decide, rfl⟩, rfl,
    h _ (List.mem_cons_of_mem _ (List.mem_singleton_self _)), h _ List.mem_cons_self⟩

end Server

end Chhaya
