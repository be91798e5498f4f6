import Chhaya.Server.Authorization
import Chhaya.Server.Calls

/-!
# A message that was accepted is complete

`POST /messages` inserts the message, moves `updated_at` of the conversation and notifies the other participants in
separate steps, and a retry is answered from the row that is there. Requests run in any interleaving and may be cut off
between any two steps.

- `Announced`: what a client may count on that was answered with 200 or 201.
- `Sound.step`: every step keeps that what was notified was announced.
- `storeMessage_accepted`: what an attempt that ends has to show.
- `message_acceptance`: in every run in which a retry finds the row only after its participants were notified.
- `message_acceptance_cut`: a run in which the first attempt is cut off after the insert.
-/

namespace Chhaya

namespace Server

/-! ## Announced messages -/

/-- The conversation was moved to the time of the message, and every other active participant was notified of it. -/
structure Announced (w : World) (m : MessageRow) : Prop where
  updated : ∀ c ∈ w.db.conversations, c.id = m.conversationId → m.sentAt ≤ c.updatedAt
  notified : ∀ p ∈ w.db.participants, p.conversationId = m.conversationId → p.userId ≠ m.senderId → p.leftAt = none →
    ∃ n ∈ w.audit.notified, Uuid.read n.messageId = some m.id ∧ Uuid.read n.conversationId = some m.conversationId ∧
      p.userId ∈ n.users

/-- The loop over the other participants has run for the message with the id. -/
def Notified (w : World) (id : Uuid) : Prop := ∃ n ∈ w.audit.notified, Uuid.read n.messageId = some id

/-- A step whose insert finds the id of its message taken only if the participants were notified of that message. -/
def Timely (platform : Platform) (w : World) (op : Op) (a : Except ServerError (Ans op)) (w' : World) : Prop :=
  Effect platform w op a w' ∧
    ∀ m id, op = .sql (.insertMessage m) → Uuid.read m.id = some id → (w.db.message id).isSome → Notified w id

/-- A statement that runs at once, and that is no insert with an id that is taken. -/
theorem Timely.atOnce {platform : Platform} {d d' : Db} {audit : Audit} {q : Sql} {a : q.Rows} (h : exec platform d q = some (a, d'))
    (hq : ∀ m, q = .insertMessage m → ∀ id, Uuid.read m.id = some id → d.message id = none) :
    Timely platform ⟨d, audit⟩ (.sql q) (.ok a) ⟨d', audit.record d q⟩ := by
  refine ⟨.atOnce h, fun m id hop hid hsome => ?_⟩
  rw [hq m (Op.sql.inj hop) id hid] at hsome
  cases hsome

/-- What happens beside the requests: time passes, accounts come and are deactivated, and participants leave. -/
structure Outside (w w' : World) : Prop where
  audit : w'.audit = w.audit
  messages : w'.db.messages = w.db.messages
  conversations : w'.db.conversations = w.db.conversations
  participants : ∀ p' ∈ w'.db.participants, ∃ p ∈ w.db.participants, p.conversationId = p'.conversationId ∧
    p.userId = p'.userId ∧ (p'.leftAt = none → p.leftAt = none)
  users : ∀ u ∈ w.db.users, ∃ u' ∈ w'.db.users, u'.id = u.id
  now : w.db.now ≤ w'.db.now

/-- What holds between any two steps. -/
structure Sound (w : World) : Prop where
  keys : w.db.Keys
  references : w.db.References
  announced : ∀ n ∈ w.audit.notified, ∃ m ∈ w.db.messages, Uuid.read n.messageId = some m.id ∧ m.sentAt ≤ w.db.now ∧
    Announced w m

/-- Nothing is lost, and what was notified stays so. -/
structure Advances (w w' : World) : Prop where
  db : Progress w.db w'.db
  notified : ∀ n ∈ w.audit.notified, n ∈ w'.audit.notified

section Steps

variable {platform : Platform} {w w' w'' : World} {m m' : MessageRow}

theorem Advances.refl (w : World) : Advances w w := ⟨.refl _, fun _ h => h⟩

theorem Advances.trans (h : Advances w w') (h' : Advances w' w'') : Advances w w'' :=
  ⟨h.db.trans h'.db, fun n hn => h'.notified n (h.notified n hn)⟩

/-- What was announced stays so. -/
theorem Announced.mono (h : Announced w m) (ha : Advances w w') (hc : w.db.HasConversation m.conversationId)
    (ht : m.sentAt ≤ w.db.now) : Announced w' m := by
  constructor
  · intro c' hc' hid
    obtain ⟨c, hcm, he, hle⟩ := ha.db.updated c' hc' (hid ▸ hc)
    have := h.updated c hcm (he.trans hid)
    omega
  · intro p' hp' hid hs hl
    obtain ⟨p, hp, hpc, hpu, hpl⟩ := ha.db.participants p' hp' hl (hid ▸ hc)
    obtain ⟨n, hn, h1, h2, h3⟩ := h.notified p hp (hpc.trans hid) (hpu ▸ hs) hpl
    exact ⟨n, ha.notified n hn, h1, h2, hpu ▸ h3⟩

/-- Marks do not matter. -/
theorem Announced.same (h : Announced w m) (hs : SameMessage m m') : Announced w m' := by
  rw [hs]
  exact ⟨h.updated, h.notified⟩

/-- A step that changes the tables and notifies nobody. -/
theorem Sound.advance (h : Sound w) (hk : w'.db.Keys) (hr : w'.db.References) (ha : Advances w w')
    (hn : w'.audit.notified = w.audit.notified) : Sound w' := by
  refine ⟨hk, hr, fun n hm => ?_⟩
  obtain ⟨m, hmem, hid, ht, hann⟩ := h.announced n (hn ▸ hm)
  obtain ⟨m', hmem', hs⟩ := ha.db.messages m hmem
  refine ⟨m', hmem', ?_, ?_, (hann.mono ha (h.references.messages m hmem) ht).same hs⟩
  · rw [hid, hs]
  · rw [hs]
    exact ht.trans ha.db.now

/-- Statements notify nobody. -/
theorem record_notified (audit : Audit) (d : Db) (q : Sql) : (audit.record d q).notified = audit.notified := by
  unfold Audit.record
  split
  · rfl
  · split <;> rfl
  · rfl
  · rfl

/-- A statement. -/
theorem Sound.exec (h : Sound w) {q : Sql} {t : Nat} {a : q.Rows} {d : Db} (he : exec platform (w.db.at t) q = some (a, d)) :
    Sound ⟨d, w.audit.record (w.db.at t) q⟩ ∧ Advances w ⟨d, w.audit.record (w.db.at t) q⟩ := by
  have ha : Advances w ⟨d, w.audit.record (w.db.at t) q⟩ :=
    ⟨(Progress.at w.db t).trans (.exec he), fun n hn => (record_notified w.audit (w.db.at t) q).symm ▸ hn⟩
  have hk : (w.db.at t).Keys := h.keys
  have hr : (w.db.at t).References := ⟨h.references.messages, h.references.participants⟩
  exact ⟨h.advance (hk.exec he) (hr.change (exec_change he)) ha (record_notified _ _ _), ha⟩

/-- A step that notifies nobody keeps what was announced. -/
theorem Sound.step (h : Sound w) {op : Op} {a : Except ServerError (Ans op)} (ho : Quietly op)
    (he : Effect platform w op a w') : Sound w' ∧ Advances w w' := by
  cases he with
  | receive call =>
    have ha : Advances w { w with audit.received := call :: w.audit.received } := ⟨.refl _, fun _ hn => hn⟩
    exact ⟨h.advance h.keys h.references ha rfl, ha⟩
  | sql q t a d hx => exact h.exec hx
  | fails q e => exact ⟨h, .refl _⟩
  | lost q t a d e hx => exact h.exec hx
  | randomUUID id => exact ⟨h, .refl _⟩
  | randomBytes size l => exact ⟨h, .refl _⟩
  | notify n => cases ho

theorem Outside.hasConversation (h : Outside w w') {id : Uuid} (hc : w.db.HasConversation id) :
    w'.db.HasConversation id := by
  unfold Db.HasConversation
  rw [h.conversations]
  exact hc

theorem Outside.advances (h : Outside w w') : Advances w w' := by
  refine ⟨⟨fun m hm => ⟨m, h.messages ▸ hm, .refl m⟩, fun id => h.hasConversation,
    fun c hc _ => ⟨c, h.conversations ▸ hc, rfl, min_le_left _ _⟩, fun p hp hl _ => ?_, h.now⟩, fun n hn => h.audit ▸ hn⟩
  obtain ⟨p₀, hp₀, hc, hu, hl₀⟩ := h.participants p hp
  exact ⟨p₀, hp₀, hc, hu, hl₀ hl⟩

/-- What happens outside keeps what was announced. -/
theorem Sound.outside (h : Sound w) (ho : Outside w w') : Sound w' := by
  refine h.advance ?_ ⟨fun m hm => ?_, fun p hp => ?_⟩ ho.advances (by rw [ho.audit])
  · unfold Db.Keys
    rw [ho.messages]
    exact h.keys
  · exact ho.hasConversation (h.references.messages m (ho.messages ▸ hm))
  · obtain ⟨p₀, hp₀, hc, hu, -⟩ := ho.participants p hp
    obtain ⟨h1, u, hum, h2⟩ := h.references.participants p₀ hp₀
    obtain ⟨u', hu', he⟩ := ho.users u hum
    exact ⟨ho.hasConversation (hc ▸ h1), u', hu', (he.trans h2).trans hu⟩

end Steps

/-! ## One attempt -/

section Attempt

variable {platform : Platform} {w w' : World} {m : MessageRow}

/-- What handlers rely on and keep. -/
abbrev acceptance (platform : Platform) : Async.Rules Op Ans ServerError World :=
  ⟨Timely platform, fun w w' => Advances w w' ∧ (Sound w → Sound w'), fun w w' => Advances w w' ∧ (Sound w → Sound w'),
    Sound⟩

/-- A call that notifies nobody. -/
theorem await_safe {op : Op} {φ : Ans op → World → Prop} (ho : Quietly op)
    (h : ∀ w₁ a w₂, Advances w w₁ → Sound w₁ → Timely platform w₁ op (.ok a) w₂ → Advances w₁ w₂ → Sound w₂ → φ a w₂) :
    (Async.await op : Prog (Ans op)).Safe (acceptance platform) (Returns φ) w := by
  refine Async.Safe.await fun w₁ hr hi a w₂ he => ?_
  obtain ⟨hs, ha⟩ := hi.step ho he.1
  refine ⟨hs, ⟨ha, fun _ => hs⟩, ?_⟩
  cases a with
  | ok a => exact h w₁ a w₂ hr.1 hi he ha hs
  | error e => exact trivial

/-- The message is stored, and not of the future. -/
structure Stored (w : World) (m : MessageRow) : Prop where
  row : ∃ m' ∈ w.db.messages, SameMessage m m'
  time : m.sentAt ≤ w.db.now

theorem Stored.mono (h : Stored w m) (ha : Advances w w') : Stored w' m := by
  obtain ⟨m', hm', hs⟩ := h.row
  obtain ⟨m'', hm'', hs'⟩ := ha.db.messages m' hm'
  exact ⟨⟨m'', hm'', hs.trans hs'⟩, h.time.trans ha.db.now⟩

/-- Its conversation is there. -/
theorem Stored.hasConversation (h : Stored w m) (hi : Sound w) : w.db.HasConversation m.conversationId := by
  obtain ⟨m', hm', hs⟩ := h.row
  have := hi.references.messages m' hm'
  rwa [hs] at this

/-- The message was announced for good. -/
structure Settled (w : World) (m : MessageRow) : Prop where
  announced : Announced w m
  conversation : w.db.HasConversation m.conversationId
  time : m.sentAt ≤ w.db.now

theorem Settled.mono (h : Settled w m) (ha : Advances w w') : Settled w' m :=
  ⟨h.announced.mono ha h.conversation h.time, ha.db.conversations _ h.conversation, h.time.trans ha.db.now⟩

theorem Notified.mono {id : Uuid} (h : Notified w id) (ha : Advances w w') : Notified w' id := by
  obtain ⟨n, hn, hid⟩ := h
  exact ⟨n, ha.notified n hn, hid⟩

/-- The row that is found after the notifications was announced. -/
theorem Notified.settled {id : Uuid} (h : Notified w id) (hi : Sound w) (hm : w.db.message id = some m) : Settled w m := by
  obtain ⟨n, hn, hid⟩ := h
  obtain ⟨m', hm', hid', ht, hann⟩ := hi.announced n hn
  obtain ⟨hmem, hmid⟩ := Db.message_spec hm
  obtain rfl : m = m' := hi.keys.eq hmem hm' (hmid.trans (Option.some.inj (hid.symm.trans hid')))
  exact ⟨hann, hi.references.messages m hmem, ht⟩

/-- The message whose conversation was moved to it. -/
structure Bumped (w : World) (m : MessageRow) : Prop extends Stored w m where
  updated : ∀ c ∈ w.db.conversations, c.id = m.conversationId → m.sentAt ≤ c.updatedAt

theorem Bumped.mono (h : Bumped w m) (hi : Sound w) (ha : Advances w w') : Bumped w' m := by
  refine ⟨h.toStored.mono ha, fun c' hc' hid => ?_⟩
  obtain ⟨c, hc, he, hle⟩ := ha.db.updated c' hc' (hid ▸ h.hasConversation hi)
  have := h.updated c hc (he.trans hid)
  have := h.time
  omega

/-- The users are all the participants that have to be notified. -/
structure Listed (w : World) (m : MessageRow) (users : List Uuid) : Prop extends Bumped w m where
  listed : ∀ p ∈ w.db.participants, p.conversationId = m.conversationId → p.userId ≠ m.senderId → p.leftAt = none →
    p.userId ∈ users

theorem Listed.mono {users : List Uuid} (h : Listed w m users) (hi : Sound w) (ha : Advances w w') : Listed w' m users := by
  refine ⟨h.toBumped.mono hi ha, fun p' hp' hid hs hl => ?_⟩
  obtain ⟨p, hp, hpc, hpu, hpl⟩ := ha.db.participants p' hp' hl (hid ▸ h.hasConversation hi)
  exact hpu ▸ h.listed p hp (hpc.trans hid) (hpu ▸ hs) hpl

/-- The notifications announce the message. -/
theorem Listed.notify {n : Notification} (h : Listed w m n.users) (hi : Sound w) (hm : Uuid.read n.messageId = some m.id)
    (hc : Uuid.read n.conversationId = some m.conversationId) :
    Sound { w with audit.notified := n :: w.audit.notified } ∧
      Advances w { w with audit.notified := n :: w.audit.notified } := by
  have ha : Advances w { w with audit.notified := n :: w.audit.notified } :=
    ⟨.refl _, fun _ hn => List.mem_cons_of_mem _ hn⟩
  refine ⟨⟨hi.keys, hi.references, fun n' hn' => ?_⟩, ha⟩
  rcases List.mem_cons.mp hn' with rfl | hn'
  · obtain ⟨m', hm', hs⟩ := h.row
    have hann : Announced { w with audit.notified := n' :: w.audit.notified } m :=
      ⟨h.updated, fun p hp hid hsender hl => ⟨n', List.mem_cons_self, hm, hc, h.listed p hp hid hsender hl⟩⟩
    refine ⟨m', hm', ?_, ?_, hann.same hs⟩
    · rw [hm, hs]
    · rw [hs]
      exact h.time
  · obtain ⟨m', hm', hid, ht, hann⟩ := hi.announced n' hn'
    exact ⟨m', hm', hid, ht, hann.mono ha (hi.references.messages m' hm') ht⟩

/-- A message that is shown with 200 or 201 is the one that was asked for, and was announced. -/
def Shows (w : World) (messageId : String) (res : Response) : Prop :=
  res.status = 200 ∨ res.status = 201 → ∃ m, res.body = .message m ∧ Uuid.read messageId = some m.id ∧ Settled w m

/-- A refusal shows nothing. -/
theorem Shows.failure {messageId text : String} {status : Nat} (h : status ≠ 200 ∧ status ≠ 201) :
    Shows w messageId ⟨status, .error text⟩ := fun hs => (hs.elim h.1 h.2).elim

/-- The row that is read after the notifications. -/
theorem messageById_safe {messageId : String} {id : Uuid} {φ : Option MessageRow → World → Prop}
    (hid : Uuid.read messageId = some id) (hn : Notified w id)
    (h : ∀ w' m, (∀ r, m = some r → Uuid.read messageId = some r.id ∧ Settled w' r) → φ m w') :
    (sql (.messageById messageId)).Safe (acceptance platform) (Returns φ) w := by
  refine await_safe rfl fun w₁ a w₂ ha hi ht ha' hi' => h w₂ a fun r hr => ?_
  obtain ⟨he, -⟩ := ht
  cases he with
  | sql q t a d hx =>
    obtain ⟨id', hid', hx⟩ := Option.bind_eq_some_iff.mp hx
    obtain rfl := Option.some.inj (hid.symm.trans hid')
    cases hx
    have hfound : w₁.db.message id = some r := hr
    refine ⟨?_, ((hn.mono ha).settled hi hfound).mono ha'⟩
    rw [hid, (Db.message_spec hfound).2]

/-- `updated_at` is moved to the message. -/
theorem touchConversation_safe {data : SendMessage} {φ : Unit → World → Prop} (hi : Stored w m)
    (hc : Uuid.read data.conversationId = some m.conversationId) (h : ∀ w' a, Sound w' → Bumped w' m → φ a w') :
    (sql (.touchConversation data.conversationId)).Safe (acceptance platform) (Returns φ) w := by
  refine await_safe rfl fun w₁ a w₂ ha hs ht ha' hs' => h w₂ a hs' ⟨(hi.mono ha).mono ha', fun c hcm hcid => ?_⟩
  obtain ⟨he, -⟩ := ht
  cases he with
  | sql q t a d hx =>
    obtain ⟨id', hid', hx⟩ := Option.bind_eq_some_iff.mp hx
    obtain rfl := Option.some.inj (hc.symm.trans hid')
    cases hx
    obtain ⟨c₀, -, rfl⟩ := List.mem_map.mp hcm
    by_cases hc₀ : c₀.id = m.conversationId
    · rw [if_pos hc₀]
      exact (hi.mono ha).time.trans (le_max_left _ _)
    · rw [if_neg hc₀] at hcid
      exact (hc₀ hcid).elim

/-- The other participants are read. -/
theorem otherParticipants_safe {data : SendMessage} {φ : List Uuid → World → Prop} (hi : Sound w) (hb : Bumped w m)
    (hc : Uuid.read data.conversationId = some m.conversationId)
    (h : ∀ w' users, Sound w' → Listed w' m users → φ users w') :
    (sql (.otherParticipants data.conversationId m.senderId)).Safe (acceptance platform) (Returns φ) w := by
  refine await_safe rfl fun w₁ users w₂ ha hs ht ha' hs' =>
    h w₂ users hs' ⟨(hb.mono hi ha).mono hs ha', fun p hp hid hsender hl => ?_⟩
  obtain ⟨he, -⟩ := ht
  cases he with
  | sql q t a d hx =>
    obtain ⟨id', hid', hx⟩ := Option.bind_eq_some_iff.mp hx
    obtain rfl := Option.some.inj (hc.symm.trans hid')
    cases hx
    obtain ⟨u, hu, he⟩ := (hs.references.participants p hp).2
    refine List.mem_map.mpr ⟨p, List.mem_filter.mpr ⟨hp, ?_⟩, rfl⟩
    have huser : (w₁.db.users.any fun u => u.id == p.userId) = true := List.any_eq_true.mpr ⟨u, hu, by simpa using he⟩
    simp only [Bool.and_eq_true, beq_iff_eq, bne_iff_ne, Option.isNone_iff_eq_none]
    exact ⟨⟨⟨hid, hsender⟩, hl⟩, huser⟩

/-- What follows on an insert. -/
theorem announce_safe {data : SendMessage} {messageId : String} (hi : Stored w m)
    (hid : Uuid.read messageId = some m.id) (hc : Uuid.read data.conversationId = some m.conversationId) :
    (announce m.senderId data messageId).Safe (acceptance platform) (Returns fun res w' => Shows w' messageId res) w := by
  refine Returns.bind (touchConversation_safe hi hc fun w₁ _ hs₁ hb => ?_)
  refine Returns.bind (otherParticipants_safe hs₁ hb hc fun w₂ users hs₂ hl => ?_)
  refine Returns.bind (Async.Safe.await fun w₃ ha hs₃ a w₄ he => ?_)
  obtain ⟨he, -⟩ := he
  cases he
  obtain ⟨hs₄, ha'⟩ := (hl.mono hs₂ ha.1).notify (n := ⟨users, data.conversationId, messageId⟩) hs₃ hid hc
  refine ⟨hs₄, ⟨ha', fun _ => hs₄⟩, Returns.bind (messageById_safe hid ⟨_, List.mem_cons_self, hid⟩ fun w₅ saved hsaved => ?_)⟩
  cases saved with
  | none => exact Shows.failure (by decide)
  | some saved =>
    show Async.Safe _ _ (if saved.senderId ≠ m.senderId ∨ saved.conversationId.text ≠ data.conversationId then _ else _) _
    split
    · exact Shows.failure (by decide)
    · exact fun _ => ⟨saved, rfl, hsaved saved rfl⟩

/-- The answer to a retry. -/
theorem answerRetry_safe {data : SendMessage} {messageId : String} {user id : Uuid}
    (hid : Uuid.read messageId = some id) (hn : Notified w id) :
    (answerRetry user data messageId).Safe (acceptance platform) (Returns fun res w' => Shows w' messageId res) w := by
  refine Returns.bind (messageById_safe hid hn fun w₁ previous hprevious => ?_)
  cases previous with
  | none => exact Shows.failure (by decide)
  | some message =>
    show Async.Safe _ _ (if message.senderId ≠ user ∨ message.conversationId.text ≠ data.conversationId ∨
      message.content ≠ data.content then _ else _) _
    split
    · exact Shows.failure (by decide)
    · exact fun _ => ⟨message, rfl, hprevious message rfl⟩

/-- An attempt past the membership check. -/
theorem storeMessage_accepted {data : SendMessage} {messageId : String} {user : Uuid} :
    (storeMessage user data messageId).Safe (acceptance platform) (Returns fun res w' => Shows w' messageId res) w := by
  refine Returns.bind (await_safe rfl fun w₁ inserted w₂ ha hs ht ha' hs' => ?_)
  obtain ⟨he, htimely⟩ := ht
  cases he with
  | sql q t a d hx =>
    obtain ⟨id, hid, hx⟩ := Option.bind_eq_some_iff.mp hx
    obtain ⟨c, hc, hx⟩ := Option.bind_eq_some_iff.mp hx
    obtain ⟨replyTo, -, hx⟩ := Option.bind_eq_some_iff.mp hx
    obtain ⟨rfl, rfl, hold⟩ | ⟨rfl, -, -, -, rfl⟩ := Db.insertMessage_inv hx
    · exact answerRetry_safe hid ((htimely _ id rfl hid hold).mono ha')
    · exact @announce_safe platform _ ⟨id, c, user, data.content, data.messageType, _, _, replyTo, _, none, none, false⟩
        data messageId ⟨⟨_, List.mem_cons_self, .refl _⟩, le_refl _⟩ hid hc

end Attempt

/-! ## Every run -/

section Runs

variable {platform : Platform} {w w' : World}

/-- What a request for `POST /messages` that is answered with 200 or 201 may count on. -/
def Accepted (platform : Platform) (call : Call) (r : Except ServerError Response) (w : World) : Prop :=
  ∀ body res, call.request = .postMessages body → r = .ok res → res.status = 200 ∨ res.status = 201 →
    ∃ data m, sendMessageSchema platform body = .ok data ∧ (∀ id, data.messageId = some id → Uuid.read id = some m.id) ∧
      res.body = .message m ∧ Settled w m

theorem Accepted.mono {call : Call} {r : Except ServerError Response} (h : Accepted platform call r w)
    (ha : Advances w w') : Accepted platform call r w' := by
  intro body res hcall hr hs
  obtain ⟨data, m, hdata, hid, hbody, hset⟩ := h body res hcall hr hs
  exact ⟨data, m, hdata, hid, hbody, hset.mono ha⟩

theorem acceptance_stable : (acceptance platform).Stable where
  refl w := ⟨.refl w, id⟩
  trans h h' := ⟨h.1.trans h'.1, h'.2 ∘ h.2⟩
  guar := id
  inv h := h.2

/-- A refusal. -/
theorem Accepted.refused {call : Call} {status : Nat} {text : String} (h : status ≠ 200 ∧ status ≠ 201) :
    Accepted platform call (.ok ⟨status, .error text⟩) w := fun _ res _ hr hs => by
  cases hr
  exact (hs.elim h.1 h.2).elim

/-- An attempt from its schema on. -/
theorem postMessages_accepted {call : Call} {body : Option Json} (hcall : call.request = .postMessages body) {user : Uuid} :
    (postMessages platform user body).Safe (acceptance platform)
      (Returns fun res w' => Accepted platform call (.ok res) w') w := by
  have hstore : ∀ {data : SendMessage} {messageId : String} {w : World}, sendMessageSchema platform body = .ok data →
      (∀ id, data.messageId = some id → id = messageId) → (storeMessage user data messageId).Safe (acceptance platform)
        (Returns fun res w' => Accepted platform call (.ok res) w') w := by
    intro data messageId w hdata hid
    refine storeMessage_accepted.mono fun r w' hr => ?_
    cases r with
    | error e => exact trivial
    | ok res =>
      intro body' res' hbody hres hs
      obtain rfl : body = body' := Request.postMessages.inj (hcall.symm.trans hbody)
      obtain rfl : res = res' := Except.ok.inj hres
      obtain ⟨m, hm, hread, hset⟩ := hr hs
      exact ⟨data, m, hdata, fun id h => hid id h ▸ hread, hm, hset⟩
  refine Returns.bind (parse_safe (fun data hdata => ?_) fun _ => trivial)
  refine Returns.bind (await_safe rfl fun _ member _ _ _ _ _ _ => ?_)
  cases member with
  | false => exact Accepted.refused (by decide)
  | true =>
    cases hid : data.messageId with
    | some messageId => exact hstore hdata fun id h => Option.some.inj (h.symm.trans hid)
    | none => exact Returns.bind (await_safe rfl fun _ id _ _ _ _ _ _ => hstore hdata fun id h => by rw [hid] at h; cases h)

/-- An attempt behind the session check. -/
theorem authMiddleware_accepted {call : Call} {next : Uuid → Prog Response}
    (h : ∀ user w, (next user).Safe (acceptance platform) (Returns fun res w' => Accepted platform call (.ok res) w') w) :
    (authMiddleware platform call.authorization next).Safe (acceptance platform)
      (Returns fun res w' => Accepted platform call (.ok res) w') w := by
  unfold authMiddleware
  cases call.authorization.bind bearer with
  | none => exact Accepted.refused (by decide)
  | some token =>
    refine Returns.bind ?_
    unfold authenticateToken
    split
    · refine await_safe rfl fun _ found _ _ _ _ _ _ => ?_
      cases found with
      | none => exact Accepted.refused (by decide)
      | some user => exact h user _
    · exact Accepted.refused (by decide)

/-- Every request from its arrival to its response. -/
theorem serve_accepted (call : Call) : (serve platform call).Safe (acceptance platform) (Accepted platform call) w := by
  by_cases hcall : ∃ body, call.request = .postMessages body
  · obtain ⟨body, hcall⟩ := hcall
    have hhandle : ∀ w, (handle platform call).Safe (acceptance platform)
        (Returns fun res w' => Accepted platform call (.ok res) w') w := fun w => by
      unfold handle
      rw [hcall]
      exact authMiddleware_accepted fun user w => postMessages_accepted hcall
    have hserve : (serve platform call).Safe (acceptance platform)
        (Returns fun res w' => Accepted platform call (.ok res) w') w := by
      refine Returns.bind (await_safe rfl fun _ _ w₂ _ _ _ _ _ => Returns.bind (Async.Safe.attempt ?_))
      refine (hhandle w₂).mono fun r w' hr => ?_
      cases r with
      | ok res => exact hr
      | error e => cases e <;> exact Accepted.refused (by decide)
    refine hserve.mono fun r w' hr body res hbody hres => ?_
    subst hres
    exact hr body res hbody rfl
  · have hq : (serve platform call).Every Quietly :=
      .bind (.await rfl) fun _ => .bind (handle_quiet fun body h => hcall ⟨body, h⟩).attempt fun _ => trivial
    refine (hq.safe fun op ho w a w' hi he => ?_).mono fun r w' _ body res h => (hcall ⟨body, h⟩).elim
    obtain ⟨hs, ha⟩ := hi.step ho he.1
    exact ⟨hs, ha, fun _ => hs⟩

/-- In every run of requests in which an attempt finds its message already there only if the loop over the participants
has run for it: once `POST /messages` was answered with 200 or 201, `updated_at` is not before the message and every other
active participant was notified. -/
theorem message_acceptance {d : Db} (hk : d.Keys) (hr : d.References) {c : Async.Pool Call Op Ans ServerError Response World}
    (h : Async.Pool.Reachable (Timely platform) (serve platform) Outside (fun _ _ => True) ⟨d, {}⟩ c) :
    ∀ n call body res, .ended n call (.ok res) ∈ c.log → call.request = .postMessages body →
      res.status = 200 ∨ res.status = 201 → ∃ data m, sendMessageSchema platform body = .ok data ∧
        (∀ id, data.messageId = some id → Uuid.read id = some m.id) ∧ res.body = .message m ∧ Announced c.state m := by
  intro n call body res hlog hcall hs
  have hended := (Async.Pool.reachable_ended (Q := Accepted platform) acceptance_stable
    (fun ho => ⟨Outside.advances ho, fun hs => hs.outside ho⟩) (fun _ _ _ _ ha h => Accepted.mono h ha.1)
    (fun call _ _ => serve_accepted call) ⟨hk, hr, fun n hn => (List.not_mem_nil hn).elim⟩ h).2.2
  obtain ⟨data, m, hdata, hid, hbody, hset⟩ := hended n call _ hlog body res hcall rfl hs
  exact ⟨data, m, hdata, hid, hbody, hset.announced⟩

end Runs

/-! ## One message -/

namespace Sender

open Reader (platform token db uuid bearer_call isHex64_token authenticate_token)

def data : SendMessage := ⟨some (uuid 5).text, (uuid 3).text, "hello", "text", none, none, none⟩

def fields : List (List Char × Json) :=
  [("messageId".toList, .str (uuid 5).text.toList), ("conversationId".toList, .str (uuid 3).text.toList),
    ("content".toList, .str "hello".toList)]

def call : Call := ⟨some ("Bearer " ++ token), .postMessages (some (.obj fields))⟩

theorem schema_data : sendMessageSchema platform (some (.obj fields)) = .ok data := by
  have hm : Zod.lookup fields "messageId" = some (.str (uuid 5).text.toList) := rfl
  have hc : Zod.lookup fields "conversationId" = some (.str (uuid 3).text.toList) := rfl
  have ht : Zod.lookup fields "content" = some (.str "hello".toList) := rfl
  have hnone : ∀ key ∈ ["messageType", "mediaUrl", "mediaMeta", "replyToId"], Zod.lookup fields key = none := by
    intro key hkey
    simp only [List.mem_cons, List.not_mem_nil, or_false] at hkey
    rcases hkey with rfl | rfl | rfl | rfl <;> rfl
  have huuid : ∀ n, Zod.string [Zod.uuid] (some (.str (uuid n).text.toList)) = .ok (uuid n).text :=
    fun n => Zod.string_uuid (uuid n).isUuid_text
  have hhello : Zod.string [Zod.minLength 1, Zod.maxLength 10000] (some (.str "hello".toList)) = .ok "hello" :=
    Zod.string_of (by decide)
  unfold sendMessageSchema Zod.object
  simp only [Zod.property, hm, hc, ht, hnone, List.mem_cons, true_or, or_true, Zod.optional, Zod.withDefault, huuid, hhello]
  rfl

/-- The row of the message. -/
def hello : MessageRow :=
  { id := uuid 5, conversationId := uuid 3, senderId := uuid 1, content := "hello", messageType := "text", mediaUrl := none,
    mediaMeta := none, replyToId := none, sentAt := 20 }

def inserted : Db := { db with messages := hello :: db.messages }

theorem member : exec platform db (.participantCheck (uuid 3).text (uuid 1)) = some (true, db) := by
  simp only [exec, Uuid.read_text, Option.bind_eq_bind, Option.bind_some]
  rfl

theorem insert : exec platform db (.insertMessage (data.row (uuid 5).text (uuid 1))) = some (true, inserted) := by
  simp only [exec, SendMessage.row, data, Uuid.read_text, Option.bind_eq_bind, Option.bind_some]
  rfl

/-- The first attempt is cut off after the insert. -/
theorem first : Async.Runs (Effect platform) (serve platform call) ⟨db, {}⟩ none ⟨inserted, { received := [call] }⟩ := by
  have hauth : exec platform db (.authenticate (platform.tokenHash token)) = some (some (uuid 1), db) :=
    congrArg (fun a => some (a, db)) authenticate_token
  have hpost : Async.Runs (Effect platform) (postMessages platform (uuid 1) (some (.obj fields)))
      ⟨db, { received := [call] }⟩ none ⟨inserted, { received := [call] }⟩ := by
    unfold postMessages
    rw [parse_ok schema_data]
    exact .call (.atOnce member) (.call (.atOnce insert) (.cut _ _))
  have hhandle : Async.Runs (Effect platform) (handle platform call) ⟨db, { received := [call] }⟩ none
      ⟨inserted, { received := [call] }⟩ := authMiddleware_runs bearer_call isHex64_token (.atOnce hauth) hpost
  exact serve_cut (.receive _ _) hhandle

/-- An attempt whose message is there is answered from the row. The statements are those that `eff` runs at once. -/
theorem again {eff : World → (op : Op) → Except ServerError (Ans op) → World → Prop} {d : Db} {audit : Audit}
    (hreceive : eff ⟨d, audit⟩ (.receive call) (.ok ()) ⟨d, { audit with received := call :: audit.received }⟩)
    (hsql : ∀ (q : Sql) (a : q.Rows), (∀ m, q = .insertMessage m → m.id = (uuid 5).text) → exec platform d q = some (a, d) →
      eff ⟨d, { audit with received := call :: audit.received }⟩ (.sql q) (.ok a)
        ⟨d, Audit.record { audit with received := call :: audit.received } d q⟩)
    (hd : d.authenticate (platform.tokenHash token) = some (uuid 1)) (hm : d.isMember (uuid 3) (uuid 1) = true)
    (hrow : d.message (uuid 5) = some hello) :
    Async.Runs eff (serve platform call) ⟨d, audit⟩ (some (.ok ⟨200, .message hello⟩))
      ⟨d, { audit with received := call :: audit.received }⟩ := by
  have hmember : exec platform d (.participantCheck (uuid 3).text (uuid 1)) = some (true, d) := by
    simp only [exec, Uuid.read_text, Option.bind_eq_bind, Option.bind_some, hm]
    rfl
  have hconflict : exec platform d (.insertMessage (data.row (uuid 5).text (uuid 1))) = some (false, d) := by
    simp only [exec, SendMessage.row, data, Uuid.read_text, Option.bind_eq_bind, Option.bind_some, Db.insertMessage, hrow]
    rfl
  have hfind : exec platform d (.messageById (uuid 5).text) = some (some hello, d) := by
    simp only [exec, Uuid.read_text, Option.bind_eq_bind, Option.bind_some, hrow]
    rfl
  have hpost : Async.Runs eff (postMessages platform (uuid 1) (some (.obj fields)))
      ⟨d, { audit with received := call :: audit.received }⟩ (some (.ok ⟨200, .message hello⟩))
      ⟨d, { audit with received := call :: audit.received }⟩ := by
    unfold postMessages
    rw [parse_ok schema_data]
    refine .call (hsql _ _ ?_ hmember) (.call (hsql _ _ (fun m h => ?_) hconflict) (.call (hsql _ _ ?_ hfind) ?_))
    · rintro m ⟨⟩
    · obtain rfl := Sql.insertMessage.inj h
      rfl
    · rintro m ⟨⟩
    show Async.Runs _ (if hello.senderId ≠ uuid 1 ∨ hello.conversationId.text ≠ (uuid 3).text ∨ hello.content ≠ "hello"
      then failure 409 "Message identifier conflict" else .done ⟨200, .message hello⟩) _ _ _
    rw [if_neg (by simp [hello])]
    exact .done _ _
  have hauth := hsql (.authenticate (platform.tokenHash token)) (some (uuid 1)) (by rintro m ⟨⟩)
    (congrArg (fun a => some (a, d)) hd)
  exact serve_runs hreceive (authMiddleware_runs bearer_call isHex64_token hauth hpost)

/-- The retry is answered from the row. -/
theorem retry : Async.Runs (Effect platform) (serve platform call) ⟨inserted, { received := [call] }⟩
    (some (.ok ⟨200, .message hello⟩)) ⟨inserted, { received := [call, call] }⟩ :=
  again (.receive _ _) (fun _ _ _ h => .atOnce h) authenticate_token rfl rfl

/-- The conversation was moved. -/
def bumped : Db := inserted.touchConversation (uuid 3)

def batch : Notification := ⟨[uuid 2], (uuid 3).text, (uuid 5).text⟩

/-- The message is announced. -/
def announced : World := ⟨bumped, { received := [call], notified := [batch] }⟩

/-- The attempt runs to its end. -/
theorem whole : Async.Runs (Timely platform) (serve platform call) ⟨db, {}⟩ (some (.ok ⟨201, .message hello⟩)) announced := by
  have hauth : exec platform db (.authenticate (platform.tokenHash token)) = some (some (uuid 1), db) :=
    congrArg (fun a => some (a, db)) authenticate_token
  have htouch : exec platform inserted (.touchConversation (uuid 3).text) = some ((), bumped) := by
    simp only [exec, Uuid.read_text, Option.bind_eq_bind, Option.bind_some]
    rfl
  have hothers : exec platform bumped (.otherParticipants (uuid 3).text (uuid 1)) = some ([uuid 2], bumped) := by
    simp only [exec, Uuid.read_text, Option.bind_eq_bind, Option.bind_some]
    rfl
  have hrow : exec platform bumped (.messageById (uuid 5).text) = some (some hello, bumped) := by
    simp only [exec, Uuid.read_text, Option.bind_eq_bind, Option.bind_some]
    rfl
  have hnew : ∀ m, Sql.insertMessage (data.row (uuid 5).text (uuid 1)) = .insertMessage m → ∀ id, Uuid.read m.id = some id →
      db.message id = none := by
    intro m hm id hid
    obtain rfl := Sql.insertMessage.inj hm
    obtain rfl := Option.some.inj ((Uuid.read_text (uuid 5)).symm.trans hid)
    rfl
  have hpost : Async.Runs (Timely platform) (postMessages platform (uuid 1) (some (.obj fields)))
      ⟨db, { received := [call] }⟩ (some (.ok ⟨201, .message hello⟩)) announced := by
    unfold postMessages
    rw [parse_ok schema_data]
    refine .call (Timely.atOnce member fun _ h => by cases h) (.call (Timely.atOnce insert hnew) ?_)
    refine .call (Timely.atOnce htouch fun _ h => by cases h) (.call (Timely.atOnce hothers fun _ h => by cases h) ?_)
    refine .call ⟨.notify _ _, fun _ _ h => by cases h⟩ (.call (Timely.atOnce hrow fun _ h => by cases h) ?_)
    show Async.Runs _ (if hello.senderId ≠ uuid 1 ∨ hello.conversationId.text ≠ (uuid 3).text
      then failure 409 "Message identifier conflict" else .done ⟨201, .message hello⟩) _ _ _
    rw [if_neg (by simp [hello])]
    exact .done _ _
  have hhandle : Async.Runs (Timely platform) (handle platform call) ⟨db, { received := [call] }⟩
      (some (.ok ⟨201, .message hello⟩)) announced :=
    authMiddleware_runs bearer_call isHex64_token (Timely.atOnce hauth fun _ h => by cases h) hpost
  exact serve_runs ⟨.receive _ _, fun _ _ h => by cases h⟩ hhandle

/-- The retry of an attempt that has run to its end is answered from the row. -/
theorem retried : Async.Runs (Timely platform) (serve platform call) announced (some (.ok ⟨200, .message hello⟩))
    { announced with audit.received := [call, call] } := by
  refine again ⟨.receive _ _, fun _ _ h => by cases h⟩ (fun q a hq h => ⟨.atOnce h, fun m id hop hid _ => ?_⟩)
    authenticate_token rfl rfl
  rw [hq m (Op.sql.inj hop)] at hid
  exact ⟨batch, List.mem_cons_self, hid⟩

/-- What refers to what. -/
theorem references : db.References := by
  have h3 : db.HasConversation (uuid 3) := ⟨_, List.mem_cons_self, rfl⟩
  constructor
  · intro m hm
    obtain rfl := List.mem_singleton.mp hm
    exact h3
  · intro p hp
    simp only [db, List.mem_cons, List.not_mem_nil, or_false] at hp
    rcases hp with rfl | rfl | rfl
    · exact ⟨h3, _, List.mem_cons_self, rfl⟩
    · exact ⟨h3, _, List.mem_cons_of_mem _ List.mem_cons_self, rfl⟩
    · exact ⟨h3, _, List.mem_cons_of_mem _ (List.mem_cons_of_mem _ List.mem_cons_self), rfl⟩

end Sender

/-- An attempt that runs to its end is answered with 201, and its retry with 200. -/
theorem message_acceptance_retried :
    ∃ c, Async.Pool.Reachable (Timely Reader.platform) (serve Reader.platform) Outside (fun _ _ => True) ⟨Reader.db, {}⟩ c ∧
      .ended 0 Sender.call (.ok ⟨201, .message Sender.hello⟩) ∈ c.log ∧
      .ended 1 Sender.call (.ok ⟨200, .message Sender.hello⟩) ∈ c.log ∧ Announced c.state Sender.hello := by
  have h1 : Async.Pool.Reachable (Timely Reader.platform) (serve Reader.platform) Outside (fun _ _ => True)
      ⟨Reader.db, {}⟩ _ := Async.Pool.Reachable.finish Sender.whole (.step .init (.start Sender.call) trivial)
  have h2 := Async.Pool.Reachable.finish Sender.retried (.step h1 (.start Sender.call) trivial)
  refine ⟨_, h2, List.mem_cons_of_mem _ (List.mem_cons_of_mem _ List.mem_cons_self), List.mem_cons_self, ?_⟩
  obtain ⟨data, m, -, -, hbody, hann⟩ := message_acceptance (d := Reader.db) (List.nodup_singleton _) Sender.references h2 1
    Sender.call _ _ List.mem_cons_self rfl (Or.inl rfl)
  cases hbody
  exact hann

/-- The first attempt is cut off after the insert, and the retry is answered with 200: the conversation was not moved and
nobody was notified. -/
theorem message_acceptance_cut :
    ∃ c, Async.Pool.Reachable (Effect Reader.platform) (serve Reader.platform) Outside (fun _ _ => True) ⟨Reader.db, {}⟩ c ∧
      Reader.db.Keys ∧ Reader.db.References ∧ .ended 1 Sender.call (.ok ⟨200, .message Sender.hello⟩) ∈ c.log ∧
      c.state.audit.notified = [] ∧ (∀ v ∈ c.state.db.conversations, v.updatedAt < Sender.hello.sentAt) ∧
      ¬ Announced c.state Sender.hello := by
  have h1 : Async.Pool.Reachable (Effect Reader.platform) (serve Reader.platform) Outside (fun _ _ => True) ⟨Reader.db, {}⟩ _ :=
    Async.Pool.Reachable.drop Sender.first (.step .init (.start Sender.call) trivial)
  have h2 := Async.Pool.Reachable.finish Sender.retry (.step h1 (.start Sender.call) trivial)
  refine ⟨_, h2, List.nodup_singleton _, Sender.references, List.mem_cons_self, rfl, ?_, fun h => ?_⟩
  · intro v hv
    obtain rfl := List.mem_singleton.mp hv
    decide
  · have := h.updated _ List.mem_cons_self rfl
    exact absurd this (by decide)

end Server

end Chhaya
