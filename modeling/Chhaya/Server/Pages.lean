import Chhaya.Lib.Paging
import Chhaya.Server.Authorization

/-!
# Reading a conversation page by page

`GET /messages/:conversationId` with `beforeId` set to the first id of the page before, while other requests are served.

- `messagesBefore_sorted`: a cursor leaves the messages below it, and they are sorted.
- `page_run`: what one request returns.
- `page_answered`: a participant's request is answered with a page.
- `Follows.traversal`: the requests traverse the messages of the conversation.
- `turns_acc`: the cursors come to an end.
- `pages_enumerate`: every message that was there is returned once.
-/

namespace Chhaya

namespace Server

open Paging

/-! ## The order of messages -/

/-- Time and id, by which messages are ordered. -/
def MessageRow.key (m : MessageRow) : ℕ ×ₗ List ℕ := toLex (m.sentAt, m.id.bytes.map UInt8.toNat)

/-- The messages of a conversation that are not deleted, by their keys. -/
def Db.contents (d : Db) (conversation : Uuid) : Set (ℕ ×ₗ List ℕ) :=
  {k | ∃ m ∈ d.messages, m.conversationId = conversation ∧ m.isDeleted = false ∧ m.key = k}

/-- Primary keys, and senders that are there. -/
structure Db.Joined (d : Db) : Prop where
  keys : d.Keys
  users : (d.users.map UserRow.id).Nodup
  senders : ∀ m ∈ d.messages, ∃ u ∈ d.users, u.id = m.senderId

section Order

variable {d : Db} {m m' : MessageRow} {c : Uuid}

theorem SameMessage.key (h : SameMessage m m') : m'.key = m.key := by
  rw [h]
  rfl

theorem bytes_injective {u v : Uuid} (h : u.bytes.map UInt8.toNat = v.bytes.map UInt8.toNat) : u = v := by
  obtain ⟨l, hl⟩ := u
  obtain ⟨l', hl'⟩ := v
  obtain rfl : l = l' := List.map_injective_iff.mpr (fun _ _ => UInt8.toNat_inj.mp) h
  rfl

theorem key_le_iff : m'.key ≤ m.key ↔ m'.sentAt < m.sentAt ∨ m'.sentAt = m.sentAt ∧ m'.id.le m.id = true := by
  rw [MessageRow.key, MessageRow.key, Prod.Lex.toLex_le_toLex, Uuid.le, decide_eq_true_eq]

theorem key_eq_iff : m.key = m'.key ↔ m.sentAt = m'.sentAt ∧ m.id = m'.id := by
  constructor
  · intro h
    obtain ⟨h1, h2⟩ := Prod.mk.inj (toLex.injective h)
    exact ⟨h1, bytes_injective h2⟩
  · rintro ⟨h1, h2⟩
    rw [MessageRow.key, MessageRow.key, h1, h2]

theorem newer_iff : Db.newer m m' = true ↔ m'.key ≤ m.key := by
  rw [key_le_iff, Db.newer, Bool.or_eq_true, Bool.and_eq_true, decide_eq_true_eq, beq_iff_eq, eq_comm (a := m.sentAt)]

/-- The condition of the cursor. -/
theorem before_iff : (decide (m.sentAt < m'.sentAt) || (m.sentAt == m'.sentAt && m.id.le m'.id && m.id != m'.id)) = true ↔
    m.key < m'.key := by
  have hlt : m.key < m'.key ↔ m.key ≤ m'.key ∧ ¬ m.key = m'.key := lt_iff_le_and_ne
  rw [hlt, key_le_iff, key_eq_iff]
  simp only [Bool.or_eq_true, Bool.and_eq_true, decide_eq_true_eq, beq_iff_eq, bne_iff_ne]
  constructor
  · rintro (h | ⟨⟨h1, h2⟩, h3⟩)
    · exact ⟨Or.inl h, fun he => absurd he.1 h.ne⟩
    · exact ⟨Or.inr ⟨h1, h2⟩, fun he => h3 he.2⟩
  · rintro ⟨h | ⟨h1, h2⟩, h3⟩
    · exact Or.inl h
    · exact Or.inr ⟨⟨h1, h2⟩, fun he => h3 ⟨h1, he⟩⟩

/-- The messages of a conversation are sorted, and none is there twice. -/
theorem messagesWhere_sorted (hk : d.Keys) (p : MessageRow → Bool) :
    ((d.messagesWhere c p).map MessageRow.key).Pairwise (· > ·) := by
  have hsorted : (d.messagesWhere c p).Pairwise fun m m' => Db.newer m m' = true := by
    refine List.pairwise_mergeSort (fun a b e h1 h2 => ?_) (fun a b => ?_) _
    · exact newer_iff.mpr ((newer_iff.mp h2).trans (newer_iff.mp h1))
    · rw [Bool.or_eq_true, newer_iff, newer_iff]
      exact le_total _ _
  have hnodup : (d.messagesWhere c p).Pairwise fun m m' => m.id ≠ m'.id := by
    have hids : ((d.messages.filter fun m => m.conversationId == c && !m.isDeleted && p m).map MessageRow.id).Nodup :=
      List.Nodup.sublist (List.filter_sublist.map _) hk
    have := ((List.mergeSort_perm _ Db.newer).map MessageRow.id).nodup_iff.mpr hids
    exact List.pairwise_map.mp this
  rw [List.pairwise_map]
  refine (hsorted.and hnodup).imp fun h => ?_
  exact lt_of_le_of_ne (newer_iff.mp h.1) fun he => h.2 (key_eq_iff.mp he).2.symm

theorem mem_messagesWhere {p : MessageRow → Bool} :
    m ∈ d.messagesWhere c p ↔ m ∈ d.messages ∧ m.conversationId = c ∧ m.isDeleted = false ∧ p m = true := by
  rw [Db.messagesWhere, (List.mergeSort_perm _ _).mem_iff, List.mem_filter]
  simp only [Bool.and_eq_true, beq_iff_eq, Bool.not_eq_true', and_assoc]

end Order

/-! ## One page -/

/-- The cursor of a request: the first message of the page before. -/
def cursorOf : Option MessageView → Cursor
  | none => .newest
  | some v => .beforeId v.message.id.text

/-- The message is in the conversation. -/
def Holds (d : Db) (conversation : Uuid) (v : MessageView) : Prop :=
  ∃ m ∈ d.messages, m.conversationId = conversation ∧ SameMessage v.message m

section Page

variable {platform : Platform} {d : Db} {c : Uuid} {cursor : Option MessageView}

/-- A cursor leaves the messages below it, and they are sorted. -/
theorem messagesBefore_sorted {ms : List MessageRow} (hk : d.Keys) (hc : ∀ v ∈ cursor, Holds d c v)
    (h : d.messagesBefore platform c (cursorOf cursor) = some ms) :
    (ms.map MessageRow.key).Pairwise (· > ·) ∧ (∀ m ∈ ms, m ∈ d.messages ∧ m.conversationId = c) ∧
      ∀ k, k ∈ ms.map MessageRow.key ↔ k ∈ d.contents c ∧ Below (cursor.map fun v => v.message.key) k := by
  cases cursor with
  | none =>
    cases h
    refine ⟨messagesWhere_sorted hk _, fun m hm => ?_, fun k => ?_⟩
    · obtain ⟨h1, h2, -⟩ := mem_messagesWhere.mp hm
      exact ⟨h1, h2⟩
    · simp only [List.mem_map, mem_messagesWhere, Db.contents, Set.mem_ofPred_eq, Below]
      simp [and_assoc]
  | some v =>
    obtain ⟨m₀, hm₀, hconv, hs⟩ := hc v rfl
    have hfind : (d.messages.find? fun m => m.id == v.message.id && m.conversationId == c) = some m₀ := by
      have hid : m₀.id = v.message.id := by rw [hs]
      cases hf : d.messages.find? fun m => m.id == v.message.id && m.conversationId == c with
      | none =>
        have := List.find?_eq_none.mp hf m₀ hm₀
        simp [hid, hconv] at this
      | some m =>
        have hm := List.find?_some hf
        simp only [Bool.and_eq_true, beq_iff_eq] at hm
        rw [hk.eq (List.mem_of_find?_eq_some hf) hm₀ (hm.1.trans hid.symm)]
    unfold cursorOf Db.messagesBefore at h
    simp only [Uuid.read_text, Option.bind_eq_bind, Option.bind_some, hfind] at h
    cases h
    refine ⟨messagesWhere_sorted hk _, fun m hm => ?_, fun k => ?_⟩
    · obtain ⟨h1, h2, -⟩ := mem_messagesWhere.mp hm
      exact ⟨h1, h2⟩
    · simp only [List.mem_map, mem_messagesWhere, before_iff, Db.contents, Set.mem_ofPred_eq, Below, Option.map_some,
        Option.mem_some_iff, forall_eq', hs.key]
      constructor
      · rintro ⟨m, ⟨h1, h2, h3, h4⟩, rfl⟩
        exact ⟨⟨m, h1, h2, h3, rfl⟩, h4⟩
      · rintro ⟨⟨m, h1, h2, h3, rfl⟩, h4⟩
        exact ⟨m, ⟨h1, h2, h3, h4⟩, rfl⟩

/-- One user has the id. -/
theorem filter_id_eq : ∀ {us : List UserRow}, (us.map UserRow.id).Nodup → ∀ {u : UserRow}, u ∈ us →
    (us.filter fun r => r.id == u.id) = [u]
  | [], _, _, hu => (List.not_mem_nil hu).elim
  | r :: us, hn, u, hu => by
    obtain ⟨hnew, hn⟩ := List.nodup_cons.mp hn
    rcases List.mem_cons.mp hu with rfl | hu
    · rw [List.filter_cons_of_pos (by simp), List.filter_eq_nil_iff.mpr fun r hr => ?_]
      simp only [beq_iff_eq]
      exact fun he => hnew (List.mem_map.mpr ⟨r, hr, he⟩)
    · rw [List.filter_cons_of_neg, filter_id_eq hn hu]
      simp only [beq_iff_eq]
      exact fun he => hnew (List.mem_map.mpr ⟨u, hu, he.symm⟩)

/-- Every message has one sender. -/
theorem senders_eq (hj : d.Joined) : ∀ {ms : List MessageRow}, (∀ m ∈ ms, m ∈ d.messages) →
    (ms.flatMap fun m => (d.users.filter fun u => u.id == m.senderId).map fun u =>
      (⟨m, u.displayName⟩ : MessageView)).map MessageView.message = ms
  | [], _ => rfl
  | m :: ms, h => by
    obtain ⟨u, hu, hid⟩ := hj.senders m (h m List.mem_cons_self)
    have hone : (d.users.filter fun u => u.id == m.senderId) = [u] := by
      rw [← hid]
      exact filter_id_eq hj.users hu
    rw [List.flatMap_cons, List.map_append, senders_eq hj fun m' hm' => h m' (List.mem_cons_of_mem _ hm'), hone]
    rfl

/-- The rows of a statement are a page of the conversation. -/
theorem messagesOf_page {n : ℕ} {rows : List MessageView} (hj : d.Joined) (hc : ∀ v ∈ cursor, Holds d c v)
    (h : d.messagesOf platform c (cursorOf cursor) n = some rows) :
    IsPage (d.contents c) (cursor.map fun v => v.message.key) n (rows.map fun v => v.message.key) ∧
      ∀ v ∈ rows, v.message ∈ d.messages ∧ v.message.conversationId = c := by
  obtain ⟨ms, hms, hrows⟩ := Option.bind_eq_some_iff.mp h
  obtain ⟨hsorted, hin, hmem⟩ := messagesBefore_sorted hj.keys hc hms
  have hrow : rows.map MessageView.message = ms.take n := by
    rw [← Option.some.inj hrows, List.map_take, senders_eq hj fun m hm => (hin m hm).1]
  constructor
  · have hkeys : (rows.map fun v => v.message.key) = (ms.map MessageRow.key).take n := by
      rw [← List.map_take, ← hrow, List.map_map]
      rfl
    rw [hkeys]
    exact isPage_take hsorted hmem n
  · intro v hv
    have : v.message ∈ ms.take n := hrow ▸ List.mem_map_of_mem hv
    exact hin _ (List.mem_of_mem_take this)

end Page

/-! ## One request -/

/-- What happens between two statements: messages are inserted and marked, and anything else, but no message is lost and
the constraints of the schema hold. -/
structure Meanwhile (w w' : World) : Prop where
  kept : ∀ m ∈ w.db.messages, ∃ m' ∈ w'.db.messages, SameMessage m m'
  joined : w.db.Joined → w'.db.Joined

section Request

variable {platform : Platform} {w w₀ w' w'' : World} {c : Uuid} {cursor : Option MessageView}

theorem Meanwhile.refl (w : World) : Meanwhile w w := ⟨fun m hm => ⟨m, hm, .refl m⟩, id⟩

theorem Meanwhile.trans (h : Meanwhile w w') (h' : Meanwhile w' w'') : Meanwhile w w'' := by
  refine ⟨fun m hm => ?_, fun hj => h'.joined (h.joined hj)⟩
  obtain ⟨m', hm', hs⟩ := h.kept m hm
  obtain ⟨m'', hm'', hs'⟩ := h'.kept m' hm'
  exact ⟨m'', hm'', hs.trans hs'⟩

/-- What is in the conversation stays. -/
theorem Meanwhile.contents (h : Meanwhile w w') : w.db.contents c ⊆ w'.db.contents c := by
  rintro k ⟨m, hm, h1, h2, rfl⟩
  obtain ⟨m', hm', hs⟩ := h.kept m hm
  refine ⟨m', hm', ?_, ?_, hs.key⟩
  · rw [hs]
    exact h1
  · rw [hs]
    exact h2

theorem Holds.mono {v : MessageView} (hv : Holds w.db c v) (h : Meanwhile w w') : Holds w'.db c v := by
  obtain ⟨m, hm, hc, hs⟩ := hv
  obtain ⟨m', hm', hs'⟩ := h.kept m hm
  refine ⟨m', hm', ?_, hs.trans hs'⟩
  rw [hs']
  exact hc

/-- Users keep their ids, and whoever is new has one of their own. -/
theorem exec_users {d d' : Db} {q : Sql} {a : q.Rows} (h : exec platform d q = some (a, d')) :
    d'.users.map UserRow.id = d.users.map UserRow.id ∨
      ∃ id, id ∉ d.users.map UserRow.id ∧ d'.users.map UserRow.id = id :: d.users.map UserRow.id := by
  cases q with
  | insertAccount u v =>
    obtain ⟨_, -, h⟩ := Option.bind_eq_some_iff.mp h
    obtain ⟨d', hd, h⟩ := Option.bind_eq_some_iff.mp h
    cases h
    unfold Db.insertAccount at hd
    split at hd
    · cases hd
    · rename_i hfree
      cases hd
      refine Or.inr ⟨u.id, fun hm => hfree ?_, rfl⟩
      obtain ⟨r, hr, he⟩ := List.mem_map.mp hm
      simp only [Bool.or_eq_true, List.any_eq_true, beq_iff_eq]
      exact Or.inl ⟨r, hr, Or.inl he⟩
  | touchLastSeen id =>
    cases h
    refine Or.inl ?_
    rw [Db.touchLastSeen, List.map_map]
    refine List.map_congr_left fun u _ => ?_
    show (if _ then _ else u : UserRow).id = u.id
    split <;> rfl
  | _ => exact Or.inl (congrArg _ ((exec_frame h).users (by simp [Sql.writes])))

/-- A message that is new has a sender. -/
theorem exec_messages {d d' : Db} {q : Sql} {a : q.Rows} (h : exec platform d q = some (a, d')) {m : MessageRow}
    (hm : m ∈ d'.messages) : (∃ m₀ ∈ d.messages, SameMessage m₀ m) ∨ ∃ u ∈ d.users, u.id = m.senderId := by
  cases exec_change h with
  | insertMessage hi =>
    obtain ⟨-, rfl, -⟩ | ⟨-, -, -, hu, rfl⟩ := Db.insertMessage_inv hi
    · exact Or.inl ⟨m, hm, .refl m⟩
    · rcases List.mem_cons.mp hm with rfl | hm
      · exact Or.inr hu
      · exact Or.inl ⟨m, hm, .refl m⟩
  | foreign _ _ hmsg => exact Or.inl ⟨m, hmsg ▸ hm, .refl m⟩
  | touchConversation i => exact Or.inl ⟨m, hm, .refl m⟩
  | markLastRead i user => exact Or.inl ⟨m, (d.markLastRead_tables i user).1 ▸ hm, .refl m⟩
  | markRead i user =>
    obtain ⟨m₀, hm₀, rfl⟩ := List.mem_map.mp hm
    exact Or.inl ⟨m₀, hm₀, markRead_row m₀ i user⟩
  | insertConversation hi =>
    obtain ⟨-, -, rfl⟩ := Db.insertConversation_inv hi
    exact Or.inl ⟨m, hm, .refl m⟩

/-- No statement breaks the constraints. -/
theorem Db.Joined.exec {d d' : Db} {q : Sql} {a : q.Rows} (hj : d.Joined) (h : exec platform d q = some (a, d')) :
    d'.Joined := by
  refine ⟨hj.keys.exec h, ?_, fun m hm => ?_⟩
  · rcases exec_users h with he | ⟨id, hnew, he⟩
    · rw [he]
      exact hj.users
    · rw [he]
      exact List.nodup_cons.mpr ⟨hnew, hj.users⟩
  · have hu : ∃ u ∈ d.users, u.id = m.senderId := by
      rcases exec_messages h hm with ⟨m₀, hm₀, hs⟩ | hu
      · rw [hs]
        exact hj.senders m₀ hm₀
      · exact hu
    exact (exec_change h).user hu

/-- Whatever a request does is something that may happen meanwhile. -/
theorem Meanwhile.effect {op : Op} {a : Except ServerError (Ans op)} (h : Effect platform w op a w') : Meanwhile w w' := by
  have hexec : ∀ {q : Sql} {t : Nat} {a : q.Rows} {d : Db} {audit : Audit}, exec platform (w.db.at t) q = some (a, d) →
      Meanwhile w ⟨d, audit⟩ := fun {q t a d audit} hx =>
    ⟨(Progress.exec hx).messages, fun hj => Db.Joined.exec (d := w.db.at t) ⟨hj.keys, hj.users, hj.senders⟩ hx⟩
  cases h with
  | sql q t a d hx => exact hexec hx
  | lost q t a d e hx => exact hexec hx
  | receive call => exact ⟨fun m hm => ⟨m, hm, .refl m⟩, id⟩
  | fails q e => exact .refl w
  | randomUUID id => exact .refl w
  | randomBytes size l => exact .refl w
  | notify n => exact ⟨fun m hm => ⟨m, hm, .refl m⟩, id⟩

/-- What handlers rely on. -/
abbrev reading (platform : Platform) : Async.Rules Op Ans ServerError World :=
  rules platform Meanwhile (fun _ _ => True) fun _ => True

/-- One statement. -/
theorem query_safe {q : Sql} {φ : q.Rows → World → Prop} (hw : Meanwhile w₀ w)
    (h : ∀ w' d a, Meanwhile w₀ w' → exec platform d q = some (a, w'.db) → φ a w') :
    (sql q).Safe (reading platform) (Returns φ) w := by
  refine sql_safe (fun w₁ hr _ t a d he => ?_) fun w₁ _ _ => ⟨trivial, fun _ => trivial⟩
  exact ⟨trivial, trivial, h _ _ a ((hw.trans hr).trans (.effect (.sql w₁ q t a d he))) he, fun _ => trivial⟩

/-- `beforeId` of a request. -/
def beforeId (cursor : Option MessageView) : Option Json := cursor.map fun v => .str v.message.id.text.toList

/-- The cursor of a request is read back. -/
theorem parse_beforeId (cursor : Option MessageView) :
    (parse (Zod.optional (Zod.string [Zod.uuid])) (beforeId cursor) : Prog (Option String)) =
      .done (cursor.map fun v => v.message.id.text) := by
  refine parse_ok ?_
  cases cursor with
  | none => rfl
  | some v =>
    exact Zod.Checked.map_ok.mpr ⟨_, Zod.string_uuid v.message.id.isUuid_text, rfl⟩

/-- The rows that a response shows are those of a statement that ran at the end. -/
def Shown (platform : Platform) (conversation : String) (n : ℕ) (cursor : Option MessageView) (w₀ : World) (res : Response)
    (w : World) : Prop :=
  ∀ rows, res.body = .messages rows → Meanwhile w₀ w ∧
    ∃ c, Uuid.read conversation = some c ∧ w.db.messagesOf platform c (cursorOf cursor) n = some rows.reverse

theorem Shown.nothing {conversation : String} {n : ℕ} {res : Response} (h : ∀ rows, res.body ≠ .messages rows) :
    Shown platform conversation n cursor w₀ res w := fun rows hr => (h rows hr).elim

/-- The handler of a page. -/
theorem getMessages_page {user : Uuid} {conversation : String} {limit : Option String} (hw : Meanwhile w₀ w) :
    (getMessages platform user conversation limit none (beforeId cursor)).Safe (reading platform)
      (Returns (Shown platform conversation (pageLimit limit) cursor w₀)) w := by
  unfold getMessages
  rw [parse_beforeId]
  show (asParticipant conversation user _).Safe _ _ w
  refine Returns.bind (query_safe hw fun w' d member hw' _ => ?_)
  split
  · refine Returns.bind (query_safe hw' fun w'' d rows hw'' he => ?_)
    obtain ⟨c, hc, he⟩ := Option.bind_eq_some_iff.mp he
    obtain ⟨rows', hrows, he⟩ := Option.bind_eq_some_iff.mp he
    cases he
    intro rows' hr
    cases hr
    refine ⟨hw'', c, hc, ?_⟩
    rw [List.reverse_reverse]
    cases cursor <;> exact hrows
  · exact Shown.nothing (by rintro _ ⟨⟩)

/-- What one request returns. -/
theorem page_run {authorization : Option String} {conversation : String} {limit : Option String} {res : Response}
    (h : Async.Amid (Effect platform) Meanwhile
      (serve platform ⟨authorization, .getMessages conversation limit none (beforeId cursor)⟩) w (.ok res) w') :
    Shown platform conversation (pageLimit limit) cursor w res w' := by
  have hauth : ∀ w', Meanwhile w w' → (authMiddleware platform authorization fun user =>
      getMessages platform user conversation limit none (beforeId cursor)).Safe (reading platform)
        (Returns (Shown platform conversation (pageLimit limit) cursor w)) w' := by
    intro w' hw'
    unfold authMiddleware
    cases authorization.bind bearer with
    | none => exact Shown.nothing (by rintro _ ⟨⟩)
    | some token =>
      refine Returns.bind ?_
      unfold authenticateToken
      split
      · refine query_safe hw' fun w'' d found hw'' _ => ?_
        cases found with
        | none => exact Shown.nothing (by rintro _ ⟨⟩)
        | some user => exact getMessages_page hw''
      · exact Shown.nothing (by rintro _ ⟨⟩)
  have hserve : (serve platform ⟨authorization, .getMessages conversation limit none (beforeId cursor)⟩).Safe
      (reading platform) (Returns (Shown platform conversation (pageLimit limit) cursor w)) w := by
    refine Returns.bind (Async.Safe.await fun w₁ hr _ a w₂ he => ?_)
    have hw₂ := hr.trans (.effect he)
    refine ⟨trivial, trivial, ?_⟩
    cases he
    refine Returns.bind (Async.Safe.attempt ((hauth _ hw₂).mono fun r w' hr => ?_))
    cases r with
    | ok res => exact hr
    | error e => cases e <;> exact Shown.nothing (by rintro _ ⟨⟩)
  exact (hserve.amid id (fun _ _ => trivial) h trivial).2

/-! ### The answer -/

/-- A user with a live session takes part in the conversation. -/
structure Admits (platform : Platform) (token : String) (user conversation : Uuid) (d : Db) : Prop where
  session : d.authenticate (platform.tokenHash token) = some user
  member : d.isMember conversation user = true

/-- A call that does not fail and after which the user is admitted. -/
def Attended (platform : Platform) (token : String) (user conversation : Uuid) (w : World) (op : Op)
    (a : Except ServerError (Ans op)) (w' : World) : Prop :=
  Effect platform w op a w' ∧ (∃ v, a = .ok v) ∧ Admits platform token user conversation w'.db

variable {token conversation : String} {authorization limit : Option String} {user : Uuid}

/-- The rules of a request that is attended, where anything happens meanwhile. -/
abbrev attending (platform : Platform) (token : String) (user conversation : Uuid) : Async.Rules Op Ans ServerError World :=
  ⟨Attended platform token user conversation, fun _ _ => True, fun _ _ => True, fun _ => True⟩

/-- A statement of such a request. -/
theorem attended_safe {q : Sql} {Q : Except ServerError q.Rows → World → Prop}
    (h : ∀ (w : World) (a : q.Rows) (w' : World) (t : Nat), exec platform (w.db.at t) q = some (a, w'.db) →
      Admits platform token user c w'.db → Q (.ok a) w') : (sql q).Safe (attending platform token user c) Q w := by
  refine Async.Safe.await fun w₁ _ _ a w₂ he => ⟨trivial, trivial, ?_⟩
  obtain ⟨he, ⟨v, rfl⟩, ha⟩ := he
  cases he with
  | sql q t a d hx => exact h w₁ v ⟨d, _⟩ t hx ha

/-- The response is a page. -/
def Paged (r : Except ServerError Response) (_ : World) : Prop := ∃ rows, r = .ok ⟨200, .messages rows⟩

/-- A participant's request is answered with a page, whatever the cursor is. -/
theorem page_answered (ht : authorization.bind bearer = some token) (hx : Zod.isHex64 token = true)
    (hc : Uuid.read conversation = some c) :
    (serve platform ⟨authorization, .getMessages conversation limit none (beforeId cursor)⟩).Safe
      (attending platform token user c) Paged w := by
  have hget : ∀ w, (getMessages platform user conversation limit none (beforeId cursor)).Safe
      (attending platform token user c) Paged w := by
    intro w
    unfold getMessages
    rw [parse_beforeId]
    show (asParticipant conversation user _).Safe _ _ w
    refine Async.Safe.bind (attended_safe fun w₁ member w' t he ha => ?_)
    obtain ⟨c', hc', hx⟩ := Option.bind_eq_some_iff.mp he
    obtain rfl := Option.some.inj (hc.symm.trans hc')
    obtain ⟨rfl, hd⟩ := Prod.mk.inj (Option.some.inj hx)
    have hmember : (w₁.db.at t).isMember c user = true := hd ▸ ha.member
    show Async.Safe _ _ (if (w₁.db.at t).isMember c user = true then _ else _) _
    rw [if_pos hmember]
    exact Async.Safe.bind (attended_safe fun _ rows _ _ _ _ => ⟨rows.reverse, rfl⟩)
  have hhandle : ∀ w, (handle platform ⟨authorization, .getMessages conversation limit none (beforeId cursor)⟩).Safe
      (attending platform token user c) Paged w := by
    intro w
    show (authMiddleware platform authorization _).Safe _ _ w
    unfold authMiddleware authenticateToken
    rw [ht]
    simp only [if_pos hx]
    refine Async.Safe.bind (attended_safe fun w₁ found w' t he ha => ?_)
    obtain ⟨rfl, hd⟩ := Prod.mk.inj (Option.some.inj he)
    have hfound : (w₁.db.at t).authenticate (platform.tokenHash token) = some user := hd ▸ ha.session
    rw [hfound]
    exact hget w'
  refine Async.Safe.bind (Async.Safe.await fun w₁ _ _ a w₂ he => ⟨trivial, trivial, ?_⟩)
  obtain ⟨-, ⟨v, rfl⟩, -⟩ := he
  refine Async.Safe.bind (Async.Safe.attempt ((hhandle w₂).mono fun r w' hr => ?_))
  obtain ⟨rows, rfl⟩ := hr
  exact ⟨rows, rfl⟩

/-- Where the user is admitted and nothing else happens, the request is answered from the database as it is. -/
theorem page_runs {d : Db} {rows : List MessageView} (audit : Audit) (ht : authorization.bind bearer = some token)
    (hx : Zod.isHex64 token = true) (hc : Uuid.read conversation = some c) (ha : Admits platform token user c d)
    (h : d.messagesOf platform c (cursorOf cursor) (pageLimit limit) = some rows) :
    Async.Runs (Attended platform token user c)
      (serve platform ⟨authorization, .getMessages conversation limit none (beforeId cursor)⟩) ⟨d, audit⟩
      (some (.ok ⟨200, .messages rows.reverse⟩)) ⟨d, { audit with received :=
        ⟨authorization, .getMessages conversation limit none (beforeId cursor)⟩ :: audit.received }⟩ := by
  have hstep : ∀ {audit : Audit} {q : Sql} {a : q.Rows}, exec platform d q = some (a, d) →
      Attended platform token user c ⟨d, audit⟩ (.sql q) (.ok a) ⟨d, audit.record d q⟩ :=
    fun he => ⟨.atOnce he, ⟨_, rfl⟩, ha⟩
  have hauth : exec platform d (.authenticate (platform.tokenHash token)) = some (some user, d) :=
    congrArg (fun a => some (a, d)) ha.session
  have hmember : exec platform d (.participantCheck conversation user) = some (true, d) := by
    simp only [exec, hc, Option.bind_eq_bind, Option.bind_some, ha.member]
    rfl
  have hrows : exec platform d (.messagesOf conversation (cursorOf cursor) (pageLimit limit)) = some (rows, d) := by
    simp only [exec, hc, Option.bind_eq_bind, Option.bind_some, h]
    rfl
  have hget : ∀ {audit : Audit}, Async.Runs (Attended platform token user c)
      (getMessages platform user conversation limit none (beforeId cursor)) ⟨d, audit⟩
      (some (.ok ⟨200, .messages rows.reverse⟩)) ⟨d, audit⟩ := by
    intro audit
    unfold getMessages
    rw [parse_beforeId]
    refine .call (hstep hmember) ?_
    cases cursor <;> exact .call (hstep hrows) (.done _ _)
  have hreceive : Attended platform token user c ⟨d, audit⟩
      (.receive ⟨authorization, .getMessages conversation limit none (beforeId cursor)⟩) (.ok ()) _ :=
    ⟨.receive _ _, ⟨_, rfl⟩, ha⟩
  exact serve_runs hreceive (authMiddleware_runs ht hx (hstep hauth) hget)

/-- A request that is attended is one of those between which anything may happen. -/
theorem attended_amid {p : Prog Response} {r : Except ServerError Response}
    (h : Async.Runs (Attended platform token user c) p w (some r) w') : Async.Amid (Effect platform) Meanwhile p w r w' :=
  (h.mono fun h => h.1).amid .refl

/-- A cursor is read, whether or not its message is there. -/
theorem messagesOf_total (platform : Platform) (d : Db) (c : Uuid) (cursor : Option MessageView) (n : ℕ) :
    ∃ rows, d.messagesOf platform c (cursorOf cursor) n = some rows := by
  cases cursor with
  | none => exact ⟨_, rfl⟩
  | some v =>
    unfold Db.messagesOf cursorOf Db.messagesBefore
    simp only [Uuid.read_text, Option.bind_eq_bind, Option.bind_some]
    split <;> exact ⟨_, rfl⟩

end Request

/-! ## Page after page -/

/-- A request for the page at the cursor is answered with rows. Whatever happens meanwhile happens before any statement of
the request. -/
def Page (platform : Platform) (conversation : String) (limit : Option String) (cursor : Option MessageView) (w : World)
    (rows : List MessageView) (w' : World) : Prop :=
  ∃ authorization, Async.Amid (Effect platform) Meanwhile
    (serve platform ⟨authorization, .getMessages conversation limit none (beforeId cursor)⟩) w (.ok ⟨200, .messages rows⟩) w'

/-- The requests for one page after the other, each with the first id of the page before, until a page is shorter than
the limit. The header may change. -/
inductive Follows (platform : Platform) (conversation : String) (limit : Option String) :
    Option MessageView → World → List (List MessageView) → World → Prop
  | last {cursor : Option MessageView} {w w' : World} {rows : List MessageView}
    (hr : Page platform conversation limit cursor w rows w') (hl : rows.length < pageLimit limit) :
    Follows platform conversation limit cursor w [rows] w'
  | next {cursor : Option MessageView} {w w' w'' : World} {v : MessageView} {rows : List MessageView}
    {pages : List (List MessageView)} (hr : Page platform conversation limit cursor w (v :: rows) w')
    (hl : pageLimit limit ≤ (v :: rows).length) (h : Follows platform conversation limit (some v) w' pages w'') :
    Follows platform conversation limit cursor w ((v :: rows) :: pages) w''

/-- A page is not shorter than the limit, and the next one is that of its first id. -/
def Turns (platform : Platform) (conversation : String) (limit : Option String)
    (next now : Option MessageView × World) : Prop :=
  ∃ v rows, Page platform conversation limit now.1 now.2 (v :: rows) next.2 ∧ pageLimit limit ≤ (v :: rows).length ∧
    next.1 = some v

/-- What a client has that followed the pages, the last page first. -/
structure Enumerates (d : Db) (conversation : Uuid) (rows : List MessageView) : Prop where
  ascending : rows.Pairwise fun v v' => v.message.sentAt < v'.message.sentAt ∨
    v.message.sentAt = v'.message.sentAt ∧ v.message.id ≠ v'.message.id ∧ v.message.id.le v'.message.id = true
  once : (rows.map fun v => v.message.id).Nodup
  all : ∀ m ∈ d.messages, m.conversationId = conversation → m.isDeleted = false → ∃ v ∈ rows, SameMessage m v.message

section Follows

variable {platform : Platform} {conversation : String} {limit : Option String} {w w' w'' : World} {c : Uuid}
  {cursor : Option MessageView} {pages : List (List MessageView)}

/-- One page: what was there at the request is there at the page, and the rows are still there. -/
theorem page_spec {rows : List MessageView} (hj : w.db.Joined) (hc : Uuid.read conversation = some c)
    (hcur : ∀ v ∈ cursor, Holds w.db c v) (h : Page platform conversation limit cursor w rows w') :
    Meanwhile w w' ∧ (∀ v ∈ rows, Holds w'.db c v) ∧ IsPage (w'.db.contents c) (cursor.map fun v => v.message.key)
      (pageLimit limit) (rows.reverse.map fun v => v.message.key) := by
  obtain ⟨authorization, h⟩ := h
  obtain ⟨hw, c', hc', hrows⟩ := page_run h rows rfl
  obtain rfl := Option.some.inj (hc.symm.trans hc')
  obtain ⟨hpage, hmem⟩ := messagesOf_page (hw.joined hj) (fun v hv => (hcur v hv).mono hw) hrows
  refine ⟨hw, fun v hv => ?_, hpage⟩
  obtain ⟨h1, h2⟩ := hmem v (List.mem_reverse.mpr hv)
  exact ⟨v.message, h1, h2, .refl _⟩

/-- The requests traverse the messages of the conversation, and what was returned stays there. -/
theorem Follows.traversal (h : Follows platform conversation limit cursor w pages w') (hj : w.db.Joined)
    (hc : Uuid.read conversation = some c) (hcur : ∀ v ∈ cursor, Holds w.db c v) :
    Meanwhile w w' ∧ (∀ v ∈ pages.flatten, Holds w'.db c v) ∧ ∃ s, w.db.contents c ⊆ s ∧
      Traversal (pageLimit limit) (cursor.map fun v => v.message.key) s
        (pages.map fun rows => rows.reverse.map fun v => v.message.key) := by
  induction h with
  | last hr hl =>
    obtain ⟨hw, hheld, hpage⟩ := page_spec hj hc hcur hr
    exact ⟨hw, fun v hv => hheld v (by simpa using hv), _, hw.contents, .last hpage (by simpa using hl)⟩
  | @next cursor w w' w'' v rows pages hr hl _ ih =>
    obtain ⟨hw, hheld, hpage⟩ := page_spec hj hc hcur hr
    have hfirst : ∀ u ∈ some v, Holds w'.db c u := fun u hu => Option.some.inj hu ▸ hheld v List.mem_cons_self
    obtain ⟨hw', hrest, s, hs, ht⟩ := ih (hw.joined hj) hfirst
    refine ⟨hw.trans hw', fun u hu => ?_, _, hw.contents, .next hpage ?_ hs ht⟩
    · rw [List.flatten_cons, List.mem_append] at hu
      rcases hu with hu | hu
      · exact (hheld u hu).mono hw'
      · exact hrest u hu
    · show ((v :: rows).reverse.map fun v => v.message.key).getLast? = _
      rw [List.reverse_cons, List.map_append]
      exact List.getLast?_concat

/-- Keys of messages are well-founded: times are natural numbers and ids have sixteen bytes. -/
theorem key_wf : WellFounded fun v v' : MessageView => v.message.key < v'.message.key := by
  have hwf : WellFounded (Prod.Lex (· < · : ℕ → ℕ → Prop) (List.Shortlex (· < · : ℕ → ℕ → Prop))) :=
    WellFounded.prod_lex wellFounded_lt (List.Shortlex.wf wellFounded_lt)
  refine Subrelation.wf (fun {v v'} h => ?_)
    (InvImage.wf (fun v : MessageView => (v.message.sentAt, v.message.id.bytes.map UInt8.toNat)) hwf)
  rcases Prod.Lex.toLex_lt_toLex.mp h with h | ⟨h1, h2⟩
  · exact Prod.Lex.left _ _ h
  · refine Prod.lex_def.mpr (Or.inr ⟨h1, List.Shortlex.of_lex ?_ h2⟩)
    rw [List.length_map, List.length_map, v.message.id.length, v'.message.id.length]

/-- However the requests go and whatever is inserted meanwhile, the pages come to an end. -/
theorem turns_acc (hj : w.db.Joined) (hc : Uuid.read conversation = some c) (hcur : ∀ v ∈ cursor, Holds w.db c v) :
    Acc (Turns platform conversation limit) (cursor, w) := by
  have hturn : ∀ {x y : Option MessageView × World}, x.2.db.Joined → (∀ v ∈ x.1, Holds x.2.db c v) →
      Turns platform conversation limit y x → ∃ v, y.1 = some v ∧ y.2.db.Joined ∧ Holds y.2.db c v ∧
        ∀ u ∈ x.1, v.message.key < u.message.key := by
    rintro x y hx hcur ⟨v, rows, hr, -, hy⟩
    obtain ⟨hw, hheld, hpage⟩ := page_spec hx hc hcur hr
    refine ⟨v, hy, hw.joined hx, hheld v List.mem_cons_self, fun u hu => ?_⟩
    have hmem : v.message.key ∈ (v :: rows).reverse.map fun v => v.message.key :=
      List.mem_map_of_mem (List.mem_reverse.mpr List.mem_cons_self)
    exact (hpage.mem _ hmem).2 _ (Option.mem_map_of_mem _ hu)
  have hsome : ∀ v w, w.db.Joined → Holds w.db c v → Acc (Turns platform conversation limit) (some v, w) := by
    intro v
    induction v using key_wf.induction with
    | _ v ih =>
      refine fun w hj hv => ⟨_, fun y hy => ?_⟩
      obtain ⟨v', h1, hj', hv', hlt⟩ := hturn hj (fun u hu => Option.some.inj hu ▸ hv) hy
      obtain ⟨y₁, y₂⟩ := y
      obtain rfl : y₁ = some v' := h1
      exact ih v' (hlt v rfl) y₂ hj' hv'
  refine ⟨_, fun y hy => ?_⟩
  obtain ⟨v', h1, hj', hv', -⟩ := hturn hj hcur hy
  obtain ⟨y₁, y₂⟩ := y
  obtain rfl : y₁ = some v' := h1
  exact hsome v' y₂ hj' hv'

theorem pageLimit_pos (limit : Option String) : 0 < pageLimit limit := by
  unfold pageLimit
  dsimp only
  omega

/-- Who takes part can follow the pages to the end. -/
theorem follows_exists {authorization : Option String} {token : String} {user : Uuid}
    (ht : authorization.bind bearer = some token) (hx : Zod.isHex64 token = true) (hc : Uuid.read conversation = some c)
    (hj : w.db.Joined) (ha : Admits platform token user c w.db) :
    ∃ pages w', Follows platform conversation limit none w pages w' := by
  have hstart : ∀ x, Acc (Turns platform conversation limit) x → Admits platform token user c x.2.db →
      ∃ pages w', Follows platform conversation limit x.1 x.2 pages w' := by
    intro x hacc
    induction hacc with
    | intro x _ ih =>
      obtain ⟨cursor, d, audit⟩ := x
      intro ha
      obtain ⟨rows, hrows⟩ := messagesOf_total platform d c cursor (pageLimit limit)
      have hpage : Page platform conversation limit cursor ⟨d, audit⟩ rows.reverse _ :=
        ⟨authorization, attended_amid (page_runs audit ht hx hc ha hrows)⟩
      by_cases hl : rows.reverse.length < pageLimit limit
      · exact ⟨_, _, .last hpage hl⟩
      · cases hrev : rows.reverse with
        | nil =>
          rw [hrev] at hl
          exact absurd (pageLimit_pos limit) hl
        | cons v rest =>
          rw [hrev] at hpage hl
          obtain ⟨pages, w', h⟩ := ih (some v, _) ⟨v, rest, hpage, not_lt.mp hl, rfl⟩ ha
          exact ⟨_, _, .next hpage (not_lt.mp hl) h⟩
  exact hstart _ (turns_acc hj hc (by rintro _ ⟨⟩)) ha

/-- The keys of all rows, in the order of the pages. -/
theorem keys_flatten (pages : List (List MessageView)) :
    (pages.map fun rows => rows.reverse.map fun v => v.message.key).flatten =
      (pages.reverse.flatten.map fun v => v.message.key).reverse := by
  induction pages with
  | nil => rfl
  | cons rows pages ih =>
    rw [List.map_cons, List.flatten_cons, ih, List.reverse_cons, List.flatten_append, List.map_append, List.reverse_append,
      List.flatten_singleton, List.map_reverse]

/-- Every message that was there at the first request is returned once, no message twice, in ascending order. -/
theorem Follows.enumerates (h : Follows platform conversation limit none w pages w') (hj : w.db.Joined)
    (hc : Uuid.read conversation = some c) : Enumerates w.db c pages.reverse.flatten := by
  obtain ⟨hw, hheld, s, hs, ht⟩ := h.traversal hj hc (by rintro _ ⟨⟩)
  have hsorted : (pages.reverse.flatten.map fun v => v.message.key).Pairwise (· < ·) := by
    have := ht.sorted
    rw [keys_flatten, List.pairwise_reverse] at this
    exact this
  have hrow : ∀ {v}, v ∈ pages.reverse.flatten → Holds w'.db c v := fun {v} hv => by
    obtain ⟨rows, hrows, hv⟩ := List.mem_flatten.mp hv
    exact hheld v (List.mem_flatten.mpr ⟨rows, List.mem_reverse.mp hrows, hv⟩)
  -- rows with one id are one row of the last database, so they have one key
  have hkey : ∀ {v v'}, v ∈ pages.reverse.flatten → v' ∈ pages.reverse.flatten → v.message.id = v'.message.id →
      v.message.key = v'.message.key := fun {v v'} hv hv' hid => by
    obtain ⟨m, hm, -, hsame⟩ := hrow hv
    obtain ⟨m', hm', -, hsame'⟩ := hrow hv'
    have hids : m.id = m'.id := by rw [hsame, hsame']; exact hid
    obtain rfl := (hw.joined hj).keys.eq hm hm' hids
    exact hsame.key.symm.trans hsame'.key
  refine ⟨(List.pairwise_map.mp hsorted).imp fun {v v'} hlt => ?_, ?_, fun m hm hconv hdel => ?_⟩
  · rcases key_le_iff.mp hlt.le with h | ⟨h1, h2⟩
    · exact Or.inl h
    · exact Or.inr ⟨h1, fun hid => hlt.ne (key_eq_iff.mpr ⟨h1, hid⟩), h2⟩
  · refine List.pairwise_map.mpr ?_
    exact (List.pairwise_map.mp hsorted).imp_of_mem fun hv hv' hlt hid => hlt.ne (hkey hv hv' hid)
  · have hin : m.key ∈ (pages.map fun rows => rows.reverse.map fun v => v.message.key).flatten :=
      ht.complete (hs ⟨m, hm, hconv, hdel, rfl⟩) (by rintro _ ⟨⟩)
    rw [keys_flatten, List.mem_reverse] at hin
    obtain ⟨v, hv, hvk⟩ := List.mem_map.mp hin
    obtain ⟨m₁, hm₁, hs₁⟩ := hw.kept m hm
    obtain ⟨m₂, hm₂, -, hs₂⟩ := hrow hv
    refine ⟨v, hv, ?_⟩
    have hids : m₁.id = m₂.id := by
      rw [hs₁, hs₂]
      exact (key_eq_iff.mp hvk).2.symm
    obtain rfl := (hw.joined hj).keys.eq hm₁ hm₂ hids
    exact hs₁.trans hs₂.symm

/-- A request of a participant whose statements do not fail is answered with a page, such a participant can follow the pages
to the end, and the pages end however the requests go. Whatever is inserted between and during the requests, every message
that was there at the first one is returned once, no message is returned twice, and all are in ascending order across the
pages. -/
theorem pages_enumerate (hj : w.db.Joined) (hc : Uuid.read conversation = some c) :
    (∀ authorization token user, authorization.bind bearer = some token → Zod.isHex64 token = true →
      (∀ cursor w₁ r w₂, Async.Amid (Attended platform token user c) (fun _ _ => True)
        (serve platform ⟨authorization, .getMessages conversation limit none (beforeId cursor)⟩) w₁ r w₂ →
          ∃ rows, r = .ok ⟨200, .messages rows⟩) ∧
      (Admits platform token user c w.db → ∃ pages w', Follows platform conversation limit none w pages w')) ∧
    Acc (Turns platform conversation limit) (none, w) ∧
    ∀ pages w', Follows platform conversation limit none w pages w' → Enumerates w.db c pages.reverse.flatten := by
  refine ⟨fun authorization token user ht hx => ⟨fun cursor w₁ r w₂ h => ?_, fun ha => ?_⟩, ?_, fun pages w' h => ?_⟩
  · exact ((page_answered ht hx hc).amid (fun _ => trivial) (fun _ _ => trivial) h trivial).2
  · exact follows_exists ht hx hc hj ha
  · exact turns_acc hj hc (by rintro _ ⟨⟩)
  · exact h.enumerates hj hc

end Follows

/-! ## Three pages -/

namespace Reader

/-- A second message of the same time. -/
def reply : MessageRow := { message with id := uuid 6 }

/-- A message that comes while the pages are read. -/
def late : MessageRow := { message with id := uuid 7, sentAt := 20 }

def tied : Db := { db with messages := [reply, message] }

def grown : Db := { db with messages := [late, reply, message] }

def view : MessageView := ⟨message, "sender"⟩

def replyView : MessageView := ⟨reply, "sender"⟩

theorem joined {d : Db} (hu : d.users = db.users) (hk : d.Keys) (hs : ∀ m ∈ d.messages, m.senderId = uuid 2) : d.Joined := by
  refine ⟨hk, by rw [hu]; decide, fun m hm => ?_⟩
  rw [hu, hs m hm]
  exact ⟨_, List.mem_cons_of_mem _ List.mem_cons_self, rfl⟩

theorem joined_tied : tied.Joined := joined rfl (by unfold Db.Keys; decide) (by decide)

theorem joined_grown : grown.Joined := joined rfl (by unfold Db.Keys; decide) (by decide)

theorem admits {d : Db} (hd : d = tied ∨ d = grown) : Admits platform token (uuid 1) (uuid 3) d := by
  rcases hd with rfl | rfl <;> exact ⟨authenticate_token, rfl⟩

/-- A message comes. -/
theorem meanwhile (audit : Audit) : Meanwhile ⟨tied, audit⟩ ⟨grown, audit⟩ :=
  ⟨fun m hm => ⟨m, List.mem_cons_of_mem _ hm, .refl m⟩, fun _ => joined_grown⟩

def pageCall (cursor : Option MessageView) : Call :=
  ⟨some ("Bearer " ++ token), .getMessages (uuid 3).text (some "1") none (beforeId cursor)⟩

/-- A page of one message at most. -/
theorem page {d : Db} (hd : d = tied ∨ d = grown) (audit : Audit) {cursor : Option MessageView} {rows : List MessageView}
    (h : d.messagesOf platform (uuid 3) (cursorOf cursor) 1 = some rows) :
    Async.Amid (Effect platform) Meanwhile (serve platform (pageCall cursor)) ⟨d, audit⟩
      (.ok ⟨200, .messages rows.reverse⟩) ⟨d, { audit with received := pageCall cursor :: audit.received }⟩ := by
  have hlimit : pageLimit (some "1") = 1 := by decide
  exact attended_amid (page_runs audit bearer_call isHex64_token (Uuid.read_text (uuid 3)) (admits hd) (hlimit ▸ h))

/-- The first page holds the greater id. -/
theorem newest : tied.messagesOf platform (uuid 3) (cursorOf none) 1 = some [replyView] := by
  have hfilter : (tied.messages.filter fun m => m.conversationId == uuid 3 && !m.isDeleted && true) = [reply, message] := by
    decide
  have hsorted : [reply, message].mergeSort Db.newer = [reply, message] := List.mergeSort_of_pairwise (by decide)
  simp only [Db.messagesOf, cursorOf, Db.messagesBefore, Db.messagesWhere, hfilter, hsorted, Option.bind_eq_bind,
    Option.bind_some]
  rfl

/-- The second one holds the other one, and not what came since. -/
theorem older : grown.messagesOf platform (uuid 3) (cursorOf (some replyView)) 1 = some [view] := by
  have hfind : (grown.messages.find? fun m => m.id == replyView.message.id && m.conversationId == uuid 3) = some reply := by
    decide
  have hfilter : (grown.messages.filter fun m => m.conversationId == uuid 3 && !m.isDeleted &&
      (decide (m.sentAt < reply.sentAt) ||
        (m.sentAt == reply.sentAt && m.id.le reply.id && m.id != reply.id))) = [message] := by
    decide
  simp only [Db.messagesOf, cursorOf, Db.messagesBefore, Uuid.read_text, Db.messagesWhere, hfind, hfilter,
    List.mergeSort_singleton, Option.bind_eq_bind, Option.bind_some]
  rfl

/-- The third one is empty. -/
theorem oldest : grown.messagesOf platform (uuid 3) (cursorOf (some view)) 1 = some [] := by
  have hfind : (grown.messages.find? fun m => m.id == view.message.id && m.conversationId == uuid 3) = some message := by
    decide
  have hfilter : (grown.messages.filter fun m => m.conversationId == uuid 3 && !m.isDeleted &&
      (decide (m.sentAt < message.sentAt) ||
        (m.sentAt == message.sentAt && m.id.le message.id && m.id != message.id))) = [] := by
    decide
  simp only [Db.messagesOf, cursorOf, Db.messagesBefore, Uuid.read_text, Db.messagesWhere, hfind, hfilter, List.mergeSort_nil,
    Option.bind_eq_bind, Option.bind_some]
  rfl

/-- The pages are followed, and a message comes before the second one. -/
theorem follows : ∃ w', Follows platform (uuid 3).text (some "1") none ⟨tied, {}⟩ [[replyView], [view], []] w' ∧
    w'.db = grown := by
  have hlimit : pageLimit (some "1") = 1 := by decide
  have hfirst := page (Or.inl rfl) {} newest
  have hgrown := page (Or.inr rfl) { received := [pageCall none] } older
  have hsecond : Async.Amid (Effect platform) Meanwhile (serve platform (pageCall (some replyView)))
      ⟨tied, { received := [pageCall none] }⟩ _ _ := Async.Amid.later (fun h h' => h.trans h') (meanwhile _) hgrown
  have hlast := page (Or.inr rfl) { received := [pageCall (some replyView), pageCall none] } oldest
  refine ⟨_, .next ⟨_, hfirst⟩ ?_ (.next ⟨_, hsecond⟩ ?_ (.last ⟨_, hlast⟩ ?_)), rfl⟩ <;> rw [hlimit] <;> decide

end Reader

/-- Two messages of one time on two pages, between which a third one comes, and an empty page. -/
theorem pages_enumerate_tied :
    (∃ w', Follows Reader.platform (Reader.uuid 3).text (some "1") none ⟨Reader.tied, {}⟩
      [[Reader.replyView], [Reader.view], []] w' ∧ Reader.late ∈ w'.db.messages) ∧
    Admits Reader.platform Reader.token (Reader.uuid 1) (Reader.uuid 3) Reader.tied ∧
    Enumerates Reader.tied (Reader.uuid 3) [Reader.view, Reader.replyView] := by
  obtain ⟨w', hfollows, hdb⟩ := Reader.follows
  obtain ⟨-, -, hall⟩ := @pages_enumerate Reader.platform _ (some "1") ⟨Reader.tied, {}⟩ _ Reader.joined_tied
    (Uuid.read_text (Reader.uuid 3))
  exact ⟨⟨w', hfollows, hdb ▸ List.mem_cons_self⟩, Reader.admits (Or.inl rfl), hall _ w' hfollows⟩

end Server

end Chhaya
