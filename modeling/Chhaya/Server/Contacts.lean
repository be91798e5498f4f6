import Chhaya.Lib.Trace
import Chhaya.Server.Calls
import Chhaya.Server.Registration

/-!
# Contacts and direct conversations

`POST /contacts` and `POST /conversations` in any interleaving. A contact is inserted in one transaction with a
conversation of its own; nothing looks for a conversation that is there.

- `exec_rooms`: what a statement does to contacts, conversations and participants.
- `Pairings.Traced.stays`: what was created stays.
- `direct_conversations`: every run.
- `direct_conversations_once`: a contact is added.
- `direct_conversations_twice`: a run with two conversations of one pair.
-/

namespace Chhaya

namespace Server

/-! ## Who is with whom -/

/-- Whom the users have as contacts. -/
def Db.pairs (d : Db) : List (Uuid × Uuid) := d.contacts.map fun r => (r.userId, r.contactId)

/-- The conversations, with their types and who created them. -/
def Db.rooms (d : Db) : List (Uuid × String × Uuid) := d.conversations.map fun c => (c.id, c.type, c.createdBy)

/-- Who takes part in which conversation. -/
def Db.seats (d : Db) : List (Uuid × Uuid) := d.participants.map fun p => (p.conversationId, p.userId)

/-- There is a conversation with the id. -/
def Db.HasRoom (d : Db) (id : Uuid) : Prop := ∃ r ∈ d.rooms, r.1 = id

/-- The conversation is a direct one that `a` created, and `a` and `b` are its participants. -/
structure Db.Direct (d : Db) (id a b : Uuid) : Prop where
  room : (id, "direct", a) ∈ d.rooms
  seats : ∀ u, (id, u) ∈ d.seats ↔ u = a ∨ u = b

/-- The unique constraint of contacts, and the foreign key of participants. -/
structure Db.Seated (d : Db) : Prop where
  pairs : d.pairs.Nodup
  seats : ∀ s ∈ d.seats, d.HasRoom s.1

/-- The three are as they were. -/
structure Db.Undisturbed (d d' : Db) : Prop where
  pairs : d'.pairs = d.pairs
  rooms : d'.rooms = d.rooms
  seats : d'.seats = d.seats

/-- A conversation is new. -/
structure Db.Opens (d d' : Db) (id : Uuid) (type : String) (a : Uuid) (us : List Uuid) : Prop where
  fresh : ¬ d.HasRoom id
  distinct : us.Nodup
  rooms : d'.rooms = (id, type, a) :: d.rooms
  seats : d'.seats = us.map (fun u => (id, u)) ++ d.seats

section Statements

variable {platform : Platform} {d d' d'' : Db}

theorem Db.Undisturbed.refl (d : Db) : d.Undisturbed d := ⟨rfl, rfl, rfl⟩

theorem Db.Undisturbed.direct (h : d.Undisturbed d') {id a b : Uuid} (hd : d.Direct id a b) : d'.Direct id a b :=
  ⟨h.rooms ▸ hd.room, h.seats ▸ hd.seats⟩

theorem Db.Undisturbed.seated (h : d.Undisturbed d') (hd : d.Seated) : d'.Seated := by
  refine ⟨h.pairs ▸ hd.pairs, fun s hs => ?_⟩
  rw [Db.HasRoom, h.rooms]
  exact hd.seats s (h.seats ▸ hs)

/-- What a transaction opens. -/
theorem Db.Opens.insertConversation {c : NewConversation} {us : List Uuid} (h : d.insertConversation c us = some d') :
    d.Opens d' c.id c.type c.createdBy us ∧ d'.pairs = d.pairs := by
  have hdistinct : us.Nodup := by
    unfold Db.insertConversation at h
    split at h
    · cases h
    · rename_i hok
      simp only [Bool.or_eq_true, not_or, Bool.not_eq_true', Bool.not_eq_false] at hok
      simpa using hok.1.1.2
  obtain ⟨hnew, -, rfl⟩ := Db.insertConversation_inv h
  refine ⟨⟨fun ⟨r, hr, hid⟩ => ?_, hdistinct, rfl, ?_⟩, rfl⟩
  · obtain ⟨row, hrow, rfl⟩ := List.mem_map.mp hr
    exact hnew row hrow hid
  · rw [Db.seats, List.map_append, List.map_map]
    rfl

/-- The other conversations are as they were. -/
theorem Db.Opens.direct {id a b id' a' : Uuid} {type : String} {us : List Uuid} (h : d.Opens d' id' type a' us)
    (hd : d.Direct id a b) : d'.Direct id a b := by
  have hne : id' ≠ id := fun he => h.fresh ⟨_, hd.room, he.symm⟩
  refine ⟨h.rooms ▸ List.mem_cons_of_mem _ hd.room, fun u => ?_⟩
  rw [h.seats, List.mem_append, ← hd.seats u]
  refine ⟨fun hm => hm.resolve_left fun hm => ?_, Or.inr⟩
  obtain ⟨v, -, hv⟩ := List.mem_map.mp hm
  exact hne (Prod.ext_iff.mp hv).1

/-- Two participants of a new conversation. -/
theorem Db.Opens.two {id a b : Uuid} (h : d.Opens d' id "direct" a [a, b]) (hd : d.Seated) :
    a ≠ b ∧ d'.Direct id a b := by
  refine ⟨fun he => ?_, h.rooms ▸ List.mem_cons_self, fun u => ?_⟩
  · exact (List.nodup_cons.mp h.distinct).1 (he ▸ List.mem_singleton_self b)
  · have hnone : (id, u) ∉ d.seats := fun hm => h.fresh (hd.seats _ hm)
    rw [h.seats, List.mem_append]
    simp [hnone]

theorem Db.Opens.seated {id a : Uuid} {type : String} {us : List Uuid} (h : d.Opens d' id type a us) (hd : d.Seated)
    (hp : d'.pairs.Nodup) : d'.Seated := by
  refine ⟨hp, fun s hs => ?_⟩
  rw [h.seats, List.mem_append] at hs
  rw [Db.HasRoom, h.rooms]
  rcases hs with hs | hs
  · obtain ⟨u, -, rfl⟩ := List.mem_map.mp hs
    exact ⟨_, List.mem_cons_self, rfl⟩
  · obtain ⟨r, hr, hid⟩ := hd.seats s hs
    exact ⟨r, List.mem_cons_of_mem _ hr, hid⟩

/-- What a statement does to contacts, conversations and participants. -/
inductive Db.Rooms (d d' : Db) : Sql → Prop
  | undisturbed {q : Sql} (h : d.Undisturbed d') : Rooms d d' q
  | contact {a b id : Uuid} {displayName : String} (hnew : (a, b) ∉ d.pairs) (hp : d'.pairs = (a, b) :: d.pairs)
    (ho : d.Opens d' id "direct" a [a, b]) : Rooms d d' (.insertContact a b displayName id)
  | conversation {c : NewConversation} {participants : List String} {us : List Uuid}
    (hus : participants.mapM Uuid.read = some us) (hp : d'.pairs = d.pairs) (ho : d.Opens d' c.id c.type c.createdBy us) :
    Rooms d d' (.insertConversation c participants)

/-- What a statement does to contacts, conversations and participants. -/
theorem exec_rooms {q : Sql} {x : q.Rows × Db} (h : exec platform d q = some x) : d.Rooms x.2 q := by
  cases q with
  | insertContact a b displayName id =>
    obtain ⟨d', hd, h⟩ := Option.map_eq_some_iff.mp h
    cases h
    unfold Db.insertContact at hd
    split at hd
    · cases hd
    · rename_i hnew
      obtain ⟨ho, hp⟩ := Db.Opens.insertConversation hd
      refine .contact (fun hm => hnew ?_) hp ⟨ho.fresh, ho.distinct, ho.rooms, ho.seats⟩
      obtain ⟨r, hr, he⟩ := List.mem_map.mp hm
      rw [List.any_eq_true]
      exact ⟨r, hr, by simpa using he⟩
  | insertConversation c participants =>
    obtain ⟨us, hus, h⟩ := Option.bind_eq_some_iff.mp h
    obtain ⟨d', hd, h⟩ := Option.bind_eq_some_iff.mp h
    cases h
    obtain ⟨ho, hp⟩ := Db.Opens.insertConversation hd
    exact .conversation hus hp ho
  | touchConversation id =>
    obtain ⟨id, -, h⟩ := Option.bind_eq_some_iff.mp h
    cases h
    refine .undisturbed ⟨rfl, ?_, rfl⟩
    rw [Db.rooms, Db.touchConversation, List.map_map]
    refine List.map_congr_left fun c _ => ?_
    show ((if _ then _ else c : ConversationRow).id, (if _ then _ else c : ConversationRow).type, (if _ then _ else c :
      ConversationRow).createdBy) = _
    split <;> rfl
  | markLastRead id user =>
    obtain ⟨id, -, h⟩ := Option.bind_eq_some_iff.mp h
    cases h
    show d.Rooms (d.markLastRead id user) _
    unfold Db.markLastRead
    cases d.message id with
    | none => exact .undisturbed (.refl d)
    | some m =>
      refine .undisturbed ⟨rfl, rfl, ?_⟩
      rw [Db.seats, List.map_map]
      refine List.map_congr_left fun p _ => ?_
      show ((if _ then _ else p : ParticipantRow).conversationId, (if _ then _ else p : ParticipantRow).userId) = _
      split <;> rfl
  | _ =>
    have hf := exec_frame h
    refine .undisturbed ⟨?_, ?_, ?_⟩
    · rw [Db.pairs, hf.contacts (by simp [Sql.writes])]
      rfl
    · rw [Db.rooms, hf.conversations (by simp [Sql.writes])]
      rfl
    · rw [Db.seats, hf.participants (by simp [Sql.writes])]
      rfl

end Statements

/-! ## The two routes -/

/-- A contact is somebody else, and a direct conversation is inserted with its creator and one other participant. -/
def Op.Paired : Op → Prop
  | .sql (.insertConversation c participants) => c.type = "direct" → ∃ p, participants = [c.createdBy.text, p]
  | _ => True

/-- `POST /contacts` and `POST /conversations`. -/
def Request.Pairs : Request → Prop
  | .postContacts _ | .postConversations _ => True
  | _ => False

section Handlers

variable {platform : Platform} {userId : Uuid}

theorem postContacts_paired {body : Option Json} : (postContacts userId body).Every Op.Paired := by
  refine .bind parse_every fun data => .bind (.await trivial) fun target => ?_
  cases target with
  | none => exact trivial
  | some target =>
    show Async.Every _ (if target.1 = userId then _ else _)
    split
    · exact trivial
    refine .bind (.await trivial) fun found => ?_
    cases found with
    | true => exact trivial
    | false => exact .bind (.await trivial) fun _ => .bind (.await trivial) fun _ => trivial

/-- The participants of a direct conversation. -/
theorem postConversations_paired {body : Option Json} : (postConversations platform userId body).Every Op.Paired := by
  refine .bind parse_every fun data => ?_
  show Async.Every _ (if data.type = "direct" ∧ data.participantIds.length ≠ 1 then _ else _)
  split
  · exact trivial
  rename_i hone
  refine .bind (.await trivial) fun convoId => ?_
  show Async.Every _ (if (userId.text :: data.participantIds).eraseDups.length ≠ data.participantIds.length + 1 then _
    else _)
  split
  · exact trivial
  rename_i hlen
  refine .bind (.await fun htype => ?_) fun _ => trivial
  obtain ⟨p, hp⟩ := List.length_eq_one_iff.mp (not_not.mp fun h => hone ⟨htype, h⟩)
  refine ⟨p, ?_⟩
  show (userId.text :: data.participantIds).eraseDups = [userId.text, p]
  rw [hp] at hlen ⊢
  by_cases he : p = userId.text
  · subst he
    simp [List.eraseDups_cons] at hlen
  · simp [List.eraseDups_cons, he]

/-- Every request of the two routes. -/
theorem serve_paired {call : Call} (h : call.request.Pairs) : (serve platform call).Every Op.Paired := by
  refine .bind (.await trivial) fun _ => .bind (.attempt ?_) fun _ => trivial
  obtain ⟨authorization, request⟩ := call
  cases request with
  | postContacts body => exact authMiddleware_every (fun _ => trivial) fun _ => postContacts_paired
  | postConversations body => exact authMiddleware_every (fun _ => trivial) fun _ => postConversations_paired
  | _ => exact h.elim

end Handlers

/-! ## Every run -/

/-- A request of one of the two routes. -/
abbrev Pairing := {call : Call // call.request.Pairs}

/-- The requests of the two routes on a server, with what they have called. Whatever else happens leaves contacts,
conversations and participants alone. -/
abbrev Pairings.Traced (platform : Platform) (w : World) (l : List (Async.Made Pairing Op Ans ServerError World))
    (c : Async.Pool Pairing Op Ans ServerError Response World) : Prop :=
  Async.Pool.Traced (Effect platform) (fun call => serve platform call.1) (fun w w' => w.db.Undisturbed w'.db) w l c

/-- What one call creates: a contact with a conversation of its own, which is new; and a direct conversation with a
contact, which is new, or with a `POST /conversations`. -/
structure Founds (q : Op) (d d' : Db) : Prop where
  contact : ∀ r ∈ d'.pairs, r ∈ d.pairs ∨ ∃ id, ¬ d.HasRoom id ∧ d'.Direct id r.1 r.2
  conversation : ∀ id a, (id, "direct", a) ∈ d'.rooms → d.HasRoom id ∨ ∃ b, a ≠ b ∧ d'.Direct id a b ∧
    ((a, b) ∉ d.pairs ∧ (a, b) ∈ d'.pairs ∨ ∃ c participants, q = .sql (.insertConversation c participants) ∧ c.id = id)

/-- What was created stays. -/
structure Db.Stays (d d' : Db) : Prop where
  pairs : d.pairs ⊆ d'.pairs
  direct : ∀ id a b, d.Direct id a b → d'.Direct id a b

section Runs

variable {platform : Platform} {w w' : World} {d d' d'' : Db}
  {l : List (Async.Made Pairing Op Ans ServerError World)} {c : Async.Pool Pairing Op Ans ServerError Response World}

theorem Db.Stays.refl (d : Db) : d.Stays d := ⟨fun _ h => h, fun _ _ _ h => h⟩

theorem Db.Stays.trans (h : d.Stays d') (h' : d'.Stays d'') : d.Stays d'' :=
  ⟨fun _ hp => h'.pairs (h.pairs hp), fun id a b hd => h'.direct id a b (h.direct id a b hd)⟩

theorem Db.Undisturbed.stays (h : d.Undisturbed d') : d.Stays d' := ⟨h.pairs ▸ fun _ h => h, fun _ _ _ => h.direct⟩

/-- Time passes. -/
theorem Db.Undisturbed.at (d : Db) (t : Nat) : d.Undisturbed (d.at t) := ⟨rfl, rfl, rfl⟩

/-- What was there before a disturbance is what was there before it. -/
theorem Founds.after {q : Op} (h : Founds q d' d'') (hd : d.Undisturbed d') : Founds q d d'' := by
  refine ⟨fun r hr => ?_, fun id a hr => ?_⟩
  · rcases h.contact r hr with h | ⟨id, hnew, h⟩
    · exact Or.inl (hd.pairs ▸ h)
    · exact Or.inr ⟨id, fun h => hnew (by rw [Db.HasRoom, hd.rooms]; exact h), h⟩
  · rcases h.conversation id a hr with h | ⟨b, hab, h, hby⟩
    · exact Or.inl (by rw [Db.HasRoom, hd.rooms] at h; exact h)
    · exact Or.inr ⟨b, hab, h, hd.pairs ▸ hby⟩

theorem Db.Undisturbed.founds (h : d.Undisturbed d') (q : Op) : Founds q d d' :=
  ⟨fun _ hr => Or.inl (h.pairs ▸ hr), fun _ _ hr => Or.inl ⟨_, h.rooms ▸ hr, rfl⟩⟩

/-- One statement. -/
theorem Db.Rooms.spec {q : Sql} (h : d.Rooms d' q) (hq : Op.Paired (.sql q)) (hd : d.Seated) :
    d'.Seated ∧ d.Stays d' ∧ Founds (.sql q) d d' := by
  cases h with
  | undisturbed h => exact ⟨h.seated hd, h.stays, h.founds _⟩
  | @contact a b id displayName hnew hp ho =>
    obtain ⟨hab, hdirect⟩ := ho.two hd
    refine ⟨ho.seated hd (hp ▸ List.nodup_cons.mpr ⟨hnew, hd.pairs⟩),
      ⟨fun r hr => hp ▸ List.mem_cons_of_mem _ hr, fun _ _ _ h => ho.direct h⟩, fun r hr => ?_, fun id' a' hr => ?_⟩
    · rw [hp] at hr
      rcases List.mem_cons.mp hr with rfl | hr
      · exact Or.inr ⟨id, ho.fresh, hdirect⟩
      · exact Or.inl hr
    · rw [ho.rooms] at hr
      rcases List.mem_cons.mp hr with he | hr
      · cases he
        exact Or.inr ⟨b, hab, hdirect, Or.inl ⟨hnew, hp ▸ List.mem_cons_self⟩⟩
      · exact Or.inl ⟨_, hr, rfl⟩
  | @conversation c participants us hus hp ho =>
    refine ⟨ho.seated hd (hp ▸ hd.pairs), ⟨hp ▸ fun _ h => h, fun _ _ _ h => ho.direct h⟩,
      fun r hr => Or.inl (hp ▸ hr), fun id' a' hr => ?_⟩
    rw [ho.rooms] at hr
    rcases List.mem_cons.mp hr with he | hr
    · obtain ⟨rfl, hrest⟩ := Prod.mk.inj he
      obtain ⟨htype, rfl⟩ := Prod.mk.inj hrest
      obtain ⟨p, rfl⟩ := hq htype.symm
      obtain ⟨b, hb⟩ : ∃ b, us = [c.createdBy, b] := by
        cases hread : Uuid.read p <;> simp [Uuid.read_text, hread] at hus
        exact ⟨_, hus.symm⟩
      subst hb
      rw [← htype] at ho
      obtain ⟨hab, hdirect⟩ := ho.two hd
      exact Or.inr ⟨b, hab, hdirect, Or.inr ⟨c, _, rfl, rfl⟩⟩
    · exact Or.inl ⟨_, hr, rfl⟩

/-- One call. -/
theorem Effect.founds {op : Op} {a : Except ServerError (Ans op)} (he : Effect platform w op a w') (hop : op.Paired)
    (hd : w.db.Seated) : w'.db.Seated ∧ w.db.Stays w'.db ∧ Founds op w.db w'.db := by
  have hsql : ∀ {q : Sql} {t : Nat} {a : q.Rows} {d : Db}, exec platform (w.db.at t) q = some (a, d) → Op.Paired (.sql q) →
      d.Seated ∧ w.db.Stays d ∧ Founds (.sql q) w.db d := by
    intro q t a d hx hq
    have hat := Db.Undisturbed.at w.db t
    obtain ⟨h1, h2, h3⟩ := (exec_rooms hx).spec hq (hat.seated hd)
    exact ⟨h1, hat.stays.trans h2, h3.after hat⟩
  cases he with
  | sql q t a d hx => exact hsql hx hop
  | lost q t a d e hx => exact hsql hx hop
  | _ => exact ⟨hd, .refl _, (Db.Undisturbed.refl _).founds _⟩

/-- What was created stays, and every call creates as it should. -/
theorem Pairings.Traced.stays (hd : w.db.Seated) (h : Pairings.Traced platform w l c) :
    c.state.db.Seated ∧ (∀ r ∈ c.state.db.pairs, r ∈ w.db.pairs ∨ ∃ id, c.state.db.Direct id r.1 r.2) ∧ (∀ s ∈ w :: l.map Async.Made.after, s.db.Stays c.state.db) ∧
      ∀ e ∈ l, e.before.db.Stays e.after.db ∧ Founds e.answered.op e.before.db e.after.db := by
  induction h with
  | init =>
    refine ⟨hd, fun r hr => Or.inl hr, fun s hs => ?_, fun e he => (List.not_mem_nil he).elim⟩
    obtain rfl := List.mem_singleton.mp hs
    exact .refl _
  | @call l s s' m i op k a ts us n es h he ih =>
    obtain ⟨hseated, hpairs, hstays, hcalls⟩ := ih
    have hop : op.Paired := Async.Pool.Traced.called (φ := fun _ _ op => op.Paired)
      (fun i => (serve_paired i.2).along fun _ _ h => h) (h.call he) (List.nil_append _).symm
    obtain ⟨h1, h2, h3⟩ := he.founds hop hseated
    refine ⟨h1, fun r hr => ?_, fun x hx => ?_, fun e he => ?_⟩
    · rcases h3.contact r hr with hr | ⟨id, -, hdirect⟩
      · exact (hpairs r hr).imp_right fun ⟨id, hdirect⟩ => ⟨id, h2.direct _ _ _ hdirect⟩
      · exact Or.inr ⟨id, hdirect⟩
    · rcases List.mem_cons.mp hx with rfl | hx
      · exact (hstays x List.mem_cons_self).trans h2
      · rcases List.mem_cons.mp hx with rfl | hx
        · exact .refl _
        · exact (hstays x (List.mem_cons_of_mem _ hx)).trans h2
    · rcases List.mem_cons.mp he with rfl | he
      · exact ⟨h2, h3⟩
      · exact hcalls e he
  | @quiet l c c' _ hs ih =>
    obtain ⟨hseated, hpairs, hstays, hcalls⟩ := ih
    have hsame : c.state.db.Undisturbed c'.state.db := by
      cases hs with
      | call he => exact he.elim
      | other ho => exact ho
      | _ => exact .refl _
    refine ⟨hsame.seated hseated, fun r hr => ?_, fun s hs => (hstays s hs).trans hsame.stays, hcalls⟩
    exact (hpairs r (hsame.pairs ▸ hr)).imp_right fun ⟨id, hdirect⟩ => ⟨id, hsame.direct hdirect⟩

/-- In every run no contact is there twice and every contact has a direct conversation of its two users, which was created
in the same call; no contact is created twice; and every direct conversation has two participants and was created with a
contact or with a `POST /conversations`. -/
theorem direct_conversations (hd : w.db.Seated) (h : Pairings.Traced platform w l c) :
    c.state.db.pairs.Nodup ∧ (∀ r ∈ c.state.db.pairs, r ∈ w.db.pairs ∨ ∃ id, c.state.db.Direct id r.1 r.2) ∧
      (∀ e ∈ l, Founds e.answered.op e.before.db e.after.db) ∧
      l.Pairwise fun e e' => ∀ r ∈ e'.after.db.pairs, r ∉ e'.before.db.pairs → r ∈ e.before.db.pairs := by
  obtain ⟨hseated, hpairs, -, hcalls⟩ := h.stays hd
  refine ⟨hseated.pairs, hpairs, fun e he => (hcalls e he).2, ?_⟩
  refine Async.pairwise_of_split fun l₁ e l₀ hl e' he' r hr _ => ?_
  obtain ⟨c₀, h₀, hc₀⟩ := Async.Pool.Traced.before h hl
  have hstays := (Pairings.Traced.stays hd h₀).2.2.1 e'.after (List.mem_cons_of_mem _ (List.mem_map_of_mem he'))
  exact hc₀ ▸ hstays.pairs hr

end Runs

/-! ## Two conversations -/

namespace Reader

/-- A direct conversation with the other user is asked for. -/
def pairFields : List (List Char × Json) :=
  [("type".toList, .str "direct".toList), ("participantIds".toList, .arr [.str (uuid 2).text.toList])]

def pairing : Pairing := ⟨⟨some ("Bearer " ++ token), .postConversations (some (.obj pairFields))⟩, trivial⟩

theorem schema_pair : createConversationSchema platform (some (.obj pairFields)) =
    .ok ⟨"direct", [(uuid 2).text], none, none⟩ := by
  have ht : Zod.lookup pairFields "type" = some (.str "direct".toList) := rfl
  have hp : Zod.lookup pairFields "participantIds" = some (.arr [.str (uuid 2).text.toList]) := rfl
  have hnone : ∀ key ∈ ["name", "avatarUrl"], Zod.lookup pairFields key = none := by
    intro key hkey
    simp only [List.mem_cons, List.not_mem_nil, or_false] at hkey
    rcases hkey with rfl | rfl <;> rfl
  have huuid : Zod.string [Zod.uuid] (some (.str (uuid 2).text.toList)) = .ok (uuid 2).text :=
    Zod.string_uuid (uuid 2).isUuid_text
  have htype : Zod.enum ["direct", "group"] (some (.str "direct".toList)) = .ok "direct" := by
    simp [Zod.enum]
  unfold createConversationSchema Zod.object
  simp only [Zod.property, ht, hp, hnone, List.mem_cons, true_or, or_true, Zod.optional, htype, Zod.array, Zod.elements, huuid]
  rfl

/-- Two users without conversations. -/
def apart : Db := { db with conversations := [], participants := [], messages := [] }

/-- A conversation of the two. -/
def opened (d : Db) (id : Uuid) : Db :=
  { d with
    conversations := ⟨id, "direct", none, none, uuid 1, d.now, d.now⟩ :: d.conversations
    participants := ⟨id, uuid 1, true, none, some 0⟩ :: ⟨id, uuid 2, false, none, some 0⟩ :: d.participants }

/-- The request opens a conversation. -/
theorem pair_runs {d : Db} (audit : Audit) {id : Uuid} (ha : d.authenticate (platform.tokenHash token) = some (uuid 1))
    (hi : d.insertConversation ⟨id, "direct", none, none, uuid 1⟩ [uuid 1, uuid 2] = some (opened d id)) :
    Async.Runs (Effect platform) (serve platform pairing.1) ⟨d, audit⟩ (some (.ok ⟨201, .conversation id⟩))
      ⟨opened d id, { audit with received := pairing.1 :: audit.received }⟩ := by
  have hauth : exec platform d (.authenticate (platform.tokenHash token)) = some (some (uuid 1), d) :=
    congrArg (fun a => some (a, d)) ha
  have hne : (uuid 2).text ≠ (uuid 1).text := fun h => absurd (Uuid.text_injective h) (by decide)
  have hall : ((uuid 1).text :: [(uuid 2).text]).eraseDups = [(uuid 1).text, (uuid 2).text] := by
    simp [List.eraseDups_cons, hne]
  have hinsert : exec platform d (.insertConversation ⟨id, "direct", none, none, uuid 1⟩
      ((uuid 1).text :: [(uuid 2).text]).eraseDups) = some ((), opened d id) := by
    rw [hall]
    simp only [exec, List.mapM_cons, List.mapM_nil, Uuid.read_text, Option.bind_eq_bind, Option.bind_some, Option.pure_def, hi]
  have hpost : Async.Runs (Effect platform) (postConversations platform (uuid 1) (some (.obj pairFields)))
      ⟨d, { audit with received := pairing.1 :: audit.received }⟩ (some (.ok ⟨201, .conversation id⟩))
      ⟨opened d id, { audit with received := pairing.1 :: audit.received }⟩ := by
    unfold postConversations
    rw [parse_ok schema_pair]
    refine .call (.randomUUID _ id) ?_
    show Async.Runs _ (if ((uuid 1).text :: [(uuid 2).text]).eraseDups.length ≠ 2
      then failure 400 "Duplicate or self participant"
      else (sql (.insertConversation ⟨id, "direct", none, none, uuid 1⟩ ((uuid 1).text :: [(uuid 2).text]).eraseDups)).bind
        fun _ => .done ⟨201, .conversation id⟩) _ _ _
    rw [if_neg (by rw [hall]; decide)]
    exact .call (.atOnce hinsert) (.done _ _)
  have hhandle : Async.Runs (Effect platform) (handle platform pairing.1)
      ⟨d, { audit with received := pairing.1 :: audit.received }⟩ (some (.ok ⟨201, .conversation id⟩))
      ⟨opened d id, { audit with received := pairing.1 :: audit.received }⟩ :=
    authMiddleware_runs bearer_call isHex64_token (.atOnce hauth) hpost
  exact serve_runs (.receive _ _) hhandle

end Reader

namespace Reader

/-- The other user is added. -/
def contactFields : List (List Char × Json) :=
  [("chhayaId".toList, .str ("05" ++ token).toList), ("displayName".toList, .str "friend".toList)]

def adding : Pairing := ⟨⟨some ("Bearer " ++ token), .postContacts (some (.obj contactFields))⟩, trivial⟩

theorem schema_contact : addContactSchema (some (.obj contactFields)) = .ok ⟨"05" ++ token, "friend"⟩ := by
  have hid : Zod.lookup contactFields "chhayaId" = some (.str ("05" ++ token).toList) := rfl
  have hname : Zod.lookup contactFields "displayName" = some (.str "friend".toList) := rfl
  have hregex : Zod.string [Zod.regex isChhayaId] (some (.str ("05" ++ token).toList)) = .ok ("05" ++ token) :=
    Zod.string_regex (Registrant.isChhayaId_append isHex64_token)
  have hfriend : Zod.string [Zod.minLength 1, Zod.maxLength 100] (some (.str "friend".toList)) = .ok "friend" :=
    Zod.string_of (by decide)
  unfold addContactSchema Zod.object
  simp only [Zod.property, hid, hname, hregex, hfriend]
  rfl

/-- Two users who do not know each other. -/
def strangers : Db :=
  { users := [⟨uuid 2, "05" ++ token, "friend", "key", "", "", 0, none, true⟩, ⟨uuid 1, "05", "reader", "", "", "", 0, none, true⟩]
    sessions := [⟨platform.tokenHash token, uuid 1, 100⟩]
    now := 20 }

/-- One is a contact of the other. -/
def acquainted : Db := opened { strangers with contacts := [⟨uuid 1, uuid 2, "friend", 1⟩] } (uuid 8)

/-- The request adds the contact. -/
theorem contact_runs : Async.Runs (Effect platform) (serve platform adding.1) ⟨strangers, {}⟩
    (some (.ok ⟨201, .contact (uuid 2) (uuid 8) "key"⟩)) ⟨acquainted, { received := [adding.1] }⟩ := by
  have hauth : exec platform strangers (.authenticate (platform.tokenHash token)) = some (some (uuid 1), strangers) := by
    have hid : (uuid 2 == uuid 1) = false := by decide
    simp [exec, Db.authenticate, strangers, hid]
  have htarget : exec platform strangers (.userByChhayaId ("05" ++ token)) = some (some (uuid 2, "key"), strangers) := by
    simp [exec, strangers]
  have hpost : Async.Runs (Effect platform) (postContacts (uuid 1) (some (.obj contactFields)))
      ⟨strangers, { received := [adding.1] }⟩ (some (.ok ⟨201, .contact (uuid 2) (uuid 8) "key"⟩))
      ⟨acquainted, { received := [adding.1] }⟩ := by
    unfold postContacts
    rw [parse_ok schema_contact]
    refine .call (.atOnce htarget) ?_
    show Async.Runs _ (addContact (uuid 1) ⟨"05" ++ token, "friend"⟩ (uuid 2, "key")) _ _ _
    unfold addContact
    rw [if_neg (show ¬ (uuid 2, "key").1 = uuid 1 by decide)]
    exact .call (.atOnce (show exec platform strangers (.contactExists (uuid 1) (uuid 2)) = some (false, strangers) from rfl))
      (.call (.randomUUID _ (uuid 8)) (.call (.atOnce rfl) (.done _ _)))
  have hhandle : Async.Runs (Effect platform) (handle platform adding.1) ⟨strangers, { received := [adding.1] }⟩
      (some (.ok ⟨201, .contact (uuid 2) (uuid 8) "key"⟩)) ⟨acquainted, { received := [adding.1] }⟩ :=
    authMiddleware_runs bearer_call isHex64_token (.atOnce hauth) hpost
  exact serve_runs (.receive _ _) hhandle

end Reader

open Reader in
/-- One contact is added. -/
theorem direct_conversations_once :
    ∃ l c, Pairings.Traced platform ⟨strangers, {}⟩ l c ∧ c.state.db.pairs = [(uuid 1, uuid 2)] ∧
      c.state.db.pairs.Nodup ∧ (∃ id, c.state.db.Direct id (uuid 1) (uuid 2)) ∧
      (∀ e ∈ l, Founds e.answered.op e.before.db e.after.db) := by
  have hrun : Async.Pool.Reachable (Effect platform) (fun call : Pairing => serve platform call.1)
      (fun w w' => w.db.Undisturbed w'.db) (fun _ _ => True) ⟨strangers, {}⟩ _ :=
    .finish contact_runs (.step .init (.start adding) trivial)
  obtain ⟨l, hl⟩ := hrun.traced
  have hseated : strangers.Seated := ⟨List.nodup_nil, fun s hs => (List.not_mem_nil hs).elim⟩
  obtain ⟨hpairs, hcontacts, hcalls, -⟩ := direct_conversations hseated hl
  refine ⟨l, _, hl, rfl, hpairs, ?_, hcalls⟩
  exact (hcontacts (uuid 1, uuid 2) List.mem_cons_self).resolve_left List.not_mem_nil

open Reader in
/-- Two requests of one user open two conversations of the same two users. -/
theorem direct_conversations_twice :
    ∃ l c, Pairings.Traced platform ⟨apart, {}⟩ l c ∧ apart.Seated ∧ (∀ id, ¬ apart.HasRoom id) ∧
      c.state.db.Direct (uuid 8) (uuid 1) (uuid 2) ∧ c.state.db.Direct (uuid 9) (uuid 1) (uuid 2) := by
  have hfirst := @pair_runs apart {} (uuid 8) authenticate_token rfl
  have hsecond := @pair_runs (opened apart (uuid 8)) { received := [pairing.1] } (uuid 9) authenticate_token rfl
  have hone : Async.Pool.Reachable (Effect platform) (fun call : Pairing => serve platform call.1)
      (fun w w' => w.db.Undisturbed w'.db) (fun _ _ => True) ⟨apart, {}⟩ _ :=
    .finish hfirst (.step .init (.start pairing) trivial)
  obtain ⟨l, hl⟩ := Async.Pool.Reachable.traced (.finish hsecond (.step hone (.start pairing) trivial))
  have hne : uuid 8 ≠ uuid 9 := by decide
  refine ⟨l, _, hl, ⟨List.nodup_nil, fun s hs => (List.not_mem_nil hs).elim⟩, fun id ⟨r, hr, _⟩ => (List.not_mem_nil hr).elim,
    ⟨by decide, fun u => ?_⟩, ⟨by decide, fun u => ?_⟩⟩
  · show (uuid 8, u) ∈ [(uuid 9, uuid 1), (uuid 9, uuid 2), (uuid 8, uuid 1), (uuid 8, uuid 2)] ↔ _
    simp [hne]
  · show (uuid 9, u) ∈ [(uuid 9, uuid 1), (uuid 9, uuid 2), (uuid 8, uuid 1), (uuid 8, uuid 2)] ↔ _
    simp [hne.symm]

end Server

end Chhaya
