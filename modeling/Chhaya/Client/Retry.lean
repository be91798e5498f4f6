import Chhaya.Client.Messaging
import Chhaya.Server.Authorization

/-!
# Retrying what is pending

`retryPending` delivers what is in the outbox in the order of the messages, and the first exception ends it. The server
takes or refuses each envelope for good.

- `retryEach_run_cons`: what the loop does with one message.
- `retryEach_delivers`: one call delivers what comes before the first refusal.
- `Blocked.call`: a message behind a refused one stays where it is.
- `retry_delivers_iff`: repeated calls deliver everything that the server takes exactly where nothing refused comes before.
- `length_envelopeText`, `schemaServer_long`: an envelope grows with its message, and over 10000 units it is refused.
-/

namespace Chhaya

namespace MessagingService

variable {β : Type}

/-! ## The server -/

/-- The body of `POST /messages`. -/
structure Posted where
  conversationId : String
  content : String
  messageId : String
  deriving DecidableEq

/-- The install, and what the server holds. -/
structure Network (β : Type) where
  db : LocalDatabase β
  held : List Posted := []

/-- A server that answers every request of one kind always the same way: `none` takes it. Other calls are answered as
`rest` says. -/
def answer (server : Posted → Option DartError)
    (rest : (op : ServiceOp β) → Network β → Except DartError (ServiceAns β op) × Network β) :
    (op : ServiceOp β) → Network β → Except DartError (ServiceAns β op) × Network β
  | .getMessages conversationId, s => (.ok (s.db.getMessages conversationId), s)
  | .loadOutbox messageId, s => (.ok (s.db.outbox messageId), s)
  | .sendMessage conversationId content messageId, s =>
    match server ⟨conversationId, content, messageId⟩ with
    | none => (.ok (), { s with held := ⟨conversationId, content, messageId⟩ :: s.held })
    | some e => (.error e, s)
  | .commitMessageSent m, s => (.ok (), { s with db := s.db.commitMessageSent m })
  | op, s => rest op s

/-- The request that delivers a message with its envelope. -/
def Posted.of (m : Message) (envelope : String) : Posted := ⟨m.conversationId, envelope, m.id⟩

/-- The envelope that `retryPending` delivers for a message: it is the user's and not sent, and the outbox has one. -/
def toSend (d : LocalDatabase β) (m : Message) : Option String :=
  if m.senderId ≠ "me" ∨ m.isSent then none else d.outbox m.id

/-- The message is pending, and the server takes its envelope. -/
def Taken (server : Posted → Option DartError) (d : LocalDatabase β) (m : Message) (envelope : String) : Prop :=
  toSend d m = some envelope ∧ server (.of m envelope) = none

/-- The message is pending, and the server refuses its envelope. -/
def Refused (server : Posted → Option DartError) (d : LocalDatabase β) (m : Message) : Prop :=
  ∃ envelope, toSend d m = some envelope ∧ server (.of m envelope) ≠ none

/-- The server holds the message, and it is marked sent. -/
structure Delivered (s : Network β) (m : Message) (envelope : String) : Prop where
  held : .of m envelope ∈ s.held
  sent : { m with isSent := true } ∈ s.db.messages

/-- What `_deliver` makes of the state where the server takes the envelope. -/
def Network.deliver (s : Network β) (m : Message) (envelope : String) : Network β :=
  { db := s.db.commitMessageSent { m with isSent := true }, held := .of m envelope :: s.held }

section Run

variable {server : Posted → Option DartError}
  {rest : (op : ServiceOp β) → Network β → Except DartError (ServiceAns β op) × Network β}
  {s : Network β} {m r : Message} {ms : List Message} {envelope e : String} {conversationId : String}

@[simp] theorem answer_sendMessage (c content id : String) : answer server rest (.sendMessage c content id) s =
    match server ⟨c, content, id⟩ with
    | none => (.ok (), { s with held := ⟨c, content, id⟩ :: s.held })
    | some e => (.error e, s) := rfl

@[simp] theorem answer_commitMessageSent : answer server rest (.commitMessageSent m) s =
    (.ok (), { s with db := s.db.commitMessageSent m }) := rfl

@[simp] theorem answer_loadOutbox : answer server rest (.loadOutbox e) s = (.ok (s.db.outbox e), s) := rfl

@[simp] theorem answer_getMessages : answer server rest (.getMessages e) s = (.ok (s.db.getMessages e), s) := rfl

/-- What `_deliver` does. -/
theorem deliver_run (m : Message) (envelope : String) (s : Network β) :
    (deliver m envelope).run (answer server rest) s =
      match server (.of m envelope) with
      | none => (.ok { m with isSent := true }, s.deliver m envelope)
      | some err => (.error err, s) := by
  simp only [deliver, ask, Async.bind_eq, Async.run_bind, Async.run_await, answer_sendMessage, Posted.of]
  cases server ⟨m.conversationId, envelope, m.id⟩ <;> rfl

/-- What the loop does with one message. -/
theorem retryEach_run_cons : (retryEach (m :: ms)).run (answer server rest) s =
    match toSend s.db m with
    | none => (retryEach ms).run (answer server rest) s
    | some envelope => match server (.of m envelope) with
      | none => (retryEach ms).run (answer server rest) (s.deliver m envelope)
      | some err => (.error err, s) := by
  rw [retryEach.eq_2, toSend]
  by_cases hm : m.senderId ≠ "me" ∨ m.isSent = true
  · rw [if_pos hm, if_pos hm]
  · rw [if_neg hm, if_neg hm]
    simp only [ask, Async.bind_eq, Async.run_bind, Async.run_await, answer_loadOutbox]
    cases s.db.outbox m.id with
    | none => rfl
    | some envelope =>
      simp only [Async.run_bind, deliver_run]
      cases server (.of m envelope) <;> rfl

/-- What a delivery keeps, the loop keeps. -/
theorem retryEach_inv {φ : Network β → Prop} {ms : List Message}
    (hφ : ∀ s, ∀ m ∈ ms, ∀ envelope, φ s → φ (s.deliver m envelope)) {s : Network β} (h : φ s) :
    φ ((retryEach ms).run (answer server rest) s).2 := by
  induction ms generalizing s with
  | nil => exact h
  | cons m ms ih =>
    have hrest := fun {s : Network β} (h : φ s) => ih (fun s m hm => hφ s m (List.mem_cons_of_mem _ hm)) h
    rw [retryEach_run_cons]
    split
    · exact hrest h
    · split
      · exact hrest (hφ s m List.mem_cons_self _ h)
      · exact h

/-! ## Deliveries -/

/-- Other messages are not touched. -/
theorem toSend_deliver (h : r.id ≠ m.id) : toSend (s.deliver m envelope).db r = toSend s.db r := by
  have hout : (s.deliver m envelope).db.outbox r.id = s.db.outbox r.id := Function.update_of_ne h _ _
  rw [toSend, toSend, hout]

theorem Delivered.deliver (h : Delivered s r e) (hne : r.id ≠ m.id) : Delivered (s.deliver m envelope) r e :=
  ⟨List.mem_cons_of_mem _ h.held, LocalDatabase.mem_upsert.mpr (Or.inr ⟨h.sent, hne⟩)⟩

theorem delivered_deliver (s : Network β) (m : Message) (envelope : String) : Delivered (s.deliver m envelope) m envelope :=
  ⟨List.mem_cons_self, LocalDatabase.mem_upsert.mpr (Or.inl rfl)⟩

/-- The loop delivers what comes before the first refusal. -/
theorem retryEach_delivers {ms : List Message} {s : Network β} (hids : (ms.map Message.id).Nodup)
    (hfree : ms.Pairwise fun r m => Refused server s.db r → ∀ envelope, ¬Taken server s.db m envelope) (hm : m ∈ ms)
    (ht : Taken server s.db m envelope) : Delivered ((retryEach ms).run (answer server rest) s).2 m envelope := by
  induction ms generalizing s with
  | nil => exact (List.not_mem_nil hm).elim
  | cons x ms ih =>
    obtain ⟨hx, hids⟩ := List.nodup_cons.mp hids
    obtain ⟨hfirst, hfree⟩ := List.pairwise_cons.mp hfree
    have hne : ∀ y ∈ ms, y.id ≠ x.id := fun y hy he => hx (List.mem_map.mpr ⟨y, hy, he⟩)
    rw [retryEach_run_cons]
    cases hs : toSend s.db x with
    | none =>
      rcases List.mem_cons.mp hm with rfl | hm
      · rw [Taken, hs] at ht
        cases ht.1
      · exact ih hids hfree hm ht
    | some e =>
      cases hserver : server (.of x e) with
      | some err =>
        rcases List.mem_cons.mp hm with rfl | hm
        · rw [Taken, hs] at ht
          obtain rfl := Option.some.inj ht.1
          rw [hserver] at ht
          cases ht.2
        · refine (hfirst m hm ⟨e, hs, ?_⟩ envelope ht).elim
          rw [hserver]
          exact Option.some_ne_none _
      | none =>
        simp only [hserver]
        rcases List.mem_cons.mp hm with rfl | hm
        · rw [Taken, hs] at ht
          obtain rfl := Option.some.inj ht.1
          refine retryEach_inv (φ := fun s => Delivered s m e) (fun s y hy _ h => ?_) (delivered_deliver s m e)
          exact Delivered.deliver h (hne y hy).symm
        · refine ih hids (hfree.imp_of_mem fun {r m} hr hm h => ?_) hm ?_
          · unfold Refused Taken at *
            rwa [toSend_deliver (hne r hr), toSend_deliver (hne m hm)]
          · rw [Taken, toSend_deliver (hne m hm)]
            exact ht

/-! ## Refusals -/

/-- A message that the server takes comes behind one that it refuses. -/
structure Blocked (server : Posted → Option DartError) (conversationId : String) (r m : Message) (envelope : String)
    (s : Network β) : Prop where
  keyed : s.db.Keyed
  refused : Refused server s.db r
  taken : Taken server s.db m envelope
  mem : r ∈ s.db.getMessages conversationId ∧ m ∈ s.db.getMessages conversationId
  before : s.db.Before r m

/-- Two messages are different where the server takes only one. -/
theorem Blocked.id_ne (h : Blocked server conversationId r m envelope s) : r.id ≠ m.id := by
  intro he
  have hr := LocalDatabase.mem_getMessages.mp h.mem.1
  have hm := LocalDatabase.mem_getMessages.mp h.mem.2
  obtain rfl : r = m := List.inj_on_of_nodup_map h.keyed hr.1 hm.1 he
  obtain ⟨e, h1, h2⟩ := h.refused
  obtain rfl := Option.some.inj (h1.symm.trans h.taken.1)
  exact h2 h.taken.2

/-- The delivery of another message leaves both where they are. -/
theorem Blocked.deliver {x : Message} {e : String} (h : Blocked server conversationId r m envelope s) (hr : r.id ≠ x.id)
    (hm : m.id ≠ x.id) : Blocked server conversationId r m envelope (s.deliver x e) := by
  have hmem : ∀ y : Message, y.id ≠ x.id → y ∈ s.db.getMessages conversationId →
      y ∈ (s.deliver x e).db.getMessages conversationId := fun y hy hin => by
    obtain ⟨h1, h2⟩ := LocalDatabase.mem_getMessages.mp hin
    exact LocalDatabase.mem_getMessages.mpr ⟨LocalDatabase.mem_upsert.mpr (Or.inr ⟨h1, hy⟩), h2⟩
  refine ⟨LocalDatabase.upsert_nodup h.keyed, ?_, ?_, ⟨hmem r hr h.mem.1, hmem m hm h.mem.2⟩, ?_⟩
  · rw [Refused, toSend_deliver hr]
    exact h.refused
  · rw [Taken, toSend_deliver hm]
    exact h.taken
  · refine h.before.imp_right fun ⟨ht, hs⟩ => ⟨ht, ?_⟩
    have hf := hs.filter fun y => y.id != x.id
    have hboth : [r, m].filter (fun y => y.id != x.id) = [r, m] := by simp [hr, hm]
    rw [hboth] at hf
    exact hf.trans (List.sublist_append_left _ _)

/-- The loop ends at the refused message at the latest. -/
theorem Blocked.retryEach {ms : List Message} (h : Blocked server conversationId r m envelope s)
    (hids : (ms.map Message.id).Nodup) (hs : [r, m].Sublist ms) :
    Blocked server conversationId r m envelope ((retryEach ms).run (answer server rest) s).2 := by
  induction ms generalizing s with
  | nil => cases hs
  | cons x ms ih =>
    obtain ⟨hx, hids⟩ := List.nodup_cons.mp hids
    rw [retryEach_run_cons]
    cases hs with
    | cons_cons _ hs =>
      obtain ⟨e, h1, h2⟩ := h.refused
      simp only [h1]
      cases hserver : server (.of r e) with
      | none => exact (h2 hserver).elim
      | some err => exact h
    | cons _ hs =>
      have hne : ∀ y ∈ [r, m], y.id ≠ x.id := fun y hy he => hx (List.mem_map.mpr ⟨y, hs.subset hy, he⟩)
      split
      · exact ih h hids hs
      · split
        · exact ih (h.deliver (hne r (by simp)) (hne m (by simp))) hids hs
        · exact h

/-! ## Repeated calls -/

variable (server rest) in
/-- The state after so many calls of `retryPending`, whatever they throw. -/
def calls (conversationId : String) : ℕ → Network β → Network β
  | 0, s => s
  | n + 1, s => calls conversationId n ((retryPending conversationId).run (answer server rest) s).2

theorem retryPending_run : (retryPending conversationId).run (answer server rest) s =
    (retryEach (s.db.getMessages conversationId)).run (answer server rest) s := by
  simp only [retryPending, ask, Async.bind_eq, Async.run_bind, Async.run_await, answer_getMessages]

/-- A message behind a refused one stays where it is. -/
theorem Blocked.call (h : Blocked server conversationId r m envelope s) :
    Blocked server conversationId r m envelope ((retryPending conversationId).run (answer server rest) s).2 := by
  rw [retryPending_run]
  refine h.retryEach (LocalDatabase.getMessages_nodup h.keyed _) ?_
  exact (LocalDatabase.pair_getMessages h.keyed h.mem.1 h.mem.2 fun he => h.id_ne (congrArg _ he)).mpr h.before

theorem Blocked.calls (h : Blocked server conversationId r m envelope s) (n : ℕ) :
    Blocked server conversationId r m envelope (calls server rest conversationId n s) := by
  induction n generalizing s with
  | zero => exact h
  | succ n ih => exact ih h.call

/-- What is pending is not marked sent. -/
theorem Blocked.not_delivered (h : Blocked server conversationId r m envelope s) : ¬Delivered s m envelope := by
  intro hd
  have hm := (LocalDatabase.mem_getMessages.mp h.mem.2).1
  have hsame : m = { m with isSent := true } := List.inj_on_of_nodup_map h.keyed hm hd.sent rfl
  have ht := h.taken.1
  rw [toSend, hsame] at ht
  simp at ht

/-- Repeated calls deliver every message of the conversation that the server takes, and mark it sent, exactly where no
message that the server refuses comes before one that it takes; then one call does. -/
theorem retry_delivers_iff (hk : s.db.Keyed) :
    (∃ n, ∀ m ∈ s.db.getMessages conversationId, ∀ envelope, Taken server s.db m envelope →
      Delivered (calls server rest conversationId n s) m envelope) ↔
    (s.db.getMessages conversationId).Pairwise fun r m =>
      Refused server s.db r → ∀ envelope, ¬Taken server s.db m envelope := by
  constructor
  · rintro ⟨n, hall⟩
    refine List.pairwise_iff_forall_sublist.mpr fun {r m} hs hr envelope hm => ?_
    have hin : r ∈ s.db.getMessages conversationId ∧ m ∈ s.db.getMessages conversationId :=
      ⟨hs.subset (by simp), hs.subset (by simp)⟩
    have hne : r ≠ m := by
      rintro rfl
      have := hs.nodup (LocalDatabase.getMessages_nodup hk conversationId).of_map
      simp at this
    have hb : Blocked server conversationId r m envelope s :=
      ⟨hk, hr, hm, hin, (LocalDatabase.pair_getMessages hk hin.1 hin.2 hne).mp hs⟩
    exact (hb.calls n).not_delivered (hall m hin.2 envelope hm)
  · intro hfree
    refine ⟨1, fun m hm envelope ht => ?_⟩
    rw [MessagingService.calls, MessagingService.calls, retryPending_run]
    exact retryEach_delivers (LocalDatabase.getMessages_nodup hk _) hfree hm ht

end Run

/-! ## The content limit -/

/-- The body of the request, without what is null. -/
def Posted.fields (p : Posted) : List (List Char × Json) :=
  [("messageId".toList, .str p.messageId.toList), ("conversationId".toList, .str p.conversationId.toList),
    ("content".toList, .str p.content.toList), ("messageType".toList, .str "text".toList)]

/-- What `_request` throws where the server does not parse the body. -/
def refusal {α : Type} : Zod.Checked α → Option DartError
  | .ok _ => none
  | .error _ => some (.api 400 "Invalid input")

/-- A server that takes what `sendMessageSchema` accepts. -/
def schemaServer (platform : Server.Platform) (p : Posted) : Option DartError :=
  refusal (Server.sendMessageSchema platform (some (.obj p.fields)))

section Limit

variable {platform : Server.Platform} {p : Posted}

/-- The schema refuses a content over its limit. -/
theorem schemaServer_long (h : 10000 < Zod.utf16Length p.content) : schemaServer platform p ≠ none := by
  unfold schemaServer
  cases hs : Server.sendMessageSchema platform (some (.obj p.fields)) with
  | ok data =>
    obtain ⟨_, _, h, -, -⟩ := Zod.Checked.seq_ok.mp hs
    obtain ⟨_, _, h, -, -⟩ := Zod.Checked.seq_ok.mp h
    obtain ⟨_, _, h, -, -⟩ := Zod.Checked.seq_ok.mp h
    obtain ⟨_, _, h, -, -⟩ := Zod.Checked.seq_ok.mp h
    obtain ⟨_, content, -, hcontent, -⟩ := Zod.Checked.seq_ok.mp h
    have hlookup : Zod.lookup p.fields "content" = some (.str p.content.toList) := rfl
    rw [Zod.property_ok, hlookup] at hcontent
    obtain ⟨htext, hchecks⟩ := Zod.string_ok hcontent
    obtain rfl := String.toList_inj.mp (Json.str.inj (Option.some.inj htext))
    have := of_decide_eq_true (hchecks (Zod.maxLength 10000) (by simp))
    omega
  | error issues => exact Option.some_ne_none _

/-- The schema takes a content within its limits under identifiers. -/
theorem schemaServer_short (hm : Zod.isUuid p.messageId = true) (hc : Zod.isUuid p.conversationId = true)
    (hlo : 1 ≤ Zod.utf16Length p.content) (hhi : Zod.utf16Length p.content ≤ 10000) : schemaServer platform p = none := by
  have hcontent : Zod.string [Zod.minLength 1, Zod.maxLength 10000] (some (.str p.content.toList)) = .ok p.content := by
    refine Zod.string_of fun c hc => ?_
    simp only [List.mem_cons, List.not_mem_nil, or_false] at hc
    rcases hc with rfl | rfl
    · exact decide_eq_true hlo
    · exact decide_eq_true hhi
  have hok : Server.sendMessageSchema platform (some (.obj p.fields)) =
      .ok ⟨some p.messageId, p.conversationId, p.content, "text", none, none, none⟩ := by
    have hlm : Zod.lookup p.fields "messageId" = some (.str p.messageId.toList) := rfl
    have hlc : Zod.lookup p.fields "conversationId" = some (.str p.conversationId.toList) := rfl
    have hlt : Zod.lookup p.fields "content" = some (.str p.content.toList) := rfl
    have htype : Zod.withDefault "text" (Zod.enum ["text", "image", "file", "voice", "location"])
        (Zod.lookup p.fields "messageType") = .ok "text" := rfl
    have hnone : ∀ key ∈ ["mediaUrl", "mediaMeta", "replyToId"], Zod.lookup p.fields key = none := by
      intro key hkey
      simp only [List.mem_cons, List.not_mem_nil, or_false] at hkey
      rcases hkey with rfl | rfl | rfl <;> rfl
    unfold Server.sendMessageSchema Zod.object
    simp only [Zod.property, htype, hlm, hlc, hlt, hnone, List.mem_cons, true_or, or_true, Zod.optional, Zod.string_uuid hm,
      Zod.string_uuid hc, hcontent]
    rfl
  exact congrArg refusal hok

end Limit

theorem escape_digit : ∀ n < 64, Json.escape (Base64.digit n) = [Base64.digit n] ∧ (Base64.digit n).toNat < 0x10000 := by
  decide

/-- Base64 is written as it is. -/
theorem quoted_base64 (bytes : Bytes) : Json.quoted (base64Encode bytes).toList = Base64.encode bytes ++ ['"'] := by
  have h : ∀ c ∈ Base64.encode bytes, Json.escape c = [c] := fun c hc => by
    rcases Base64.mem_encode hc with rfl | ⟨n, hn, rfl⟩
    · decide
    · exact (escape_digit n hn).1
  have hflat : (Base64.encode bytes).flatMap Json.escape = Base64.encode bytes := by
    rw [List.flatMap_congr h, List.flatMap_singleton']
  rw [base64Encode, String.toList_ofList, Json.quoted, hflat]

theorem sum_units (bytes : Bytes) :
    ((Base64.encode bytes).map fun c => if c.toNat < 0x10000 then 1 else 2).sum = 4 * ((bytes.length + 2) / 3) := by
  have h : ∀ c ∈ Base64.encode bytes, (if c.toNat < 0x10000 then 1 else 2) = 1 := fun c hc => by
    rcases Base64.mem_encode hc with rfl | ⟨n, hn, rfl⟩
    · decide
    · rw [if_pos (escape_digit n hn).2]
  rw [List.map_congr_left h, List.map_const', List.sum_replicate, Base64.length_encode, smul_eq_mul, mul_one]

/-- The number of UTF-16 units of an envelope. -/
theorem length_envelopeText (header body : Bytes) : Zod.utf16Length (RatchetMessageCodec.envelopeText header body) =
    29 + 4 * ((header.length + 2) / 3) + 4 * ((body.length + 2) / 3) := by
  have hv : Json.quoted "v".toList = ['v', '"'] := by decide
  have hheader : Json.quoted "header".toList = "header\"".toList := by decide
  have hbody : Json.quoted "body".toList = "body\"".toList := by decide
  have hone : Json.intText 1 = ['1'] := by decide
  have hheaderUnits : (("header\"".toList).map fun c => if c.toNat < 0x10000 then 1 else 2).sum = 7 := by decide
  have hbodyUnits : (("body\"".toList).map fun c => if c.toNat < 0x10000 then 1 else 2).sum = 5 := by decide
  rw [RatchetMessageCodec.envelopeText, jsonEncode, Zod.utf16Length, String.toList_ofList,
    RatchetMessageCodec.envelopeFields]
  simp only [Json.encode, Json.encodeFields, hv, hheader, hbody, hone, quoted_base64, List.map_append, List.map_cons,
    List.sum_append, List.sum_cons, sum_units, hheaderUnits, hbodyUnits]
  simp
  omega

/-! ## Two messages -/

namespace Blocking

open Server.Reader (platform uuid)

/-- An envelope with so many bytes in its body. -/
def envelope (n : ℕ) : String := RatchetMessageCodec.envelopeText (List.replicate 44 0) (List.replicate n 0)

def pending (n : UInt8) (time : Int) : Message :=
  { id := (uuid n).text, conversationId := (uuid 3).text, senderId := "me", content := "text",
    timestamp := ⟨time, false⟩, isSent := false }

/-- A long message, and a short one after it. -/
def db : LocalDatabase Bytes where
  messages := [pending 1 0, pending 2 1000]
  outbox := Function.update (Function.update (fun _ => none) (pending 1 0).id (some (envelope 7500)))
    (pending 2 1000).id (some (envelope 100))

theorem toSend_pending (n : UInt8) (time : Int) : toSend db (pending n time) = db.outbox (pending n time).id := by
  rw [toSend, if_neg (by simp [pending])]

theorem keyed : db.Keyed := by
  have hne : uuid 1 ≠ uuid 2 := by decide
  have h : (uuid 1).text ≠ (uuid 2).text := fun h => hne (Uuid.text_injective h)
  simpa [LocalDatabase.Keyed, db, pending] using h

theorem outbox_long : db.outbox (pending 1 0).id = some (envelope 7500) := by
  have hne : uuid 1 ≠ uuid 2 := by decide
  have h : (pending 1 0).id ≠ (pending 2 1000).id := fun h => hne (Uuid.text_injective h)
  unfold db
  dsimp only
  rw [Function.update_of_ne h, Function.update_self]

theorem outbox_short : db.outbox (pending 2 1000).id = some (envelope 100) := by
  unfold db
  dsimp only
  rw [Function.update_self]

theorem length_envelope (n : ℕ) : Zod.utf16Length (envelope n) = 89 + 4 * ((n + 2) / 3) := by
  rw [envelope, length_envelopeText, List.length_replicate, List.length_replicate]

theorem blocked : Blocked (schemaServer platform) (uuid 3).text (pending 1 0) (pending 2 1000) (envelope 100) ⟨db, []⟩ := by
  have hlong : 10000 < Zod.utf16Length (envelope 7500) := by
    rw [length_envelope]
    omega
  have hshort : 1 ≤ Zod.utf16Length (envelope 100) ∧ Zod.utf16Length (envelope 100) ≤ 10000 := by
    rw [length_envelope]
    omega
  refine ⟨keyed, ⟨envelope 7500, (toSend_pending _ _).trans outbox_long, schemaServer_long hlong⟩,
    ⟨(toSend_pending _ _).trans outbox_short, ?_⟩, ?_, Or.inl (by decide)⟩
  · exact schemaServer_short (Uuid.isUuid_text _) (Uuid.isUuid_text _) hshort.1 hshort.2
  · exact ⟨LocalDatabase.mem_getMessages.mpr ⟨by simp [db], rfl⟩, LocalDatabase.mem_getMessages.mpr ⟨by simp [db], rfl⟩⟩

end Blocking

/-- Two messages are pending. The envelope of the first has over 10000 units, which the schema refuses, and the second one
is taken by it. However often `retryPending` is called, the second one is not delivered. -/
theorem retry_delivers_blocked : ¬∃ n, ∀ m ∈ Blocking.db.getMessages (Server.Reader.uuid 3).text, ∀ envelope,
    Taken (schemaServer Server.Reader.platform) Blocking.db m envelope →
      Delivered (calls (schemaServer Server.Reader.platform) (fun _ s => (.error .timeout, s)) (Server.Reader.uuid 3).text n
        ⟨Blocking.db, []⟩) m envelope := by
  rintro ⟨n, h⟩
  have hb := Blocking.blocked
  exact (hb.calls n).not_delivered (h _ hb.mem.2 _ hb.taken)

/-- With a server that takes the first one too, both are delivered. -/
theorem retry_delivers_two : ∃ n, ∀ m ∈ Blocking.db.getMessages (Server.Reader.uuid 3).text, ∀ envelope,
    Taken (fun _ => none) Blocking.db m envelope →
      Delivered (calls (fun _ => none) (fun _ s => (.error .timeout, s)) (Server.Reader.uuid 3).text n ⟨Blocking.db, []⟩)
        m envelope :=
  (@retry_delivers_iff Bytes (fun _ => none) (fun _ s => (.error .timeout, s)) ⟨Blocking.db, []⟩ _ Blocking.keyed).mpr
    (List.pairwise_of_forall fun _ _ h => (h.choose_spec.2 rfl).elim)

end MessagingService

end Chhaya
