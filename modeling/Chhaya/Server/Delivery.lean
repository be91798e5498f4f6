import Chhaya.Lib.Provenance
import Chhaya.Server.Identity
import Chhaya.Server.Clients

/-!
# What is put on which socket

A frame for a user goes to the sockets on which that user has joined, and to all of them. A relayed signal carries the user
who joined on the socket it came from, and both take part in the conversation it names.

- `serveHub_along`: what a handler has found out before it registers a client or sends a frame to a user.
- `signaling_delivery`: every frame of every run.
- `signaling_index`: the index in every run, and that a broadcast leaves nobody out.
- `signaling_mirrored`: the runs in which the index says of each client which user it is.
-/

namespace Chhaya

namespace Server

/-! ## What a handler has found out -/

/-- The calls that a handler has made. -/
abbrev HubAnswers := List (Async.Answered HubOp HubAns ServerError)

/-- What `POST /messages` has found out when it tells the participants of a message: its session is the sender's, who takes
part in the conversation, the message is stored, and these are the others. -/
structure Telling (platform : Platform) (call : Call) (h : List (Async.Answered Op Ans ServerError)) (n : Notification)
    (sender : Uuid) : Prop where
  session : ∃ token, call.authorization.bind bearer = some token ∧
    ⟨.sql (.authenticate (platform.tokenHash token)), .ok (some sender)⟩ ∈ h
  member : ⟨.sql (.participantCheck n.conversationId sender), .ok true⟩ ∈ h
  stored : ∃ m : NewMessage, m.id = n.messageId ∧ m.conversationId = n.conversationId ∧ m.senderId = sender ∧
    ⟨.sql (.insertMessage m), .ok true⟩ ∈ h
  others : ⟨.sql (.otherParticipants n.conversationId sender), .ok n.users⟩ ∈ h

/-- Only a message that was stored is announced. -/
def Announces (platform : Platform) (call : Call) (h : List (Async.Answered Op Ans ServerError)) : Op → Prop
  | .notify n => ∃ sender, Telling platform call h n sender
  | _ => True

/-- The answers `h` of the API are among those of the handler. -/
def Among (h : List (Async.Answered Op Ans ServerError)) (h' : HubAnswers) : Prop := ∀ x ∈ h, ⟨.rest x.op, x.answer⟩ ∈ h'

/-- What a handler has found out before it registers a client, answers a socket or sends a frame to a user. -/
def Warranted (platform : Platform) (call : HubCall) (h : HubAnswers) : HubOp → Prop
  | .rest (.notify n) => ∃ c h₀ sender, call = .request c ∧ Among h₀ h ∧ Telling platform c h₀ n sender
  | .act (.register id user _ _ token) => (∃ data, call = .message id data) ∧
    ⟨.rest (.sql (.authenticate (platform.tokenHash token))), .ok (some user)⟩ ∈ h
  | .act (.send ws type _) => (∃ data, call = .message ws data) ∧ type ∈ ["error", "join"]
  | .act (.heartbeat id) => call = .heartbeat id
  | .act (.broadcast user type payload sender) => ∃ id msg client conversationId rows, call = .message id (some msg) ∧
    ⟨.getClient id, .ok (some client)⟩ ∈ h ∧ sender = client.userId.text ∧
    type ∈ ["offer", "answer", "ice-candidate", "call-end"] ∧ fieldOrUndefined (some msg) "payload" = some payload ∧
    fieldOrUndefined (some payload) "conversationId" = some (.str conversationId) ∧ rows.length = 2 ∧
    ⟨.query (.participantsAmong (String.ofList conversationId) [client.userId.text, user]), .ok rows⟩ ∈ h
  | _ => True

section Handlers

variable {platform : Platform} {α : Type}

/-! ### The API -/

section Api

variable {call : Call} {h : List (Async.Answered Op Ans ServerError)}

theorem Quietly.announces {op : Op} (ho : Quietly op) : Announces platform call h op := by
  cases op with
  | notify => cases ho
  | _ => exact trivial

/-- One call, and then the rest. -/
theorem call_announces (op : Op) {f : Ans op → Prog α} (ho : Announces platform call h op)
    (hf : ∀ a, (f a).Along (Announces platform call) (fun _ _ => True) (⟨op, .ok a⟩ :: h)) :
    (Async.bind (Async.await op) f).Along (Announces platform call) (fun _ _ => True) h :=
  .await_bind ho (fun _ => trivial) hf

theorem parse_announces {γ : Type} {s : Zod.Schema α} {j : Option Json} {f : α → Prog γ}
    (hf : ∀ a, (f a).Along (Announces platform call) (fun _ _ => True) h) :
    ((parse s j).bind f).Along (Announces platform call) (fun _ _ => True) h := by
  unfold parse
  cases s j with
  | ok a => exact hf a
  | error issues => exact trivial

/-- The message is stored and announced. -/
theorem storeMessage_announces {data : SendMessage} {messageId : String} {sender : Uuid} {token : String}
    (ht : call.authorization.bind bearer = some token)
    (ha : ⟨.sql (.authenticate (platform.tokenHash token)), .ok (some sender)⟩ ∈ h)
    (hm : ⟨.sql (.participantCheck data.conversationId sender), .ok true⟩ ∈ h) :
    (storeMessage sender data messageId).Along (Announces platform call) (fun _ _ => True) h := by
  refine call_announces (.sql (.insertMessage _)) trivial fun inserted => ?_
  cases inserted with
  | false =>
    refine call_announces (.sql (.messageById _)) trivial fun previous => ?_
    cases previous with
    | none => exact trivial
    | some message =>
      show Async.Along _ _ (if message.senderId ≠ sender ∨ message.conversationId.text ≠ data.conversationId ∨
        message.content ≠ data.content then _ else _) _
      split <;> exact trivial
  | true =>
    refine call_announces (.sql (.touchConversation _)) trivial fun _ => ?_
    refine call_announces (.sql (.otherParticipants _ _)) trivial fun others => ?_
    refine call_announces (.notify ⟨others, data.conversationId, messageId⟩) ?_ fun _ => ?_
    · exact ⟨sender, ⟨token, ht, by simp [ha]⟩, by simp [hm], ⟨data.row messageId sender, rfl, rfl, rfl, by simp⟩, by simp⟩
    · refine call_announces (.sql (.messageById _)) trivial fun saved => ?_
      cases saved with
      | none => exact trivial
      | some saved =>
        show Async.Along _ _ (if saved.senderId ≠ sender ∨ saved.conversationId.text ≠ data.conversationId then _ else _) _
        split <;> exact trivial

/-- Only a message that was stored is announced, by a request of its sender. -/
theorem handle_announces (call : Call) (h : List (Async.Answered Op Ans ServerError)) :
    (handle platform call).Along (Announces platform call) (fun _ _ => True) h := by
  by_cases hp : ∃ body, call.request = .postMessages body
  · obtain ⟨body, hb⟩ := hp
    rw [handle, hb]
    show (authMiddleware platform call.authorization fun user => postMessages platform user body).Along _ _ _
    unfold authMiddleware
    cases ht : call.authorization.bind bearer with
    | none => exact trivial
    | some token =>
      show (Async.bind (authenticateToken platform token) _).Along _ _ _
      unfold authenticateToken
      split
      case isFalse => exact trivial
      case isTrue =>
        refine call_announces (.sql (.authenticate _)) trivial fun found => ?_
        cases found with
        | none => exact trivial
        | some user =>
          refine parse_announces fun data => ?_
          refine call_announces (.sql (.participantCheck _ _)) trivial fun member => ?_
          cases member with
          | false => exact trivial
          | true =>
            rcases data with ⟨_ | messageId, _, _, _, _, _, _⟩
            case some => exact storeMessage_announces ht (by simp) (by simp)
            case none =>
              refine call_announces .randomUUID trivial fun id => ?_
              exact storeMessage_announces ht (by simp) (by simp)
  · exact (handle_quiet fun body hb => hp ⟨body, hb⟩).along fun op h ho => ho.announces

theorem serve_announces (call : Call) (h : List (Async.Answered Op Ans ServerError)) :
    (serve platform call).Along (Announces platform call) (fun _ _ => True) h := by
  refine call_announces (.receive call) trivial fun _ => ?_
  exact Async.Along.bind (Async.Along.attempt ((handle_announces call _).mono fun _ _ _ => trivial))

end Api

/-! ### The handlers of sockets -/

section Sockets

variable {call : HubCall} {h : HubAnswers}

/-- One call, and then the rest. -/
theorem call_warranted (op : HubOp) {f : HubAns op → HubProg α} (ho : Warranted platform call h op)
    (hf : ∀ a, (f a).Along (Warranted platform call) (fun _ _ => True) (⟨op, .ok a⟩ :: h)) :
    (Async.bind (Async.await op) f).Along (Warranted platform call) (fun _ _ => True) h :=
  .await_bind ho (fun _ => trivial) hf

/-- A program of the API that announces only what was stored. -/
theorem rest_along {c : Call} (hc : call = .request c) {p : Prog α} {h₀ : List (Async.Answered Op Ans ServerError)}
    (hp : p.Along (Announces platform c) (fun _ _ => True) h₀) (hh : Among h₀ h) :
    (rest p).Along (Warranted platform call) (fun _ _ => True) h := by
  induction p generalizing h₀ h with
  | done a => exact trivial
  | throw e => exact trivial
  | call op k ih =>
    refine ⟨?_, fun a => ih a (hp.2 a) (List.forall_mem_cons.mpr ⟨List.mem_cons_self, fun x hx =>
      List.mem_cons_of_mem _ (hh x hx)⟩)⟩
    cases op with
    | notify n =>
      obtain ⟨sender, hn⟩ := hp.1
      exact ⟨c, h₀, sender, hc, hh, hn⟩
    | _ => exact trivial

theorem rest_await (op : Op) : rest (Async.await op : Prog (Ans op)) = Async.await (HubOp.rest op) := by
  show Async.call (HubOp.rest op) _ = Async.call _ _
  congr
  funext a
  cases a <;> rfl

/-- A session is looked up. -/
theorem authenticate_warranted (token : String) {f : Option Uuid → HubProg α}
    (hf : ∀ found h', h ⊆ h' →
      (∀ user, found = some user → ⟨.rest (.sql (.authenticate (platform.tokenHash token))), .ok (some user)⟩ ∈ h') →
      (f found).Along (Warranted platform call) (fun _ _ => True) h') :
    ((rest (authenticateToken platform token)).bind f).Along (Warranted platform call) (fun _ _ => True) h := by
  unfold authenticateToken
  split
  · show (Async.bind (rest (Async.await (.sql (.authenticate (platform.tokenHash token))))) f).Along _ _ _
    rw [rest_await]
    refine call_warranted (.rest (.sql (.authenticate _))) trivial fun found => ?_
    refine hf found _ (List.subset_cons_self _ _) fun user hu => ?_
    rw [hu]
    exact List.mem_cons_self
  · exact hf none h (fun _ hx => hx) fun user hu => nomatch hu

/-- A property of a value is read. -/
theorem field_warranted (value : Option Json) (key : String) {f : Option Json → HubProg α}
    (hf : ∀ v, fieldOrUndefined value key = v → (f v).Along (Warranted platform call) (fun _ _ => True) h) :
    ((field value key).bind f).Along (Warranted platform call) (fun _ _ => True) h := by
  cases value with
  | none => exact trivial
  | some j =>
    cases j with
    | null => exact trivial
    | obj fields => exact hf _ rfl
    | _ => exact hf none rfl

/-- The socket of the frame is answered and nothing else follows. -/
theorem refuse_warranted {ws : Nat} (hc : ∃ data, call = .message ws data) (text : String) :
    (refuse ws text).Along (Warranted platform call) (fun _ _ => True) h :=
  .await ⟨hc, List.mem_cons_self⟩ fun _ => trivial

/-- The socket of the frame is answered and closed. -/
theorem reject_warranted {ws : Nat} (hc : ∃ data, call = .message ws data) (text : String) :
    (Async.bind (refuse ws text) fun _ => act (.close ws)).Along (Warranted platform call) (fun _ _ => True) h :=
  call_warranted (.act (.send ws "error" _)) ⟨hc, List.mem_cons_self⟩ fun _ => .await trivial fun _ => trivial

/-- A client is registered whose session was found. -/
theorem welcome_warranted {id : Nat} {user : Uuid} {deviceId : Json} {conversationId : Option Json} {token : String}
    (hc : ∃ data, call = .message id data)
    (ha : ⟨.rest (.sql (.authenticate (platform.tokenHash token))), .ok (some user)⟩ ∈ h) :
    (welcome id user deviceId conversationId token).Along (Warranted platform call) (fun _ _ => True) h := by
  refine call_warranted (.act (.register id user deviceId conversationId token)) ⟨hc, ha⟩ fun _ => ?_
  exact .await ⟨hc, List.mem_cons_of_mem _ List.mem_cons_self⟩ fun _ => trivial

theorem joinAs_warranted {id : Nat} {user : Uuid} {deviceId : Json} {conversationId : Option Json} {token : String}
    (hc : ∃ data, call = .message id data)
    (ha : ⟨.rest (.sql (.authenticate (platform.tokenHash token))), .ok (some user)⟩ ∈ h) :
    (joinAs id user deviceId conversationId token).Along (Warranted platform call) (fun _ _ => True) h := by
  refine call_warranted (.query (.userById user)) trivial fun rows => ?_
  show Async.Along _ _ (if rows.length = 0 then _ else if truthy conversationId = true then _ else _) _
  split
  · exact reject_warranted hc _
  split
  · refine call_warranted (.query (.membership _ _)) trivial fun membership => ?_
    show Async.Along _ _ (if membership ≠ 1 then _ else _) _
    split
    · exact .await trivial fun _ => trivial
    · refine call_warranted (.query (.touchParticipant _ _)) trivial fun _ => ?_
      exact welcome_warranted hc (by simp [ha])
  · exact welcome_warranted hc (by simp [ha])

/-- A client is admitted only for the user whose session its token stands for. -/
theorem admit_warranted {id : Nat} {found : Option Uuid} {deviceId conversationId token : Option Json}
    (hc : ∃ data, call = .message id data) (ha : ∀ user, found = some user →
      ⟨.rest (.sql (.authenticate (platform.tokenHash (idText token)))), .ok (some user)⟩ ∈ h) :
    (handleJoined id found deviceId conversationId token).Along (Warranted platform call) (fun _ _ => True) h := by
  unfold handleJoined
  split
  case h_1 user device =>
    split
    · exact joinAs_warranted hc (ha user rfl)
    · exact reject_warranted hc _
  case h_2 => exact reject_warranted hc _

theorem handleJoin_warranted {id : Nat} {msg : Json} (hc : ∃ data, call = .message id data) :
    (handleJoin platform id msg).Along (Warranted platform call) (fun _ _ => True) h := by
  refine field_warranted _ _ fun payload _ => field_warranted _ _ fun deviceId _ => ?_
  refine field_warranted _ _ fun conversationId _ => field_warranted _ _ fun token _ => ?_
  have hnone : ∀ token,
      (handleJoined id none deviceId conversationId token).Along (Warranted platform call) (fun _ _ => True) h :=
    fun _ => admit_warranted hc fun user hu => nomatch hu
  cases token with
  | none => exact hnone none
  | some j =>
    cases j with
    | str t => exact authenticate_warranted (String.ofList t) fun found h' _ hfound => admit_warranted hc hfound
    | null => exact hnone (some .null)
    | bool b => exact hnone (some (.bool b))
    | int i => exact hnone (some (.int i))
    | double d => exact hnone (some (.double d))
    | arr elements => exact hnone (some (.arr elements))
    | obj fields => exact hnone (some (.obj fields))

/-- A signal is relayed only between participants, for a client that is there. -/
theorem handleWebRTCSignal_warranted {id : Nat} {type : String} {msg : Json} (hc : call = .message id (some msg))
    (ht : type ∈ ["offer", "answer", "ice-candidate", "call-end"]) :
    (handleWebRTCSignal id type msg).Along (Warranted platform call) (fun _ _ => True) h := by
  refine call_warranted (.getClient id) trivial fun found => ?_
  cases found with
  | none => exact trivial
  | some client =>
    show (relay type msg client).Along _ _ _
    unfold relay
    dsimp only
    split
    case h_2 => exact trivial
    case h_1 recipient payload conversationId callId hto hpayload hconversation hcall =>
      rw [hpayload] at hconversation
      refine call_warranted (.query (.participantsAmong _ _)) trivial fun rows => ?_
      show Async.Along _ _ (if rows.length ≠ 2 then _ else _) _
      split
      case isTrue => exact trivial
      case isFalse hrows =>
        refine .await ?_ fun _ => trivial
        exact ⟨id, msg, client, conversationId, rows, hc, by simp, rfl, ht, hpayload, hconversation, not_not.mp hrows,
          by simp⟩

theorem dispatch_warranted {id : Nat} {msg : Json} (hc : call = .message id (some msg)) (client : Option ConnectedClient)
    (type : Option Json) : (dispatch platform id msg client type).Along (Warranted platform call) (fun _ _ => True) h := by
  unfold dispatch
  split
  · split
    · exact handleJoin_warranted ⟨_, hc⟩
    split
    · exact handleWebRTCSignal_warranted hc ‹_›
    split
    · cases client with
      | some client => exact .await trivial fun _ => trivial
      | none => exact trivial
    · exact trivial
  · exact trivial

/-- The handler of a frame. -/
theorem handleMessage_warranted {id : Nat} {msg : Json} (hc : call = .message id (some msg)) :
    (handleMessage platform id msg).Along (Warranted platform call) (fun _ _ => True) h := by
  refine call_warranted (.getClient id) trivial fun client => ?_
  have hrest : ∀ (holds : Bool) h', Async.Along (Warranted platform call) (fun _ _ => True) (if holds then
      Async.bind (field (some msg) "type") (dispatch platform id msg client) else act (.close id)) h' := by
    intro holds h'
    cases holds with
    | false => exact .await trivial fun _ => trivial
    | true => exact field_warranted _ _ fun type _ => dispatch_warranted hc client type
  cases client with
  | none => exact hrest true _
  | some client =>
    show (Async.bind (Async.bind (rest (authenticateToken platform client.sessionToken)) _) _).Along _ _ _
    rw [Async.bind_assoc]
    exact authenticate_warranted client.sessionToken fun found h' _ _ => hrest (found == some client.userId) h'

/-- What every handler has found out. -/
theorem serveHub_along (call : HubCall) (h : HubAnswers) :
    (serveHub platform call).Along (Warranted platform call) (fun _ _ => True) h := by
  cases call with
  | request c =>
    refine Async.Along.bind ((rest_along rfl (serve_announces c []) fun x hx => (List.not_mem_nil hx).elim).mono ?_)
    intro r _ _
    cases r <;> exact trivial
  | message id data =>
    have hone : ∀ {h} {p : HubProg Unit}, p.Along (Warranted platform (.message id data)) (fun _ _ => True) h →
        (Async.bind p fun _ => .done (none : Option Response)).Along (Warranted platform (.message id data))
          (fun _ _ => True) h := by
      intro h p hp
      refine Async.Along.bind (hp.mono fun r _ _ => ?_)
      cases r <;> exact trivial
    refine hone (Async.Along.bind (Async.Along.attempt (Async.Along.mono (Q := fun _ _ => True) ?_ fun r h' _ => ?_)))
    · cases data with
      | none => exact trivial
      | some msg => exact handleMessage_warranted rfl
    · rcases r with e | u
      · exact refuse_warranted ⟨data, rfl⟩ _
      · exact trivial
  | connection => exact call_warranted (.act .connect) trivial fun _ => trivial
  | close id => exact call_warranted (.act (.closed id)) trivial fun _ => trivial
  | heartbeat id => exact call_warranted (.act (.heartbeat id)) rfl fun _ => trivial
  | cleanup => exact call_warranted (.act .cleanup) trivial fun _ => trivial

end Sockets

end Handlers

/-! ## Participants -/

/-- Nobody takes part in a conversation twice, and participants refer to rows that are there. -/
structure Db.Members (d : Db) : Prop where
  references : d.References
  once : d.participants.Pairwise fun p p' => ¬(p.conversationId = p'.conversationId ∧ p.userId = p'.userId)

section Members

variable {platform : Platform} {d d' : Db}

theorem Db.insertConversation_nodup {c : NewConversation} {participants : List Uuid}
    (h : d.insertConversation c participants = some d') : participants.Nodup := by
  by_contra hn
  unfold Db.insertConversation at h
  rw [if_pos (by simp [hn])] at h
  cases h

theorem Db.Change.members (hm : d.Members) (hc : d.Change d') : d'.Members := by
  refine ⟨hm.references.change hc, ?_⟩
  cases hc with
  | foreign _ hpart =>
    rw [hpart]
    exact hm.once
  | insertMessage hi => obtain ⟨-, rfl, -⟩ | ⟨-, -, -, -, rfl⟩ := Db.insertMessage_inv hi <;> exact hm.once
  | touchConversation i => exact hm.once
  | markLastRead i user =>
    unfold Db.markLastRead
    cases d.message i with
    | none => exact hm.once
    | some m =>
      refine List.pairwise_map.mpr (hm.once.imp fun {p p'} hne => ?_)
      have hrow : ∀ p : ParticipantRow, (if p.userId = user ∧ p.conversationId = m.conversationId then
          { p with lastReadAt := some (max (p.lastReadAt.getD 0) m.sentAt) } else p).conversationId = p.conversationId ∧
          (if p.userId = user ∧ p.conversationId = m.conversationId then
          { p with lastReadAt := some (max (p.lastReadAt.getD 0) m.sentAt) } else p).userId = p.userId := by
        intro p
        split <;> exact ⟨rfl, rfl⟩
      rw [(hrow p).1, (hrow p).2, (hrow p').1, (hrow p').2]
      exact hne
  | markRead i user => exact hm.once
  | insertConversation hi =>
    have hnodup := Db.insertConversation_nodup hi
    obtain ⟨hnew, -, rfl⟩ := Db.insertConversation_inv hi
    refine List.pairwise_append.mpr ⟨?_, hm.once, fun p hp p' hp' h => ?_⟩
    · exact List.pairwise_map.mpr (hnodup.imp fun hne h => hne h.2)
    obtain ⟨u, -, rfl⟩ := List.mem_map.mp hp
    obtain ⟨row, hrow, hid⟩ := (hm.references.participants p' hp').1
    exact hnew row hrow (hid.trans h.1.symm)

theorem Db.Members.at (hm : d.Members) (t : Nat) : (d.at t).Members :=
  ⟨⟨hm.references.messages, hm.references.participants⟩, hm.once⟩

theorem Effect.members {w w' : World} {op : Op} {a : Except ServerError (Ans op)} (he : Effect platform w op a w')
    (hm : w.db.Members) : w'.db.Members := by
  rcases he.database with hsame | ⟨q, t, x, -, hx, hd⟩
  · exact hsame ▸ hm
  · rw [hd]
    exact Db.Change.members (hm.at t) (exec_change hx)

/-- Where two of two users are found among the participants, both take part. -/
theorem Db.Members.among (hm : d.Members) {conversation u v : Uuid}
    (h : (d.participantsAmong conversation [u, v]).length = 2) : d.IsMember conversation u ∧ d.IsMember conversation v := by
  have hmem : ∀ x, x ∈ d.participantsAmong conversation [u, v] ↔ (x = u ∨ x = v) ∧ d.IsMember conversation x := by
    intro x
    unfold Db.participantsAmong Db.IsMember
    simp only [List.mem_map, List.mem_filter, Bool.and_eq_true, beq_iff_eq, List.contains_iff_mem, List.mem_cons,
      List.not_mem_nil, or_false, Option.isNone_iff_eq_none]
    constructor
    · rintro ⟨p, ⟨hp, ⟨hc, hu⟩, hl⟩, rfl⟩
      exact ⟨hu, p, hp, hc, rfl, hl⟩
    · rintro ⟨hx, p, hp, hc, rfl, hl⟩
      exact ⟨p, ⟨hp, ⟨hc, hx⟩, hl⟩, rfl⟩
  have hnodup : (d.participantsAmong conversation [u, v]).Nodup := by
    refine List.pairwise_map.mpr ((hm.once.filter _).imp_of_mem fun {p p'} hp hp' hne he => hne ⟨?_, he⟩)
    have hp := (List.mem_filter.mp hp).2
    have hp' := (List.mem_filter.mp hp').2
    simp only [Bool.and_eq_true, beq_iff_eq] at hp hp'
    exact hp.1.1.trans hp'.1.1.symm
  -- a list without repetitions of one user alone has at most one element
  have hboth : ∀ {a b : Uuid} {l : List Uuid}, l.Nodup → l.length = 2 → (∀ x ∈ l, x = a ∨ x = b) → a ∈ l := by
    intro a b l hl h2 hsub
    by_contra ha
    have hle : l.length ≤ [b].length := (List.subperm_of_subset hl fun x hx => by
      rcases hsub x hx with rfl | rfl
      · exact absurd hx ha
      · exact List.mem_singleton.mpr rfl).length_le
    simp only [List.length_cons, List.length_nil] at hle
    omega
  constructor
  · exact ((hmem u).mp (hboth hnodup h fun x hx => ((hmem x).mp hx).1)).2
  · exact ((hmem v).mp (hboth hnodup h fun x hx => ((hmem x).mp hx).1.symm)).2

end Members

/-! ## Every run -/

/-- The calls of a run, the newest first. -/
abbrev HubTrace := List (Async.Made HubCall HubOp HubAns ServerError HubState)

/-- What else happens leaves the sockets, and breaks no key. -/
def HubKept (s s' : HubState) : Prop := s'.hub = s.hub ∧ (s.world.db.Members → s'.world.db.Members)

/-- A server that has started on the database, with what was called on it. -/
abbrev Hub.Traced (platform : Platform) (w : World) (l : HubTrace)
    (c : Async.Pool HubCall HubOp HubAns ServerError (Option Response) HubState) : Prop :=
  Async.Pool.Traced (HubEffect platform) (serveHub platform) HubKept ⟨w, {}⟩ l c

/-- The user has joined on the socket, with a token that stood for the user. -/
def Joined (platform : Platform) (l : HubTrace) (ws : Nat) (user : Uuid) : Prop :=
  ∃ l₁ e l₀ data deviceId conversationId token, l = l₁ ++ e :: l₀ ∧ e.call = .message ws data ∧
    e.answered.op = .act (.register ws user deviceId conversationId token) ∧
    ⟨.rest (.sql (.authenticate (platform.tokenHash token))), .ok (some user)⟩ ∈ Async.callsOf e.number l₀

/-- Why a frame is on a socket: the handler of a frame from this socket has answered it; or the heartbeat of this socket has
pinged it; or a client that had joined as `sender` has sent it to `recipient`, who had joined on the socket, and both took
part in the conversation that it names; or it tells of a message that a participant has stored, and is for another one who
had joined on the socket. -/
inductive Delivered (platform : Platform) (l : HubTrace) (ws : Nat) (signal : Signal) : Prop
  | answered {l₁ l₀ : HubTrace} {e : Async.Made HubCall HubOp HubAns ServerError HubState} {data : Option Json}
    (hl : l = l₁ ++ e :: l₀) (hc : e.call = .message ws data)
    (hop : e.answered.op = .act (.send ws signal.type signal.payload))
    (hsignal : signal.type ∈ ["error", "join"] ∧ signal.sender = "server" ∧ signal.recipient = none)
  | pinged {l₁ l₀ : HubTrace} {e : Async.Made HubCall HubOp HubAns ServerError HubState} {now : Nat}
    (hl : l = l₁ ++ e :: l₀) (hc : e.call = .heartbeat ws) (hsignal : signal = ⟨"ping", .obj [], "server", none, now⟩)
  | relayed {l₁ l₀ : HubTrace} {e f : Async.Made HubCall HubOp HubAns ServerError HubState} {id : Nat} {msg : Json}
    {sender recipient conversation : Uuid} {text : List Char} (hl : l = l₁ ++ e :: l₀) (hc : e.call = .message id (some msg))
    (hsignal : signal.type ∈ ["offer", "answer", "ice-candidate", "call-end"] ∧
      fieldOrUndefined (some msg) "payload" = some signal.payload ∧ signal.sender = sender.text ∧
      signal.recipient = some recipient.text)
    (hsender : Joined platform l₀ id sender) (hrecipient : Joined platform l₀ ws recipient)
    (hconversation : fieldOrUndefined (some signal.payload) "conversationId" = some (.str text) ∧
      Uuid.read (String.ofList text) = some conversation)
    (hmembers : f ∈ l₀ ∧ f.number = e.number ∧ f.after.world.db.IsMember conversation sender ∧
      f.after.world.db.IsMember conversation recipient)
  | announced {l₁ l₀ : HubTrace} {e f : Async.Made HubCall HubOp HubAns ServerError HubState} {c : Call} {n : Notification}
    {h₀ : List (Async.Answered Op Ans ServerError)} {sender recipient conversation : Uuid} {now : Nat}
    (hl : l = l₁ ++ e :: l₀) (hc : e.call = .request c) (hsignal : signal = newMessage n now)
    (hsender : Among h₀ (Async.callsOf e.number l₀) ∧ Telling platform c h₀ n sender)
    (hrecipient : Joined platform l₀ ws recipient) (hconversation : Uuid.read n.conversationId = some conversation)
    (hmembers : f ∈ l₀ ∧ f.number = e.number ∧ f.after.world.db.IsMember conversation recipient ∧ recipient ≠ sender)

section Runs

variable {platform : Platform} {w : World} {l : HubTrace}
  {c : Async.Pool HubCall HubOp HubAns ServerError (Option Response) HubState}

theorem Joined.mono {l₀ : HubTrace} {ws : Nat} {user : Uuid} (l₁ : HubTrace) (h : Joined platform l₀ ws user) :
    Joined platform (l₁ ++ l₀) ws user := by
  obtain ⟨l₂, e, l₃, data, deviceId, conversationId, token, rfl, h⟩ := h
  exact ⟨l₁ ++ l₂, e, l₃, data, deviceId, conversationId, token, (List.append_assoc _ _ _).symm, h⟩

/-- What a call does to the sockets: an act, or the announcement of a message. -/
theorem HubEffect.hub {s s' : HubState} {op : HubOp} {a : Except ServerError (HubAns op)}
    (he : HubEffect platform s op a s') : s'.hub = s.hub ∨ (∃ act now, op = .act act ∧ s'.hub = s.hub.act now act) ∨
      ∃ n now, op = .rest (.notify n) ∧ s'.hub = s.hub.announce n now := by
  cases he with
  | @rest w w' op a h now he =>
    cases op with
    | notify n => exact Or.inr (Or.inr ⟨n, now, rfl, rfl⟩)
    | _ => exact Or.inl rfl
  | act w h now a => exact Or.inr (Or.inl ⟨a, now, rfl, rfl⟩)
  | _ => exact Or.inl rfl

theorem HubEffect.members {s s' : HubState} {op : HubOp} {a : Except ServerError (HubAns op)}
    (he : HubEffect platform s op a s') (hm : s.world.db.Members) : s'.world.db.Members := by
  cases he with
  | rest h now he => exact he.members hm
  | query w h q t a he => exact hm.at t
  | _ => exact hm

theorem HubEffect.indexed {s s' : HubState} {op : HubOp} {a : Except ServerError (HubAns op)}
    (he : HubEffect platform s op a s') (hi : s.hub.Indexed) : s'.hub.Indexed := by
  rcases he.hub with hsame | ⟨act, now, -, hact⟩ | ⟨n, now, -, hn⟩
  · exact hsame ▸ hi
  · exact hact ▸ hi.act now act
  · exact hn ▸ (Hub.announce_same _ _ _).indexed hi

theorem HubEffect.getClient_inv {s s' : HubState} {id : Nat} {a : Except ServerError (Option ConnectedClient)}
    (he : HubEffect platform s (.getClient id) a s') : a = .ok (s.hub.clients.lookup id) := by
  cases he with
  | getClient s id => rfl

theorem HubEffect.act_inv {s s' : HubState} {act : HubAct} {a : Except ServerError Unit}
    (he : HubEffect platform s (.act act) a s') : ∃ now, s'.hub = s.hub.act now act := by
  cases he with
  | act w h now a => exact ⟨now, rfl⟩

/-- The run up to a call. -/
theorem Hub.Traced.upTo (h : Hub.Traced platform w l c) {l₁ l₀ : HubTrace}
    {e : Async.Made HubCall HubOp HubAns ServerError HubState} (hl : l = l₁ ++ e :: l₀) :
    ∃ c₀, Hub.Traced platform w l₀ c₀ ∧ c₀.state = e.before := h.before hl

theorem Hub.Traced.members (hm : w.db.Members) (h : Hub.Traced platform w l c) : c.state.world.db.Members :=
  h.always (K := fun s => s.world.db.Members) hm (fun he hK => he.members hK) fun ho hK => ho.2 hK

theorem Hub.Traced.indexed (h : Hub.Traced platform w l c) : c.state.hub.Indexed := by
  have hempty : Hub.Indexed {} := ⟨fun id c hc => (nomatch hc), fun user ids hu => nomatch hu⟩
  exact h.always (K := fun s => s.hub.Indexed) hempty (fun he hK => he.indexed hK) fun ho hK => ho.1 ▸ hK

theorem Hub.Traced.warranted (h : Hub.Traced platform w l c) {l₁ l₀ : HubTrace}
    {e : Async.Made HubCall HubOp HubAns ServerError HubState} (hl : l = l₁ ++ e :: l₀) :
    Warranted platform e.call (Async.callsOf e.number l₀) e.answered.op :=
  h.called (fun call => serveHub_along call []) hl

/-- A client that is registered has joined. -/
theorem Hub.Traced.registered (h : Hub.Traced platform w l c) {l₁ l₀ : HubTrace}
    {e : Async.Made HubCall HubOp HubAns ServerError HubState} (hl : l = l₁ ++ e :: l₀) {id : Nat} {user : Uuid}
    {deviceId : Json} {conversationId : Option Json} {token : String}
    (hop : e.answered.op = .act (.register id user deviceId conversationId token)) : Joined platform l id user := by
  have hw := h.warranted hl
  rw [hop] at hw
  obtain ⟨⟨data, hcall⟩, ha⟩ := hw
  exact ⟨l₁, e, l₀, data, deviceId, conversationId, token, hl, hcall, hop, ha⟩

/-- A client in the map has joined as its user. -/
theorem Hub.Traced.client_joined (h : Hub.Traced platform w l c) {id : Nat} {client : ConnectedClient}
    (hc : c.state.hub.clients.lookup id = some client) : Joined platform l id client.userId := by
  have hsource := h.source (K := fun s => ∃ c, s.hub.clients.lookup id = some c ∧ c.userId = client.userId)
    (M := fun e => ∃ deviceId conversationId token,
      e.answered.op = .act (.register id client.userId deviceId conversationId token))
    (fun e he hK => by
      obtain ⟨c, hc, hu⟩ := hK
      rcases he.hub with hsame | ⟨act, now, hop, hact⟩ | ⟨n, now, -, hn⟩
      · rw [hsame] at hc
        exact Or.inl ⟨c, hc, hu⟩
      · rw [hact] at hc
        rcases Hub.act_clients hc with ⟨c', hc', hu'⟩ | ⟨deviceId, conversationId, token, rfl⟩
        · exact Or.inl ⟨c', hc', hu'.trans hu⟩
        · exact Or.inr ⟨deviceId, conversationId, token, hu ▸ hop⟩
      · rw [hn, (Hub.announce_same _ _ _).clients] at hc
        exact Or.inl ⟨c, hc, hu⟩)
    (fun ho hK => ho.1 ▸ hK) ⟨client, hc, rfl⟩
  rcases hsource with ⟨c, hc, -⟩ | ⟨l₁, e, l₀, hl, deviceId, conversationId, token, hop⟩
  · cases hc
  · exact h.registered hl hop

/-- A member of the set of a user has joined as that user. -/
theorem Hub.Traced.member_joined (h : Hub.Traced platform w l c) {id : Nat} {user : String}
    (hm : id ∈ c.state.hub.members user) : ∃ u : Uuid, u.text = user ∧ Joined platform l id u := by
  have hsource := h.source (K := fun s => id ∈ s.hub.members user) (M := fun e => ∃ u deviceId conversationId token,
      e.answered.op = .act (.register id u deviceId conversationId token) ∧ u.text = user)
    (fun e he hm => by
      rcases he.hub with hsame | ⟨act, now, hop, hact⟩ | ⟨n, now, -, hn⟩
      · exact Or.inl (hsame ▸ hm)
      · rw [hact] at hm
        rcases Hub.act_members hm with hm | ⟨u, deviceId, conversationId, token, rfl, hu⟩
        · exact Or.inl hm
        · exact Or.inr ⟨u, deviceId, conversationId, token, hop, hu⟩
      · rw [hn, Hub.members, (Hub.announce_same _ _ _).userClients] at hm
        exact Or.inl hm)
    (fun ho hm => ho.1 ▸ hm) hm
  rcases hsource with hm | ⟨l₁, e, l₀, hl, u, deviceId, conversationId, token, hop, hu⟩
  · exact absurd hm List.not_mem_nil
  · exact ⟨u, hu, h.registered hl hop⟩

/-- A frame for a user goes to sockets on which that user has joined. -/
theorem Hub.Traced.reaches_joined (h : Hub.Traced platform w l c) {ws : Nat} {user : String}
    (hr : c.state.hub.Reaches user ws) : ∃ u : Uuid, u.text = user ∧ Joined platform l ws u := by
  obtain ⟨id, hid, client, hc, hws⟩ := hr
  rw [← hws, (h.indexed.own id client hc).2.1]
  exact h.member_joined hid

/-- A statement of the module that was answered. -/
theorem Hub.Traced.asked (h : Hub.Traced platform w l c) {n : Nat} {q : HubSql} {a : q.Rows}
    (ha : ⟨.query q, .ok a⟩ ∈ Async.callsOf n l) :
    ∃ f ∈ l, f.number = n ∧ q.exec f.after.world.db = some a := by
  obtain ⟨f, hf, hn, hans⟩ := Async.mem_callsOf.mp ha
  have he := h.made hf
  obtain ⟨number, call, answered, before, after⟩ := f
  obtain rfl : answered = _ := hans
  cases he with
  | query w h q t a he => exact ⟨_, hf, hn, he⟩

/-- A statement of the API that was answered. -/
theorem Hub.Traced.executed (h : Hub.Traced platform w l c) {n : Nat} {q : Sql} {a : q.Rows}
    (ha : ⟨.rest (.sql q), .ok a⟩ ∈ Async.callsOf n l) :
    ∃ f ∈ l, f.number = n ∧ ∃ d, exec platform d q = some (a, f.after.world.db) := by
  obtain ⟨f, hf, hn, hans⟩ := Async.mem_callsOf.mp ha
  have he := h.made hf
  obtain ⟨number, call, answered, before, after⟩ := f
  obtain rfl : answered = _ := hans
  cases he with
  | @rest w w' _ _ hub now he =>
    obtain ⟨t, hexec⟩ := he.answered
    exact ⟨_, hf, hn, w.db.at t, hexec⟩

/-- A client that was found in the map has joined as its user. -/
theorem Hub.Traced.found_joined (h : Hub.Traced platform w l c) {n id : Nat} {client : ConnectedClient}
    (ha : ⟨.getClient id, .ok (some client)⟩ ∈ Async.callsOf n l) : Joined platform l id client.userId := by
  obtain ⟨f, hf, -, hans⟩ := Async.mem_callsOf.mp ha
  obtain ⟨l₁, l₀, rfl⟩ := List.append_of_mem hf
  obtain ⟨c₀, h₀, hstate⟩ := h.upTo rfl
  have he := h.made hf
  have hlookup : c₀.state.hub.clients.lookup id = some client := by
    rw [hstate]
    obtain ⟨number, call, answered, before, after⟩ := f
    obtain rfl : answered = _ := hans
    exact (Except.ok.inj he.getClient_inv).symm
  have hjoined := Joined.mono (l₁ ++ [f]) (h₀.client_joined hlookup)
  rwa [List.append_assoc] at hjoined

/-- The participants whom `POST /messages` tells take part, and are not the sender. -/
theorem mem_otherParticipants {d d' : Db} {conversationId : String} {sender u : Uuid} {users : List Uuid}
    (h : exec platform d (.otherParticipants conversationId sender) = some (users, d')) (hu : u ∈ users) :
    ∃ conversation, Uuid.read conversationId = some conversation ∧ d'.IsMember conversation u ∧ u ≠ sender := by
  obtain ⟨conversation, hread, h⟩ := Option.bind_eq_some_iff.mp h
  obtain ⟨rfl, rfl⟩ := Prod.mk.inj (Option.some.inj h)
  obtain ⟨p, hp, rfl⟩ := List.mem_map.mp hu
  obtain ⟨hp, hc⟩ := List.mem_filter.mp hp
  simp only [Bool.and_eq_true, beq_iff_eq, bne_iff_ne, ne_eq, Option.isNone_iff_eq_none] at hc
  exact ⟨conversation, hread, ⟨p, hp, hc.1.1.1, rfl, hc.1.2⟩, hc.1.1.2⟩

/-- A signal that a client sends to a user whom it reaches. -/
theorem Hub.Traced.relayed (hm : w.db.Members) (h : Hub.Traced platform w l c) {l₁ l₀ : HubTrace}
    {e : Async.Made HubCall HubOp HubAns ServerError HubState} (hl : l = l₁ ++ e :: l₀) {user type sender : String}
    {payload : Json} {ws now : Nat} (hop : e.answered.op = .act (.broadcast user type payload sender))
    (hr : e.before.hub.Reaches user ws) : Delivered platform l ws ⟨type, payload, sender, some user, now⟩ := by
  have hw := h.warranted hl
  rw [hop] at hw
  obtain ⟨id, msg, client, text, rows, hcall, hfound, rfl, htype, hpayload, hconversation, hrows, hasked⟩ := hw
  obtain ⟨c₀, h₀, hstate⟩ := h.upTo hl
  obtain ⟨recipient, rfl, hrecipient⟩ := h₀.reaches_joined (by rw [hstate]; exact hr)
  obtain ⟨f, hf, hn, hexec⟩ := h₀.asked hasked
  obtain ⟨conversation, hread, hexec⟩ := Option.bind_eq_some_iff.mp hexec
  have husers : [client.userId.text, recipient.text].mapM Uuid.read = some [client.userId, recipient] := by
    simp [Uuid.read_text]
  rw [husers] at hexec
  obtain rfl := Option.some.inj hexec
  have hmembers : f.after.world.db.Members := by
    obtain ⟨l₂, l₃, rfl⟩ := List.append_of_mem hf
    obtain ⟨c₁, h₁, hstate₁⟩ := h₀.upTo rfl
    exact (h₀.made hf).members (hstate₁ ▸ h₁.members hm)
  obtain ⟨h1, h2⟩ := hmembers.among hrows
  exact .relayed hl hcall ⟨htype, hpayload, rfl, rfl⟩ (h₀.found_joined hfound) hrecipient ⟨hconversation, hread⟩
    ⟨hf, hn, h1, h2⟩

/-- A new message that is announced to a user whom the frame reaches. -/
theorem Hub.Traced.announced (h : Hub.Traced platform w l c) {l₁ l₀ : HubTrace}
    {e : Async.Made HubCall HubOp HubAns ServerError HubState} (hl : l = l₁ ++ e :: l₀) {n : Notification} {u : Uuid}
    {ws now : Nat} (hop : e.answered.op = .rest (.notify n)) (hu : u ∈ n.users) (hr : e.before.hub.Reaches u.text ws) :
    Delivered platform l ws (newMessage n now) := by
  have hw := h.warranted hl
  rw [hop] at hw
  obtain ⟨call, h₀, sender, hcall, hamong, hannounced⟩ := hw
  obtain ⟨c₀, hrun, hstate⟩ := h.upTo hl
  obtain ⟨recipient, htext, hrecipient⟩ := hrun.reaches_joined (by rw [hstate]; exact hr)
  obtain rfl := Uuid.text_injective htext
  obtain ⟨f, hf, hn, d, hexec⟩ := hrun.executed (hamong _ hannounced.others)
  obtain ⟨conversation, hread, hmember, hne⟩ := mem_otherParticipants hexec hu
  exact .announced hl hcall rfl ⟨hamong, hannounced⟩ hrecipient hread ⟨hf, hn, hmember, hne⟩

/-- Every frame on a socket answers a frame from this socket, or is the ping of its heartbeat, or was sent by a client that had
joined as its sender to a participant of the conversation who had joined on the socket, or tells a participant who had
joined on the socket of a message that another one has stored. -/
theorem signaling_delivery (hm : w.db.Members) (h : Hub.Traced platform w l c) :
    ∀ x ∈ c.state.hub.sent, Delivered platform l x.1 x.2 := by
  intro x hx
  have hsource := h.source (K := fun s => x ∈ s.hub.sent) (M := fun e =>
      (∃ now, e.answered.op = .act (.heartbeat x.1) ∧ x.2 = ⟨"ping", .obj [], "server", none, now⟩) ∨
      (∃ user type payload sender now, e.answered.op = .act (.broadcast user type payload sender) ∧
        x.2 = ⟨type, payload, sender, some user, now⟩ ∧ e.before.hub.Reaches user x.1) ∨
      (∃ type payload now, e.answered.op = .act (.send x.1 type payload) ∧ x.2 = ⟨type, payload, "server", none, now⟩) ∨
      ∃ n u now, e.answered.op = .rest (.notify n) ∧ u ∈ n.users ∧ x.2 = newMessage n now ∧
        e.before.hub.Reaches u.text x.1)
    (fun e he hx => by
      rcases he.hub with hsame | ⟨act, now, hop, hact⟩ | ⟨n, now, hop, hn⟩
      · exact Or.inl (hsame ▸ hx)
      · rw [hact] at hx
        rcases Hub.act_sent hx with hx | ⟨type, payload, rfl, hs⟩ | ⟨rfl, hs⟩ | ⟨user, type, payload, sender, rfl, hs, hr⟩
        · exact Or.inl hx
        · exact Or.inr (Or.inr (Or.inr (Or.inl ⟨type, payload, now, hop, hs⟩)))
        · exact Or.inr (Or.inl ⟨now, hop, hs⟩)
        · exact Or.inr (Or.inr (Or.inl ⟨user, type, payload, sender, now, hop, hs, hr⟩))
      · rw [hn] at hx
        rcases Hub.mem_announce.mp hx with hx | ⟨hs, -, u, hu, hr⟩
        · exact Or.inl hx
        · exact Or.inr (Or.inr (Or.inr (Or.inr ⟨n, u, now, hop, hu, hs, hr⟩))))
    (fun ho hx => ho.1 ▸ hx) hx
  rcases hsource with hx | ⟨l₁, e, l₀, hl, ⟨now, hop, hs⟩ | ⟨user, type, payload, sender, now, hop, hs, hr⟩ |
    ⟨type, payload, now, hop, hs⟩ | ⟨n, u, now, hop, hu, hs, hr⟩⟩
  · exact absurd hx List.not_mem_nil
  · have hw := h.warranted hl
    rw [hop] at hw
    exact .pinged hl hw hs
  · rw [hs]
    exact h.relayed hm hl hop hr
  · have hw := h.warranted hl
    rw [hop] at hw
    obtain ⟨⟨data, hc⟩, htype⟩ := hw
    rw [hs]
    exact .answered hl hc hop ⟨htype, rfl, rfl⟩
  · rw [hs]
    exact h.announced hl hop hu hr

/-- In every run each client is listed under its user and no list is empty, and a broadcast to a user adds its frame and
nothing else, on open sockets that it reaches and on every open socket whose client is the user's. -/
theorem signaling_index (h : Hub.Traced platform w l c) : c.state.hub.Indexed ∧
    ∀ e ∈ l, ∀ user type payload sender, e.answered.op = .act (.broadcast user type payload sender) →
      ∃ now added, e.after.hub.sent = added ++ e.before.hub.sent ∧
        (∀ x ∈ added, x.2 = ⟨type, payload, sender, some user, now⟩ ∧ (e.before.hub.sockets x.1).isOpen = true ∧
          e.before.hub.Reaches user x.1) ∧
        ∀ id client, e.before.hub.clients.lookup id = some client → client.userId.text = user →
          (e.before.hub.sockets id).isOpen = true → (id, ⟨type, payload, sender, some user, now⟩) ∈ added := by
  refine ⟨h.indexed, fun e he user type payload sender hop => ?_⟩
  obtain ⟨now, hhub⟩ : ∃ now, e.after.hub = e.before.hub.act now (.broadcast user type payload sender) := by
    have heff := h.made he
    obtain ⟨number, call, ⟨op, a⟩, before, after⟩ := e
    obtain rfl : op = _ := hop
    exact heff.act_inv
  obtain ⟨added, hsent, hmem⟩ := e.before.hub.broadcast_sent user ⟨type, payload, sender, some user, now⟩
  refine ⟨now, added, by rw [hhub]; exact hsent, fun x hx => (hmem x).mp hx, fun id client hc hu hopen => ?_⟩
  obtain ⟨l₁, l₀, hl⟩ := List.append_of_mem he
  obtain ⟨c₀, h₀, hstate⟩ := h.upTo hl
  have hown := h₀.indexed.own id client (by rw [hstate]; exact hc)
  rw [hstate, hu] at hown
  exact (hmem _).mpr ⟨rfl, hopen, id, hown.2.2, client, hc, hown.2.1⟩

end Runs

/-! ## One account a socket -/

/-- No socket joins again as another user, and none joins after its close was handled. -/
structure Orderly (l : HubTrace) : Prop where
  same : ∀ e ∈ l, ∀ id user deviceId conversationId token,
    e.answered.op = .act (.register id user deviceId conversationId token) →
      ∀ c, e.before.hub.clients.lookup id = some c → c.userId = user
  closed : ∀ l₁ e l₀, l = l₁ ++ e :: l₀ → ∀ id user deviceId conversationId token,
    e.answered.op = .act (.register id user deviceId conversationId token) → ∀ f ∈ l₀, f.answered.op ≠ .act (.closed id)

/-- The index and the clients say the same: who is listed under a user is the client of that user and of no other one, no set
is empty, and nothing is left of a socket whose close was handled. -/
structure Mirrored (l : HubTrace) (h : Hub) : Prop where
  members : ∀ id user, id ∈ h.members user ↔ ∃ c, h.clients.lookup id = some c ∧ c.userId.text = user
  alone : ∀ id user user', id ∈ h.members user → id ∈ h.members user' → user = user'
  full : ∀ user ids, h.userClients.lookup user = some ids → ids ≠ []
  closed : ∀ e ∈ l, ∀ id, e.answered.op = .act (.closed id) → h.clients.lookup id = none ∧ ∀ user, id ∉ h.members user

section Mirror

variable {platform : Platform} {w : World} {l : HubTrace}
  {c : Async.Pool HubCall HubOp HubAns ServerError (Option Response) HubState}

theorem Hub.Traced.listed (h : Hub.Traced platform w l c) (ho : Orderly l) : c.state.hub.Listed := by
  have hempty : Hub.Listed {} := fun id user hm => absurd hm List.not_mem_nil
  refine h.kept (K := fun s => s.hub.Listed) hempty (fun e he heff hK => ?_) fun ho hK => ho.1 ▸ hK
  rcases heff.hub with hsame | ⟨act, now, hop, hact⟩ | ⟨n, now, -, hn⟩
  · exact hsame ▸ hK
  · rw [hact]
    refine hK.act now fun id user deviceId conversationId token ha => ?_
    exact ho.same e he id user deviceId conversationId token (ha ▸ hop)
  · exact hn ▸ (Hub.announce_same _ _ _).listed hK

/-- A socket whose close was handled has no client while none joins on it. -/
theorem Hub.Traced.gone (h : Hub.Traced platform w l c) (ho : Orderly l)
    {e : Async.Made HubCall HubOp HubAns ServerError HubState} (he : e ∈ l) {id : Nat}
    (hop : e.answered.op = .act (.closed id)) : c.state.hub.clients.lookup id = none := by
  obtain ⟨l₁, l₀, hl⟩ := List.append_of_mem he
  have hafter : e.after.hub.clients.lookup id = none := by
    have heff := h.made he
    obtain ⟨number, call, ⟨op, a⟩, before, after⟩ := e
    obtain rfl : op = _ := hop
    obtain ⟨now, hhub⟩ := heff.act_inv
    rw [hhub]
    show (Hub.disconnect _ id).clients.lookup id = none
    rw [Hub.disconnect_clients, AList.lookup_erase]
  have hstep : ∀ f : Async.Made HubCall HubOp HubAns ServerError HubState,
      HubEffect platform f.before f.answered.op f.answered.answer f.after → f.before.hub.clients.lookup id = none →
      f.after.hub.clients.lookup id = none ∨ ∃ user deviceId conversationId token,
        f.answered.op = .act (.register id user deviceId conversationId token) := by
    intro f hf hK
    rcases hf.hub with hsame | ⟨act, now, hop, hact⟩ | ⟨n, now, -, hn⟩
    · exact Or.inl (hsame ▸ hK)
    · rw [hact]
      exact (Hub.act_absent hK).imp_right fun ⟨user, deviceId, conversationId, token, ha⟩ =>
        ⟨user, deviceId, conversationId, token, ha ▸ hop⟩
    · refine Or.inl ?_
      rw [hn, (Hub.announce_same _ _ _).clients]
      exact hK
  rcases h.between (K := fun s => s.hub.clients.lookup id = none) hstep (fun ho hK => ho.1 ▸ hK) hl hafter with
    hK | ⟨f, hf, user, deviceId, conversationId, token, hreg⟩
  · exact hK
  · obtain ⟨l₂, l₃, rfl⟩ := List.append_of_mem hf
    have hsplit : l = l₂ ++ f :: (l₃ ++ e :: l₀) := by rw [hl, List.append_assoc, List.cons_append]
    exact absurd hop (ho.closed l₂ f _ hsplit id user deviceId conversationId token hreg e (by simp))

/-- While no socket joins again as another user or after its close, the index is the clients by their users. The first call
that breaks this breaks the index. -/
theorem signaling_mirrored (h : Hub.Traced platform w l c) : (Orderly l → Mirrored l c.state.hub) ∧
    ∀ e l₀, l = e :: l₀ → Orderly l₀ → Mirrored l c.state.hub → Orderly l := by
  refine ⟨fun ho => ?_, fun e l₀ hl ho₀ hm => ?_⟩
  · have hlisted := h.listed ho
    have hgone : ∀ e ∈ l, ∀ id, e.answered.op = .act (.closed id) → c.state.hub.clients.lookup id = none :=
      fun e he id hop => h.gone ho he hop
    refine ⟨fun id user => ⟨hlisted id user, ?_⟩, fun id user user' hu hu' => ?_, h.indexed.full, fun e he id hop => ?_⟩
    · rintro ⟨c, hc, rfl⟩
      exact (h.indexed.own id c hc).2.2
    · obtain ⟨c, hc, rfl⟩ := hlisted id user hu
      obtain ⟨c', hc', rfl⟩ := hlisted id user' hu'
      rw [hc] at hc'
      cases hc'
      rfl
    · refine ⟨hgone e he id hop, fun user hu => ?_⟩
      obtain ⟨c, hc, -⟩ := hlisted id user hu
      rw [hgone e he id hop] at hc
      cases hc
  · subst hl
    have hstate : c.state.hub = e.after.hub := by
      rcases h.between (K := fun s => s.hub = e.after.hub) (U := fun _ => True) (fun _ _ _ => Or.inr trivial)
        (fun ho hK => ho.1.trans hK) (List.nil_append _).symm rfl with hK | ⟨_, he, -⟩
      · exact hK
      · exact absurd he List.not_mem_nil
    -- what the last call has registered, if it registers a client
    have hlast : ∀ id user deviceId conversationId token,
        e.answered.op = .act (.register id user deviceId conversationId token) → ∃ now, c.state.hub =
          e.before.hub.register ⟨id, id, user, deviceId, conversationId, now, token, e.before.hub.objects⟩ := by
      intro id user deviceId conversationId token hop
      have heff := h.made List.mem_cons_self
      obtain ⟨number, call, ⟨op, a⟩, before, after⟩ := e
      obtain rfl : op = _ := hop
      obtain ⟨now, hhub⟩ := heff.act_inv
      exact ⟨now, hstate.trans hhub⟩
    refine ⟨fun f hf id user deviceId conversationId token hop c' hc => ?_,
      fun l₁ f l₂ hl id user deviceId conversationId token hop g hg hclosed => ?_⟩
    · rcases List.mem_cons.mp hf with rfl | hf
      · obtain ⟨c₀, h₀, hbefore⟩ := h.upTo (List.nil_append _).symm
        have hown := (h₀.indexed.own id c' (by rw [hbefore]; exact hc)).2.2
        rw [hbefore] at hown
        obtain ⟨now, hhub⟩ := hlast id user deviceId conversationId token hop
        rw [hhub] at hm
        exact Uuid.text_injective (hm.alone id _ _ (Hub.register_keeps _ hown) (Hub.register_listed _ _).2)
      · exact ho₀.same f hf id user deviceId conversationId token hop c' hc
    · cases l₁ with
      | nil =>
        obtain ⟨rfl, rfl⟩ := List.cons.inj hl
        obtain ⟨now, hhub⟩ := hlast id user deviceId conversationId token hop
        have hnone := (hm.closed g (List.mem_cons_of_mem _ hg) id hclosed).1
        rw [hhub] at hnone
        have hsome := (e.before.hub.register_listed
          ⟨id, id, user, deviceId, conversationId, now, token, e.before.hub.objects⟩).1
        exact absurd (hnone.symm.trans hsome) (by simp)
      | cons x l₁ =>
        exact ho₀.closed l₁ f l₂ (List.cons.inj hl).2 id user deviceId conversationId token hop g hg hclosed

end Mirror

/-! ## A call between two users -/

namespace Callers

open Reader (uuid)

def token (c : Char) : String := String.ofList (List.replicate 64 c)

/-- A token is its own hash. -/
def platform : Platform := { Reader.platform with tokenHash := id }

/-- Two users with sessions who share a conversation. -/
def world : World :=
  ⟨{ users := [⟨uuid 1, "05", "caller", "", "", "", 0, none, true⟩, ⟨uuid 2, "05", "callee", "", "", "", 0, none, true⟩]
     sessions := [⟨token '0', uuid 1, 100⟩, ⟨token '1', uuid 2, 100⟩]
     conversations := [⟨uuid 3, "direct", none, none, uuid 1, 0, 0⟩]
     participants := [⟨uuid 3, uuid 1, true, none, some 0⟩, ⟨uuid 3, uuid 2, false, none, some 0⟩] }, {}⟩

def device : Json := .str "device".toList

def joinFrame (token : String) : Json :=
  .obj [("type".toList, .str "join".toList),
    ("payload".toList, .obj [("deviceId".toList, device), ("token".toList, .str token.toList)])]

def callPayload : Json := .obj [("conversationId".toList, .str (uuid 3).text.toList), ("callId".toList, .str "call".toList)]

def offerFrame : Json :=
  .obj [("type".toList, .str "offer".toList), ("to".toList, .str (uuid 2).text.toList), ("payload".toList, callPayload)]

/-- A call that registers no client again as another user, and after which no close was handled. -/
def Calm (s : HubState) (op : HubOp) (a : Except ServerError (HubAns op)) (s' : HubState) : Prop :=
  HubEffect platform s op a s' ∧ (∀ id, op ≠ .act (.closed id)) ∧ ∀ id user deviceId conversationId token,
    op = .act (.register id user deviceId conversationId token) → ∀ c, s.hub.clients.lookup id = some c → c.userId = user

/-- A call that neither registers a client nor closes a socket. -/
theorem Calm.other {s s' : HubState} {op : HubOp} {a : Except ServerError (HubAns op)} (h : HubEffect platform s op a s')
    (hop : ∀ act, op = .act act → (∃ ws type payload, act = .send ws type payload) ∨
      (∃ user type payload sender, act = .broadcast user type payload sender) ∨ act = .connect) : Calm s op a s' := by
  refine ⟨h, fun id hid => ?_, fun id user deviceId conversationId token hid => ?_⟩
  · rcases hop _ hid with ⟨_, _, _, h⟩ | ⟨_, _, _, _, h⟩ | h <;> cases h
  · rcases hop _ hid with ⟨_, _, _, h⟩ | ⟨_, _, _, _, h⟩ | h <;> cases h

/-- The sockets after a client has joined. -/
def joined (h : Hub) (id : Nat) (user : Uuid) (token : String) : Hub :=
  (h.act 0 (.register id user device none token)).act 0 (.send id "join"
    (.obj [("status".toList, .str "ok".toList), ("clientId".toList, .str (toString id).toList)]))

theorem members : world.db.Members where
  references := by
    refine ⟨nofun, fun p hp => ?_⟩
    simp only [world, List.mem_cons, List.not_mem_nil, or_false] at hp
    rcases hp with rfl | rfl
    · exact ⟨⟨_, List.mem_cons_self, rfl⟩, _, List.mem_cons_self, rfl⟩
    · exact ⟨⟨_, List.mem_cons_self, rfl⟩, _, List.mem_cons_of_mem _ List.mem_cons_self, rfl⟩
  once := by
    have hne : uuid 1 ≠ uuid 2 := by decide
    simp [world, hne]

/-- A statement of the module on the database as it is. -/
theorem query_atOnce {w : World} {h : Hub} {q : HubSql} {a : q.Rows} (he : q.exec w.db = some a) :
    Calm ⟨w, h⟩ (.query q) (.ok a) ⟨w, h⟩ := by
  have hd : w.db.at 0 = w.db := by rw [Db.at, Nat.max_zero]
  have hq : HubEffect platform ⟨w, h⟩ (.query q) (.ok a) ⟨{ w with db := w.db.at 0 }, h⟩ := .query w h q 0 a (hd.symm ▸ he)
  rw [hd] at hq
  exact .other hq (by rintro act ⟨⟩)

theorem authenticate_runs {w : World} {h : Hub} {token : String} {user : Uuid} (hx : Zod.isHex64 token = true)
    (ha : w.db.authenticate token = some user) : Async.Runs Calm (rest (authenticateToken platform token))
      ⟨w, h⟩ (some (.ok (some user))) ⟨w, h⟩ := by
  have he : Effect platform w (.sql (.authenticate token)) (.ok (some user)) w :=
    .atOnce (congrArg (fun u => some (u, w.db)) ha)
  unfold authenticateToken
  rw [if_pos hx]
  exact .call (.other (.rest h 0 he) nofun) (.done _ _)

/-- What the handler of a frame does, from its fields. -/
theorem handleMessage_obj {id : Nat} {fields : List (List Char × Json)} (type : String)
    (ht : Zod.lookup fields "type" = some (.str type.toList)) :
    handleMessage platform id (.obj fields) = (getClient id).bind fun client =>
      (sessionHolds platform client).bind fun holds =>
        if holds then dispatch platform id (.obj fields) client (some (.str type.toList)) else act (.close id) := by
  show Async.bind (getClient id) _ = _
  congr
  funext client
  show Async.bind (sessionHolds platform client) _ = _
  congr
  funext holds
  have hfield : field (some (.obj fields)) "type" = .done (some (.str type.toList)) := by rw [← ht]; rfl
  simp only [hfield, Async.bind_eq, Async.done_bind]

/-- What a join does, from its fields. -/
theorem handleJoin_obj {id : Nat} {fields payload : List (List Char × Json)} {deviceId conversationId : Option Json}
    {token : String} (hp : Zod.lookup fields "payload" = some (.obj payload)) (hd : Zod.lookup payload "deviceId" = deviceId)
    (hc : Zod.lookup payload "conversationId" = conversationId)
    (ht : Zod.lookup payload "token" = some (.str token.toList)) :
    handleJoin platform id (.obj fields) = (rest (authenticateToken platform token)).bind fun found =>
      handleJoined id found deviceId conversationId (some (.str token.toList)) := by
  have hfield : ∀ (fields : List (List Char × Json)) key, field (some (.obj fields)) key = .done (Zod.lookup fields key) :=
    fun _ _ => rfl
  unfold handleJoin
  simp only [hfield, Async.bind_eq, Async.done_bind, hp, hd, hc, ht, authenticateValue, String.ofList_toList]

/-- A handler of a frame that does not throw. -/
theorem serveHub_message {s s' : HubState} {id : Nat} {msg : Json}
    (hr : Async.Runs Calm (handleMessage platform id msg) s (some (.ok ())) s') :
    Async.Runs Calm (serveHub platform (.message id (some msg))) s (some (.ok none)) s' :=
  Async.Runs.bind (p := onMessage platform id (some msg)) (a := ()) (hr.attempt.bind (.done _ _)) (.done _ _)

/-- The handler of a frame of a client whose session holds. -/
theorem frame_runs {s s' : HubState} {id : Nat} {fields : List (List Char × Json)} {client : Option ConnectedClient}
    (type : String) (hc : s.hub.clients.lookup id = client) (ht : Zod.lookup fields "type" = some (.str type.toList))
    (hlive : Async.Runs Calm (sessionHolds platform client) s (some (.ok true)) s)
    (hr : Async.Runs Calm (dispatch platform id (.obj fields) client (some (.str type.toList))) s
      (some (.ok ())) s') :
    Async.Runs Calm (serveHub platform (.message id (some (.obj fields)))) s (some (.ok none)) s' := by
  have hfind : Calm s (.getClient id) (.ok client) s := .other (hc ▸ .getClient s id) nofun
  refine serveHub_message ?_
  rw [handleMessage_obj type ht]
  exact .call hfind (hlive.bind hr)

/-- A client joins. -/
theorem join_runs {h : Hub} {id : Nat} {user : Uuid} {token : String} (hc : h.clients.lookup id = none)
    (hx : Zod.isHex64 token = true) (ha : world.db.authenticate token = some user)
    (hu : (world.db.users.filter fun u => u.id == user).length ≠ 0) :
    Async.Runs Calm (serveHub platform (.message id (some (joinFrame token)))) ⟨world, h⟩
      (some (.ok none)) ⟨world, joined h id user token⟩ := by
  have hadmit : Async.Runs Calm (joinAs id user device none token) ⟨world, h⟩ (some (.ok ()))
      ⟨world, joined h id user token⟩ := by
    refine .call (query_atOnce (q := .userById user) rfl) ?_
    rw [← List.length_map (f := UserRow.id)] at hu
    simp only [Async.done_bind, if_neg hu]
    refine .call ⟨.act _ _ 0 _, nofun, fun id' user' deviceId conversationId token' hop c hc' => ?_⟩
      (.call (.other (.act _ _ 0 _) ?_) (.done _ _))
    · cases hop
      rw [hc] at hc'
      cases hc'
    · rintro act ⟨⟩
      exact Or.inl ⟨_, _, _, rfl⟩
  have hjoin : Async.Runs Calm (handleJoin platform id (joinFrame token)) ⟨world, h⟩ (some (.ok ()))
      ⟨world, joined h id user token⟩ := by
    unfold joinFrame
    rw [handleJoin_obj rfl rfl rfl rfl]
    refine (authenticate_runs hx ha).bind ?_
    have hjoins : handleJoined id (some user) (some device) none (some (.str token.toList)) =
        joinAs id user device none token := by
      have hdevice : truthy (some device) = true := rfl
      simp only [handleJoined, hdevice, if_true, idText, String.ofList_toList]
    exact hjoins ▸ hadmit
  have hdispatch : dispatch platform id (joinFrame token) none (some (.str "join".toList)) =
      handleJoin platform id (joinFrame token) := by
    rw [dispatch, String.ofList_toList, if_pos rfl]
  rw [← hdispatch] at hjoin
  exact frame_runs "join" hc rfl (.done _ _) hjoin

/-- The caller's offer goes out. -/
theorem offer_runs {h : Hub} {client : ConnectedClient} (hc : h.clients.lookup 0 = some client) (hu : client.userId = uuid 1)
    (ht : client.sessionToken = token '0') :
    Async.Runs Calm (serveHub platform (.message 0 (some offerFrame))) ⟨world, h⟩ (some (.ok none))
      ⟨world, h.act 0 (.broadcast (uuid 2).text "offer" callPayload (uuid 1).text)⟩ := by
  have hfind : Calm ⟨world, h⟩ (.getClient 0) (.ok (some client)) ⟨world, h⟩ := .other (hc ▸ .getClient ⟨world, h⟩ 0) nofun
  have hlive : Async.Runs Calm (sessionHolds platform (some client)) ⟨world, h⟩ (some (.ok true))
      ⟨world, h⟩ := by
    have hx : Zod.isHex64 (token '0') = true := by decide
    have ha : world.db.authenticate (token '0') = some (uuid 1) := by decide
    have hdone : Async.Runs Calm (.done (some (uuid 1) == some client.userId) : HubProg Bool) ⟨world, h⟩
        (some (.ok true)) ⟨world, h⟩ := by
      rw [hu, beq_self_eq_true]
      exact .done _ _
    simp only [sessionHolds, ht]
    exact (authenticate_runs hx ha).bind hdone
  have hamong : Calm ⟨world, h⟩ (.query (.participantsAmong (uuid 3).text [client.userId.text, (uuid 2).text]))
      (.ok [uuid 1, uuid 2]) ⟨world, h⟩ := by
    refine query_atOnce ?_
    rw [hu]
    simp only [HubSql.exec, Uuid.read_text, List.mapM_cons, List.mapM_nil, Option.bind_eq_bind, Option.bind_some]
    decide
  have hrelay : Async.Runs Calm (relay "offer" offerFrame client) ⟨world, h⟩ (some (.ok ()))
      ⟨world, h.act 0 (.broadcast (uuid 2).text "offer" callPayload (uuid 1).text)⟩ := by
    have h1 : fieldOrUndefined (some offerFrame) "to" = some (.str (uuid 2).text.toList) := rfl
    have h2 : fieldOrUndefined (some offerFrame) "payload" = some callPayload := rfl
    have h3 : fieldOrUndefined (some callPayload) "conversationId" = some (.str (uuid 3).text.toList) := rfl
    have h4 : fieldOrUndefined (some callPayload) "callId" = some (.str "call".toList) := rfl
    unfold relay
    simp only [h1, h2, h3, h4, String.ofList_toList]
    refine .call hamong ?_
    rw [← hu]
    refine .call (.other (.act _ _ 0 _) ?_) (.done _ _)
    rintro act ⟨⟩
    exact Or.inr (Or.inl ⟨_, _, _, _, rfl⟩)
  have hdispatch : dispatch platform 0 offerFrame (some client) (some (.str "offer".toList)) =
      handleWebRTCSignal 0 "offer" offerFrame := by
    rw [dispatch, String.ofList_toList, if_neg (by decide), if_pos (by decide)]
  have hsignal : Async.Runs Calm (handleWebRTCSignal 0 "offer" offerFrame) ⟨world, h⟩ (some (.ok ()))
      ⟨world, h.act 0 (.broadcast (uuid 2).text "offer" callPayload (uuid 1).text)⟩ := .call hfind hrelay
  rw [← hdispatch] at hsignal
  exact frame_runs "offer" hc rfl hlive hsignal

/-- The sockets when both have joined and the offer is out. -/
def joinedBoth : Hub :=
  joined (joined ((({} : Hub).act 0 .connect).act 0 .connect) 0 (uuid 1) (token '0')) 1 (uuid 2) (token '1')

/-- The sockets after the offer. -/
def offeredBoth : Hub := joinedBoth.act 0 (.broadcast (uuid 2).text "offer" callPayload (uuid 1).text)

/-- The offer on the socket of the callee. -/
def offered : Signal := ⟨"offer", callPayload, (uuid 1).text, some (uuid 2).text, 0⟩

/-- The callee is the client of the second socket. -/
theorem joinedBoth_reaches : joinedBoth.Reaches (uuid 2).text 1 ∧ (joinedBoth.sockets 1).isOpen = true :=
  ⟨⟨1, by decide, _, rfl, rfl⟩, by decide⟩

/-- The calls of a run in which both join and the caller's offer is relayed. -/
abbrev CalmTraced (l : HubTrace) (c : Async.Pool HubCall HubOp HubAns ServerError (Option Response) HubState) : Prop :=
  Async.Pool.Traced Calm (serveHub platform) HubKept ⟨world, {}⟩ l c

/-- Both join, and the caller's offer is relayed. -/
theorem offer_calm : ∃ l n es, CalmTraced l
    ⟨⟨world, offeredBoth⟩, [], n, es⟩ := by
  have hnext : ∀ {s s' : HubState} {n : Nat} {es call} {r : Option Response},
      Async.Runs Calm (serveHub platform call) s (some (.ok r)) s' →
      Async.Pool.Reachable Calm (serveHub platform) HubKept (fun _ _ => True) ⟨world, {}⟩ ⟨s, [], n, es⟩ →
      Async.Pool.Reachable Calm (serveHub platform) HubKept (fun _ _ => True) ⟨world, {}⟩
        ⟨s', [], n + 1, .ended n call (.ok r) :: .started n call :: es⟩ :=
    fun hr h => .finish hr (.step h (.start _) trivial)
  have hconnect : ∀ h : Hub, Async.Runs Calm (serveHub platform .connection) ⟨world, h⟩ (some (.ok none))
      ⟨world, h.act 0 .connect⟩ := fun h => by
    refine .call (.other (.act _ _ 0 _) ?_) (.done _ _)
    rintro act ⟨⟩
    exact Or.inr (Or.inr rfl)
  have hcaller : Async.Runs Calm (serveHub platform (.message 0 (some (joinFrame (token '0')))))
      ⟨world, (({} : Hub).act 0 .connect).act 0 .connect⟩ (some (.ok none))
      ⟨world, joined ((({} : Hub).act 0 .connect).act 0 .connect) 0 (uuid 1) (token '0')⟩ :=
    join_runs rfl (by decide) (by decide) (by decide)
  have hcallee : Async.Runs Calm (serveHub platform (.message 1 (some (joinFrame (token '1')))))
      ⟨world, joined ((({} : Hub).act 0 .connect).act 0 .connect) 0 (uuid 1) (token '0')⟩ (some (.ok none))
      ⟨world, joinedBoth⟩ := join_runs rfl (by decide) (by decide) (by decide)
  have hoffer : Async.Runs Calm (serveHub platform (.message 0 (some offerFrame))) ⟨world, joinedBoth⟩
      (some (.ok none)) ⟨world, offeredBoth⟩ := offer_runs rfl rfl rfl
  obtain ⟨l, hl⟩ := (hnext hoffer (hnext hcallee (hnext hcaller (hnext (hconnect _) (hnext (hconnect _) .init))))).traced
  exact ⟨l, _, _, hl⟩

/-- Both join, and the caller's offer is relayed. -/
theorem offer_relayed : ∃ l c, Hub.Traced platform world l c ∧ (1, offered) ∈ c.state.hub.sent := by
  obtain ⟨l, n, es, hl⟩ := offer_calm
  refine ⟨l, _, hl.mono fun _ _ _ _ h => h.1, ?_⟩
  exact Hub.mem_broadcast.mpr (Or.inr ⟨rfl, joinedBoth_reaches.2, joinedBoth_reaches.1⟩)

/-- The callee has the caller's offer on the socket on which it has joined. -/
theorem signaling_delivery_offer : ∃ l c, Hub.Traced platform world l c ∧ Delivered platform l 1 offered := by
  obtain ⟨l, c, h, hx⟩ := offer_relayed
  exact ⟨l, c, h, signaling_delivery members h _ hx⟩

/-- The index of the run in which the offer is relayed. -/
theorem signaling_index_offer : ∃ l c, Hub.Traced platform world l c ∧ (1, offered) ∈ c.state.hub.sent ∧
    c.state.hub.Indexed := by
  obtain ⟨l, c, h, hx⟩ := offer_relayed
  exact ⟨l, c, h, hx, (signaling_index h).1⟩

/-- Both have joined, and the caller's socket closes: the callee alone is listed. -/
theorem signaling_mirrored_closed : ∃ l c, Hub.Traced platform world l c ∧ Orderly l ∧
    (∃ e ∈ l, e.answered.op = .act (.closed 0)) ∧ Mirrored l c.state.hub ∧ c.state.hub.members (uuid 1).text = [] ∧
    c.state.hub.members (uuid 2).text = [1] := by
  obtain ⟨l, n, es, hl⟩ := offer_calm
  have hact : HubEffect platform ⟨world, offeredBoth⟩ (.act (.closed 0)) (.ok ()) ⟨world, offeredBoth.act 0 (.closed 0)⟩ :=
    .act _ _ 0 (.closed 0)
  have hclose : Async.Path (HubEffect platform) n (HubCall.close 0) (serveHub platform (HubCall.close 0))
      ⟨world, offeredBoth⟩
      [⟨n, HubCall.close 0, ⟨.act (.closed 0), .ok ()⟩, ⟨world, offeredBoth⟩, ⟨world, offeredBoth.act 0 (.closed 0)⟩⟩]
      (.done none) ⟨world, offeredBoth.act 0 (.closed 0)⟩ := .call hact (.refl _ _)
  have htraced : Hub.Traced platform world _ _ := Async.Pool.Traced.ran (hl.mono fun _ _ _ _ h => h.1) hclose
  have horderly : Orderly (⟨n, HubCall.close 0, ⟨.act (.closed 0), .ok ()⟩, ⟨world, offeredBoth⟩,
      ⟨world, offeredBoth.act 0 (.closed 0)⟩⟩ :: l) := by
    refine ⟨fun e he id user deviceId conversationId token hop c hc => ?_,
      fun l₁ e l₀ hsplit id user deviceId conversationId token hop f hf hclosed => ?_⟩
    · rcases List.mem_cons.mp he with rfl | he
      · cases hop
      · exact (hl.made he).2.2 id user deviceId conversationId token hop c hc
    · -- the close is the last call
      cases l₁ with
      | nil =>
        obtain ⟨rfl, rfl⟩ := List.cons.inj hsplit
        cases hop
      | cons x l₁ =>
        refine (hl.made (e := f) ?_).2.1 id hclosed
        rw [(List.cons.inj hsplit).2]
        exact List.mem_append_right _ (List.mem_cons_of_mem _ hf)
  have hmembers : (offeredBoth.act 0 (.closed 0)).members (uuid 1).text = [] ∧
      (offeredBoth.act 0 (.closed 0)).members (uuid 2).text = [1] := by decide
  exact ⟨_, _, htraced, horderly, ⟨_, List.mem_cons_self, rfl⟩, (signaling_mirrored htraced).1 horderly, hmembers⟩

end Callers

end Server

end Chhaya
