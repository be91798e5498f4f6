import Chhaya.Server.Api

/-!
# What handlers call

Which handlers notify anybody, which ones make challenges, accounts and sessions, and which ones write devices.

- `handle_quiet`: only `POST /messages` notifies anybody.
- `handle_foreign`: only the routes under `/auth` make challenges, accounts and sessions.
-/

namespace Chhaya

namespace Server

/-- The loop over the participants of a conversation. -/
def Op.notifies : Op → Bool
  | .notify _ => true
  | _ => false

/-- A statement that makes or consumes a challenge, or makes an account or a session. -/
def Op.authenticates : Op → Bool
  | .sql (.insertChallenge _) => true
  | .sql (.consumeChallenge _ _ _ _) => true
  | .sql (.insertAccount _ _) => true
  | .sql (.insertSession _ _ _) => true
  | _ => false

/-- The user for whom a statement writes a device. -/
def Op.deviceUser : Op → Option Uuid
  | .sql (.insertAccount _ v) => some v.userId
  | .sql (.registerFCMToken userId _ _) => some userId
  | .sql (.upsertDevice v) => some v.userId
  | .sql (.linkDevice v) => some v.userId
  | _ => none

/-- A call that notifies nobody. -/
abbrev Quietly (op : Op) : Prop := op.notifies = false

/-- A call that makes no challenge, account or session. -/
abbrev Foreign (op : Op) : Prop := op.authenticates = false

/-- A call that writes no device. -/
abbrev Deviceless (op : Op) : Prop := op.deviceUser = none

section Handlers

variable {platform : Platform} {φ : Op → Prop} {α : Type} {userId : Uuid}

theorem parse_every {s : Zod.Schema α} {j : Option Json} : (parse s j).Every φ := by
  unfold parse
  cases s j <;> exact trivial

theorem authMiddleware_every {authorization : Option String} {next : Uuid → Prog Response}
    (hφ : ∀ h, φ (.sql (.authenticate h))) (h : ∀ user, (next user).Every φ) :
    (authMiddleware platform authorization next).Every φ := by
  unfold authMiddleware
  cases authorization.bind bearer with
  | none => exact trivial
  | some token =>
    refine Async.Every.bind ?_ fun found => ?_
    · unfold authenticateToken
      split
      · exact .await (hφ _)
      · exact trivial
    · cases found with
      | none => exact trivial
      | some user => exact h user

theorem asParticipant_every {conversationId : String} {next : Prog Response}
    (hφ : φ (.sql (.participantCheck conversationId userId))) (h : next.Every φ) :
    (asParticipant conversationId userId next).Every φ := by
  refine Async.Every.bind (.await hφ) fun found => ?_
  cases found with
  | true => exact h
  | false => exact trivial

/-! ## Conversations -/

/-- Neither is called. -/
abbrev Plain (op : Op) : Prop := Quietly op ∧ Foreign op

/-- Nor is a device written. -/
abbrev Conversational (op : Op) : Prop := Plain op ∧ Deviceless op

theorem postContacts_every {body : Option Json} : (postContacts userId body).Every Conversational := by
  refine .bind parse_every fun data => .bind (.await ⟨⟨rfl, rfl⟩, rfl⟩) fun target => ?_
  cases target with
  | none => exact trivial
  | some target =>
    show Async.Every _ (if target.1 = userId then _ else _)
    split
    · exact trivial
    refine .bind (.await ⟨⟨rfl, rfl⟩, rfl⟩) fun found => ?_
    cases found with
    | true => exact trivial
    | false => exact .bind (.await ⟨⟨rfl, rfl⟩, rfl⟩) fun _ => .bind (.await ⟨⟨rfl, rfl⟩, rfl⟩) fun _ => trivial

theorem postConversations_every {body : Option Json} : (postConversations platform userId body).Every Conversational := by
  refine .bind parse_every fun data => ?_
  show Async.Every _ (if data.type = "direct" ∧ data.participantIds.length ≠ 1 then _ else _)
  split
  · exact trivial
  refine .bind (.await ⟨⟨rfl, rfl⟩, rfl⟩) fun convoId => ?_
  show Async.Every _ (if (userId.text :: data.participantIds).eraseDups.length ≠ data.participantIds.length + 1 then _
    else _)
  split
  · exact trivial
  · exact .bind (.await ⟨⟨rfl, rfl⟩, rfl⟩) fun _ => trivial

theorem getConversations_every : (getConversations userId).Every Conversational := .bind (.await ⟨⟨rfl, rfl⟩, rfl⟩) fun _ => trivial

theorem getMessages_every {conversationId : String} {limit : Option String} {before beforeId : Option Json} :
    (getMessages platform userId conversationId limit before beforeId).Every Conversational :=
  .bind parse_every fun _ => .bind parse_every fun _ => asParticipant_every ⟨⟨rfl, rfl⟩, rfl⟩
    (.bind (.await ⟨⟨rfl, rfl⟩, rfl⟩) fun _ => trivial)

theorem postRead_every {messageId : String} : (postRead userId messageId).Every Conversational := by
  refine .bind (.await ⟨⟨rfl, rfl⟩, rfl⟩) fun allowed => ?_
  show Async.Every _ (if allowed ≠ 1 then _ else _)
  split
  · exact trivial
  · exact .bind (.await ⟨⟨rfl, rfl⟩, rfl⟩) fun _ => .bind (.await ⟨⟨rfl, rfl⟩, rfl⟩) fun _ => trivial

theorem postLink_every {body : Option Json} : (postLink userId body).Every Plain := by
  refine .bind parse_every fun data => .bind (.await ⟨rfl, rfl⟩) fun linked => ?_
  show Async.Every _ (if linked ≠ 1 then _ else _)
  split <;> exact trivial

theorem storeMessage_foreign {data : SendMessage} {messageId : String} :
    (storeMessage userId data messageId).Every fun op => Foreign op ∧ Deviceless op := by
  refine .bind (.await ⟨rfl, rfl⟩) fun inserted => ?_
  cases inserted with
  | true =>
    refine .bind (.await ⟨rfl, rfl⟩) fun _ => .bind (.await ⟨rfl, rfl⟩) fun _ => .bind (.await ⟨rfl, rfl⟩) fun _ => .bind (.await ⟨rfl, rfl⟩)
      fun saved => ?_
    cases saved with
    | none => exact trivial
    | some saved =>
      show Async.Every _ (if saved.senderId ≠ userId ∨ saved.conversationId.text ≠ data.conversationId then _ else _)
      split <;> exact trivial
  | false =>
    refine .bind (.await ⟨rfl, rfl⟩) fun previous => ?_
    cases previous with
    | none => exact trivial
    | some message =>
      show Async.Every _ (if message.senderId ≠ userId ∨ message.conversationId.text ≠ data.conversationId ∨
        message.content ≠ data.content then _ else _)
      split <;> exact trivial

theorem postMessages_foreign {body : Option Json} : (postMessages platform userId body).Every fun op => Foreign op ∧ Deviceless op := by
  refine .bind parse_every fun data => asParticipant_every ⟨rfl, rfl⟩ ?_
  cases data.messageId with
  | some messageId => exact storeMessage_foreign
  | none => exact .bind (.await ⟨rfl, rfl⟩) fun _ => storeMessage_foreign

/-! ## Accounts -/

theorem issueSession_quiet {claim : Claim} : (issueSession platform userId claim).Every Quietly :=
  .bind (.await rfl) fun _ => .bind (.await rfl) fun _ => trivial

theorem registerToken_quiet {deviceId : String} {fcmToken : Option String} :
    (registerToken userId deviceId fcmToken).Every Quietly := by
  unfold registerToken
  cases orNull fcmToken with
  | some token => exact .await rfl
  | none => exact trivial

theorem consumeIdentityChallenge_quiet {claim : Claim} : (consumeIdentityChallenge platform claim).Every Quietly := by
  refine .bind (.await rfl) fun hash => ?_
  cases hash <;> exact trivial

theorem catching_every {failed : String} {p : Prog Response} (hp : p.Every φ) : (catching failed p).Every φ := by
  refine .bind hp.attempt fun r => ?_
  rcases r with (_ | _) | _ <;> exact trivial

theorem postChallenge_quiet {body : Option Json} : (postChallenge platform body).Every fun op => Quietly op ∧ Deviceless op := by
  refine .bind parse_every fun data => .bind (.attempt (.bind ?_ fun _ => .bind (.await ⟨rfl, rfl⟩) fun _ =>
    .bind (.await ⟨rfl, rfl⟩) fun _ => trivial)) fun r => ?_
  · refine .bind (.await ⟨rfl, rfl⟩) fun pair => ?_
    show Async.Every _ (if (sharedSecret platform pair.1 data.publicKey).all (· == 0) = true then _ else _)
    split
    · exact trivial
    · exact .bind (.await ⟨rfl, rfl⟩) fun _ => .bind (.await ⟨rfl, rfl⟩) fun _ => trivial
  · cases r <;> exact trivial

theorem postRegister_quiet {body : Option Json} : (postRegister platform body).Every Quietly := by
  refine catching_every (.bind parse_every fun data => .bind consumeIdentityChallenge_quiet fun accepted => ?_)
  cases accepted with
  | false => exact trivial
  | true =>
    refine .bind (.await rfl) fun found => ?_
    show Async.Every _ (if found = true then _ else if data.chhayaId ≠ "05" ++ data.publicKey then _ else _)
    split
    · exact trivial
    split
    · exact trivial
    exact .bind (.await rfl) fun _ => .bind (.bind (.await rfl) fun _ => trivial) fun _ => .bind (.await rfl) fun _ =>
      .bind registerToken_quiet fun _ => .bind issueSession_quiet fun _ => trivial

theorem postLogin_quiet {body : Option Json} : (postLogin platform body).Every Quietly := by
  refine catching_every (.bind parse_every fun data => .bind consumeIdentityChallenge_quiet fun accepted => ?_)
  cases accepted with
  | false => exact trivial
  | true =>
    refine .bind (.await rfl) fun found => ?_
    rcases found with - | ⟨userId, publicKey, recoveryPhraseHash⟩
    · exact trivial
    show Async.Every _ (if verifyCredential platform data.recoveryPhraseHash recoveryPhraseHash = true then _ else _)
    split
    · refine .bind (.await rfl) fun device => ?_
      show Async.Every _ (if device ≠ 1 then _ else _)
      split
      · exact trivial
      · exact .bind registerToken_quiet fun _ => .bind (.await rfl) fun _ => .bind issueSession_quiet fun _ => trivial
    · exact trivial

/-! ## Every handler -/

theorem postLogout_every {authorization : Option String} : (postLogout platform authorization).Every Conversational :=
  .bind (.await ⟨⟨rfl, rfl⟩, rfl⟩) fun _ => trivial

/-- Only `POST /messages` notifies anybody. -/
theorem handle_quiet {call : Call} (h : ∀ body, call.request ≠ .postMessages body) :
    (handle platform call).Every Quietly := by
  obtain ⟨authorization, request⟩ := call
  have plain : ∀ {p : Prog Response}, p.Every Conversational → p.Every Quietly := fun hp => hp.mono fun _ ho => ho.1.1
  cases request with
  | postChallenge body => exact postChallenge_quiet.mono fun _ ho => ho.1
  | postRegister body => exact postRegister_quiet
  | postLogin body => exact postLogin_quiet
  | postLogout => exact authMiddleware_every (fun _ => rfl) fun _ => plain postLogout_every
  | postContacts body => exact authMiddleware_every (fun _ => rfl) fun _ => plain postContacts_every
  | postConversations body => exact authMiddleware_every (fun _ => rfl) fun _ => plain postConversations_every
  | getConversations => exact authMiddleware_every (fun _ => rfl) fun _ => plain getConversations_every
  | postMessages body => exact (h body rfl).elim
  | getMessages => exact authMiddleware_every (fun _ => rfl) fun _ => plain getMessages_every
  | postRead => exact authMiddleware_every (fun _ => rfl) fun _ => plain postRead_every
  | postLink => exact authMiddleware_every (fun _ => rfl) fun _ => postLink_every.mono fun _ ho => ho.1

/-- Only the routes under `/auth` make challenges, accounts and sessions. -/
theorem handle_foreign {call : Call} (hc : ∀ body, call.request ≠ .postChallenge body)
    (hr : ∀ body, call.request ≠ .postRegister body) (hl : ∀ body, call.request ≠ .postLogin body) :
    (handle platform call).Every Foreign := by
  obtain ⟨authorization, request⟩ := call
  have plain : ∀ {p : Prog Response}, p.Every Conversational → p.Every Foreign := fun hp => hp.mono fun _ ho => ho.1.2
  cases request with
  | postChallenge body => exact (hc body rfl).elim
  | postRegister body => exact (hr body rfl).elim
  | postLogin body => exact (hl body rfl).elim
  | postLogout => exact authMiddleware_every (fun _ => rfl) fun _ => plain postLogout_every
  | postContacts body => exact authMiddleware_every (fun _ => rfl) fun _ => plain postContacts_every
  | postConversations body => exact authMiddleware_every (fun _ => rfl) fun _ => plain postConversations_every
  | getConversations => exact authMiddleware_every (fun _ => rfl) fun _ => plain getConversations_every
  | postMessages body => exact authMiddleware_every (fun _ => rfl) fun _ => postMessages_foreign.mono fun _ ho => ho.1
  | getMessages => exact authMiddleware_every (fun _ => rfl) fun _ => plain getMessages_every
  | postRead => exact authMiddleware_every (fun _ => rfl) fun _ => plain postRead_every
  | postLink => exact authMiddleware_every (fun _ => rfl) fun _ => postLink_every.mono fun _ ho => ho.2

end Handlers

end Server

end Chhaya
