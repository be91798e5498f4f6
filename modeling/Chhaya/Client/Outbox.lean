import Chhaya.Client.Ledger

/-!
# Sending once, and to whom

What holds of the app in every run: the service's programs one after the other, the steps of the screens between any two of
their calls, a server that answers what it likes, and a crash at any time.

- `mergePeers_keeps`: a server row never takes the place of a compared identity.
- `send_keeps`, `retryPending_keeps`, `sync_keeps`: the programs keep the invariant.
- `key_pinning`: sessions and verified contacts go back to identities that the user compared.
- `outbox_exactly_once`: what is sealed is sent as it was sealed, and held once.
- `no_send_key_twice`: what was sealed is sealed under different keys.
-/

namespace Chhaya

open MessagingService

variable {β : Type}

namespace App

/-! ## What a program relies on -/

/-- Nothing is sealed, sent or taken. -/
structure Calm (s s' : App β) : Prop where
  outbox : s'.db.outbox = s.db.outbox
  sealed : s'.sealed = s.sealed
  held : s'.held = s.held
  confirmed : s.confirmed ⊆ s'.confirmed

/-- The steps of the screens between two calls of the service. -/
structure Rely (s s' : App β) : Prop extends Calm s s' where
  sessions : s'.db.sessions = s.db.sessions
  publics : s'.publics = s.publics

section Rely

variable {s s₁ s₂ : App β}

theorem Calm.refl (s : App β) : Calm s s := ⟨rfl, rfl, rfl, List.Subset.refl _⟩

theorem Calm.trans (h : Calm s s₁) (h' : Calm s₁ s₂) : Calm s s₂ :=
  ⟨h'.outbox.trans h.outbox, h'.sealed.trans h.sealed, h'.held.trans h.held, List.Subset.trans h.confirmed h'.confirmed⟩

theorem Rely.refl (s : App β) : Rely s s := ⟨Calm.refl s, rfl, rfl⟩

theorem Rely.trans (h : Rely s s₁) (h' : Rely s₁ s₂) : Rely s s₂ :=
  ⟨h.toCalm.trans h'.toCalm, h'.sessions.trans h.sessions, h'.publics.trans h.publics⟩

theorem UserStep.rely (h : UserStep s s₁) : Rely s s₁ := by
  cases h with
  | verify => exact ⟨⟨rfl, rfl, rfl, List.subset_cons_self _ _⟩, rfl, rfl⟩
  | _ => exact ⟨⟨rfl, rfl, rfl, List.Subset.refl _⟩, rfl, rfl⟩

end Rely

/-- Nothing that is fetched passes as ours. -/
def Honest (fetched : Message → Prop) : Prop := ∀ m, fetched m → m.senderId ≠ "me"

variable (P : Primitives β) (codec : RatchetMessageCodec β) (fetched : Message → Prop)

def rules : Async.Rules (ServiceOp β) (ServiceAns β) DartError (App β) where
  eff := AppEffect P codec fetched
  rely := Rely
  guar _ _ := True
  inv := Inv P codec (Honest fetched)

/-- Every call of the program keeps the invariant, and what it returns satisfies `φ`. -/
def Keeps {α : Type} (p : ServiceProg β α) (φ : α → App β → Prop) (s : App β) : Prop :=
  p.Safe (rules P codec fetched) (fun r s => ∀ v, r = .ok v → φ v s) s

variable {P codec fetched}

section Rules

variable {α γ : Type} {op : ServiceOp β} {f : ServiceAns β op → ServiceProg β α} {φ : α → App β → Prop} {s : App β}

theorem Keeps.pure {v : α} (h : φ v s) : Keeps P codec fetched (Pure.pure v) φ s := by
  intro v' hv
  obtain rfl := Except.ok.inj hv
  exact h

theorem Keeps.raise {e : DartError} : Keeps P codec fetched (MessagingService.raise e) φ s :=
  fun _ hv => nomatch hv

theorem Keeps.weaken {p : ServiceProg β α} {ψ : α → App β → Prop} (hp : Keeps P codec fetched p φ s)
    (h : ∀ v s', φ v s' → ψ v s') : Keeps P codec fetched p ψ s := by
  refine Async.Safe.mono hp fun r s' hr v hv => ?_
  exact h v s' (hr v hv)

theorem Keeps.bind {p : ServiceProg β γ} {g : γ → ServiceProg β α} {ψ : γ → App β → Prop}
    (hp : Keeps P codec fetched p ψ s) (hg : ∀ v s', ψ v s' → Keeps P codec fetched (g v) φ s') :
    Keeps P codec fetched (p >>= g) φ s := by
  refine Async.Safe.bind (hp.mono fun r s' hr => ?_)
  cases r with
  | ok v => exact hg v s' (hr v rfl)
  | error e => exact fun _ hv => nomatch hv

theorem Keeps.ofExcept {r : Except DartError γ} {g : γ → ServiceProg β α}
    (h : ∀ v, r = .ok v → Keeps P codec fetched (g v) φ s) : Keeps P codec fetched (Async.ofExcept r >>= g) φ s := by
  cases r with
  | ok v => exact h v rfl
  | error e => exact fun _ hv => nomatch hv

/-- A call that changes nothing, and then the rest. -/
theorem Keeps.read (χ : App β → ServiceAns β op → Prop)
    (hop : ∀ s a s', AppEffect P codec fetched s op a s' → Reads s a s' (χ s))
    (h : ∀ s₁, Rely s s₁ → Inv P codec (Honest fetched) s₁ → ∀ v, χ s₁ v → Keeps P codec fetched (f v) φ s₁) :
    Keeps P codec fetched (ask op >>= f) φ s := by
  refine Async.Safe.ask fun s₁ hr hi a s₂ he => ?_
  obtain ⟨rfl, hv⟩ := hop s₁ a s₂ he
  refine ⟨hi, trivial, ?_⟩
  cases a with
  | ok v => exact h _ hr hi v (hv v rfl)
  | error e => exact fun _ hv => nomatch hv

/-- A write, and then the rest. -/
theorem Keeps.write (t : App β → App β) (hop : ∀ s a s', AppEffect P codec fetched s op a s' → Writes s a s' (t s))
    (hinv : ∀ s₁, Rely s s₁ → Inv P codec (Honest fetched) s₁ → Inv P codec (Honest fetched) (t s₁))
    (h : ∀ s₁, Rely s s₁ → ∀ v, Keeps P codec fetched (f v) φ (t s₁)) : Keeps P codec fetched (ask op >>= f) φ s := by
  refine Async.Safe.ask fun s₁ hr hi a s₂ he => ?_
  have hw := hop s₁ a s₂ he
  cases a with
  | ok v =>
    obtain rfl : s₂ = t s₁ := hw
    exact ⟨hinv s₁ hr hi, trivial, h s₁ hr v⟩
  | error e =>
    obtain rfl : s₂ = s₁ := hw
    exact ⟨hi, trivial, fun _ hv => nomatch hv⟩

/-- A last call. -/
theorem Keeps.last {φ : ServiceAns β op → App β → Prop} (h : Keeps P codec fetched (ask op >>= Pure.pure) φ s) :
    Keeps P codec fetched (ask op) φ s := by
  intro s₁ hr hi a s₂ he
  obtain ⟨h1, h2, h3⟩ := h s₁ hr hi a s₂ he
  refine ⟨h1, h2, ?_⟩
  cases a with
  | ok v => exact h3
  | error e => exact h3

end Rules

/-! ## The programs of the service -/

section Programs

variable {s : App β} {peer : Contact} {conversation : Conversation} {message : Message} {envelope : String}

theorem codec_keeps : Keeps P codec fetched MessagingService.codec (fun c s' => c = codec ∧ Rely s s') s := by
  refine .read _ (fun _ _ _ h => h) fun s₁ h₁ _ identity hidentity => ?_
  refine .read _ (fun _ _ _ h => h) fun s₂ h₂ _ profile hprofile => ?_
  cases identity with
  | none => exact .raise
  | some identity =>
    cases profile with
    | none => exact .raise
    | some profile =>
      refine .pure ⟨?_, h₁.trans h₂⟩
      rw [hidentity identity rfl, hprofile profile rfl]

/-- A sealed envelope is delivered. -/
theorem deliver_keeps (hp : ∃ p ∈ s.sealed, p.messageId = message.id ∧ p.content = envelope)
    (hh : Honest fetched → ⟨message.conversationId, envelope, message.id⟩ ∈ s.sealed) :
    Keeps P codec fetched (deliver message envelope) (fun _ s' => s'.sealed = s.sealed) s := by
  refine Async.Safe.ask fun s₁ h₁ hi a s₂ he => ?_
  rw [← h₁.sealed] at hp hh
  rcases he with ⟨rfl, e, rfl⟩ | ⟨held, ht, rfl⟩
  · exact ⟨hi, trivial, fun _ hv => nomatch hv⟩
  · refine ⟨hi.request hp hh ht, trivial, ?_⟩
    cases a with
    | error e => exact fun _ hv => nomatch hv
    | ok v =>
      -- the server holds what it was asked to take
      have hmem := ht.mem
      refine Keeps.write _ (fun _ _ _ h => h) (fun s₃ h₃ hi₃ => ?_) fun s₃ h₃ _ => .pure (h₃.sealed.trans h₁.sealed)
      refine hi₃.commitSent fun hon => ⟨rfl, fun p hp he => ?_⟩
      have hq : (⟨message.conversationId, envelope, message.id⟩ : MessagingService.Posted) ∈ s₃.sealed := by
        rw [h₃.sealed]
        exact hh hon
      obtain rfl := hi₃.ledger.unique hp hq he
      rw [h₃.held]
      exact hmem

/-- The rows of ours among these that are pending have their envelopes sealed. -/
def Pending (sealed : List MessagingService.Posted) (messages : List Message) : Prop :=
  ∀ m ∈ messages, m.senderId = "me" → m.isSent = false →
    ∃ p ∈ sealed, p.messageId = m.id ∧ p.conversationId = m.conversationId

theorem retryEach_keeps {messages : List Message} (h : Honest fetched → Pending s.sealed messages) :
    Keeps P codec fetched (retryEach messages) (fun _ _ => True) s := by
  induction messages generalizing s with
  | nil => exact .pure trivial
  | cons message messages ih =>
    have hrest : Honest fetched → Pending s.sealed messages := fun hh m hm => h hh m (List.mem_cons_of_mem _ hm)
    unfold retryEach
    split
    · exact ih hrest
    · rename_i hcase
      rw [not_or, ne_eq, not_not, Bool.not_eq_true] at hcase
      refine .read _ (fun _ _ _ h => h) fun s₁ h₁ hi o ho => ?_
      subst ho
      rw [← h₁.sealed] at h hrest
      cases ho : s₁.db.outbox message.id with
      | none => exact ih hrest
      | some envelope =>
        obtain ⟨p, hp, hid, hcontent⟩ := hi.ledger.queued _ _ ho
        refine .bind (deliver_keeps ⟨p, hp, hid, hcontent⟩ fun hh => ?_) fun _ s₂ h₂ => ih fun hh => ?_
        · obtain ⟨q, hq, hid', hconversation⟩ := h hh message List.mem_cons_self hcase.1 hcase.2
          obtain rfl := hi.ledger.unique hp hq (hid.trans hid'.symm)
          rw [← hconversation, ← hid, ← hcontent]
          exact hp
        · rw [h₂]
          exact hrest hh

theorem retryPending_keeps (conversationId : String) :
    Keeps P codec fetched (retryPending conversationId) (fun _ _ => True) s := by
  refine .read _ (fun _ _ _ h => h) fun s₁ _ hi messages hm => retryEach_keeps fun hh m hin hme hsent => ?_
  subst hm
  obtain ⟨p, hp, h1, h2, -⟩ := (hi.rows hh m (LocalDatabase.mem_getMessages.mp hin).1 hme).pending hsent
  exact ⟨p, hp, h1, h2⟩

theorem sealAndDeliver_keeps (text : String) (ttl : Option Int) (hpeer : peer.Confirmed s.confirmed) :
    Keeps P codec fetched (sealAndDeliver P conversation peer text ttl) (fun _ _ => True) s := by
  refine .read _ (fun _ _ _ h => h) fun s₁ h₁ _ globalTtl _ => ?_
  refine .read _ (fun _ _ _ h => h) fun s₂ h₂ _ id hid => ?_
  refine .read _ (fun _ _ _ h => h) fun s₃ h₃ _ now _ => ?_
  refine .bind codec_keeps fun codec' s₄ hcodec => ?_
  obtain ⟨rfl, h₄⟩ := hcodec
  refine .read _ (fun _ _ _ h => h) fun s₅ h₅ _ userId _ => ?_
  cases userId with
  | none => exact .raise
  | some userId =>
    refine .read _ (fun _ _ _ h => h) fun s₆ h₆ _ saved hsaved => ?_
    refine .read _ (fun _ _ _ h => h) fun s₇ h₇ _ fresh hfresh => .ofExcept fun r hrun => ?_
    have hsealed := h₃.trans (h₄.trans (h₅.trans (h₆.trans h₇)))
    have hconfirmed := (h₁.trans (h₂.trans hsealed)).confirmed
    refine .write _ (fun _ _ _ h => h) (fun s₈ h₈ hi => ?_) fun s₈ h₈ _ => ?_
    · refine hi.commitOutgoing ⟨?_, ?_, hpeer.mono (List.Subset.trans hconfirmed h₈.confirmed)⟩ ?_ rfl hrun
      · rw [h₈.sessions, h₇.sessions]
        exact hsaved
      · rw [h₈.publics]
        exact hfresh
      · rw [h₈.sealed, hsealed.sealed]
        exact hid
    · refine (deliver_keeps ?_ fun _ => ?_).weaken fun _ _ _ => trivial
      · exact ⟨_, List.mem_cons_self, rfl, rfl⟩
      · exact List.mem_cons_self

theorem send_keeps (text : String) (ttl : Option Int) (hk : ∀ c ∈ conversation.participants, c.Confirmed s.confirmed) :
    Keeps P codec fetched (send P conversation text ttl) (fun _ _ => True) s := by
  refine .read _ (fun _ _ _ h => h) fun s₁ h₁ _ authenticated _ => ?_
  cases authenticated with
  | false => exact .raise
  | true =>
    rw [if_pos rfl]
    split
    · rename_i participant _ hparticipants
      refine .read _ (fun _ _ _ h => h) fun s₂ h₂ hi contact hcontact => ?_
      have hpeer : (contact.getD participant).Confirmed s₂.confirmed := by
        cases hc : contact with
        | none =>
          refine (hk participant ?_).mono (h₁.trans h₂).confirmed
          rw [hparticipants]
          exact List.mem_cons_self
        | some c =>
          have hfind : s₂.db.contacts.find? (fun c => c.id == participant.id) = some c := hcontact.symm.trans hc
          exact hi.stored.contacts c (List.mem_of_find?_eq_some hfind)
      refine .read _ (fun _ _ _ h => h) fun s₃ h₃ _ blocked _ => ?_
      split
      · exact .raise
      · exact sealAndDeliver_keeps text ttl (hpeer.mono h₃.confirmed)
    · exact .raise

/-! ## Syncing -/

theorem Calm.settled {s' : App β} {m : Message} (h : Calm s s') (hm : Settled s.sealed s.held s.db.outbox m) :
    Settled s'.sealed s'.held s'.db.outbox m := by
  rw [h.sealed, h.held, h.outbox]
  exact hm

/-- A row is kept where identity and key are the same; the others are not verified. -/
theorem kept_confirmed {confirmed : List String} {contacts : List Contact} (hc : ∀ c ∈ contacts, c.Confirmed confirmed)
    (hv : peer.isVerified = false) : (kept contacts peer).Confirmed confirmed := by
  unfold kept
  cases hf : contacts.find? fun c => c.id == peer.id && c.chhayaId.equals peer.chhayaId with
  | none => exact fun hv' => absurd (hv.symm.trans hv') Bool.false_ne_true
  | some c => exact hc c (List.mem_of_find?_eq_some hf)

theorem mergePeers_keeps {contacts participants : List Contact} (hc : ∀ c ∈ contacts, c.Confirmed s.confirmed)
    (hv : ∀ c ∈ participants, c.isVerified = false) : Keeps P codec fetched (mergePeers contacts participants)
      (fun peers s' => (∀ c ∈ peers, c.Confirmed s'.confirmed) ∧ Calm s s') s := by
  induction participants generalizing s with
  | nil => exact .pure ⟨fun _ hm => (List.not_mem_nil hm).elim, Calm.refl s⟩
  | cons peer participants ih =>
    have hpeer := kept_confirmed hc (hv peer List.mem_cons_self)
    refine .write _ (fun _ _ _ h => h) (fun s₁ h₁ hi => hi.addContact (hpeer.mono h₁.confirmed)) fun s₁ h₁ _ => ?_
    refine .bind (ih (fun c hm => (hc c hm).mono h₁.confirmed) fun c hm => hv c (List.mem_cons_of_mem _ hm))
      fun peers s₂ h₂ => .pure ⟨fun c hm => ?_, ?_⟩
    · rcases List.mem_cons.mp hm with rfl | hm
      · exact hpeer.mono (List.Subset.trans h₁.confirmed h₂.2.confirmed)
      · exact h₂.1 c hm
    · exact h₁.toCalm.trans ⟨h₂.2.outbox, h₂.2.sealed, h₂.2.held, h₂.2.confirmed⟩

theorem fetchPages_keeps {conversationId : String} {known : List String} (n : Nat) {beforeId : Option String}
    {batches : List Message} (hb : ∀ m ∈ batches, fetched m) :
    Keeps P codec fetched (fetchPages conversationId known n beforeId batches)
      (fun batches s' => (∀ m ∈ batches, fetched m) ∧ Calm s s') s := by
  induction n generalizing s beforeId batches with
  | zero => exact .pure ⟨hb, Calm.refl s⟩
  | succ n ih =>
    refine .read _ (fun _ _ _ h => h) fun s₁ h₁ _ batch hbatch => ?_
    have hall : ∀ m ∈ batch ++ batches, fetched m := fun m hm => (List.mem_append.mp hm).elim (hbatch m) (hb m)
    split
    · exact .pure ⟨hall, h₁.toCalm⟩
    · exact (ih hall).weaken fun _ _ h => ⟨h.1, h₁.toCalm.trans h.2⟩

theorem received_senderId {payload : JsonFields} {m : Message} (h : received message payload = .ok m) :
    m.senderId = message.senderId := by
  unfold received at h
  obtain ⟨content, -, h⟩ := except_bind_ok h
  obtain ⟨ttlMs, -, h⟩ := except_bind_ok h
  cases ttlMs <;> obtain rfl := Except.ok.inj h <;> rfl

theorem openAndStore_keeps (conversationId : String) (hpeer : peer.Confirmed s.confirmed) (hf : fetched message) :
    Keeps P codec fetched (openAndStore P codec peer conversationId message) (fun _ s' => Calm s s') s := by
  refine .read _ (fun _ _ _ h => h) fun s₁ h₁ _ saved hsaved => ?_
  refine .read _ (fun _ _ _ h => h) fun s₂ h₂ _ fresh hfresh => ?_
  refine .ofExcept fun opened hrun => .ofExcept fun m hm => .last ?_
  have hc := (h₁.trans h₂).confirmed
  refine .write _ (fun _ _ _ h => h) (fun s₃ h₃ hi => ?_) fun s₃ h₃ _ => .pure ?_
  · refine hi.commitReceived ⟨?_, ?_, hpeer.mono (List.Subset.trans hc h₃.confirmed)⟩ (fun hon => ?_) hrun
    · rw [h₃.sessions, h₂.sessions]
      exact hsaved
    · rw [h₃.publics]
      exact hfresh
    · rw [received_senderId hm]
      exact hon message hf
  · have h := (h₁.trans (h₂.trans h₃)).toCalm
    exact ⟨h.outbox, h.sealed, h.held, h.confirmed⟩

/-- Rows of ours that were read. -/
def Rows (fetched : Message → Prop) (s : App β) (messages : List Message) : Prop :=
  Honest fetched → ∀ m ∈ messages, m.senderId = "me" → Settled s.sealed s.held s.db.outbox m

theorem Rows.calm {s' : App β} {messages : List Message} (h : Rows fetched s messages) (hs : Calm s s') :
    Rows fetched s' messages := fun hon m hm hme => hs.settled (h hon m hm hme)

theorem apply_keeps {stored : List Message} (conversationId : String) (hrows : Rows fetched s stored)
    (hpeer : peer.Confirmed s.confirmed) (hf : fetched message) :
    Keeps P codec fetched (MessagingService.apply P codec stored peer conversationId message) (fun _ s' => Calm s s') s := by
  refine .read _ (fun _ _ _ h => h) fun s₁ h₁ _ userId _ => ?_
  split
  · cases hsaved : stored.find? fun m => m.id == message.id with
    | none => exact .pure h₁.toCalm
    | some saved =>
      have hmem := List.mem_of_find?_eq_some hsaved
      refine .last (.write _ (fun _ _ _ h => h) (fun s₂ h₂ hi => hi.addMessage fun hon hme => ?_) fun s₂ h₂ _ => .pure ?_)
      · have := (h₁.trans h₂).toCalm.settled (hrows hon saved hmem hme)
        exact ⟨this.pending, this.sent⟩
      · have h := (h₁.trans h₂).toCalm
        exact ⟨h.outbox, h.sealed, h.held, h.confirmed⟩
  · split
    · exact .pure h₁.toCalm
    · exact (openAndStore_keeps conversationId (hpeer.mono h₁.confirmed) hf).weaken fun _ _ h => h₁.toCalm.trans h

theorem applyEach_keeps {stored batches : List Message} (conversationId : String) (hrows : Rows fetched s stored)
    (hpeer : peer.Confirmed s.confirmed) (hf : ∀ m ∈ batches, fetched m) :
    Keeps P codec fetched (applyEach P codec stored peer conversationId batches) (fun _ s' => Calm s s') s := by
  induction batches generalizing s with
  | nil => exact .pure (Calm.refl s)
  | cons message batches ih =>
    refine .bind (apply_keeps conversationId hrows hpeer (hf message List.mem_cons_self)) fun _ s₁ h₁ => ?_
    refine (ih (hrows.calm h₁) (hpeer.mono h₁.confirmed) fun m hm => hf m (List.mem_cons_of_mem _ hm)).weaken fun _ _ h => ?_
    exact h₁.trans h

theorem receive_keeps {stored : List Message} {peers : List Contact} (hrows : Rows fetched s stored)
    (hpeers : ∀ c ∈ peers, c.Confirmed s.confirmed) :
    Keeps P codec fetched (receive P stored conversation peers) (fun _ s' => Calm s s') s := by
  unfold receive
  split
  · rename_i peer
    split
    · refine .bind (fetchPages_keeps 50 fun _ hm => (List.not_mem_nil hm).elim) fun batches s₁ h₁ => ?_
      refine .bind codec_keeps fun codec' s₂ hcodec => ?_
      obtain ⟨rfl, h₂⟩ := hcodec
      have h := h₁.2.trans h₂.toCalm
      refine (applyEach_keeps conversation.id (hrows.calm h) ?_ h₁.1).weaken fun _ _ h' => h.trans h'
      exact (hpeers peer List.mem_cons_self).mono h.confirmed
    · exact .pure (Calm.refl s)
  · exact .pure (Calm.refl s)

theorem unexpired_keeps (messages : List Message) :
    Keeps P codec fetched (unexpired messages) (fun _ s' => Calm s s') s := by
  induction messages generalizing s with
  | nil => exact .pure (Calm.refl s)
  | cons m messages ih =>
    refine .read _ (fun _ _ _ h => h) fun s₁ h₁ _ now _ => ?_
    exact .bind ih fun rest s₂ h₂ => .pure (h₁.toCalm.trans h₂)

theorem syncEach_keeps {contacts : List Contact} {existing remote : List Conversation}
    (hc : ∀ c ∈ contacts, c.Confirmed s.confirmed) (hv : ∀ k ∈ remote, ∀ c ∈ k.participants, c.isVerified = false) :
    Keeps P codec fetched (syncEach P contacts existing remote) (fun _ _ => True) s := by
  induction remote generalizing s with
  | nil => exact .pure trivial
  | cons conversation remote ih =>
    refine .bind (mergePeers_keeps hc (hv conversation List.mem_cons_self)) fun peers s₁ h₁ => ?_
    obtain ⟨hpeers, h₁⟩ := h₁
    refine .write _ (fun _ _ _ h => h) (fun s₂ h₂ hi => hi.addConversation fun c hm => (hpeers c hm).mono h₂.confirmed)
      fun s₂ h₂ _ => ?_
    refine .read _ (fun _ _ _ h => h) fun s₃ h₃ hi stored hstored => ?_
    have h₃' : Calm s₁ s₃ := h₂.toCalm.trans ⟨h₃.outbox, h₃.sealed, h₃.held, h₃.confirmed⟩
    refine .bind (receive_keeps (fun hon m hm hme => ?_) fun c hm => (hpeers c hm).mono h₃'.confirmed) fun _ s₄ h₄ => ?_
    · subst hstored
      exact hi.rows hon m (LocalDatabase.mem_getMessages.mp hm).1 hme
    refine .read _ (fun _ _ _ h => h) fun s₅ h₅ _ messages _ => ?_
    refine .bind (unexpired_keeps messages) fun messages s₆ h₆ => ?_
    have h := h₃'.trans (h₄.trans (h₅.toCalm.trans h₆))
    refine .write _ (fun _ _ _ h => h)
      (fun s₇ h₇ hi => hi.addConversation fun c hm => (hpeers c hm).mono (List.Subset.trans h.confirmed h₇.confirmed))
      fun s₇ h₇ _ => ?_
    have h' := h₁.trans (h.trans h₇.toCalm)
    exact .bind (ih (fun c hm => (hc c hm).mono h'.confirmed) fun k hk => hv k (List.mem_cons_of_mem _ hk))
      fun _ _ _ => .pure trivial

theorem sync_keeps : Keeps P codec fetched (sync P) (fun _ _ => True) s := by
  refine .read _ (fun _ _ _ h => h) fun s₁ h₁ _ authenticated _ => ?_
  split
  · refine .read _ (fun _ _ _ h => h) fun s₂ h₂ hi contacts hcontacts => ?_
    refine .read _ (fun _ _ _ h => h) fun s₃ h₃ _ remote hremote => ?_
    refine .read _ (fun _ _ _ h => h) fun s₄ h₄ _ existing _ => syncEach_keeps (fun c hm => ?_) hremote
    exact (hi.stored.contacts c (hcontacts.mem_iff.mp hm)).mono (h₃.trans h₄).confirmed
  · exact .last (.read _ (fun _ _ _ h => h) fun _ _ _ _ _ => .pure trivial)

end Programs

/-! ## Runs -/

/-- An install with no session and an empty outbox, whose own messages are sent and whose verified contacts the user has
compared. -/
structure Start (P : Primitives β) (codec : RatchetMessageCodec β) (s : App β) : Prop where
  sessions : s.db.sessions = fun _ => none
  outbox : s.db.outbox = fun _ => none
  publics : s.publics = [P.x25519Public codec.identity.privateKey]
  lists : s.sealed = [] ∧ s.requested = [] ∧ s.held = []
  keyed : s.db.Keyed
  stored : Trusted s.confirmed s.db.contacts s.db.conversations
  screens : Trusted s.confirmed s.shown s.listed
  sent : ∀ m ∈ s.db.messages, m.senderId = "me" → m.isSent = true

section Runs

variable {s : App β} {c : Service β}

theorem Start.inv (h : Start P codec s) : Inv P codec (Honest fetched) s := by
  obtain ⟨hsealed, hrequested, hheld⟩ := h.lists
  refine ⟨h.stored, h.screens, fun key t ht => ?_, h.keyed, ⟨_, .start, ?_⟩, ?_, fun _ m hm hme => ⟨fun hs => ?_, ?_⟩, ?_⟩
  · rw [h.sessions] at ht
    cases ht
  · rw [h.sessions, h.publics, hsealed]
    exact ⟨rfl, rfl, .nil, fun _ hr => (List.not_mem_nil hr).elim⟩
  · rw [hsealed, hrequested, hheld, h.outbox]
    exact ⟨List.nodup_nil, fun _ _ ho => (nomatch ho), fun _ hq => (List.not_mem_nil hq).elim,
      fun _ hp => (List.not_mem_nil hp).elim, List.nodup_nil⟩
  · rw [h.sent m hm hme] at hs
    cases hs
  · intro _ p hp
    rw [hsealed] at hp
    exact (List.not_mem_nil hp).elim
  · intro _ q hq
    rw [hrequested] at hq
    exact (List.not_mem_nil hq).elim

theorem body_keeps (call : ServiceCall) (ha : call.Allowed s) (hi : Inv P codec (Honest fetched) s) :
    Keeps P codec fetched (call.body P) (fun _ _ => True) s := by
  cases call with
  | send conversation text ttl =>
    exact .bind (send_keeps text ttl (hi.screens.participants _ ha)) fun _ _ _ => .pure trivial
  | retryPending conversationId => exact retryPending_keeps conversationId
  | sync => exact .bind sync_keeps fun _ _ _ => .pure trivial

/-- The invariant holds in every run. -/
theorem run_inv (h₀ : Start P codec s) (h : App.Run P codec fetched s c) : Inv P codec (Honest fetched) c.state := by
  refine (Async.Pool.Reachable.serial (R := rules P codec fetched) Rely.refl Rely.trans UserStep.rely UserStep.inv
    (fun call s ha hi => ?_) h₀.inv h).1
  exact Async.Safe.mono (body_keeps call ha hi) fun _ _ _ => trivial

end Runs

/-! ## A message that is sent -/

namespace Posting

def peer : Contact := { octetContact 2 with isVerified := false }

def verified : Contact := { peer with isVerified := true, verificationLevel := 3 }

def conversation : Conversation where
  id := "conversation"
  participants := [peer]
  createdAt := ⟨0, false⟩

/-- An install with one contact that is not verified yet. -/
def start : App SymByte where
  db := { contacts := [peer], conversations := [conversation] }
  shown := [peer]
  listed := [conversation]
  publics := [symbolic.x25519Public (octetSeed 1).1]

/-- The contact has been verified. -/
def ready : App SymByte := { start with
  db := start.db.addContact verified
  shown := verified :: start.shown
  confirmed := peer.chhayaId.publicKey :: start.confirmed }

/-- The row of a message. -/
def message (id text : String) : Message where
  id := id
  conversationId := "conversation"
  senderId := "me"
  content := text
  timestamp := ⟨0, false⟩
  isSent := false

def profile : UserProfile where
  chhayaId := { publicKey := (octetCodec 1).ownId }
  displayName := "me"
  recoveryPhrase := []
  createdAt := ⟨0, false⟩

theorem start_start : Start symbolic (octetCodec 1) start where
  sessions := rfl
  outbox := rfl
  publics := rfl
  lists := ⟨rfl, rfl, rfl⟩
  keyed := List.nodup_nil
  stored := by
    refine ⟨fun c hc => ?_, fun k hk c hc => ?_⟩
    · obtain rfl := List.mem_singleton.mp hc
      exact fun hv => nomatch hv
    · obtain rfl := List.mem_singleton.mp hk
      obtain rfl := List.mem_singleton.mp hc
      exact fun hv => nomatch hv
  screens := by
    refine ⟨fun c hc => ?_, fun k hk c hc => ?_⟩
    · obtain rfl := List.mem_singleton.mp hc
      exact fun hv => nomatch hv
    · obtain rfl := List.mem_singleton.mp hk
      obtain rfl := List.mem_singleton.mp hc
      exact fun hv => nomatch hv
  sent _ hm := (List.not_mem_nil hm).elim

variable {P : Primitives β} {codec : RatchetMessageCodec β} {fetched : Message → Prop} {s s' s'' : App β}

theorem reads {α : Type} {φ : α → Prop} {v : α} (h : φ v) : Reads s (.ok v) s φ :=
  ⟨rfl, fun _ hv => Except.ok.inj hv ▸ h⟩

theorem runs_ask {α : Type} {op : ServiceOp β} {f : ServiceAns β op → ServiceProg β α} {v : ServiceAns β op}
    {r : Option (Except DartError α)} (he : AppEffect P codec fetched s op (.ok v) s')
    (hr : Async.Runs (AppEffect P codec fetched) (f v) s' r s'') :
    Async.Runs (AppEffect P codec fetched) (ask op >>= f) s r s'' := .call he hr

theorem runs_ofExcept {α γ : Type} {x : Except DartError γ} {f : γ → ServiceProg β α} {v : γ}
    {r : Option (Except DartError α)} (hx : x = .ok v)
    (hr : Async.Runs (AppEffect P codec fetched) (f v) s r s') :
    Async.Runs (AppEffect P codec fetched) (Async.ofExcept x >>= f) s r s' := by
  subst hx
  exact hr

/-- The state once the message `m` was sealed as `r` and delivered. -/
def finish (s : App SymByte) (m : Message) (r : Sealed SymByte) : App SymByte :=
  let p : MessagingService.Posted := ⟨m.conversationId, r.envelope, m.id⟩
  { s with
    db := (s.db.commitOutgoingMessage r.state m r.envelope).commitMessageSent { m with isSent := true }
    publics := s.seen r.state
    sealed := p :: s.sealed
    requested := p :: s.requested
    held := p :: s.held }

/-- The text can be sent under a new id, and the codec seals it as `r`. -/
structure Seals (s : App SymByte) (id text : String) (fresh : X25519Seed SymByte) (r : Sealed SymByte) : Prop where
  contact : s.db.getContact "peer" = some verified
  sealed : id ∉ s.sealed.map MessagingService.Posted.messageId
  held : id ∉ s.held.map MessagingService.Posted.messageId
  new : symbolic.x25519Public fresh.1 ∉ s.publics
  run : (octetCodec 1).encrypt symbolic (s.db.sessions (sessionKey verified "conversation")) verified "conversation" id
    "user" (payload text none) fresh = .ok r

theorem finds_codec (s : App SymByte) : Async.Runs (AppEffect symbolic (octetCodec 1) fun _ => False)
    MessagingService.codec s (some (.ok (octetCodec 1))) s := by
  refine runs_ask (v := some (octetCodec 1).identity) (reads fun _ h => (Option.some.inj h).symm) ?_
  exact runs_ask (v := some profile) (reads fun _ h => Option.some.inj h ▸ rfl) (.done _ _)

/-- `send` runs from its start to its end. -/
theorem Seals.sends {s : App SymByte} {id text : String} {fresh : X25519Seed SymByte} {r : Sealed SymByte}
    (h : Seals s id text fresh r) : Async.Runs (AppEffect symbolic (octetCodec 1) fun _ => False)
      (ServiceCall.body symbolic (.send conversation text none)) s (some (.ok ())) (finish s (message id text) r) := by
  refine Async.Runs.bind (a := { message id text with isSent := true }) ?_ (.done _ _)
  refine runs_ask (v := true) (reads trivial) ?_
  rw [if_pos rfl]
  refine runs_ask (v := some verified) (reads h.contact.symm) ?_
  refine runs_ask (v := []) (reads trivial) ?_
  show Async.Runs _ (sealAndDeliver symbolic conversation verified text none) _ _ _
  refine runs_ask (v := (0 : Int)) (reads trivial) ?_
  refine runs_ask (v := id) (reads h.sealed) ?_
  refine runs_ask (v := (⟨0, false⟩ : DateTime)) (reads trivial) ?_
  refine (finds_codec s).bind ?_
  refine runs_ask (v := some "user") (reads trivial) ?_
  refine runs_ask (v := s.db.sessions (sessionKey verified "conversation")) (reads rfl) ?_
  refine runs_ask (v := fresh) (reads h.new) ?_
  refine runs_ofExcept h.run ?_
  refine runs_ask (v := ()) rfl ?_
  refine runs_ask (v := ()) (Or.inr ⟨_, .taken _ h.held, rfl⟩) ?_
  exact runs_ask (v := ()) rfl (.done _ _)

/-- The first message is sealed with the session that is opened for it, the second with the one that is then stored. -/
theorem seals : ∃ r r', Seals ready "first" "hello" (octetSeed 3) r ∧
    Seals (finish ready (message "first" "hello") r) "second" "again" (octetSeed 4) r' := by
  obtain ⟨hp, hq⟩ := octetSession_publics "conversation"
  obtain ⟨hi, hat, hok⟩ := octetSession_live "conversation"
  have hidentity : isIdentity verified.chhayaId.publicKey = true := isIdentity_identityOf (symbolic.length_x25519Public _)
  have hopened : (octetCodec 1).state symbolic none verified "conversation" (octetSeed 3) =
      .ok (octetSession "conversation") := RatchetMessageCodec.state_none rfl hidentity (octetSeed 1).2 rfl
  obtain ⟨r, hr, -, hs⟩ := RatchetMessageCodec.encrypt_live hopened hi hat hok (Nat.zero_le _) "first" "user"
    (payload "hello" none)
  obtain ⟨hid, hi', hat', hok'⟩ := octetSession_sent hs
  have hstored : (octetCodec 1).state symbolic (some r.state) verified "conversation" (octetSeed 4) = .ok r.state := rfl
  obtain ⟨r', hr', -⟩ := RatchetMessageCodec.encrypt_live hstored hi' hat' hok' (by decide) "second" "user"
    (payload "again" none)
  have hpublics : symbolic.x25519Public (octetSeed 4).1 ∉ ready.seen r.state := by
    simp only [seen, hs, SessionState.sent, hp, hq]
    decide
  have hsaved : (ready.db.commitOutgoingMessage r.state (message "first" "hello") r.envelope).sessions
      (sessionKey verified "conversation") = some r.state := by
    rw [show sessionKey verified "conversation" = r.state.peerId from hid.symm]
    exact Function.update_self _ _ _
  have hne : "second" ≠ "first" := by decide
  refine ⟨r, r', ⟨rfl, List.not_mem_nil, List.not_mem_nil, by decide, hr⟩, ⟨rfl, ?_, ?_, hpublics, ?_⟩⟩
  · exact List.mem_singleton.not.mpr hne
  · exact List.mem_singleton.not.mpr hne
  · rw [← hsaved] at hr'
    exact hr'

/-- The user verifies the contact, and two messages are sent. -/
theorem run : ∃ r r' c, App.Run symbolic (octetCodec 1) (fun _ => False) start c ∧
    c.state = finish (finish ready (message "first" "hello") r) (message "second" "again") r' := by
  obtain ⟨r, r', h1, h2⟩ := seals
  have h : App.Run symbolic (octetCodec 1) (fun _ => False) start ⟨ready, [], 0, []⟩ :=
    .step .init (.other (.verify List.mem_cons_self)) ⟨Nat.zero_le 1, fun _ ht => nomatch ht⟩
  have hfirst := h.turn (i := .send conversation "hello" none) (List.mem_singleton_self _) h1.sends
  exact ⟨r, r', _, hfirst.turn (List.mem_singleton_self _) h2.sends, rfl⟩

end Posting

/-! ## Every run -/

section Results

variable {s : App β} {c : Service β}

/-- Whatever the server answers and whatever the user does on the screens meanwhile: a contact or participant that is
marked verified has an identity that the user compared, and every stored session was opened with such an identity and is
what calls of the ratchet have made of it. -/
theorem key_pinning (h₀ : Start P codec s) (h : App.Run P codec fetched s c) :
    (∀ contact ∈ c.state.db.contacts, contact.Confirmed c.state.confirmed) ∧
    (∀ conversation ∈ c.state.db.conversations, ∀ contact ∈ conversation.participants,
      contact.Confirmed c.state.confirmed) ∧
    ∀ key session, c.state.db.sessions key = some session → SessionWith P codec c.state.confirmed key session := by
  have hi := run_inv h₀ h
  exact ⟨hi.stored.contacts, hi.stored.participants, hi.sessions⟩

/-- The contact is verified, and its session is stored. -/
theorem key_pinning_posting : ∃ c : Service SymByte, (∃ contact ∈ c.state.db.contacts, contact.isVerified = true) ∧
    ∀ key session, c.state.db.sessions key = some session →
      SessionWith symbolic (octetCodec 1) c.state.confirmed key session := by
  obtain ⟨r, r', c, h, hc⟩ := Posting.run
  refine ⟨c, ?_, (key_pinning Posting.start_start h).2.2⟩
  rw [hc]
  exact ⟨Posting.verified, List.mem_append.mpr (Or.inr (List.mem_singleton_self _)), rfl⟩

/-- What is sealed is sent once. -/
structure ExactlyOnce (s : App β) : Prop where
  pending : ∀ m ∈ s.db.messages, m.senderId = "me" → m.isSent = false → ∃ p ∈ s.sealed, p.messageId = m.id ∧
    p.conversationId = m.conversationId ∧ s.db.outbox m.id = some p.content
  once : (s.sealed.map MessagingService.Posted.messageId).Nodup
  requested : ∀ q ∈ s.requested, q ∈ s.sealed
  held : ∀ p ∈ s.held, p ∈ s.requested
  heldOnce : (s.held.map MessagingService.Posted.messageId).Nodup
  sent : ∀ m ∈ s.db.messages, m.senderId = "me" → m.isSent = true → ∀ p ∈ s.sealed, p.messageId = m.id → p ∈ s.held

/-- In every run with a server that does not pass messages off as ours: a pending message of ours has its one sealed
envelope in the outbox, every request for an id carries the one envelope sealed for it, the server holds no id twice, and a
message of ours is marked sent only if the server holds its envelope. -/
theorem outbox_exactly_once (h₀ : Start P codec s) (hf : Honest fetched) (h : App.Run P codec fetched s c) :
    ExactlyOnce c.state := by
  have hi := run_inv h₀ h
  exact ⟨fun m hm hme => (hi.rows hf m hm hme).pending, hi.ledger.once, hi.exact hf, hi.ledger.taken, hi.ledger.takenOnce,
    fun m hm hme => (hi.rows hf m hm hme).sent⟩

/-- One envelope is held. -/
theorem outbox_exactly_once_posting : ∃ c : Service SymByte, c.state.held ≠ [] ∧ ExactlyOnce c.state := by
  obtain ⟨r, r', c, h, hc⟩ := Posting.run
  refine ⟨c, ?_, outbox_exactly_once Posting.start_start (fun _ hf => hf.elim) h⟩
  rw [hc]
  exact List.cons_ne_nil _ _

/-- Every run refines an account whose calls are all fresh: its sessions are those that are stored, and its releases are
what the sealed envelopes carry. So no two envelopes are sealed under one key, and every envelope the server was asked to
take is one of them. -/
theorem no_send_key_twice (hc : CollisionFree P) (h₀ : Start P codec s) (h : App.Run P codec fetched s c) :
    ∃ a : Account β, Account.Reachable P codec (Call.Fresh P codec) a ∧
      Refines P c.state.db.sessions c.state.publics c.state.sealed a ∧
      a.released.Pairwise (fun r r' => r.keys.messageKey ≠ r'.keys.messageKey) ∧
      (c.state.sealed.map MessagingService.Posted.messageId).Nodup ∧
      ∀ q ∈ c.state.requested, ∃ p ∈ c.state.sealed, p.messageId = q.messageId ∧ p.content = q.content := by
  have hi := run_inv h₀ h
  obtain ⟨a, hr, ha⟩ := hi.account
  obtain ⟨us, hinv⟩ := reachable_accountInv hc hr
  exact ⟨a, hr, ha, hinv.keys_ne hc, hi.ledger.once, hi.ledger.asked⟩

/-- Two envelopes are sealed on one session, and the server was asked to take both. -/
theorem no_send_key_twice_posting : ∃ c : Service SymByte,
    c.state.requested.map MessagingService.Posted.messageId = ["second", "first"] ∧
    ∃ a : Account SymByte, Account.Reachable symbolic (octetCodec 1) (Call.Fresh symbolic (octetCodec 1)) a ∧
      Refines symbolic c.state.db.sessions c.state.publics c.state.sealed a ∧ a.released.length = 2 ∧
      a.released.Pairwise (fun r r' => r.keys.messageKey ≠ r'.keys.messageKey) ∧
      (c.state.sealed.map MessagingService.Posted.messageId).Nodup ∧
      ∀ q ∈ c.state.requested, ∃ p ∈ c.state.sealed, p.messageId = q.messageId ∧ p.content = q.content := by
  obtain ⟨r, r', c, h, hc⟩ := Posting.run
  obtain ⟨a, hr, ha, rest⟩ := no_send_key_twice symbolic_collisionFree Posting.start_start h
  refine ⟨c, ?_, a, hr, ha, ?_, rest⟩
  · rw [hc]
    rfl
  · rw [← ha.carried.length_eq, hc]
    rfl

end Results

end App

end Chhaya
