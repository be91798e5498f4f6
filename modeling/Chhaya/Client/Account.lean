import Chhaya.Client.Backup

/-!
# Backing up an account

`AuthService.generateBackup`, which reads the profile, the keys and every row of the account one after the other, and the
install that `restoreFromBackup` makes of what it returned.

- `generateBackup_run`: what a backup holds.
- `restored_contact`, `restored_conversation`, `restored_message`: what a restore leaves under each id.
- `backup_round_trip`: the restored install has the account of the one that was backed up.
-/

namespace Chhaya

open Interrupt

/-! ## What is read -/

/-- What `generateBackup` awaits, and its access to the field of the service. -/
inductive BackupOp
  | currentUser
  | key (op : KeyManager.Op)
  | getAllContacts
  | getAllConversations
  | getMessages (conversationId : String)

@[reducible] def BackupAns : BackupOp → Type
  | .currentUser => Option UserProfile
  | .key op => KeyManager.Ans op
  | .getAllContacts => List Contact
  | .getAllConversations => List Conversation
  | .getMessages _ => List Message

abbrev BackupProg (α : Type) := Async BackupOp BackupAns DartError α

namespace AuthService

/-- One access. -/
def fetch (op : BackupOp) : BackupProg (BackupAns op) := Async.await op

/-- A program of the key manager. -/
def ofKeys {α : Type} : KeyManager.Prog α → BackupProg α
  | .done x => .done x
  | .throw e => .throw e
  | .call op k => .call (.key op) fun r => ofKeys (k r)

/-- What can be read of a row: one that cannot is skipped. -/
def readRow {α : Type} (read : JsonFields → Except DartError α) : Option AccountRow → Option α
  | some (.text s) => (jsonDecode s >>= asMap >>= read).toOption
  | _ => none

variable (a : AuthService) (i : Install)

def contactAt (id : String) : Option Contact := readRow (Contact.fromJson a.zone) (i.rows (.contact a.ownerId id))

def conversationAt (id : String) : Option Conversation :=
  readRow (Conversation.fromJson a.zone) (i.rows (.conversation id))

def messageAt (id : String) : Option Message := readRow (Message.fromJson a.zone) (i.rows (.message id))

/-- `LocalDatabase.getUserProfile`. -/
def getUserProfile : Option UserProfile :=
  match i.rows (.kv "current_user_id") with
  | some (.text id) => readRow (UserProfile.fromJson a.zone) (i.rows (.user id))
  | _ => none

/-- `SELECT` on a table whose rows read as `row` says: each of them once, in any order. -/
def Selects {α : Type} (row : String → Option α) (l : List α) : Prop :=
  ∃ ids : List String, ids.Nodup ∧ (∀ id, (row id).isSome → id ∈ ids) ∧ l = ids.filterMap row

/-- What an access returns and does; a read may throw. -/
inductive BackupEffect : Install → (op : BackupOp) → Except DartError (BackupAns op) → Install → Prop
  | currentUser (i : Install) : BackupEffect i .currentUser (.ok i.currentUser) i
  | key {i : Install} {op : KeyManager.Op} {r : Except DartError (KeyManager.Ans op)} {keys : KeyStore}
    (h : KeyManager.Effect i.keys op r keys) : BackupEffect i (.key op) r { i with keys }
  | contacts {i : Install} {l : List Contact} (h : Selects (a.contactAt i) l) : BackupEffect i .getAllContacts (.ok l) i
  | conversations {i : Install} {l : List Conversation} (h : Selects (a.conversationAt i) l) :
    BackupEffect i .getAllConversations (.ok l) i
  -- the column `conversation_id` is written with the message
  | messages {i : Install} {conversationId : String} {l : List Message}
    (h : Selects (fun id => (a.messageAt i id).filter fun m => m.conversationId == conversationId) l) :
    BackupEffect i (.getMessages conversationId) (.ok l) i
  | throws (i : Install) {op : BackupOp} (h : ∀ k, op ≠ .key k) (e : DartError) : BackupEffect i op (.error e) i

/-! ## What is written down -/

/-- The messages of each conversation. -/
def allMessages : List Conversation → BackupProg (List Message)
  | [] => return []
  | conversation :: conversations => do
    let messages ← fetch (.getMessages conversation.id)
    let rest ← allMessages conversations
    return messages ++ rest

/-- `generateBackup`. The words of the phrase are cast where they are joined. -/
def generateBackup : BackupProg String := do
  let profile ← fetch .currentUser
  let words ← ofKeys KeyManager.getRecoveryPhrase
  let pair ← ofKeys KeyManager.getKeyPair
  match profile, words, pair with
  | some profile, some words, some pair => do
    let contacts ← fetch .getAllContacts
    let conversations ← fetch .getAllConversations
    let messages ← allMessages conversations
    let salt ← ofKeys (KeyManager.bytes 32)
    let phrase ← Async.ofExcept (words.mapM asString)
    let nonce ← ofKeys (KeyManager.bytes 12)
    Async.ofExcept (a.writeBackup { profile, pair, contacts, conversations, messages } phrase salt nonce)
  | _, _, _ => .throw (.state "No account to back up")

/-! ## An account -/

/-- The pair that is stored. -/
def storedPair (keys : KeyStore) : Option KeyManager.Pair :=
  match keys.backend KeyManager.publicKeyKey, keys.backend KeyManager.privateKeyKey with
  | some pub, some priv => do return ⟨← (base64Decode pub).toOption, ← (base64Decode priv).toOption⟩
  | _, _ => none

/-- The words of the phrase that is stored, joined. -/
def storedPhrase (keys : KeyStore) : Option String := do
  let words ← (KeyManager.phraseOf (← keys.backend KeyManager.recoveryPhraseKey)).toOption
  return " ".intercalate (← (words.mapM asString).toOption)

/-- A time that can be written down and read in the zone. -/
def Survives (t : DateTime) : Prop := t.Valid ∧ t.Kept a.zone a.zone

/-- An account as the app stores it: the profile is that of the phrase and of the keys, what is cached is what is stored,
and every row stands under its own id, with times that survive in the zone and times to live in whole milliseconds. -/
structure Consistent : Prop where
  cached : ∀ pair ∈ i.keys.foregroundIdentity, storedPair i.keys = some pair
  user : ∀ p ∈ i.currentUser, ∀ t ∈ p.times, a.Survives t
  phrase : ∀ p ∈ i.currentUser, ∀ s ∈ storedPhrase i.keys, " ".intercalate p.recoveryPhrase = s
  identity : ∀ p ∈ i.currentUser, ∀ pair ∈ storedPair i.keys, pair.publicKey.length = 32 ∧ pair.privateKey.length = 32 ∧
    (p.chhayaId.publicKey = hexOf pair.publicKey ∨ p.chhayaId.publicKey = idFor pair)
  contacts : ∀ id, ∀ c ∈ a.contactAt i id, c.id = id ∧ c.Fits ∧ ∀ t ∈ c.times, a.Survives t
  conversations : ∀ id, ∀ c ∈ a.conversationAt i id, c.id = id ∧ c.Fits ∧ c.stored = c ∧ ∀ t ∈ c.times, a.Survives t
  messages : ∀ id, ∀ m ∈ a.messageAt i id, m.id = id ∧ m.Fits ∧ m.stored m.timestamp = m ∧ ∀ t ∈ m.times, a.Survives t

/-- The database is open and without rows. -/
structure Blank : Prop where
  initialized : i.initialized = true
  contacts : ∀ id, i.rows (.contact a.ownerId id) = none
  conversations : ∀ id, i.rows (.conversation id) = none
  messages : ∀ id, i.rows (.message id) = none

/-- The account of `i'` is that of `i`, with the messages of its conversations. -/
structure Restored (i' : Install) : Prop where
  user : i'.currentUser = i.currentUser
  profile : a.getUserProfile i' = i.currentUser
  pair : storedPair i'.keys = storedPair i.keys
  phrase : storedPhrase i'.keys = storedPhrase i.keys
  contacts : ∀ id, a.contactAt i' id = a.contactAt i id
  conversations : ∀ id, a.conversationAt i' id = a.conversationAt i id
  messages : ∀ id, a.messageAt i' id =
    (a.messageAt i id).filter fun m => (a.conversationAt i m.conversationId).isSome

/-! ## What a backup holds -/

section Generate

variable {a : AuthService} {i i' i'' : Install}

theorem mem_selects {α : Type} {row : String → Option α} {l : List α} (h : Selects row l) {x : α} :
    x ∈ l ↔ ∃ id, row id = some x := by
  obtain ⟨ids, -, hids, rfl⟩ := h
  rw [List.mem_filterMap]
  constructor
  · rintro ⟨id, -, hx⟩
    exact ⟨id, hx⟩
  · rintro ⟨id, hx⟩
    exact ⟨id, hids id (by rw [hx]; rfl), hx⟩

theorem runs_fetch {op : BackupOp} {x : BackupAns op} (h : Async.Runs (BackupEffect a) (fetch op) i (some (.ok x)) i') :
    BackupEffect a i op (.ok x) i' := by
  unfold fetch Async.await at h
  cases h with
  | @call _ _ _ _ _ r _ he hr =>
    cases r with
    | ok y =>
      cases hr
      exact he
    | error e => cases hr

/-- A program of the key manager changes nothing but its store. -/
theorem runs_ofKeys {α : Type} {p : KeyManager.Prog α} {x : α}
    (h : Async.Runs (BackupEffect a) (ofKeys p) i (some (.ok x)) i') :
    ∃ keys, i' = { i with keys } ∧ Async.Runs KeyManager.Effect p i.keys (some (.ok x)) keys := by
  induction p generalizing i with
  | done y =>
    cases h
    exact ⟨_, rfl, .done _ _⟩
  | throw e => cases h
  | call op k ih =>
    cases h with
    | call he hr =>
      obtain ⟨keys', rfl, hk⟩ := ih _ hr
      cases he with
      | key he => exact ⟨keys', rfl, .call he hk⟩
      | throws h => exact absurd rfl (h op)

theorem runs_read {keys keys' : KeyStore} {key : String} {value : Option String}
    (h : Async.Runs KeyManager.Effect (KeyManager.read key) keys (some (.ok value)) keys') :
    keys' = keys ∧ value = keys.backend key := by
  unfold KeyManager.read Async.await at h
  cases h with
  | call he hr =>
    cases he with
    | read =>
      cases hr
      exact ⟨rfl, rfl⟩
    | readFails => cases hr

theorem runs_ofExcept {Op σ α : Type} {Ans : Op → Type} {eff : σ → (op : Op) → Except DartError (Ans op) → σ → Prop}
    {r : Except DartError α} {x : α} {s s' : σ} (h : Async.Runs eff (Async.ofExcept r) s (some (.ok x)) s') :
    s' = s ∧ r = .ok x := by
  cases r with
  | ok y =>
    cases h
    exact ⟨rfl, rfl⟩
  | error e => cases h

/-- `getRecoveryPhrase` reads the words that are stored. -/
theorem runs_getRecoveryPhrase {keys keys' : KeyStore} {words : Option (List Json)}
    (h : Async.Runs KeyManager.Effect KeyManager.getRecoveryPhrase keys (some (.ok words)) keys') :
    keys' = keys ∧ words = (keys.backend KeyManager.recoveryPhraseKey).bind fun s => (KeyManager.phraseOf s).toOption := by
  obtain ⟨s, keys₁, h1, h2⟩ := Async.Runs.bind_inv h
  obtain ⟨rfl, rfl⟩ := runs_read h1
  cases hs : keys₁.backend KeyManager.recoveryPhraseKey with
  | none =>
    rw [hs] at h2
    cases h2
    exact ⟨rfl, rfl⟩
  | some s =>
    rw [hs] at h2
    obtain ⟨w, keys₂, h3, h4⟩ := Async.Runs.bind_inv h2
    obtain ⟨rfl, hp⟩ := runs_ofExcept h3
    cases h4
    refine ⟨rfl, ?_⟩
    rw [Option.bind_some, hp]
    rfl

/-- `getKeyPair` returns the cached pair or the stored one. -/
theorem runs_getKeyPair {keys keys' : KeyStore} {pair : KeyManager.Pair}
    (h : Async.Runs KeyManager.Effect KeyManager.getKeyPair keys (some (.ok (some pair))) keys') :
    keys'.backend = keys.backend ∧ (keys.foregroundIdentity = some pair ∨ storedPair keys = some pair) := by
  obtain ⟨cached, keys₁, h1, h2⟩ := Async.Runs.bind_inv h
  cases h1 with
  | call he hr =>
    cases he
    cases hr
    cases hc : keys.foregroundIdentity with
    | some p =>
      rw [hc] at h2
      cases h2
      exact ⟨rfl, Or.inl rfl⟩
    | none =>
      rw [hc] at h2
      obtain ⟨pub, keys₂, h3, h4⟩ := Async.Runs.bind_inv h2
      obtain ⟨priv, keys₃, h5, h6⟩ := Async.Runs.bind_inv h4
      obtain ⟨rfl, rfl⟩ := runs_read h3
      obtain ⟨rfl, rfl⟩ := runs_read h5
      unfold storedPair
      cases hpub : keys₃.backend KeyManager.publicKeyKey with
      | none =>
        rw [hpub] at h6
        cases h6
      | some pub =>
        cases hpriv : keys₃.backend KeyManager.privateKeyKey with
        | none =>
          rw [hpub, hpriv] at h6
          cases h6
        | some priv =>
          rw [hpub, hpriv] at h6
          obtain ⟨publicKey, keys₄, h7, h8⟩ := Async.Runs.bind_inv h6
          obtain ⟨privateKey, keys₅, h9, h10⟩ := Async.Runs.bind_inv h8
          obtain ⟨rfl, hpublic⟩ := runs_ofExcept h7
          obtain ⟨rfl, hprivate⟩ := runs_ofExcept h9
          cases h10 with
          | call he hr =>
            cases he
            cases hr
            refine ⟨rfl, Or.inr ?_⟩
            simp only [hpublic, hprivate]
            rfl

/-- The messages of all conversations that are listed. -/
theorem runs_allMessages {conversations : List Conversation} {messages : List Message}
    (h : Async.Runs (BackupEffect a) (allMessages conversations) i (some (.ok messages)) i') :
    i' = i ∧ ∀ m, m ∈ messages ↔ (∃ id, a.messageAt i id = some m) ∧ ∃ c ∈ conversations, c.id = m.conversationId := by
  induction conversations generalizing messages i with
  | nil =>
    cases h
    refine ⟨rfl, fun m => ⟨fun hm => (List.not_mem_nil hm).elim, ?_⟩⟩
    rintro ⟨-, c, hc, -⟩
    exact (List.not_mem_nil hc).elim
  | cons conversation conversations ih =>
    obtain ⟨l, i₁, h1, h2⟩ := Async.Runs.bind_inv h
    obtain ⟨rest, i₂, h3, h4⟩ := Async.Runs.bind_inv h2
    cases h4
    cases runs_fetch h1 with
    | messages hs =>
      obtain ⟨rfl, hrest⟩ := ih h3
      refine ⟨rfl, fun m => ?_⟩
      rw [List.mem_append, mem_selects hs, hrest]
      simp only [Option.filter_eq_some_iff, beq_iff_eq, List.mem_cons, exists_eq_or_imp]
      grind

/-- What a backup holds: the profile, the keys and the rows of the account. -/
structure Holds (a : AuthService) (i : Install) (b : Backup) (phrase : List String) : Prop where
  profile : i.currentUser = some b.profile
  phrase : storedPhrase i.keys = some (" ".intercalate phrase)
  pair : i.keys.foregroundIdentity = some b.pair ∨ storedPair i.keys = some b.pair
  contacts : ∀ c, c ∈ b.contacts ↔ ∃ id, a.contactAt i id = some c
  conversations : ∀ c, c ∈ b.conversations ↔ ∃ id, a.conversationAt i id = some c
  messages : ∀ m, m ∈ b.messages ↔
    (∃ id, a.messageAt i id = some m) ∧ ∃ c ∈ b.conversations, c.id = m.conversationId

theorem generateBackup_run {text : String}
    (h : Async.Runs (BackupEffect a) a.generateBackup i (some (.ok text)) i') :
    ∃ b phrase salt nonce, Holds a i b phrase ∧ salt.length = 32 ∧ a.writeBackup b phrase salt nonce = .ok text := by
  obtain ⟨profile, i₁, h1, h⟩ := Async.Runs.bind_inv h
  obtain ⟨words, i₂, h2, h⟩ := Async.Runs.bind_inv h
  obtain ⟨pair, i₃, h3, h⟩ := Async.Runs.bind_inv h
  cases runs_fetch h1
  obtain ⟨keys, rfl, hk⟩ := runs_ofKeys h2
  obtain ⟨rfl, hwords⟩ := runs_getRecoveryPhrase hk
  obtain ⟨keys, rfl, hk'⟩ := runs_ofKeys h3
  cases hprofile : i.currentUser with
  | none =>
    rw [hprofile] at h
    cases h
  | some profile =>
    rw [hprofile] at h
    cases words with
    | none => cases h
    | some words =>
      cases pair with
      | none => cases h
      | some pair =>
        obtain ⟨-, hpair⟩ := runs_getKeyPair hk'
        obtain ⟨contacts, i₄, h4, r4⟩ := Async.Runs.bind_inv h
        obtain ⟨conversations, i₅, h5, r5⟩ := Async.Runs.bind_inv r4
        obtain ⟨messages, i₆, h6, r6⟩ := Async.Runs.bind_inv r5
        obtain ⟨salt, i₇, -, r7⟩ := Async.Runs.bind_inv r6
        obtain ⟨phrase, i₈, h8, r8⟩ := Async.Runs.bind_inv r7
        obtain ⟨nonce, i₉, -, r9⟩ := Async.Runs.bind_inv r8
        obtain ⟨-, hphrase⟩ := runs_ofExcept h8
        obtain ⟨-, htext⟩ := runs_ofExcept r9
        obtain ⟨-, hmessages⟩ := runs_allMessages h6
        refine ⟨{ profile, pair, contacts, conversations, messages }, phrase, salt.1, nonce.1, ?_, salt.2, htext⟩
        cases runs_fetch h4 with
        | contacts hcontacts =>
          cases runs_fetch h5 with
          | conversations hconversations =>
            refine ⟨hprofile, ?_, hpair, fun c => mem_selects hcontacts, fun c => mem_selects hconversations, hmessages⟩
            obtain ⟨s, hs, hwords⟩ := Option.bind_eq_some_iff.mp hwords.symm
            simp only [storedPhrase, hs, hwords, hphrase, Option.bind_eq_bind, Option.bind_some]
            rfl

end Generate

/-! ## What a restore leaves -/

section Restore

variable {a : AuthService} {i i' : Install} {b : Backup} {phrase : List String}

theorem readRow_rowOf {α : Type} {read : JsonFields → Except DartError α} {fields : JsonFields} {x : α}
    (hw : Json.WF (.obj fields)) (hx : read fields = .ok x) : readRow read (some (rowOf fields)) = some x := by
  show (jsonDecode (jsonEncode (.obj fields)) >>= asMap >>= read).toOption = some x
  rw [jsonDecode_jsonEncode hw]
  show (read fields).toOption = some x
  rw [hx]
  rfl

/-- A phrase is read as it was stored. -/
theorem phraseOf_texts (words : List String) :
    KeyManager.phraseOf (jsonEncode (.arr (words.map textJson))) = .ok (words.map textJson) := by
  rw [KeyManager.phraseOf, jsonDecode_jsonEncode (wf_texts words)]
  rfl

theorem mapM_asString_texts (words : List String) : (words.map textJson).mapM asString = .ok words :=
  (mapM_map_ok (h := id) fun s _ => asString_textJson s).trans (by rw [List.map_id])

theorem storedPhrase_texts {keys : KeyStore} {words : List String}
    (h : keys.backend KeyManager.recoveryPhraseKey = some (jsonEncode (.arr (words.map textJson)))) :
    storedPhrase keys = some (" ".intercalate words) := by
  simp only [storedPhrase, h, phraseOf_texts, Option.bind_eq_bind, Option.bind_some, Except.toOption]
  rw [mapM_asString_texts]
  rfl

theorem storedPair_texts {keys : KeyStore} {pair : KeyManager.Pair}
    (hpublic : keys.backend KeyManager.publicKeyKey = some (base64Encode pair.publicKey))
    (hprivate : keys.backend KeyManager.privateKeyKey = some (base64Encode pair.privateKey)) :
    storedPair keys = some pair := by
  rw [storedPair, hpublic, hprivate]
  simp only [base64Decode_base64Encode]
  rfl

theorem put_eq_some {e e' : AccountEntry} {r : AccountRow} {w : Option AccountRow} :
    put e r e' = some w ↔ e = e' ∧ w = some r := by
  unfold put
  split <;> simp_all [eq_comm]

theorem dropParticipants_eq_some {c : String} {e : AccountEntry} {w : Option AccountRow} :
    dropParticipants c e = some w ↔ (∃ u, e = .participant c u) ∧ w = none := by
  cases e <;> simp [dropParticipants, eq_comm]

/-- All changes of a restore. -/
theorem changes_contact {id : String} {w : Option AccountRow} :
    Writes (b.keyChanges phrase ++ b.rowChanges a) (.contact a.ownerId id) w ↔
      ∃ c ∈ b.contacts, c.id = id ∧ w = some (rowOf (c.toJson a.zone)) := by
  simp [Backup.keyChanges, Backup.rowChanges, put_eq_some, dropParticipants_eq_some, participantRows]

theorem changes_conversation {id : String} {w : Option AccountRow} :
    Writes (b.keyChanges phrase ++ b.rowChanges a) (.conversation id) w ↔
      ∃ c ∈ b.conversations, c.id = id ∧ w = some (rowOf (c.toJson a.zone)) := by
  simp [Backup.keyChanges, Backup.rowChanges, put_eq_some, dropParticipants_eq_some, participantRows]

theorem changes_message {id : String} {w : Option AccountRow} :
    Writes (b.keyChanges phrase ++ b.rowChanges a) (.message id) w ↔
      ∃ m ∈ b.messages, m.id = id ∧ w = some (rowOf (m.toJson a.zone)) := by
  simp [Backup.keyChanges, Backup.rowChanges, put_eq_some, dropParticipants_eq_some, participantRows]

theorem filter_all {α : Type} (o : Option α) : o.filter (fun _ => true) = o := by
  cases o <;> rfl

/-- The rows of a table after changes that write the values of a list under their ids, where there was none. -/
theorem readRow_applyAll {α : Type} {read : JsonFields → Except DartError α} {json : α → JsonFields} {idOf : α → String}
    {row : String → Option α} (among : α → Bool) {l : List α} {cs : List AccountChange} {e : AccountEntry} {id : String}
    {store : AccountEntry → Option AccountRow}
    (hcs : ∀ w, Writes cs e w ↔ ∃ x ∈ l, idOf x = id ∧ w = some (rowOf (json x)))
    (hl : ∀ x, x ∈ l ↔ (∃ id, row id = some x) ∧ among x = true) (hid : ∀ id x, row id = some x → idOf x = id)
    (hr : ∀ x ∈ l, readRow read (some (rowOf (json x))) = some x) (h₀ : store e = none) :
    readRow read (applyAll cs store e) = (row id).filter among := by
  by_cases h : ∃ x ∈ l, idOf x = id
  · obtain ⟨x, hx, hxid⟩ := h
    obtain ⟨⟨id', hrow⟩, ham⟩ := (hl x).mp hx
    obtain rfl := (hid id' x hrow).symm.trans hxid
    have happ : applyAll cs store e = some (rowOf (json x)) := by
      refine applyAll_agreed ((hcs _).mpr ⟨x, hx, hxid, rfl⟩) (fun w hw => ?_) store
      obtain ⟨y, hy, hyid, rfl⟩ := (hcs w).mp hw
      obtain ⟨⟨id, hrow'⟩, -⟩ := (hl y).mp hy
      obtain rfl := (hid id y hrow').symm.trans hyid
      rw [Option.some.inj (hrow'.symm.trans hrow)]
    rw [happ, hr x hx, hrow, Option.filter_some, if_pos ham]
  · rw [applyAll_untouched (fun w hw => ?_), h₀]
    · refine (Option.filter_eq_none_iff.mpr fun x hrow ham => h ⟨x, (hl x).mpr ⟨⟨id, hrow⟩, ham⟩, hid id x hrow⟩).symm
    · obtain ⟨x, hx, hxid, -⟩ := (hcs w).mp hw
      exact h ⟨x, hx, hxid⟩

variable (hc : a.Consistent i) (hh : Holds a i b phrase)

include hc hh

theorem Holds.storedPair : storedPair i.keys = some b.pair := by
  rcases hh.pair with h | h
  · exact hc.cached b.pair h
  · exact h

/-- The backup is that of a sound account, and is read as it was. -/
theorem Holds.sound : b.Sound ∧ (∀ t ∈ b.times, t.Kept a.zone a.zone) ∧ b.stored = b ∧
    " ".intercalate b.profile.recoveryPhrase = " ".intercalate phrase := by
  have hprofile := hc.user b.profile hh.profile
  obtain ⟨hpublic, hprivate, hidentity⟩ := hc.identity b.profile hh.profile b.pair (Holds.storedPair hc hh)
  have hcontacts : ∀ c ∈ b.contacts, c.Fits ∧ ∀ t ∈ c.times, a.Survives t := fun c hm => by
    obtain ⟨id, hrow⟩ := (hh.contacts c).mp hm
    exact (hc.contacts id c hrow).2
  have hconversations : ∀ c ∈ b.conversations, c.Fits ∧ c.stored = c ∧ ∀ t ∈ c.times, a.Survives t := fun c hm => by
    obtain ⟨id, hrow⟩ := (hh.conversations c).mp hm
    exact (hc.conversations id c hrow).2
  have hmessages : ∀ m ∈ b.messages, m.Fits ∧ m.stored m.timestamp = m ∧ ∀ t ∈ m.times, a.Survives t := fun m hm => by
    obtain ⟨⟨id, hrow⟩, -⟩ := (hh.messages m).mp hm
    exact (hc.messages id m hrow).2
  have htimes : ∀ t ∈ b.times, a.Survives t := by
    intro t ht
    simp only [Backup.times, List.mem_append, List.mem_flatMap] at ht
    rcases ht with ht | ⟨c, hm, ht⟩ | ⟨c, hm, ht⟩ | ⟨m, hm, ht⟩
    · exact hprofile t ht
    · exact (hcontacts c hm).2 t ht
    · exact (hconversations c hm).2.2 t ht
    · exact (hmessages m hm).2.2 t ht
  refine ⟨⟨fun t ht => (htimes t ht).1, fun c hm => (hcontacts c hm).1, fun c hm => (hconversations c hm).1,
    fun m hm => (hmessages m hm).1, hpublic, hprivate, hidentity⟩, fun t ht => (htimes t ht).2, ?_, ?_⟩
  · have h1 : b.conversations.map Conversation.stored = b.conversations :=
      (List.map_congr_left fun c hm => (hconversations c hm).2.1).trans (List.map_id _)
    have h2 : b.messages.map (fun m => m.stored m.timestamp) = b.messages :=
      (List.map_congr_left fun m hm => (hmessages m hm).2.1).trans (List.map_id _)
    rw [Backup.stored, h1, h2]
  · exact hc.phrase b.profile hh.profile _ hh.phrase

variable {words : List String} {d : Install} (hs : i'.stored = applyAll (b.keyChanges words ++ b.rowChanges a) d.stored)

include hs

/-- The profile is there again. -/
theorem restored_profile : a.getUserProfile i' = i.currentUser := by
  have hkv : i'.rows (.kv "current_user_id") = some (.text b.profile.chhayaId.publicKey) := by
    show i'.stored (.kv "current_user_id") = _
    rw [hs]
    refine applyAll_agreed (by simp [Backup.rowChanges, put_eq_some]) (fun w hw => ?_) _
    simpa [Backup.keyChanges, Backup.rowChanges, put_eq_some, dropParticipants_eq_some, participantRows] using hw
  have huser : i'.rows (.user b.profile.chhayaId.publicKey) = some (rowOf (b.profile.toJson a.zone)) := by
    show i'.stored (.user b.profile.chhayaId.publicKey) = _
    rw [hs]
    refine applyAll_agreed (by simp [Backup.rowChanges, put_eq_some]) (fun w hw => ?_) _
    simpa [Backup.keyChanges, Backup.rowChanges, put_eq_some, dropParticipants_eq_some, participantRows] using hw
  have ht := hc.user b.profile hh.profile
  rw [getUserProfile, hkv]
  dsimp only
  rw [huser, readRow_rowOf (UserProfile.wf_toJson _ _)
    (UserProfile.fromJson_kept (fun t h => (ht t h).1) fun t h => (ht t h).2), hh.profile]

/-- The keys are there again. -/
theorem restored_keys : storedPair i'.keys = storedPair i.keys ∧ storedPhrase i'.keys = some (" ".intercalate words) := by
  have hread : ∀ {key text}, i'.stored (.secure key) = some (.text text) → i'.keys.backend key = some text := by
    intro key text h
    obtain ⟨s, hs, he⟩ := Option.map_eq_some_iff.mp h
    cases he
    exact hs
  have hsecure : ∀ {key w}, Writes (b.keyChanges words ++ b.rowChanges a) (.secure key) w ↔
      Writes (b.keyChanges words) (.secure key) w := by
    intro key w
    simp [Backup.rowChanges, put_eq_some, dropParticipants_eq_some, participantRows]
  have hpublic : i'.keys.backend KeyManager.publicKeyKey = some (base64Encode b.pair.publicKey) := by
    refine hread ?_
    rw [hs]
    refine applyAll_agreed (hsecure.mpr (by simp [Backup.keyChanges, put_eq_some])) (fun w hw => ?_) _
    simpa [Backup.keyChanges, put_eq_some, KeyManager.publicKeyKey, KeyManager.privateKeyKey,
      KeyManager.recoveryPhraseKey] using hsecure.mp hw
  have hprivate : i'.keys.backend KeyManager.privateKeyKey = some (base64Encode b.pair.privateKey) := by
    refine hread ?_
    rw [hs]
    refine applyAll_agreed (hsecure.mpr (by simp [Backup.keyChanges, put_eq_some])) (fun w hw => ?_) _
    simpa [Backup.keyChanges, put_eq_some, KeyManager.publicKeyKey, KeyManager.privateKeyKey,
      KeyManager.recoveryPhraseKey] using hsecure.mp hw
  have hphrase : i'.keys.backend KeyManager.recoveryPhraseKey =
      some (jsonEncode (.arr (words.map fun word => .str word.toList))) := by
    refine hread ?_
    rw [hs]
    refine applyAll_agreed (hsecure.mpr (by simp [Backup.keyChanges, put_eq_some])) (fun w hw => ?_) _
    simpa [Backup.keyChanges, put_eq_some, KeyManager.publicKeyKey, KeyManager.privateKeyKey,
      KeyManager.recoveryPhraseKey] using hsecure.mp hw
  exact ⟨(storedPair_texts hpublic hprivate).trans (Holds.storedPair hc hh).symm, storedPhrase_texts hphrase⟩

variable (hd : a.Blank d)

include hd

/-- Every contact is there again, and no other. -/
theorem restored_contact (id : String) : a.contactAt i' id = a.contactAt i id := by
  have h₀ : d.stored (.contact a.ownerId id) = none := hd.contacts id
  show readRow _ (i'.stored (.contact a.ownerId id)) = _
  rw [hs]
  refine (readRow_applyAll (fun _ => true) (fun w => changes_contact) (fun x => ?_)
    (fun id x hx => (hc.contacts id x hx).1) (fun x hx => ?_) h₀).trans (filter_all _)
  · rw [hh.contacts, and_iff_left rfl]
  · obtain ⟨id', hrow⟩ := (hh.contacts x).mp hx
    obtain ⟨-, hf, ht⟩ := hc.contacts id' x hrow
    exact readRow_rowOf (Contact.wf_toJson _ hf) (Contact.fromJson_kept (fun t h => (ht t h).1) fun t h => (ht t h).2)

/-- Every conversation is there again, and no other. -/
theorem restored_conversation (id : String) : a.conversationAt i' id = a.conversationAt i id := by
  have h₀ : d.stored (.conversation id) = none := hd.conversations id
  show readRow _ (i'.stored (.conversation id)) = _
  rw [hs]
  refine (readRow_applyAll (fun _ => true) (fun w => changes_conversation) (fun x => ?_)
    (fun id x hx => (hc.conversations id x hx).1) (fun x hx => ?_) h₀).trans (filter_all _)
  · rw [hh.conversations, and_iff_left rfl]
  · obtain ⟨id', hrow⟩ := (hh.conversations x).mp hx
    obtain ⟨-, hf, hstored, ht⟩ := hc.conversations id' x hrow
    refine readRow_rowOf (Conversation.wf_toJson _ hf) ?_
    rw [Conversation.fromJson_kept (fun t h => (ht t h).1) fun t h => (ht t h).2, hstored]

/-- Every message of a conversation is there again, and no other. -/
theorem restored_message (id : String) : a.messageAt i' id =
    (a.messageAt i id).filter fun m => (a.conversationAt i m.conversationId).isSome := by
  have h₀ : d.stored (.message id) = none := hd.messages id
  show readRow _ (i'.stored (.message id)) = _
  rw [hs]
  refine readRow_applyAll _ (fun w => changes_message) (fun x => ?_) (fun id x hx => (hc.messages id x hx).1)
    (fun x hx => ?_) h₀
  · rw [hh.messages]
    refine and_congr_right fun _ => ⟨?_, fun h => ?_⟩
    · rintro ⟨c, hm, hid⟩
      obtain ⟨id', hrow⟩ := (hh.conversations c).mp hm
      rw [← hid, (hc.conversations id' c hrow).1, hrow]
      rfl
    · obtain ⟨c, hrow⟩ := Option.isSome_iff_exists.mp h
      exact ⟨c, (hh.conversations c).mpr ⟨_, hrow⟩, (hc.conversations _ c hrow).1⟩
  · obtain ⟨⟨id', hrow⟩, -⟩ := (hh.messages x).mp hx
    obtain ⟨-, hf, hstored, ht⟩ := hc.messages id' x hrow
    refine readRow_rowOf (Message.wf_toJson _ hf) ?_
    rw [Message.fromJson_kept (fun t h => (ht t h).1) fun t h => (ht t h).2, hstored]

end Restore

/-! ## An account with a chat -/

def bob : Contact := { id := "bob", chhayaId := ⟨"05", ⟨0, true⟩⟩, displayName := "Bob" }

def chat : Conversation := { id := "chat", participants := [bob], createdAt := ⟨0, true⟩ }

def greeting : Message :=
  { id := "hello", conversationId := "chat", senderId := "bob", content := "Hello", timestamp := ⟨0, true⟩ }

/-- The install of `zeroBackup`'s user, with a contact, their conversation and its message. -/
def chatInstall : Install where
  keys := ⟨fun key => if key = KeyManager.publicKeyKey ∨ key = KeyManager.privateKeyKey then
      some (base64Encode (List.replicate 32 0))
    else if key = KeyManager.recoveryPhraseKey then some (jsonEncode (.arr [textJson "word"])) else none, none⟩
  rows
    | .contact owner id =>
      if owner = "local" ∧ id = "bob" then some (rowOf (bob.toJson zeroService.zone)) else none
    | .conversation id => if id = "chat" then some (rowOf (chat.toJson zeroService.zone)) else none
    | .message id => if id = "hello" then some (rowOf (greeting.toJson zeroService.zone)) else none
    | _ => none
  currentUser := some zeroBackup.profile

theorem survives_zero : zeroService.Survives ⟨0, true⟩ := ⟨by decide, Or.inl rfl⟩

theorem bob_fits : bob.Fits := show Json.fits64 1 = true by decide

theorem chat_fits : chat.Fits where
  unreadCount := show Json.fits64 0 = true by decide
  participants c hc := by
    obtain rfl := List.mem_singleton.mp hc
    exact bob_fits
  lastMessage _ hm := nomatch hm

theorem greeting_fits : greeting.Fits := fun _ h => nomatch h

theorem bob_times : ∀ t ∈ bob.times, zeroService.Survives t := fun t ht => by
  have h : ∀ t ∈ bob.times, t = ⟨0, true⟩ := by decide
  exact h t ht ▸ survives_zero

theorem chat_times : ∀ t ∈ chat.times, zeroService.Survives t := fun t ht => by
  have h : ∀ t ∈ chat.times, t = ⟨0, true⟩ := by decide
  exact h t ht ▸ survives_zero

theorem greeting_times : ∀ t ∈ greeting.times, zeroService.Survives t := fun t ht => by
  have h : ∀ t ∈ greeting.times, t = ⟨0, true⟩ := by decide
  exact h t ht ▸ survives_zero

/-- A table of one row. -/
theorem readRow_one {α : Type} {read : JsonFields → Except DartError α} {fields : JsonFields} {x : α} {p : Prop}
    [Decidable p] (hx : readRow read (some (rowOf fields)) = some x) :
    readRow read (if p then some (rowOf fields) else none) = if p then some x else none := by
  split
  · exact hx
  · rfl

theorem contactAt_chatInstall (id : String) :
    zeroService.contactAt chatInstall id = if id = "bob" then some bob else none := by
  have hx := readRow_rowOf (Contact.wf_toJson zeroService.zone bob_fits)
    (Contact.fromJson_kept (fun t h => (bob_times t h).1) fun t h => (bob_times t h).2)
  exact (readRow_one hx).trans (by simp [zeroService])

theorem conversationAt_chatInstall (id : String) :
    zeroService.conversationAt chatInstall id = if id = "chat" then some chat else none := by
  have hx := readRow_rowOf (Conversation.wf_toJson zeroService.zone chat_fits)
    (Conversation.fromJson_kept (fun t h => (chat_times t h).1) fun t h => (chat_times t h).2)
  exact readRow_one hx

theorem messageAt_chatInstall (id : String) :
    zeroService.messageAt chatInstall id = if id = "hello" then some greeting else none := by
  have hx := readRow_rowOf (Message.wf_toJson zeroService.zone greeting_fits)
    (Message.fromJson_kept (fun t h => (greeting_times t h).1) fun t h => (greeting_times t h).2)
  exact readRow_one hx

theorem chatInstall_publicKey :
    chatInstall.keys.backend KeyManager.publicKeyKey = some (base64Encode (List.replicate 32 0)) := by
  simp [chatInstall]

theorem chatInstall_privateKey :
    chatInstall.keys.backend KeyManager.privateKeyKey = some (base64Encode (List.replicate 32 0)) := by
  simp [chatInstall]

theorem chatInstall_phrase :
    chatInstall.keys.backend KeyManager.recoveryPhraseKey = some (jsonEncode (.arr (["word"].map textJson))) := by
  simp [chatInstall, KeyManager.publicKeyKey, KeyManager.privateKeyKey, KeyManager.recoveryPhraseKey]

theorem chatInstall_consistent : zeroService.Consistent chatInstall where
  cached _ h := nomatch h
  user p hp t ht := by
    cases hp
    have h : ∀ t ∈ zeroBackup.profile.times, t = ⟨0, true⟩ := by decide
    exact h t ht ▸ survives_zero
  phrase p hp s hs := by
    cases hp
    rw [storedPhrase_texts chatInstall_phrase] at hs
    exact Option.some.inj hs
  identity p hp pair hpair := by
    have h : storedPair chatInstall.keys = some zeroBackup.pair :=
      storedPair_texts chatInstall_publicKey chatInstall_privateKey
    cases hp
    rw [h] at hpair
    cases hpair
    exact ⟨rfl, rfl, Or.inl rfl⟩
  contacts id c hc := by
    rw [contactAt_chatInstall] at hc
    split at hc
    · rename_i hid
      cases hc
      exact ⟨hid.symm, bob_fits, bob_times⟩
    · cases hc
  conversations id c hc := by
    rw [conversationAt_chatInstall] at hc
    split at hc
    · rename_i hid
      cases hc
      exact ⟨hid.symm, chat_fits, rfl, chat_times⟩
    · cases hc
  messages id m hm := by
    rw [messageAt_chatInstall] at hm
    split at hm
    · rename_i hid
      cases hm
      exact ⟨hid.symm, greeting_fits, rfl, greeting_times⟩
    · cases hm

theorem fetch_runs {a : AuthService} {i i' : Install} {op : BackupOp} {x : BackupAns op}
    (h : BackupEffect a i op (.ok x) i') : Async.Runs (BackupEffect a) (fetch op) i (some (.ok x)) i' :=
  .call h (.done _ _)

theorem ofKeys_runs {a : AuthService} {i : Install} {α : Type} {p : KeyManager.Prog α} {r : Option (Except DartError α)}
    {keys keys' : KeyStore} (h : Async.Runs KeyManager.Effect p keys r keys') (hk : i.keys = keys) :
    Async.Runs (BackupEffect a) (ofKeys p) i r { i with keys := keys' } := by
  induction h generalizing i with
  | done x s =>
    subst hk
    exact .done _ _
  | throw e s =>
    subst hk
    exact .throw _ _
  | call he _ ih =>
    subst hk
    exact .call (.key he) (ih rfl)
  | cut p s =>
    subst hk
    exact .cut _ _

theorem selects_one {α : Type} {row : String → Option α} (id : String) {x : α}
    (h : ∀ id', row id' = if id' = id then some x else none) : Selects row [x] := by
  refine ⟨[id], List.nodup_singleton id, fun id' hs => ?_, ?_⟩
  · rw [h] at hs
    split at hs
    · exact List.mem_singleton.mpr ‹_›
    · cases hs
  · rw [List.filterMap_cons, h, if_pos rfl]
    rfl

theorem getRecoveryPhrase_runs {keys : KeyStore} {s : String} {words : List Json}
    (hs : keys.backend KeyManager.recoveryPhraseKey = some s) (hw : KeyManager.phraseOf s = .ok words) :
    Async.Runs KeyManager.Effect KeyManager.getRecoveryPhrase keys (some (.ok (some words))) keys := by
  refine .call (.read _ _) ?_
  rw [hs]
  show Async.Runs _ ((Async.ofExcept (KeyManager.phraseOf s)).bind fun words => .done (some words)) _ _ _
  rw [hw]
  exact .done _ _

theorem getKeyPair_runs {keys : KeyStore} {pub priv : String} {pair : KeyManager.Pair}
    (hf : keys.foregroundIdentity = none) (hpub : keys.backend KeyManager.publicKeyKey = some pub)
    (hpriv : keys.backend KeyManager.privateKeyKey = some priv) (hpublic : base64Decode pub = .ok pair.publicKey)
    (hprivate : base64Decode priv = .ok pair.privateKey) :
    Async.Runs KeyManager.Effect KeyManager.getKeyPair keys (some (.ok (some pair)))
      { keys with foregroundIdentity := some pair } := by
  refine .call (.foregroundIdentity _) ?_
  rw [hf]
  refine .call (.read _ _) (.call (.read _ _) ?_)
  rw [hpub, hpriv]
  show Async.Runs _ ((Async.ofExcept (base64Decode pub)).bind _) _ _ _
  rw [hpublic, hprivate]
  exact .call (.setForegroundIdentity _ _) (.done _ _)

/-- A backup is generated where every read returns. -/
theorem generateBackup_runs {a : AuthService} {i : Install} {keys : KeyStore} {b : Backup} {words : List Json}
    {phrase : List String} {text : String} (hprofile : i.currentUser = some b.profile)
    (hw : Async.Runs KeyManager.Effect KeyManager.getRecoveryPhrase i.keys (some (.ok (some words))) i.keys)
    (hk : Async.Runs KeyManager.Effect KeyManager.getKeyPair i.keys (some (.ok (some b.pair))) keys)
    (hcontacts : Selects (a.contactAt i) b.contacts) (hconversations : Selects (a.conversationAt i) b.conversations)
    (hmessages : Async.Runs (BackupEffect a) (allMessages b.conversations) { i with keys } (some (.ok b.messages))
      { i with keys }) (hp : words.mapM asString = .ok phrase)
    (salt : {l : Bytes // l.length = 32}) (nonce : {l : Bytes // l.length = 12})
    (ht : a.writeBackup b phrase salt.1 nonce.1 = .ok text) :
    Async.Runs (BackupEffect a) a.generateBackup i (some (.ok text)) { i with keys } := by
  obtain ⟨stored, rows, opened, user⟩ := i
  obtain ⟨profile, pair, contacts, conversations, messages⟩ := b
  cases hprofile
  refine (fetch_runs (.currentUser _)).bind ?_
  refine (ofKeys_runs hw rfl).bind ?_
  refine (ofKeys_runs hk rfl).bind ?_
  refine (fetch_runs (.contacts (i := ⟨keys, rows, opened, some profile⟩) hcontacts)).bind ?_
  refine (fetch_runs (.conversations (i := ⟨keys, rows, opened, some profile⟩) hconversations)).bind ?_
  refine hmessages.bind ?_
  refine (ofKeys_runs (.call (.bytes keys 32 salt) (.done _ _)) rfl).bind ?_
  rw [hp]
  refine (ofKeys_runs (.call (.bytes keys 12 nonce) (.done _ _)) rfl).bind ?_
  show Async.Runs _ (Async.ofExcept (a.writeBackup ⟨profile, pair, contacts, conversations, messages⟩ phrase salt.1 nonce.1))
    _ _ _
  rw [ht]
  exact .done _ _

def chatBackup : Backup := ⟨zeroBackup.profile, zeroBackup.pair, [bob], [chat], [greeting]⟩

theorem chat_generates : ∃ text i', Async.Runs (BackupEffect zeroService) zeroService.generateBackup chatInstall
    (some (.ok text)) i' := by
  obtain ⟨text, htext⟩ : ∃ text, zeroService.writeBackup chatBackup ["word"] (List.replicate 32 0) (List.replicate 12 0) =
      .ok text := by
    rw [writeBackup, encryptMessage, AesGcm.encryptBytes_ok _ (by rfl) (by rfl)]
    exact ⟨_, rfl⟩
  have hgreeting : Selects (fun id => (zeroService.messageAt chatInstall id).filter fun m => m.conversationId == chat.id)
      [greeting] := by
    refine selects_one "hello" fun id => ?_
    rw [messageAt_chatInstall]
    split <;> rfl
  have hmessages : ∀ keys, Async.Runs (BackupEffect zeroService) (allMessages [chat]) { chatInstall with keys }
      (some (.ok [greeting])) { chatInstall with keys } := fun keys =>
    (fetch_runs (.messages (i := { chatInstall with keys }) hgreeting)).bind (.done _ _)
  exact ⟨text, _, generateBackup_runs (b := chatBackup) rfl
    (getRecoveryPhrase_runs chatInstall_phrase (phraseOf_texts _))
    (getKeyPair_runs rfl chatInstall_publicKey chatInstall_privateKey (base64Decode_base64Encode _)
      (base64Decode_base64Encode _)) (selects_one "bob" contactAt_chatInstall)
    (selects_one "chat" conversationAt_chatInstall) (hmessages _) (mapM_asString_texts _) ⟨List.replicate 32 0, rfl⟩
    ⟨List.replicate 12 0, rfl⟩ htext⟩

/-! ## The round trip -/

/-- A backup of an account that is restored with its phrase, on an install without one in the same time zone. -/
theorem backup_round_trip {a : AuthService} {i i' d : Install} {text : String} {words : List String} (hc : a.Consistent i)
    (hg : Async.Runs (BackupEffect a) a.generateBackup i (some (.ok text)) i')
    (hp : storedPhrase i.keys = some (" ".intercalate words)) (hd : a.Blank d) :
    (a.restored text words d none).1 = .ok true ∧ a.Restored i (a.restored text words d none).2 := by
  obtain ⟨b, phrase, salt, nonce, hh, hsalt, htext⟩ := generateBackup_run hg
  obtain ⟨hsound, hkept, hstored, hphrase⟩ := Holds.sound hc hh
  have hjoin : " ".intercalate phrase = " ".intercalate words := Option.some.inj (hh.phrase.symm.trans hp)
  have hwrite : a.writeBackup b words salt nonce = .ok text := by
    rw [← htext]
    simp only [writeBackup, keyFromRecoveryPhrase, hjoin]
  have hread := readBackup_writeBackup hsound hkept hsalt (hphrase.trans hjoin) hwrite
  rw [hstored] at hread
  have hrun := restored_run hread d none
  have htaken : b.taken a words d none = none := by
    rw [Backup.taken, if_pos hd.initialized]
    rfl
  rw [htaken] at hrun
  obtain ⟨hok, hs, huser⟩ := hrun
  obtain ⟨hpair, hphrase'⟩ := restored_keys hc hh hs
  exact ⟨hok, huser.trans hh.profile.symm, restored_profile hc hh hs, hpair, hphrase'.trans hp.symm,
    restored_contact hc hh hs hd, restored_conversation hc hh hs hd, restored_message hc hh hs hd⟩

/-- The contact, the conversation and the message are there again. -/
theorem backup_round_trip_chat : ∃ text, (zeroService.restored text ["word"] emptyInstall none).1 = .ok true ∧
    zeroService.contactAt (zeroService.restored text ["word"] emptyInstall none).2 "bob" = some bob ∧
    zeroService.conversationAt (zeroService.restored text ["word"] emptyInstall none).2 "chat" = some chat ∧
    zeroService.messageAt (zeroService.restored text ["word"] emptyInstall none).2 "hello" = some greeting := by
  obtain ⟨text, i', hg⟩ := chat_generates
  obtain ⟨hok, hr⟩ := backup_round_trip chatInstall_consistent hg (storedPhrase_texts chatInstall_phrase)
    (d := emptyInstall) ⟨rfl, fun _ => rfl, fun _ => rfl, fun _ => rfl⟩
  refine ⟨text, hok, ?_, ?_, ?_⟩
  · rw [hr.contacts, contactAt_chatInstall, if_pos rfl]
  · rw [hr.conversations, conversationAt_chatInstall, if_pos rfl]
  · rw [hr.messages, messageAt_chatInstall, if_pos rfl, Option.filter_some, conversationAt_chatInstall]
    simp [greeting]

end AuthService

end Chhaya
