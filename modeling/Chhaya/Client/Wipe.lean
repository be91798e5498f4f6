import Chhaya.Client.SessionKeys
import Chhaya.Client.Rotation

/-!
# The account wipe

All calls of a `KeyManager`, one after the other on one storage, across restarts of the app, and what
`clearAllAccountSecrets` leaves of them.

- `History.untouched`: the key manager writes under its own names only.
- `clearAllAccountSecrets_run`: what a wipe that returns has done.
- `wipe_complete_iff`: a wipe leaves nothing behind exactly if no session epoch is in the storage.
-/

namespace Chhaya

namespace KeyManager

/-! ## The calls -/

def recoveryPhraseKey : String := "chhaya_recovery_phrase"
def chhayaIdKey : String := "chhaya_chhaya_id"

/-- The entry in which `rotateSessionKey` counts. -/
def sessionEpochKey (contactId : String) : String := "chhaya_session_epoch_" ++ contactId

/-- What a call awaits, and its accesses to the memory. -/
inductive AccountOp
  | memory (op : MemoryOp)
  | sessionKey (cacheKey : String)
  | rotationEpoch (contactId : String)
  | clearRotationEpochs

def AccountAns : AccountOp → Type
  | .memory op => MemoryAns op
  | .sessionKey _ => Option Bytes
  | .rotationEpoch _ => Option Int
  | .clearRotationEpochs => Unit

abbrev AccountProg (α : Type) := Async AccountOp AccountAns DartError α

/-- A program without the accesses that are new here. -/
def onAccount {α : Type} : MemoryProg α → AccountProg α
  | .done a => .done a
  | .throw e => .throw e
  | .call op k => .call (.memory op) fun a => onAccount (k a)

/-- What an access does. -/
inductive AccountEffect : Memory → (op : AccountOp) → Except DartError (AccountAns op) → Memory → Prop
  | memory {m m' : Memory} {op : MemoryOp} {a : Except DartError (MemoryAns op)} (h : MemoryEffect m op a m') :
    AccountEffect m (.memory op) a m'
  | sessionKey (m : Memory) (cacheKey : String) : AccountEffect m (.sessionKey cacheKey) (.ok (m.sessionCache cacheKey)) m
  | rotationEpoch (m : Memory) (contactId : String) :
    AccountEffect m (.rotationEpoch contactId) (.ok (m.rotationEpochs contactId)) m
  | clearRotationEpochs (m : Memory) :
    AccountEffect m .clearRotationEpochs (.ok ()) { m with rotationEpochs := fun _ => none }

/-- `storeRecoveryPhrase`. -/
def storeRecoveryPhrase (phrase : List String) : Prog Unit :=
  write recoveryPhraseKey (jsonEncode (.arr (phrase.map fun word => .str word.toList)))

/-- `jsonDecode(s) as List`, whose elements are cast when they are used. -/
def phraseOf (s : String) : Except DartError (List Json) := do
  match ← jsonDecode s with
  | .arr words => return words
  | j => .error (castError j "List<dynamic>")

/-- `getRecoveryPhrase`. -/
def getRecoveryPhrase : Prog (Option (List Json)) := do
  match ← read recoveryPhraseKey with
  | some s => do return some (← Async.ofExcept (phraseOf s))
  | none => return none

/-- `storeChhayaId`. -/
def storeChhayaId (id : String) : Prog Unit := write chhayaIdKey id

/-- `getChhayaId`. -/
def getChhayaId : Prog (Option String) := read chhayaIdKey

/-- `hasKeys`. -/
def hasKeys : Prog Bool := do
  let p ← read publicKeyKey
  let pr ← read privateKeyKey
  return p.isSome && pr.isSome

/-- `identityEpoch`. -/
def getIdentityEpoch : Prog Int := do
  return epochOf (← read identityEpochKey)

/-- What `clearAllKeys` deletes. -/
def keyPairKeys : List String := [publicKeyKey, privateKeyKey, recoveryPhraseKey, chhayaIdKey]

/-- A call of the key manager. -/
inductive AccountCall
  | storeKeyPair (pair : Pair)
  | getKeyPair
  | storeRecoveryPhrase (phrase : List String)
  | getRecoveryPhrase
  | storeChhayaId (id : String)
  | getChhayaId
  | hasKeys
  | clearAllKeys
  | clearAllAccountSecrets
  | derivePathKey (path : String) (salt : Option Bytes)
  | getDatabaseKey (userId : String)
  | cacheSessionKey (contactId deviceId : String) (key : Bytes)
  | getCachedSessionKey (contactId deviceId : String)
  | zeroizeCache
  | didChangeAppLifecycleState (state : AppLifecycleState)
  | rotateIdentity
  | identityEpoch
  | rotateSessionKey (contactId : String)
  | rotationEpoch (contactId : String)

namespace AccountCall

/-- What the call returns. -/
def Result : AccountCall → Type
  | .getKeyPair => Option Pair
  | .getRecoveryPhrase => Option (List Json)
  | .getChhayaId => Option String
  | .hasKeys => Bool
  | .derivePathKey _ _ | .getDatabaseKey _ => Bytes
  | .getCachedSessionKey _ _ => Option Bytes
  | .rotateIdentity => RotationAnnouncement
  | .identityEpoch | .rotateSessionKey _ => Int
  | .rotationEpoch _ => Option Int
  | _ => Unit

/-- `clearAllAccountSecrets` as a whole. -/
def wipeAccount : AccountProg Unit := do
  onAccount wipe
  onAccount (onMemory (deleteAll accountKeys))
  Async.await AccountOp.clearRotationEpochs

/-- The program of the call. -/
def body (E : Ed25519) (P : Primitives UInt8) : (i : AccountCall) → AccountProg i.Result
  | .storeKeyPair pair => onAccount (do wipe; onMemory (writePair pair))
  | .getKeyPair => onAccount (onMemory KeyManager.getKeyPair)
  | .storeRecoveryPhrase phrase => onAccount (onMemory (KeyManager.storeRecoveryPhrase phrase))
  | .getRecoveryPhrase => onAccount (onMemory KeyManager.getRecoveryPhrase)
  | .storeChhayaId id => onAccount (onMemory (KeyManager.storeChhayaId id))
  | .getChhayaId => onAccount (onMemory KeyManager.getChhayaId)
  | .hasKeys => onAccount (onMemory KeyManager.hasKeys)
  | .clearAllKeys => onAccount (do wipe; onMemory (deleteAll keyPairKeys))
  | .clearAllAccountSecrets => wipeAccount
  | .derivePathKey path salt => onAccount (onMemory (KeyManager.derivePathKey P path salt))
  | .getDatabaseKey userId => onAccount (onMemory (KeyManager.getDatabaseKey P userId))
  | .cacheSessionKey contactId deviceId key => onAccount (KeyManager.cacheSessionKey contactId deviceId key)
  | .getCachedSessionKey contactId deviceId =>
    Async.bind (Async.ofExcept (sessionPath contactId deviceId)) fun path => Async.await (AccountOp.sessionKey path)
  | .zeroizeCache => onAccount wipe
  | .didChangeAppLifecycleState state => onAccount (KeyManager.didChangeAppLifecycleState state)
  | .rotateIdentity => onAccount (KeyManager.rotateIdentity E P)
  | .identityEpoch => onAccount (onMemory getIdentityEpoch)
  | .rotateSessionKey contactId => onAccount (KeyManager.rotateSessionKey contactId)
  | .rotationEpoch contactId => Async.await (AccountOp.rotationEpoch contactId)

end AccountCall

/-! ## What is to be shown -/

/-- A name under which the key manager writes. -/
def Named (key : String) : Prop := key ∈ accountKeys ∨ ∃ contactId, key = sessionEpochKey contactId

/-- The key manager of an installation that never held an account; other parts of the app may use the storage. -/
structure NeverHeld (m : Memory) : Prop where
  store : ∀ key, Named key → m.store.backend key = none
  identity : m.store.foregroundIdentity = none
  sessions : m.sessionCache = fun _ => none
  epochs : m.rotationEpochs = fun _ => none

/-- A key manager that was created anew over the storage. -/
def Memory.restarted (m : Memory) : Memory := ⟨{ m.store with foregroundIdentity := none }, fun _ => none, fun _ => none⟩

/-- What calls one after the other lead to: each returns or throws, and the app may be stopped between two calls or amid
one, and be started again. -/
inductive History (E : Ed25519) (P : Primitives UInt8) (m₀ : Memory) : Memory → Prop
  | init : History E P m₀ m₀
  | call {m m' : Memory} (h : History E P m₀ m) (i : AccountCall) {r : Except DartError i.Result}
    (hr : Async.Runs AccountEffect (i.body E P) m (some r) m') : History E P m₀ m'
  | restart {m : Memory} (h : History E P m₀ m) : History E P m₀ m.restarted
  | crash {m m' : Memory} (h : History E P m₀ m) (i : AccountCall)
    (hr : Async.Runs AccountEffect (i.body E P) m none m') : History E P m₀ m'.restarted

/-- Nothing of the account is left: the storage holds what it held before, the caches are empty, and every later call runs
as it does for a manager that never held the account. -/
structure Gone (E : Ed25519) (P : Primitives UInt8) (m₀ m : Memory) : Prop where
  store : ∀ key, m.store.backend key = m₀.store.backend key
  identity : m.store.foregroundIdentity = none
  sessions : ∀ key, m.sessionCache key = none
  epochs : ∀ contactId, m.rotationEpochs contactId = none
  later : ∀ (i : AccountCall) r m', Async.Runs AccountEffect (i.body E P) m r m' ↔
    Async.Runs AccountEffect (i.body E P) m₀ r m'

/-! ## What the calls write -/

/-- The access writes under names of the key manager. -/
def Op.Names : Op → Prop
  | .write key _ | .delete key => Named key
  | _ => True

def MemoryOp.Names : MemoryOp → Prop
  | .access op => op.Names
  | _ => True

def AccountOp.Names : AccountOp → Prop
  | .memory op => op.Names
  | _ => True

section Names

variable {α γ : Type}

theorem named_account {key : String} (h : key ∈ accountKeys) : Named key := Or.inl h

theorem onAccount_every {φ : AccountOp → Prop} {q : MemoryProg α} (h : q.Every fun op => φ (.memory op)) :
    (onAccount q).Every φ := by
  induction q with
  | done a => exact trivial
  | throw e => exact trivial
  | call op k ih => exact ⟨h.1, fun a => ih a (h.2 a)⟩

theorem ofExcept_every {Op' : Type} {Ans' : Op' → Type} {φ : Op' → Prop} (r : Except DartError α) :
    (Async.ofExcept r : Async Op' Ans' DartError α).Every φ := by
  cases r <;> exact trivial

/-- A program of the storage, as a call. -/
theorem storage_names {q : Prog α} (h : q.Every Op.Names) : (onAccount (onMemory q)).Every AccountOp.Names :=
  onAccount_every (onMemory_every h)

theorem deleteAll_names : ∀ {l : List String}, (∀ key ∈ l, Named key) → (deleteAll l).Every Op.Names
  | [], _ => trivial
  | _ :: _, h => Async.Every.bind (Async.Every.await (h _ List.mem_cons_self)) fun _ =>
    deleteAll_names fun _ hk => h _ (List.mem_cons_of_mem _ hk)

theorem writePair_names (pair : Pair) : (writePair pair).Every Op.Names :=
  Async.Every.bind (Async.Every.await (named_account (by decide))) fun _ =>
    Async.Every.await (named_account (by decide))

theorem getKeyPair_names : KeyManager.getKeyPair.Every Op.Names := by
  refine Async.Every.bind (Async.Every.await trivial) fun cached => ?_
  cases cached with
  | some pair => exact trivial
  | none =>
    refine Async.Every.bind (Async.Every.await trivial) fun pub => Async.Every.bind (Async.Every.await trivial) fun priv => ?_
    rcases loadPair_cases pub priv with h | ⟨e, h⟩ | ⟨pair, h⟩
    · rw [h]
      exact trivial
    · rw [h]
      exact trivial
    · rw [h]
      exact Async.Every.bind (Async.Every.await trivial) fun _ => trivial

theorem getRecoveryPhrase_names : KeyManager.getRecoveryPhrase.Every Op.Names := by
  refine Async.Every.bind (Async.Every.await trivial) fun stored => ?_
  cases stored with
  | some s => exact Async.Every.bind (ofExcept_every _) fun _ => trivial
  | none => exact trivial

theorem hasKeys_names : KeyManager.hasKeys.Every Op.Names :=
  Async.Every.bind (Async.Every.await trivial) fun _ => Async.Every.bind (Async.Every.await trivial) fun _ => trivial

theorem masterSeed_names : masterSeed.Every Op.Names := by
  refine Async.Every.bind (Async.Every.await trivial) fun stored => ?_
  cases stored with
  | some s => exact ofExcept_every _
  | none => exact Async.Every.bind (Async.Every.await trivial) fun seed =>
      Async.Every.bind (Async.Every.await (named_account (by decide))) fun _ => trivial

theorem derivePathKey_names (P : Primitives UInt8) (path : String) (salt : Option Bytes) :
    (KeyManager.derivePathKey P path salt).Every Op.Names :=
  Async.Every.bind (ofExcept_every _) fun _ => Async.Every.bind masterSeed_names fun _ => ofExcept_every _

theorem rotateFrom_names (E : Ed25519) (oldSeed : Bytes) : (rotateFrom E oldSeed).Every MemoryOp.Names := by
  refine Async.Every.bind (ofExcept_every _) fun oldPub => ?_
  refine Async.Every.bind (onMemory_every (Async.Every.await trivial)) fun newSeed => ?_
  refine Async.Every.bind (ofExcept_every _) fun newPub => Async.Every.bind (Async.Every.await trivial) fun time => ?_
  refine Async.Every.bind (ofExcept_every _) fun signature => ?_
  refine Async.Every.bind (onMemory_every (Async.Every.await (named_account (by decide)))) fun _ => ?_
  refine Async.Every.bind ?_ fun _ => trivial
  exact Async.Every.bind (onMemory_every (Async.Every.await trivial)) fun _ =>
    onMemory_every (Async.Every.await (named_account (by decide)))

theorem rotateIdentity_names (E : Ed25519) (P : Primitives UInt8) :
    (KeyManager.rotateIdentity E P).Every MemoryOp.Names := by
  refine Async.Every.bind (onMemory_every (Async.Every.await trivial)) fun stored => ?_
  cases stored with
  | some s => exact Async.Every.bind (ofExcept_every _) fun _ => rotateFrom_names E _
  | none => exact Async.Every.bind (onMemory_every (derivePathKey_names P _ _)) fun _ => rotateFrom_names E _

theorem rotateSessionKey_names (contactId : String) : (KeyManager.rotateSessionKey contactId).Every MemoryOp.Names := by
  refine Async.Every.bind (ofExcept_every _) fun _ => Async.Every.bind (Async.Every.await trivial) fun _ => ?_
  refine Async.Every.bind (onMemory_every (Async.Every.await trivial)) fun stored => ?_
  refine Async.Every.bind (onMemory_every (Async.Every.await (Or.inr ⟨contactId, rfl⟩))) fun _ => ?_
  exact Async.Every.bind (Async.Every.await trivial) fun _ => trivial

/-- The key manager writes under its own names only. -/
theorem AccountCall.body_names (E : Ed25519) (P : Primitives UInt8) (i : AccountCall) :
    (i.body E P).Every AccountOp.Names := by
  have hwipe : ∀ {q : Prog Unit}, q.Every Op.Names → (onAccount (wipe.bind fun _ => onMemory q)).Every AccountOp.Names :=
    fun h => onAccount_every (Async.Every.bind (Async.Every.await trivial) fun _ => onMemory_every h)
  cases i with
  | storeKeyPair pair => exact hwipe (writePair_names pair)
  | getKeyPair => exact storage_names getKeyPair_names
  | storeRecoveryPhrase phrase => exact storage_names (Async.Every.await (named_account (by decide)))
  | getRecoveryPhrase => exact storage_names getRecoveryPhrase_names
  | storeChhayaId id => exact storage_names (Async.Every.await (named_account (by decide)))
  | getChhayaId => exact storage_names (Async.Every.await trivial)
  | hasKeys => exact storage_names hasKeys_names
  | clearAllKeys =>
    exact hwipe (deleteAll_names fun key h => named_account
      ((by decide : ∀ key ∈ keyPairKeys, key ∈ accountKeys) key h))
  | clearAllAccountSecrets =>
    refine Async.Every.bind (onAccount_every (Async.Every.await trivial)) fun _ => ?_
    exact Async.Every.bind (storage_names (deleteAll_names fun _ => named_account)) fun _ => Async.Every.await trivial
  | derivePathKey path salt => exact storage_names (derivePathKey_names P path salt)
  | getDatabaseKey userId =>
    exact storage_names (Async.Every.bind (ofExcept_every _) fun _ => derivePathKey_names P _ _)
  | cacheSessionKey contactId deviceId key =>
    exact onAccount_every (Async.Every.bind (ofExcept_every _) fun _ => Async.Every.await trivial)
  | getCachedSessionKey contactId deviceId =>
    exact Async.Every.bind (ofExcept_every _) fun _ => Async.Every.await trivial
  | zeroizeCache => exact onAccount_every (Async.Every.await trivial)
  | didChangeAppLifecycleState state =>
    refine onAccount_every ?_
    unfold KeyManager.didChangeAppLifecycleState
    split
    · exact Async.Every.await trivial
    · exact trivial
  | rotateIdentity => exact onAccount_every (rotateIdentity_names E P)
  | identityEpoch => exact storage_names (Async.Every.bind (Async.Every.await trivial) fun _ => trivial)
  | rotateSessionKey contactId => exact onAccount_every (rotateSessionKey_names contactId)
  | rotationEpoch contactId => exact Async.Every.await trivial

end Names

/-! ## Histories -/

section History

variable {E : Ed25519} {P : Primitives UInt8} {m₀ m m' w : Memory}

theorem AccountOp.Names.effect {op : AccountOp} {a : Except DartError (AccountAns op)} (h : op.Names)
    (he : AccountEffect m op a m') {key : String} (hn : ¬Named key) : m'.store.backend key = m.store.backend key := by
  have hne : ∀ {k : String} {v : Option String} {f : String → Option String}, Named k →
      Function.update f k v key = f key := by
    intro k v f hk
    refine Function.update_of_ne ?_ _ _
    rintro rfl
    exact hn hk
  cases he with
  | memory he =>
    cases he with
    | access he =>
      cases he with
      | write => exact hne h
      | writeLost => exact hne h
      | delete => exact hne h
      | deleteLost => exact hne h
      | read => rfl
      | readFails => rfl
      | writeFails => rfl
      | deleteFails => rfl
      | bytes => rfl
      | foregroundIdentity => rfl
      | setForegroundIdentity => rfl
    | _ => rfl
  | sessionKey => rfl
  | rotationEpoch => rfl
  | clearRotationEpochs => rfl

theorem run_untouched (i : AccountCall) {r : Option (Except DartError i.Result)} {key : String} (hn : ¬Named key)
    (hr : Async.Runs AccountEffect (i.body E P) m r m') : m'.store.backend key = m.store.backend key :=
  (AccountCall.body_names E P i).runs (I := fun w => w.store.backend key = m.store.backend key)
    (fun _ hop _ _ _ he hi => (hop.effect he hn).trans hi) hr rfl

/-- Entries of others stay as they were. -/
theorem History.untouched (h : History E P m₀ m) {key : String} (hn : ¬Named key) :
    m.store.backend key = m₀.store.backend key := by
  induction h with
  | init => rfl
  | call _ i hr ih => exact (run_untouched i hn hr).trans ih
  | restart _ ih => exact ih
  | crash _ i hr ih => exact (run_untouched i hn hr).trans ih

/-- What deletions that all return have done. -/
theorem deleteAll_run : ∀ {keys : List String} {m : Memory},
    Async.Runs AccountEffect (onAccount (onMemory (deleteAll keys))) m (some (.ok ())) m' →
      m' = { m with store := { m.store with backend := fun key => if key ∈ keys then none else m.store.backend key } }
  | [], m, h => by
    cases h with
    | done => simp
  | key :: keys, m, h => by
    change Async.Runs AccountEffect (Async.call (AccountOp.memory (.access (.delete key))) _) m _ m' at h
    cases h with
    | call he hr =>
      cases he with
      | memory he =>
        cases he with
        | access he =>
          cases he with
          | delete =>
            have hb : (fun k => if k ∈ keys then none else Function.update m.store.backend key none k) =
                fun k => if k ∈ key :: keys then none else m.store.backend k := by
              funext k
              by_cases hk : k = key
              · simp [hk]
              · simp [hk]
            rw [deleteAll_run hr, ← hb]
          | deleteFails => cases hr
          | deleteLost => cases hr

/-- What a wipe that returns has done. -/
theorem clearAllAccountSecrets_run
    (hr : Async.Runs AccountEffect (AccountCall.body E P .clearAllAccountSecrets) w (some (.ok ())) m) :
    m = ⟨⟨fun key => if key ∈ accountKeys then none else w.store.backend key, none⟩, fun _ => none, fun _ => none⟩ := by
  obtain ⟨_, m₁, h1, hr⟩ := Async.Runs.bind_inv hr
  obtain ⟨_, m₂, h2, hr⟩ := Async.Runs.bind_inv hr
  rw [deleteAll_run h2] at hr
  change Async.Runs AccountEffect (Async.call (AccountOp.memory .zeroizeCache) _) w _ m₁ at h1
  cases h1 with
  | call he h1 =>
    cases he with
    | memory he =>
      cases he with
      | zeroizeCache =>
        cases h1 with
        | done =>
          cases hr with
          | call he hr =>
            cases he with
            | clearRotationEpochs =>
              cases hr with
              | done => rfl

theorem accountKeys_seventh : ∀ key ∈ accountKeys, key.toList[7]? ≠ some 's' := by decide +kernel

theorem append_seventh {p : String} (hp : p.toList[7]? = some 's') (rest : String) :
    (p ++ rest).toList[7]? = some 's' := by
  rw [String.toList_append, List.getElem?_append_left (List.getElem?_eq_some_iff.mp hp).1, hp]

/-- The entries of session epochs are not among those that a wipe deletes. -/
theorem sessionEpochKey_notMem (contactId : String) : sessionEpochKey contactId ∉ accountKeys :=
  fun h => accountKeys_seventh _ h (append_seventh (by decide +kernel) contactId)

end History

/-- A wipe that returns leaves nothing of the account behind exactly if no session epoch was in the storage. -/
theorem wipe_complete_iff (E : Ed25519) (P : Primitives UInt8) {m₀ w m : Memory} (h₀ : NeverHeld m₀) (h : History E P m₀ w)
    (hr : Async.Runs AccountEffect (AccountCall.body E P .clearAllAccountSecrets) w (some (.ok ())) m) :
    Gone E P m₀ m ↔ ∀ contactId, w.store.backend (sessionEpochKey contactId) = none := by
  have hm := clearAllAccountSecrets_run hr
  have hkey : ∀ contactId, m.store.backend (sessionEpochKey contactId) = w.store.backend (sessionEpochKey contactId) := by
    intro contactId
    rw [hm]
    dsimp only
    rw [if_neg (sessionEpochKey_notMem contactId)]
  constructor
  · intro hg contactId
    rw [← hkey, hg.store]
    exact h₀.store _ (Or.inr ⟨contactId, rfl⟩)
  · intro hno
    have hstore : m.store.backend = m₀.store.backend := by
      funext key
      by_cases hk : key ∈ accountKeys
      · rw [h₀.store key (Or.inl hk), hm]
        exact if_pos hk
      · by_cases he : ∃ contactId, key = sessionEpochKey contactId
        · obtain ⟨contactId, rfl⟩ := he
          rw [hkey, hno, h₀.store _ (Or.inr ⟨contactId, rfl⟩)]
        · rw [← h.untouched (fun hn => hn.elim hk he), hm]
          exact if_neg hk
    have heq : m = m₀ := by
      obtain ⟨⟨backend, identity⟩, sessions, epochs⟩ := m₀
      obtain ⟨-, hi, hs, he⟩ := h₀
      dsimp only at hi hs he hstore
      rw [hm] at hstore ⊢
      dsimp only at hstore
      rw [hstore, hi, hs, he]
    exact ⟨fun key => congrFun hstore key, by rw [hm], fun key => by rw [hm], fun contactId => by rw [hm],
      fun i r m' => by rw [heq]⟩

/-- A storage without entries. -/
def emptyMemory : Memory := ⟨emptyStore, fun _ => none, fun _ => none⟩

theorem neverHeld_empty : NeverHeld emptyMemory := ⟨fun _ _ => rfl, rfl, rfl, rfl⟩

/-- A storage with one entry. -/
def oneEntry (key value : String) : Memory :=
  ⟨⟨Function.update emptyStore.backend key (some value), none⟩, fun _ => none, fun _ => none⟩

/-- A wipe in which every access succeeds. -/
theorem clearAllAccountSecrets_runs (E : Ed25519) (P : Primitives UInt8) (w : Memory) :
    Async.Runs AccountEffect (AccountCall.body E P .clearAllAccountSecrets) w (some (.ok ()))
      ⟨⟨fun key => if key ∈ accountKeys then none else w.store.backend key, none⟩, fun _ => none, fun _ => none⟩ := by
  have hdelete : ∀ (keys : List String) (m : Memory), Async.Runs AccountEffect (onAccount (onMemory (deleteAll keys))) m
      (some (.ok ())) { m with store := { m.store with
        backend := fun key => if key ∈ keys then none else m.store.backend key } } := by
    intro keys
    induction keys with
    | nil =>
      intro m
      simp only [List.not_mem_nil, if_false]
      exact .done () m
    | cons key keys ih =>
      intro m
      have hb : (fun k => if k ∈ keys then none else Function.update m.store.backend key none k) =
          fun k => if k ∈ key :: keys then none else m.store.backend k := by
        funext k
        by_cases hk : k = key
        · simp [hk]
        · simp [hk]
      rw [← hb]
      exact .call (.memory (.access (.delete m.store key))) (ih _)
  refine Async.Runs.bind (.call (.memory (.zeroizeCache w)) (.done () _)) (Async.Runs.bind (hdelete accountKeys _) ?_)
  exact .call (.clearRotationEpochs _) (.done () _)

/-- An account whose id was stored leaves nothing behind. -/
theorem wipe_complete_id : ∃ w m, History namedKeys zeroPrimitives emptyMemory w ∧
    w.store.backend chhayaIdKey = some "id" ∧ Gone namedKeys zeroPrimitives emptyMemory m ∧
    Async.Runs AccountEffect (AccountCall.body namedKeys zeroPrimitives .clearAllAccountSecrets) w (some (.ok ())) m := by
  have h : History namedKeys zeroPrimitives emptyMemory (oneEntry chhayaIdKey "id") := .call .init (.storeChhayaId "id")
    (.call (.memory (.access (.write emptyStore chhayaIdKey "id"))) (.done () _))
  have hr := clearAllAccountSecrets_runs namedKeys zeroPrimitives (oneEntry chhayaIdKey "id")
  refine ⟨_, _, h, ?_, (wipe_complete_iff namedKeys zeroPrimitives neverHeld_empty h hr).mpr fun contactId => ?_, hr⟩
  · show Function.update emptyStore.backend chhayaIdKey (some "id") chhayaIdKey = some "id"
    rw [Function.update_self]
  · show Function.update emptyStore.backend chhayaIdKey (some "id") (sessionEpochKey contactId) = none
    rw [Function.update_of_ne]
    · rfl
    · intro he
      exact sessionEpochKey_notMem contactId (he ▸ (by decide : chhayaIdKey ∈ accountKeys))

/-- The epoch of a contact survives the wipe, and the next rotation counts on. -/
theorem wipe_leaves_epoch : ∃ m₀ w m, NeverHeld m₀ ∧ History namedKeys zeroPrimitives m₀ w ∧
    Async.Runs AccountEffect (AccountCall.body namedKeys zeroPrimitives .clearAllAccountSecrets) w (some (.ok ())) m ∧
    m.store.backend (sessionEpochKey "alice") = some "1" ∧ ¬Gone namedKeys zeroPrimitives m₀ m := by
  have hc : checkSegment "alice" "contactId" = .ok () := by decide
  have hrotate : Async.Runs AccountEffect (onAccount (KeyManager.rotateSessionKey "alice")) emptyMemory (some (.ok 1))
      { oneEntry (sessionEpochKey "alice") "1" with
        rotationEpochs := Function.update emptyMemory.rotationEpochs "alice" (some 1) } := by
    rw [KeyManager.rotateSessionKey, hc]
    have hdrop := MemoryEffect.dropSessionKeys emptyMemory "alice"
    have hempty : (fun key : String => if key.startsWith ("session/" ++ "alice" ++ "/") then none else
        emptyMemory.sessionCache key) = fun _ => none := funext fun key => ite_self none
    rw [hempty] at hdrop
    refine .call (.memory hdrop) (.call (.memory (.access (.read _ (sessionEpochKey "alice")))) ?_)
    exact .call (.memory (.access (.write _ (sessionEpochKey "alice") "1")))
      (.call (.memory (.setRotationEpoch _ "alice" 1)) (.done 1 _))
  have h : History namedKeys zeroPrimitives emptyMemory _ := .call .init (.rotateSessionKey "alice") hrotate
  have hr := clearAllAccountSecrets_runs namedKeys zeroPrimitives { oneEntry (sessionEpochKey "alice") "1" with
    rotationEpochs := Function.update emptyMemory.rotationEpochs "alice" (some 1) }
  have hleft := Function.update_self (sessionEpochKey "alice") (some "1") emptyStore.backend
  refine ⟨_, _, _, neverHeld_empty, h, hr, ?_, fun hg => ?_⟩
  · dsimp only
    rw [if_neg (sessionEpochKey_notMem "alice")]
    exact hleft
  · have hs := hg.store (sessionEpochKey "alice")
    dsimp only at hs
    rw [if_neg (sessionEpochKey_notMem "alice")] at hs
    exact nomatch hleft.symm.trans hs

end KeyManager

end Chhaya
