import Chhaya.Client.KeyPair
import Chhaya.Lib.EventLoop

/-!
# Keys in memory

What a `KeyManager` holds in memory: the cached identity and the session keys. The calls run on the event loop of the
app, together with lifecycle events, on which the memory is wiped.

- `Fetching.turn`, `MemoryCall.turn_quiet`: what a `getKeyPair` that is resumed does with the memory, and what the other
  calls may still do after their first turn.
- `background_wiped`: no key is in memory from a handled background event on until the next key operation starts, where
  no `getKeyPair` that was in flight is resumed with both halves of a pair.
- `background_refilled`: a `getKeyPair` that waits for the storage fills the cache again after the wipe.
-/

namespace Chhaya

namespace KeyManager

/-! ## The calls -/

/-- A `KeyManager` with the keys it holds in memory. -/
structure Memory where
  store : KeyStore
  sessionCache : String → Option Bytes := fun _ => none
  rotationEpochs : String → Option Int := fun _ => none

/-- What a call awaits, and its accesses to the memory. -/
inductive MemoryOp
  | access (op : Op)
  | zeroizeCache
  | setSessionKey (cacheKey : String) (key : Bytes)
  | dropSessionKeys (contactId : String)
  | setRotationEpoch (contactId : String) (epoch : Int)
  | now

def MemoryAns : MemoryOp → Type
  | .access op => Ans op
  | .now => DateTime
  | .zeroizeCache | .setSessionKey _ _ | .dropSessionKeys _ | .setRotationEpoch _ _ => Unit

abbrev MemoryProg (α : Type) := Async MemoryOp MemoryAns DartError α

/-- A program of the storage. -/
def onMemory {α : Type} : Prog α → MemoryProg α
  | .done a => .done a
  | .throw e => .throw e
  | .call op k => .call (.access op) fun a => onMemory (k a)

/-- What an access does. -/
inductive MemoryEffect : Memory → (op : MemoryOp) → Except DartError (MemoryAns op) → Memory → Prop
  | access {m : Memory} {op : Op} {a : Except DartError (Ans op)} {s : KeyStore} (h : Effect m.store op a s) :
    MemoryEffect m (.access op) a { m with store := s }
  | zeroizeCache (m : Memory) : MemoryEffect m .zeroizeCache (.ok ())
    { m with store := { m.store with foregroundIdentity := none }, sessionCache := fun _ => none }
  | setSessionKey (m : Memory) (cacheKey : String) (key : Bytes) : MemoryEffect m (.setSessionKey cacheKey key) (.ok ())
    { m with sessionCache := Function.update m.sessionCache cacheKey (some key) }
  | dropSessionKeys (m : Memory) (contactId : String) : MemoryEffect m (.dropSessionKeys contactId) (.ok ())
    { m with sessionCache := fun key => if key.startsWith ("session/" ++ contactId ++ "/") then none
      else m.sessionCache key }
  | setRotationEpoch (m : Memory) (contactId : String) (epoch : Int) :
    MemoryEffect m (.setRotationEpoch contactId epoch) (.ok ())
    { m with rotationEpochs := Function.update m.rotationEpochs contactId (some epoch) }
  | now (m : Memory) (time : DateTime) : MemoryEffect m .now (.ok time) m

/-- What is answered in the same turn: everything but the storage. -/
def MemoryOp.IsSync : MemoryOp → Prop
  | .access (.read _) | .access (.write _ _) | .access (.delete _) => False
  | _ => True

def sessionPath (contactId deviceId : String) : Except DartError String := do
  checkSegment contactId "contactId"
  checkSegment deviceId "deviceId"
  return "session/" ++ contactId ++ "/" ++ deviceId

/-- `cacheSessionKey`, which throws or returns in one turn. -/
def cacheSessionKey (contactId deviceId : String) (key : Bytes) : MemoryProg Unit := do
  Async.await (MemoryOp.setSessionKey (← Async.ofExcept (sessionPath contactId deviceId)) key)

/-- `int.tryParse(stored ?? '') ?? 0`. -/
def epochOf (stored : Option String) : Int := (intTryParse (stored.getD "")).getD 0

/-- The rest of `rotateSessionKey` once the epoch was read. -/
def nextSessionEpoch (contactId : String) (stored : Option String) : MemoryProg Int := do
  let next := int64 (epochOf stored + 1)
  onMemory (write ("chhaya_session_epoch_" ++ contactId) (toString next))
  (Async.await (MemoryOp.setRotationEpoch contactId next) : MemoryProg Unit)
  return next

/-- `rotateSessionKey`. -/
def rotateSessionKey (contactId : String) : MemoryProg Int := do
  Async.ofExcept (checkSegment contactId "contactId")
  (Async.await (MemoryOp.dropSessionKeys contactId) : MemoryProg Unit)
  nextSessionEpoch contactId (← onMemory (read ("chhaya_session_epoch_" ++ contactId)))

inductive AppLifecycleState
  | detached
  | resumed
  | inactive
  | hidden
  | paused

/-- The states in which `didChangeAppLifecycleState` wipes the memory. -/
def AppLifecycleState.wipes : AppLifecycleState → Bool
  | .paused | .detached | .hidden => true
  | .resumed | .inactive => false

/-- `zeroizeCache`, also of the session keys. -/
def wipe : MemoryProg Unit := Async.await MemoryOp.zeroizeCache

def didChangeAppLifecycleState (state : AppLifecycleState) : MemoryProg Unit :=
  if state.wipes then wipe else return ()

/-- A call of the key manager, or a lifecycle event. -/
inductive MemoryCall
  | getKeyPair
  | storeKeyPair (pair : Pair)
  | cacheSessionKey (contactId deviceId : String) (key : Bytes)
  | rotateSessionKey (contactId : String)
  | zeroizeCache
  | didChangeAppLifecycleState (state : AppLifecycleState)

namespace MemoryCall

/-- The program of the call, without its result. -/
def body : MemoryCall → MemoryProg Unit
  | .getKeyPair => do let _ ← onMemory KeyManager.getKeyPair; return ()
  | .storeKeyPair pair => do wipe; onMemory (writePair pair)
  | .cacheSessionKey contactId deviceId key => KeyManager.cacheSessionKey contactId deviceId key
  | .rotateSessionKey contactId => do let _ ← KeyManager.rotateSessionKey contactId; return ()
  | .zeroizeCache => wipe
  | .didChangeAppLifecycleState state => KeyManager.didChangeAppLifecycleState state

/-- The key operations. -/
def IsKeyOperation : MemoryCall → Prop
  | .getKeyPair | .storeKeyPair _ | .cacheSessionKey _ _ _ | .rotateSessionKey _ => True
  | .zeroizeCache | .didChangeAppLifecycleState _ => False

end MemoryCall

/-- The calls and events of an app that has run for some time. -/
abbrev App := Async.Pool MemoryCall MemoryOp MemoryAns DartError Unit Memory

abbrev MemoryEvent := Async.Event MemoryCall DartError Unit

abbrev App.Reachable (ok : App → App → Prop) (m : Memory) (c : App) : Prop :=
  Async.Loop.Reachable MemoryEffect MemoryOp.IsSync MemoryCall.body (fun _ _ => False) ok m c

/-- A background event was handled, and no key operation has started since. -/
def Backgrounded (log : List MemoryEvent) : Prop := ∃ es n state r es', state.wipes = true ∧
  log = es ++ .ended n (.didChangeAppLifecycleState state) r :: es' ∧ ∀ m i, .started m i ∈ es → ¬i.IsKeyOperation

/-- No identity private key and no session key is held in memory. -/
structure Wiped (m : Memory) : Prop where
  identity : m.store.foregroundIdentity = none
  sessions : ∀ key, m.sessionCache key = none

/-- The program has loaded a pair, which it stores in the cache next. -/
def Loaded (p : MemoryProg Unit) : Prop := ∃ pair k, p = .call (.access (.setForegroundIdentity (some pair))) k

/-- No `getKeyPair` that has loaded a pair is resumed in the background. -/
def LeavesLoaded (c c' : App) : Prop := Backgrounded c.log → ∀ t ∈ c.running, Loaded t.rest → t ∈ c'.running

/-! ## Single turns -/

/-- How far a `getKeyPair` has come that did not return at once. -/
inductive Fetching : MemoryProg Unit → Prop
  | readsPublic : Fetching ((onMemory readPair).bind fun _ => .done ())
  | readsPrivate (pub : Option String) :
    Fetching ((onMemory ((read privateKeyKey).bind fun priv => loadPair pub priv)).bind fun _ => .done ())
  | loads (pub priv : Option String) : Fetching ((onMemory (loadPair pub priv)).bind fun _ => .done ())
  | failed (e : DartError) : Fetching (.throw e)

/-- The accesses of a call that has started, other than a `getKeyPair`: none puts a key into memory. -/
def Quiet : MemoryOp → Prop
  | .access (.read _) | .access (.write _ _) | .setRotationEpoch _ _ => True
  | _ => False

section Turns

/-- What `getKeyPair` makes of the two texts: nothing, an exception, or a pair for the cache. -/
theorem loadPair_cases (pub priv : Option String) : loadPair pub priv = .done none ∨
    (∃ e, loadPair pub priv = .throw e) ∨
      ∃ pair, loadPair pub priv = (setForegroundIdentity (some pair)).bind fun _ => .done (some pair) := by
  cases pub with
  | none => exact Or.inl rfl
  | some pub =>
    cases priv with
    | none => exact Or.inl rfl
    | some priv =>
      cases h1 : base64Decode pub with
      | error e => exact Or.inr (Or.inl ⟨e, by simp [loadPair, h1, Async.ofExcept]⟩)
      | ok publicKey =>
        cases h2 : base64Decode priv with
        | error e => exact Or.inr (Or.inl ⟨e, by simp [loadPair, h1, h2, Async.ofExcept]⟩)
        | ok privateKey => exact Or.inr (Or.inr ⟨⟨publicKey, privateKey⟩, by simp [loadPair, h1, h2, Async.ofExcept]⟩)

variable {m m' : Memory} {p p' : MemoryProg Unit} {op : MemoryOp} {k : Except DartError (MemoryAns op) → MemoryProg Unit}
  {a : Except DartError (MemoryAns op)}

/-- An awaited access leaves the memory alone. -/
theorem Wiped.answer (h : Wiped m) (hop : ¬op.IsSync) (he : MemoryEffect m op a m') : Wiped m' := by
  cases he with
  | access he =>
    refine ⟨?_, h.sessions⟩
    cases he with
    | foregroundIdentity => exact h.identity
    | setForegroundIdentity => exact absurd trivial hop
    | read => exact h.identity
    | readFails => exact h.identity
    | write => exact h.identity
    | writeFails => exact h.identity
    | writeLost => exact h.identity
    | delete => exact h.identity
    | deleteFails => exact h.identity
    | deleteLost => exact h.identity
    | bytes => exact h.identity
  | zeroizeCache => exact absurd trivial hop
  | setSessionKey => exact absurd trivial hop
  | dropSessionKeys => exact absurd trivial hop
  | setRotationEpoch => exact absurd trivial hop
  | now => exact absurd trivial hop

theorem Wiped.quiet (hq : Quiet op) (he : MemoryEffect m op a m') (h : Wiped m) : Wiped m' := by
  cases he with
  | access he =>
    refine h.answer ?_ (.access he)
    cases he <;> first | exact id | exact hq.elim
  | setRotationEpoch => exact ⟨h.identity, h.sessions⟩
  | zeroizeCache => exact hq.elim
  | setSessionKey => exact hq.elim
  | dropSessionKeys => exact hq.elim
  | now => exact hq.elim

/-- A `getKeyPair` whose access is answered. -/
theorem Fetching.answer (h : Fetching (.call op k)) (hop : ¬op.IsSync) (he : MemoryEffect m op a m') : Fetching (k a) := by
  generalize hp : Async.call op k = p at h
  cases h with
  | readsPublic =>
    change _ = Async.call (MemoryOp.access (.read publicKeyKey)) _ at hp
    cases hp
    cases a with
    | error e => exact .failed e
    | ok pub => exact .readsPrivate pub
  | readsPrivate pub =>
    change _ = Async.call (MemoryOp.access (.read privateKeyKey)) _ at hp
    cases hp
    cases a with
    | error e => exact .failed e
    | ok priv => exact .loads pub priv
  | loads pub priv =>
    rcases loadPair_cases pub priv with h | ⟨e, h⟩ | ⟨pair, h⟩
    · rw [h] at hp
      cases hp
    · rw [h] at hp
      cases hp
    · rw [h] at hp
      change _ = Async.call (MemoryOp.access (.setForegroundIdentity (some pair))) _ at hp
      cases hp
      exact absurd trivial hop
  | failed e => cases hp

/-- A `getKeyPair` that is resumed waits on as before, or ends, and then it has changed the memory only if it had loaded a
pair. -/
theorem Fetching.turn (h : Fetching p) (ht : Async.Turn MemoryEffect MemoryOp.IsSync p m p' m') :
    (p' = p ∧ m' = m) ∨ ((∀ op k, p' ≠ .call op k) ∧ (Loaded p ∨ m' = m)) := by
  cases h with
  | readsPublic => exact Or.inl (ht.awaits_inv id)
  | readsPrivate pub => exact Or.inl (ht.awaits_inv id)
  | loads pub priv =>
    rcases loadPair_cases pub priv with h | ⟨e, h⟩ | ⟨pair, h⟩
    · rw [h] at ht
      obtain ⟨rfl, rfl⟩ := ht.done_inv
      exact Or.inr ⟨fun op k he => (nomatch he), Or.inr rfl⟩
    · rw [h] at ht
      obtain ⟨rfl, rfl⟩ := ht.throw_inv
      exact Or.inr ⟨fun op k he => (nomatch he), Or.inr rfl⟩
    · rw [h] at ht ⊢
      refine Or.inr ⟨?_, Or.inl ⟨pair, _, rfl⟩⟩
      obtain ⟨a, m₁, he, ht⟩ := Async.Turn.sync_inv ht trivial
      cases he with
      | access he =>
        cases he with
        | setForegroundIdentity =>
          obtain ⟨rfl, rfl⟩ := ht.done_inv
          exact fun op k he => nomatch he
  | failed e =>
    obtain ⟨rfl, rfl⟩ := ht.throw_inv
    exact Or.inr ⟨fun op k he => (nomatch he), Or.inr rfl⟩

/-- A `getKeyPair` returns what is cached, or it waits for the storage. -/
theorem getKeyPair_turn (ht : Async.Turn MemoryEffect MemoryOp.IsSync (MemoryCall.body .getKeyPair) m p m') :
    p = .done () ∨ Fetching p := by
  obtain ⟨a, m₁, he, ht⟩ := Async.Turn.sync_inv ht trivial
  cases he with
  | access he =>
    cases he with
    | foregroundIdentity =>
      cases hc : m.store.foregroundIdentity with
      | none =>
        rw [hc] at ht
        obtain ⟨rfl, -⟩ := Async.Turn.awaits_inv (k := _) ht id
        exact Or.inr .readsPublic
      | some pair =>
        rw [hc] at ht
        obtain ⟨rfl, -⟩ := Async.Turn.done_inv ht
        exact Or.inl rfl

theorem onMemory_every {α : Type} {φ : MemoryOp → Prop} {q : Prog α} (h : q.Every fun op => φ (.access op)) :
    (onMemory q).Every φ := by
  induction q with
  | done a => exact trivial
  | throw e => exact trivial
  | call op k ih => exact ⟨h.1, fun a => ih a (h.2 a)⟩

/-- The memory after `zeroizeCache`. -/
theorem wipe_turn (ht : Async.Turn MemoryEffect MemoryOp.IsSync wipe m p m') : p = .done () ∧ Wiped m' := by
  obtain ⟨a, m₁, he, ht⟩ := Async.Turn.sync_inv ht trivial
  cases he with
  | zeroizeCache =>
    obtain ⟨rfl, rfl⟩ := ht.done_inv
    exact ⟨rfl, rfl, fun _ => rfl⟩

/-- The other calls and the events end in their first turn. -/
theorem MemoryCall.turn_ended {i : MemoryCall} (hi : ¬i.IsKeyOperation)
    (ht : Async.Turn MemoryEffect MemoryOp.IsSync i.body m p m') : p = .done () ∧ (Wiped m → Wiped m') ∧
      ∀ state, i = .didChangeAppLifecycleState state → state.wipes = true → Wiped m' := by
  cases i with
  | getKeyPair => exact absurd trivial hi
  | storeKeyPair pair => exact absurd trivial hi
  | cacheSessionKey contactId deviceId key => exact absurd trivial hi
  | rotateSessionKey contactId => exact absurd trivial hi
  | zeroizeCache =>
    obtain ⟨rfl, hw⟩ := wipe_turn ht
    exact ⟨rfl, fun _ => hw, fun _ _ _ => hw⟩
  | didChangeAppLifecycleState state =>
    change Async.Turn _ _ (KeyManager.didChangeAppLifecycleState state) m p m' at ht
    unfold KeyManager.didChangeAppLifecycleState at ht
    split at ht
    · obtain ⟨rfl, hw⟩ := wipe_turn ht
      exact ⟨rfl, fun _ => hw, fun _ _ _ => hw⟩
    · rename_i hn
      obtain ⟨rfl, rfl⟩ := Async.Turn.done_inv ht
      refine ⟨rfl, id, fun state' he hs => ?_⟩
      cases he
      exact absurd hs hn

/-- What is left of the other calls after their first turn makes quiet accesses only. -/
theorem MemoryCall.turn_quiet {i : MemoryCall} (hi : i ≠ .getKeyPair)
    (ht : Async.Turn MemoryEffect MemoryOp.IsSync i.body m p m') : p.Every Quiet := by
  cases i with
  | getKeyPair => exact absurd rfl hi
  | storeKeyPair pair =>
    obtain ⟨a, m₁, he, ht⟩ := Async.Turn.sync_inv ht trivial
    cases he with
    | zeroizeCache =>
      have hw : (writePair pair).Every fun op => Quiet (.access op) :=
        Async.Every.bind (Async.Every.await trivial) fun _ => Async.Every.await trivial
      exact ht.every (onMemory_every hw)
  | cacheSessionKey contactId deviceId key =>
    change Async.Turn _ _ (KeyManager.cacheSessionKey contactId deviceId key) m p m' at ht
    unfold KeyManager.cacheSessionKey at ht
    cases hp : sessionPath contactId deviceId with
    | error e =>
      rw [hp] at ht
      obtain ⟨rfl, -⟩ := Async.Turn.throw_inv ht
      exact trivial
    | ok cacheKey =>
      rw [hp] at ht
      obtain ⟨a, m₁, he, ht⟩ := Async.Turn.sync_inv ht trivial
      cases he with
      | setSessionKey =>
        obtain ⟨rfl, -⟩ := ht.done_inv
        exact trivial
  | rotateSessionKey contactId =>
    change Async.Turn _ _ ((KeyManager.rotateSessionKey contactId).bind fun _ => .done ()) m p m' at ht
    unfold KeyManager.rotateSessionKey at ht
    cases hp : checkSegment contactId "contactId" with
    | error e =>
      rw [hp] at ht
      obtain ⟨rfl, -⟩ := Async.Turn.throw_inv ht
      exact trivial
    | ok u =>
      rw [hp] at ht
      obtain ⟨a, m₁, he, ht⟩ := Async.Turn.sync_inv ht trivial
      cases he with
      | dropSessionKeys =>
        have hrest : ∀ stored, (nextSessionEpoch contactId stored).Every Quiet := fun stored =>
          Async.Every.bind (onMemory_every (Async.Every.await trivial)) fun _ =>
            Async.Every.bind (Async.Every.await trivial) fun _ => trivial
        have hread : (onMemory (read ("chhaya_session_epoch_" ++ contactId))).Every Quiet :=
          onMemory_every (Async.Every.await trivial)
        exact ht.every (Async.Every.bind (Async.Every.bind trivial fun _ => Async.Every.bind hread hrest) fun _ => trivial)
  | zeroizeCache =>
    obtain ⟨rfl, -⟩ := turn_ended id ht
    exact trivial
  | didChangeAppLifecycleState state =>
    obtain ⟨rfl, -⟩ := turn_ended id ht
    exact trivial

end Turns

/-! ## Runs -/

/-- What is left of a key operation after its first turn. -/
structure Waits (t : Async.Task MemoryCall MemoryOp MemoryAns DartError Unit) : Prop where
  key : t.call.IsKeyOperation
  fetching : t.call = .getKeyPair → Fetching t.rest
  quiet : t.call ≠ .getKeyPair → t.rest.Every Quiet

/-- The invariant of runs in which no loaded pair is resumed in the background. -/
structure BackgroundInv (c : App) : Prop where
  waits : ∀ t ∈ c.running, Waits t
  wiped : Backgrounded c.log → Wiped c.state

section Log

variable {log : List MemoryEvent} {e : MemoryEvent}

/-- A background event was handled just now. -/
theorem Backgrounded.handled {n : Nat} {state : AppLifecycleState} {r : Except DartError Unit} (h : state.wipes = true) :
    Backgrounded (.ended n (.didChangeAppLifecycleState state) r :: log) :=
  ⟨[], n, state, r, log, h, rfl, fun _ _ hm => (List.not_mem_nil hm).elim⟩

/-- What is seen besides the end of a wiping event and the start of a key operation. -/
theorem Backgrounded.of_cons (h : Backgrounded (e :: log))
    (he : ∀ n state r, e = .ended n (.didChangeAppLifecycleState state) r → state.wipes = false) : Backgrounded log := by
  obtain ⟨es, n, state, r, es', hs, hl, hno⟩ := h
  cases es with
  | nil => exact absurd hs (by rw [he n state r (List.cons.inj hl).1]; decide)
  | cons e' es => exact ⟨es, n, state, r, es', hs, (List.cons.inj hl).2, fun m i hm => hno m i (List.mem_cons_of_mem _ hm)⟩

theorem Backgrounded.not_started {n : Nat} {i : MemoryCall} (h : Backgrounded (.started n i :: log)) :
    ¬i.IsKeyOperation := by
  obtain ⟨es, n', state, r, es', hs, hl, hno⟩ := h
  cases es with
  | nil => exact nomatch (List.cons.inj hl).1
  | cons e' es => exact hno n i ((List.cons.inj hl).1 ▸ List.mem_cons_self)

/-- What is seen of a key operation. -/
theorem Backgrounded.of_seen {t : Async.Task MemoryCall MemoryOp MemoryAns DartError Unit} (ht : t.call.IsKeyOperation)
    (h : Backgrounded (t.seen ++ log)) : Backgrounded log := by
  obtain ⟨n, i, p⟩ := t
  have he : ∀ (n' : Nat) (r' : Except DartError Unit) n state r, (Async.Event.ended n' i r' : MemoryEvent) =
      .ended n (.didChangeAppLifecycleState state) r → state.wipes = false := by
    intro n' r' n state r he
    cases he
    exact ht.elim
  cases p with
  | done a => exact h.of_cons (he _ _)
  | throw e => exact h.of_cons (he _ _)
  | call op k => exact h

end Log

section Steps

variable {c c' : App}

/-- A step keeps what is left of the key operations. -/
theorem Waits.step (hs : Async.Loop.Step MemoryEffect MemoryOp.IsSync MemoryCall.body (fun _ _ => False) c c')
    (h : ∀ t ∈ c.running, Waits t) : ∀ t ∈ c'.running, Waits t := by
  refine hs.tasks h (fun i op k m' ht => ?_) (fun n i op k a m' hw hop he => ?_) fun n i p op k m' hw ht => ?_
  · by_cases hi : i.IsKeyOperation
    · refine ⟨hi, fun hc => ?_, fun hc => MemoryCall.turn_quiet hc ht⟩
      obtain rfl : i = .getKeyPair := hc
      rcases getKeyPair_turn ht with h | h
      · cases h
      · exact h
    · cases (MemoryCall.turn_ended hi ht).1
  · exact ⟨hw.key, fun hc => (hw.fetching hc).answer hop he, fun hc => (hw.quiet hc).2 a⟩
  · refine ⟨hw.key, fun hc => ?_, fun hc => ht.every (hw.quiet hc)⟩
    rcases (hw.fetching hc).turn ht with ⟨h, -⟩ | ⟨h, -⟩
    · rw [h]
      exact hw.fetching hc
    · exact absurd rfl (h op k)

/-- A step keeps the memory wiped in the background. -/
theorem BackgroundInv.step (h : BackgroundInv c) (hn : Async.Numbered c) (hok : LeavesLoaded c c')
    (hs : Async.Loop.Step MemoryEffect MemoryOp.IsSync MemoryCall.body (fun _ _ => False) c c') : BackgroundInv c' := by
  refine ⟨Waits.step hs h.waits, ?_⟩
  cases hs with
  | @start s s' ts n es p i ht =>
    intro hb
    by_cases hi : i.IsKeyOperation
    · exact absurd hi (hb.of_seen hi).not_started
    · obtain ⟨rfl, hw, hevent⟩ := MemoryCall.turn_ended hi ht
      by_cases he : ∃ state, i = .didChangeAppLifecycleState state ∧ state.wipes = true
      · obtain ⟨state, rfl, hs⟩ := he
        exact hevent state rfl hs
      · refine hw (h.wiped ?_)
        refine (hb.of_cons fun n' state r hc => ?_).of_cons fun n' state r hc => nomatch hc
        cases hc
        exact Bool.eq_false_iff.mpr fun hs => he ⟨state, rfl, hs⟩
  | answer hop he => exact fun hb => (h.wiped hb).answer hop he
  | @resume s s' m i p p' ts us n es ht =>
    intro hb
    have hm : (⟨m, i, p⟩ : Async.Task MemoryCall MemoryOp MemoryAns DartError Unit) ∈ ts ++ ⟨m, i, p⟩ :: us :=
      Async.mem_middle.mpr (Or.inl rfl)
    have hwaits := h.waits _ hm
    have hb' : Backgrounded es := Backgrounded.of_seen (t := ⟨m, i, p'⟩) hwaits.key hb
    have hw : Wiped s := h.wiped hb'
    by_cases hc : i = .getKeyPair
    · rcases (hwaits.fetching hc).turn ht with ⟨-, rfl⟩ | ⟨hend, hl | rfl⟩
      · exact hw
      · have hmem := hok hb' _ hm hl
        have hkept : (Async.Task.kept ⟨m, i, p'⟩ : List (Async.Task MemoryCall MemoryOp MemoryAns DartError Unit)) = [] := by
          cases p' with
          | done a => rfl
          | throw e => rfl
          | call op k => exact absurd rfl (hend op k)
        rw [hkept] at hmem
        exact absurd hmem hn.notMem
      · exact hw
    · exact ht.inv (fun op hq m a m' he => Wiped.quiet hq he) (hwaits.quiet hc) hw
  | other ho => exact ho.elim

end Steps

/-- From a handled background event on until the next key operation starts, no key is in memory, where no `getKeyPair`
that has loaded a pair is resumed in the meantime. -/
theorem background_wiped {m : Memory} {c : App} (h : App.Reachable LeavesLoaded m c) (hb : Backgrounded c.log) :
    Wiped c.state := by
  refine BackgroundInv.wiped ?_ hb
  clear hb
  induction h with
  | init => exact ⟨fun t ht => (List.not_mem_nil ht).elim, fun ⟨es, n, state, r, es', _, hl, _⟩ => by simp at hl⟩
  | step h hs hok ih => exact ih.step (Async.Loop.reachable_numbers h) hok hs

/-- A session key is cached and the app goes to the background. -/
theorem background_wiped_once : ∃ c : App, App.Reachable LeavesLoaded ⟨emptyStore, fun _ => none, fun _ => none⟩ c ∧
    Backgrounded c.log ∧ Wiped c.state := by
  have h1 : App.Reachable LeavesLoaded ⟨emptyStore, fun _ => none, fun _ => none⟩ _ := Async.Loop.Reachable.init.step
    (.start (.cacheSessionKey "alice" "phone" [7]) (.sync trivial (.setSessionKey _ "session/alice/phone" [7]) (.done () _)))
    fun _ t ht => (List.not_mem_nil ht).elim
  have h2 := h1.step (.start (.didChangeAppLifecycleState .paused) (.sync trivial (.zeroizeCache _) (.done () _)))
    fun _ t ht => (List.not_mem_nil ht).elim
  exact ⟨_, h2, .handled rfl, background_wiped h2 (.handled rfl)⟩

/-- A `getKeyPair` waits for the storage when the app goes to the background, and is resumed. -/
theorem getKeyPair_refills (pair : Pair) : ∃ c : App,
    App.Reachable (fun _ _ => True) ⟨halves pair pair, fun _ => none, fun _ => none⟩ c ∧
      Backgrounded c.log ∧ c.state.store.foregroundIdentity = some pair := by
  obtain ⟨hpub, hpriv⟩ := halves_reads pair pair
  have h1 : App.Reachable (fun _ _ => True) ⟨halves pair pair, fun _ => none, fun _ => none⟩ _ :=
    Async.Loop.Reachable.init.step (.start .getKeyPair (.sync trivial (.access (.foregroundIdentity _)) (.awaits _ _ id)))
      trivial
  have h2 := h1.step (.start (.didChangeAppLifecycleState .paused) (.sync trivial (.zeroizeCache _) (.done () _))) trivial
  have h3 := h2.step (.answerFirst id (.access hpub)) trivial
  have h4 := h3.step (.first (.awaits _ _ id)) trivial
  have h5 := h4.step (.answerFirst id (.access hpriv)) trivial
  change App.Reachable _ _ ⟨_, [⟨0, .getKeyPair, (onMemory (loadPair (some (base64Encode pair.publicKey))
    (some (base64Encode pair.privateKey)))).bind fun _ => .done ()⟩], _, _⟩ at h5
  rw [loadPair_encoded] at h5
  have h6 := h5.step (.first (.sync trivial (.access (.setForegroundIdentity _ (some pair))) (.done () _))) trivial
  refine ⟨_, h6, ⟨[.ended 0 .getKeyPair (.ok ())], 1, .paused, .ok (), _, rfl, rfl, fun m i hm => ?_⟩, rfl⟩
  cases List.mem_singleton.mp hm

/-- A `getKeyPair` that waits for the storage fills the cache again after the wipe. -/
theorem background_refilled : ∃ c : App,
    App.Reachable (fun _ _ => True) ⟨halves (pairOf 1) (pairOf 1), fun _ => none, fun _ => none⟩ c ∧
      Backgrounded c.log ∧ ¬Wiped c.state := by
  obtain ⟨c, h, hb, hc⟩ := getKeyPair_refills (pairOf 1)
  exact ⟨c, h, hb, fun hw => nomatch hc.symm.trans hw.identity⟩

end KeyManager

end Chhaya
