import Chhaya.Client.KeyManager

/-!
# The stored key pair

`storeKeyPair`, `getKeyPair`, `zeroizeCache` and `clearAllAccountSecrets` beside each other on one `KeyManager`. The two
halves of a pair are written and read one after the other, and what was read is cached.

- `PairsInv.step`: the invariant of calls that keep apart.
- `getKeyPair_coherent`: where no store overlaps another one, a clear or a `getKeyPair`, and none is cut off, a pair that
  is returned is one that was stored, and the one stored last.
- `getKeyPair_mixed`: a `getKeyPair` that overlaps a store returns the public key of one pair with the private key of
  another.
-/

namespace Chhaya

namespace KeyManager

/-! ## The calls -/

def publicKeyKey : String := "chhaya_public_key"
def privateKeyKey : String := "chhaya_private_key"

/-- What `clearAllAccountSecrets` deletes. -/
def accountKeys : List String :=
  [publicKeyKey, privateKeyKey, "chhaya_recovery_phrase", "chhaya_chhaya_id", masterSeedKey,
    "chhaya_identity_ed25519_seed", "chhaya_identity_x25519_seed", "chhaya_identity_epoch"]

abbrev Pair := ChhayaKeyPair UInt8

/-- `_foregroundIdentity = pair`. -/
def setForegroundIdentity (pair : Option Pair) : Prog Unit := Async.await (Op.setForegroundIdentity pair)

/-- `zeroizeCache`. What was returned are copies. -/
def zeroizeCache : Prog Unit := setForegroundIdentity none

/-- The storage writes of `storeKeyPair`. -/
def writePair (pair : Pair) : Prog Unit := do
  write publicKeyKey (base64Encode pair.publicKey)
  write privateKeyKey (base64Encode pair.privateKey)

/-- `storeKeyPair`. -/
def storeKeyPair (pair : Pair) : Prog Unit := do
  zeroizeCache
  writePair pair

/-- What `getKeyPair` makes of the two texts it read. -/
def loadPair (pub priv : Option String) : Prog (Option Pair) :=
  match pub, priv with
  | some pub, some priv => do
    let publicKey ← Async.ofExcept (base64Decode pub)
    let privateKey ← Async.ofExcept (base64Decode priv)
    setForegroundIdentity (some ⟨publicKey, privateKey⟩)
    return some ⟨publicKey, privateKey⟩
  | _, _ => return none

/-- The reads of `getKeyPair` when nothing is cached. -/
def readPair : Prog (Option Pair) := do
  let pub ← read publicKeyKey
  loadPair pub (← read privateKeyKey)

/-- `getKeyPair`. -/
def getKeyPair : Prog (Option Pair) := do
  match ← (Async.await Op.foregroundIdentity : Prog (Option Pair)) with
  | some cached => return some cached
  | none => readPair

/-- `await _backend.delete(key: key)` for every key. -/
def deleteAll : List String → Prog Unit
  | [] => return ()
  | key :: keys => do
    delete key
    deleteAll keys

/-- `clearAllAccountSecrets`. -/
def clearAllAccountSecrets : Prog Unit := do
  zeroizeCache
  deleteAll accountKeys

/-- A call about the key pair. -/
inductive PairCall
  | storeKeyPair (pair : Pair)
  | getKeyPair
  | zeroizeCache
  | clearAllAccountSecrets

namespace PairCall

/-- The program of the call. Only `getKeyPair` returns a pair. -/
def body : PairCall → Prog (Option Pair)
  | .storeKeyPair pair => do KeyManager.storeKeyPair pair; return none
  | .getKeyPair => KeyManager.getKeyPair
  | .zeroizeCache => do KeyManager.zeroizeCache; return none
  | .clearAllAccountSecrets => do KeyManager.clearAllAccountSecrets; return none

/-- The calls that change the stored pair. -/
def Writes : PairCall → Prop
  | .storeKeyPair _ | .clearAllAccountSecrets => True
  | .getKeyPair | .zeroizeCache => False

/-- The calls that store a pair. -/
def Stores : PairCall → Prop
  | .storeKeyPair _ => True
  | .getKeyPair | .zeroizeCache | .clearAllAccountSecrets => False

/-- A store beside a store, a clear or a `getKeyPair`. -/
def Conflict (i j : PairCall) : Prop := (i.Stores ∧ j ≠ .zeroizeCache) ∨ (j.Stores ∧ i ≠ .zeroizeCache)

end PairCall

/-! ## What is seen -/

abbrev PairEvent := Async.Event PairCall DartError (Option Pair)

/-- A store or clear has started or ended. -/
def Writing : PairEvent → Prop
  | .started _ i => i.Writes
  | .ended _ i _ => i.Writes

/-- The pair of a completed `storeKeyPair` after which no store or clear was seen. -/
def settled : List PairEvent → Option Pair
  | [] => none
  | .ended _ (.storeKeyPair pair) (.ok _) :: _ => some pair
  | .ended _ (.storeKeyPair _) (.error _) :: _ => none
  | .ended _ .clearAllAccountSecrets _ :: _ => none
  | .started _ (.storeKeyPair _) :: _ => none
  | .started _ .clearAllAccountSecrets :: _ => none
  | _ :: es => settled es

/-- Every `getKeyPair` that started after a completed store, with no store or clear later, has returned what was stored. -/
def ReturnsStored (log : List PairEvent) : Prop :=
  ∀ es es' es'' n r pair, log = es ++ .ended n .getKeyPair (.ok r) :: (es' ++ .started n .getKeyPair :: es'') →
    settled es'' = some pair → (∀ e ∈ es', ¬Writing e) → r = some pair

/-- Every pair that was returned is one that was given to `storeKeyPair`. -/
def ReturnsPairs (log : List PairEvent) : Prop :=
  ∀ n pair, .ended n .getKeyPair (.ok (some pair)) ∈ log → ∃ m, .started m (.storeKeyPair pair) ∈ log

/-- Calls about the key pair beside each other on one key manager. -/
abbrev Pairs := Async.Pool PairCall Op Ans DartError (Option Pair) KeyStore

/-- The calls that steps which satisfy `ok` lead to from an empty storage. -/
abbrev Pairs.Reachable (ok : Pairs → Pairs → Prop) (c : Pairs) : Prop :=
  Async.Pool.Reachable Effect PairCall.body Lost ok emptyStore c

/-- No store runs beside another one, a clear or a `getKeyPair`. -/
def Apart (c : Pairs) : Prop := c.running.Pairwise fun t u => ¬t.call.Conflict u.call

/-- No store throws, and none is dropped before it is done. -/
def Complete (c c' : Pairs) : Prop :=
  (∀ t ∈ c'.running, t.call.Stores → ∀ e, t.rest ≠ .throw e) ∧
    ((∃ t ∈ c.running, t.call.Stores ∧ ∀ a, t.rest ≠ .done a) → ∃ t ∈ c'.running, t.call.Stores)

/-- One step leaves the calls apart and cuts no store off. -/
def Orderly (c c' : Pairs) : Prop := Apart c' ∧ Complete c c'

/-! ## What was seen -/

section Log

variable {log : List PairEvent} {e : PairEvent} {n : Nat} {i : PairCall} {r : Except DartError (Option Pair)}

theorem settled_cons (h : ¬Writing e) : settled (e :: log) = settled log := by
  rcases e with ⟨n, _ | _ | _ | _⟩ | ⟨n, _ | _ | _ | _, _ | r⟩ <;> first | rfl | exact absurd trivial h

theorem settled_append {es : List PairEvent} (h : ∀ e ∈ es, ¬Writing e) : settled (es ++ log) = settled log := by
  induction es with
  | nil => rfl
  | cons e es ih =>
    rw [List.cons_append, settled_cons (h e List.mem_cons_self)]
    exact ih fun e he => h e (List.mem_cons_of_mem _ he)

/-- What is seen besides the return of a `getKeyPair`. -/
theorem ReturnsStored.cons (h : ReturnsStored log) (he : ∀ n r, e ≠ .ended n .getKeyPair (.ok r)) :
    ReturnsStored (e :: log) := by
  intro es es' es'' n r pair hl hset hno
  cases es with
  | nil => exact absurd (List.cons.inj hl).1 (he n r)
  | cons e' es => exact h es es' es'' n r pair (List.cons.inj hl).2 hset hno

theorem ReturnsStored.get {r : Option Pair} (h : ReturnsStored log) (hr : ∀ pair, settled log = some pair → r = some pair) :
    ReturnsStored (.ended n .getKeyPair (.ok r) :: log) := by
  intro es es' es'' n' r' pair hl hset hno
  cases es with
  | nil =>
    obtain ⟨he, rfl⟩ := List.cons.inj hl
    cases he
    refine hr pair ?_
    rw [settled_append hno]
    exact (settled_cons id).trans hset
  | cons e' es => exact h es es' es'' n' r' pair (List.cons.inj hl).2 hset hno

theorem ReturnsPairs.cons (h : ReturnsPairs log) (he : ∀ n pair, e ≠ .ended n .getKeyPair (.ok (some pair))) :
    ReturnsPairs (e :: log) := by
  intro n pair hm
  obtain ⟨m, hs⟩ := h n pair ((List.mem_cons.mp hm).resolve_left fun hc => he n pair hc.symm)
  exact ⟨m, List.mem_cons_of_mem _ hs⟩

theorem ReturnsPairs.get {r : Option Pair} (h : ReturnsPairs log)
    (hr : ∀ pair, r = some pair → ∃ m, .started m (.storeKeyPair pair) ∈ log) :
    ReturnsPairs (.ended n .getKeyPair (.ok r) :: log) := by
  intro n' pair hm
  rcases List.mem_cons.mp hm with hc | hm
  · cases hc
    obtain ⟨m, hs⟩ := hr pair rfl
    exact ⟨m, List.mem_cons_of_mem _ hs⟩
  · obtain ⟨m, hs⟩ := h n' pair hm
    exact ⟨m, List.mem_cons_of_mem _ hs⟩

end Log

/-! ## The invariant -/

/-- The storage holds the two halves of `pair`. -/
structure Entries (s : KeyStore) (pair : Pair) : Prop where
  publicKey : s.backend publicKeyKey = some (base64Encode pair.publicKey)
  privateKey : s.backend privateKeyKey = some (base64Encode pair.privateKey)

/-- What holds while no store is under way: `last` is the pair stored last, and nothing of another pair is left. -/
structure Rest (s : KeyStore) (log : List PairEvent) (last : Option Pair) : Prop where
  publicKey : ∀ v, s.backend publicKeyKey = some v → ∃ pair, last = some pair ∧ v = base64Encode pair.publicKey
  privateKey : ∀ v, s.backend privateKeyKey = some v → ∃ pair, last = some pair ∧ v = base64Encode pair.privateKey
  cached : ∀ pair, s.foregroundIdentity = some pair → last = some pair
  settled : ∀ pair, settled log = some pair → last = some pair ∧ Entries s pair
  started : ∀ pair, last = some pair → ∃ m, .started m (.storeKeyPair pair) ∈ log

/-- How far a store has come. -/
inductive Storing (s : KeyStore) (pair : Pair) : Prog (Option Pair) → Prop
  | begins : Storing s pair (PairCall.body (.storeKeyPair pair))
  | writesPublic (hc : s.foregroundIdentity = none) : Storing s pair ((writePair pair).bind fun _ => .done none)
  | writesPrivate (h : s.backend publicKeyKey = some (base64Encode pair.publicKey)) (hc : s.foregroundIdentity = none) :
    Storing s pair ((write privateKeyKey (base64Encode pair.privateKey)).bind fun _ => .done none)
  | stored (h : Entries s pair) (hc : s.foregroundIdentity = none) : Storing s pair (.done none)

/-- How far a clear has come. -/
inductive Clearing : Prog (Option Pair) → Prop
  | begins : Clearing (PairCall.body .clearAllAccountSecrets)
  | deletes (keys : List String) : Clearing ((deleteAll keys).bind fun _ => .done none)
  | failed (e : DartError) : Clearing (.throw e)

/-- How far a `getKeyPair` has come. -/
inductive Loading (log : List PairEvent) (last : Option Pair) : Prog (Option Pair) → Prop
  | begins : Loading log last getKeyPair
  | readsPublic : Loading log last readPair
  | readsPrivate (pub : Option String) (h : ∀ v, pub = some v → ∃ pair, last = some pair ∧ v = base64Encode pair.publicKey)
    (hs : ∀ pair, settled log = some pair → pub = some (base64Encode pair.publicKey)) :
    Loading log last ((read privateKeyKey).bind fun priv => loadPair pub priv)
  | caches (pair : Pair) (h : last = some pair) :
    Loading log last ((setForegroundIdentity (some pair)).bind fun _ => .done (some pair))
  | done (r : Option Pair) (h : ∀ pair, r = some pair → last = some pair)
    (hs : ∀ pair, settled log = some pair → r = some pair) : Loading log last (.done r)
  | failed (e : DartError) : Loading log last (.throw e)

/-- The invariant of orderly calls. -/
structure PairsInv (last : Option Pair) (c : Pairs) : Prop where
  apart : Apart c
  rest : (∀ t ∈ c.running, ¬t.call.Stores) → Rest c.state c.log last
  storing : ∀ t ∈ c.running, ∀ pair, t.call = .storeKeyPair pair → Storing c.state pair t.rest ∧ settled c.log = none ∧
    ∃ m, .started m (.storeKeyPair pair) ∈ c.log
  clearing : ∀ t ∈ c.running, t.call = .clearAllAccountSecrets → Clearing t.rest ∧ settled c.log = none
  loading : ∀ t ∈ c.running, t.call = .getKeyPair → Loading c.log last t.rest
  zeroize : ∀ t ∈ c.running, t.call = .zeroizeCache → t.rest = PairCall.body .zeroizeCache ∨ t.rest = .done none
  stored : ReturnsStored c.log
  pairs : ReturnsPairs c.log

/-! ## Single calls -/

section Calls

variable {s s' : KeyStore} {log log' : List PairEvent} {last : Option Pair} {op : Op}
  {k : Except DartError (Ans op) → Prog (Option Pair)} {a : Except DartError (Ans op)} {pair : Pair}
  {p : Prog (Option Pair)}

theorem Entries.congr (h : Entries s pair) (hb : s'.backend = s.backend) : Entries s' pair :=
  ⟨hb ▸ h.publicKey, hb ▸ h.privateKey⟩

/-- Fewer entries, or an emptier cache. -/
def Fewer (s' s : KeyStore) : Prop :=
  (∀ key v, s'.backend key = some v → s.backend key = some v) ∧
    ∀ pair, s'.foregroundIdentity = some pair → s.foregroundIdentity = some pair

/-- Entries go, the log grows, and what is settled is still there. -/
theorem Rest.fewer (h : Rest s log last) (hf : Fewer s' s) (hl : ∀ e ∈ log, e ∈ log')
    (hset : ∀ pair, KeyManager.settled log' = some pair → KeyManager.settled log = some pair ∧ s'.backend = s.backend) :
    Rest s' log' last where
  publicKey v hv := h.publicKey v (hf.1 _ v hv)
  privateKey v hv := h.privateKey v (hf.1 _ v hv)
  cached pair hp := h.cached pair (hf.2 pair hp)
  settled pair hp := by
    obtain ⟨h1, h2⟩ := hset pair hp
    exact ⟨(h.settled pair h1).1, (h.settled pair h1).2.congr h2⟩
  started pair hp := by
    obtain ⟨m, hm⟩ := h.started pair hp
    exact ⟨m, hl _ hm⟩

/-- A store that goes on. -/
theorem Storing.call (h : Storing s pair (.call op k)) (he : Effect s op a s') (ht : ∀ e, k a ≠ .throw e) :
    Storing s' pair (k a) := by
  generalize hp : Async.call op k = p at h
  cases h with
  | begins =>
    change Async.call op k = Async.call (Op.setForegroundIdentity none) _ at hp
    cases hp
    cases he
    exact .writesPublic rfl
  | writesPublic hc =>
    change Async.call op k = Async.call (Op.write publicKeyKey _) _ at hp
    cases hp
    cases he with
    | write => exact .writesPrivate (Function.update_self publicKeyKey (some (base64Encode pair.publicKey)) s.backend) hc
    | writeFails => exact absurd rfl (ht _)
    | writeLost => exact absurd rfl (ht _)
  | writesPrivate h hc =>
    change Async.call op k = Async.call (Op.write privateKeyKey _) _ at hp
    cases hp
    cases he with
    | write =>
      refine .stored ⟨?_, ?_⟩ hc
      · show Function.update s.backend privateKeyKey (some (base64Encode pair.privateKey)) publicKeyKey = _
        rw [Function.update_of_ne (show publicKeyKey ≠ privateKeyKey by decide)]
        exact h
      · exact Function.update_self privateKeyKey (some (base64Encode pair.privateKey)) s.backend
    | writeFails => exact absurd rfl (ht _)
    | writeLost => exact absurd rfl (ht _)
  | stored h hc => cases hp

/-- A store that is done. -/
theorem Storing.rest {r : Option Pair} (h : Storing s pair (.done r)) (hs : ∃ m, .started m (.storeKeyPair pair) ∈ log)
    (hset : ∀ pair', settled log = some pair' → pair' = pair) : Rest s log (some pair) := by
  generalize hp : (Async.done r : Prog (Option Pair)) = p at h
  cases h with
  | stored h hc =>
    refine ⟨fun v hv => ⟨pair, rfl, ?_⟩, fun v hv => ⟨pair, rfl, ?_⟩, fun pair' hc' => ?_, fun pair' hp => ?_, fun pair' hp => ?_⟩
    · exact Option.some.inj (hv.symm.trans h.publicKey)
    · exact Option.some.inj (hv.symm.trans h.privateKey)
    · rw [hc] at hc'; cases hc'
    · obtain rfl := hset pair' hp
      exact ⟨rfl, h⟩
    · cases hp; exact hs
  | begins => cases hp
  | writesPublic hc => cases hp
  | writesPrivate h hc => cases hp

theorem Storing.ne_throw {e : DartError} (h : Storing s pair (.throw e)) : False := by
  generalize hp : (Async.throw e : Prog (Option Pair)) = p at h
  cases h with
  | begins => cases hp
  | writesPublic hc => cases hp
  | writesPrivate h hc => cases hp
  | stored h hc => cases hp

/-- The cache is lost. -/
theorem Storing.forget (h : Storing s pair p) (hb : s'.backend = s.backend) (hf : Fewer s' s) : Storing s' pair p := by
  have hnone : s.foregroundIdentity = none → s'.foregroundIdentity = none := fun h => by
    rw [Option.eq_none_iff_forall_ne_some]
    intro pair hp
    rw [hf.2 pair hp] at h
    cases h
  cases h with
  | begins => exact .begins
  | writesPublic hc => exact .writesPublic (hnone hc)
  | writesPrivate h hc => exact .writesPrivate (hb ▸ h) (hnone hc)
  | stored h hc => exact .stored (h.congr hb) (hnone hc)

/-- A clear that goes on, or fails. -/
theorem Clearing.call (h : Clearing (.call op k)) (he : Effect s op a s') : Clearing (k a) ∧ Fewer s' s := by
  generalize hp : Async.call op k = p at h
  have hdel : ∀ key, Fewer { s with backend := Function.update s.backend key none } s := by
    refine fun key => ⟨fun key' v hv => ?_, fun _ => id⟩
    change Function.update s.backend key none key' = some v at hv
    rw [Function.update_apply] at hv
    split at hv
    · cases hv
    · exact hv
  cases h with
  | begins =>
    change Async.call op k = Async.call (Op.setForegroundIdentity none) _ at hp
    cases hp
    cases he
    exact ⟨.deletes accountKeys, fun _ _ => id, fun _ h => by cases h⟩
  | deletes keys =>
    cases keys with
    | nil => cases hp
    | cons key keys =>
      change Async.call op k = Async.call (Op.delete key) _ at hp
      cases hp
      cases he with
      | delete => exact ⟨.deletes keys, hdel key⟩
      | deleteFails => exact ⟨.failed _, fun _ _ => id, fun _ => id⟩
      | deleteLost => exact ⟨.failed _, hdel key⟩
  | failed e => cases hp

/-- What a `getKeyPair` has read stays right while nothing is stored. -/
theorem Loading.congr (h : Loading log last p) (hset : ∀ pair, settled log' = some pair → settled log = some pair) :
    Loading log' last p := by
  cases h with
  | begins => exact .begins
  | readsPublic => exact .readsPublic
  | readsPrivate pub h hs => exact .readsPrivate pub h fun pair hp => hs pair (hset pair hp)
  | caches pair h => exact .caches pair h
  | done r h hs => exact .done r h fun pair hp => hs pair (hset pair hp)
  | failed e => exact .failed e

/-- What a `getKeyPair` returns. -/
theorem Loading.returns {r : Option Pair} (h : Loading log last (.done r)) :
    (∀ pair, r = some pair → last = some pair) ∧ ∀ pair, settled log = some pair → r = some pair := by
  generalize hp : (Async.done r : Prog (Option Pair)) = p at h
  cases h with
  | done r h hs => cases hp; exact ⟨h, hs⟩
  | begins => cases hp
  | readsPublic => cases hp
  | readsPrivate pub h hs => cases hp
  | caches pair h => cases hp
  | failed e => cases hp

/-- Both texts were read. -/
theorem loadPair_encoded (pub priv : Bytes) : loadPair (some (base64Encode pub)) (some (base64Encode priv)) =
    (setForegroundIdentity (some ⟨pub, priv⟩)).bind fun _ => .done (some ⟨pub, priv⟩) := by
  simp only [loadPair, base64Decode_base64Encode]
  rfl

/-- A `getKeyPair` that goes on while no store is under way. -/
theorem Loading.call (h : Loading log last (.call op k)) (hr : Rest s log last) (he : Effect s op a s') :
    Loading log last (k a) ∧ Rest s' log last := by
  generalize hp : Async.call op k = p at h
  cases h with
  | begins =>
    change Async.call op k = Async.call Op.foregroundIdentity _ at hp
    cases hp
    cases he
    refine ⟨?_, hr⟩
    show Loading log last (match s.foregroundIdentity with | some cached => _ | none => _)
    cases hc : s.foregroundIdentity with
    | none => exact .readsPublic
    | some cached =>
      have hlast := hr.cached cached hc
      exact .done _ (fun pair hp => hp ▸ hlast) fun pair hp => hlast.symm.trans (hr.settled pair hp).1
  | readsPublic =>
    change Async.call op k = Async.call (Op.read publicKeyKey) _ at hp
    cases hp
    cases he with
    | read => exact ⟨.readsPrivate _ hr.publicKey fun pair hp => (hr.settled pair hp).2.publicKey, hr⟩
    | readFails => exact ⟨.failed _, hr⟩
  | readsPrivate pub hpub hs =>
    change Async.call op k = Async.call (Op.read privateKeyKey) _ at hp
    cases hp
    cases he with
    | readFails => exact ⟨.failed _, hr⟩
    | read =>
      refine ⟨?_, hr⟩
      show Loading log last (loadPair pub (s.backend privateKeyKey))
      cases pub with
      | none => exact .done none (fun pair hp => (nomatch hp)) fun pair hp => (nomatch hs pair hp)
      | some v =>
        cases hv : s.backend privateKeyKey with
        | none =>
          refine .done none (fun pair hp => (nomatch hp)) fun pair hp => ?_
          have := (hr.settled pair hp).2.privateKey
          rw [hv] at this
          cases this
        | some v' =>
          obtain ⟨pair, hlast, rfl⟩ := hpub v rfl
          obtain ⟨pair', hlast', rfl⟩ := hr.privateKey v' hv
          obtain rfl := Option.some.inj (hlast.symm.trans hlast')
          rw [loadPair_encoded]
          exact .caches pair hlast
  | caches pair hlast =>
    change Async.call op k = Async.call (Op.setForegroundIdentity (some pair)) _ at hp
    cases hp
    cases he
    refine ⟨.done _ (fun pair' hp => hp ▸ hlast) fun pair' hp => hlast.symm.trans (hr.settled pair' hp).1, ?_⟩
    exact ⟨hr.publicKey, hr.privateKey, fun pair' hp => hp ▸ hlast,
      fun pair' hp => ⟨(hr.settled pair' hp).1, (hr.settled pair' hp).2.congr rfl⟩, hr.started⟩
  | done r h hs => cases hp
  | failed e => cases hp

end Calls

/-! ## Steps -/

section Steps

variable {c c' : Pairs} {s s' : KeyStore} {ts us : List (Async.Task PairCall Op Ans DartError (Option Pair))}
  {n n' m : Nat} {log log' : List PairEvent} {i : PairCall} {p : Prog (Option Pair)} {last : Option Pair}

theorem PairCall.conflict_symm {i j : PairCall} (h : ¬i.Conflict j) : ¬j.Conflict i := by
  unfold PairCall.Conflict at *
  tauto

theorem PairCall.Stores.pair {i : PairCall} (h : i.Stores) : ∃ pair, i = .storeKeyPair pair := by
  cases i with
  | storeKeyPair pair => exact ⟨pair, rfl⟩
  | getKeyPair => exact h.elim
  | zeroizeCache => exact h.elim
  | clearAllAccountSecrets => exact h.elim

/-- Beside a store nothing runs but `zeroizeCache`. -/
theorem Apart.alone (h : Apart ⟨s, ts ++ ⟨m, i, p⟩ :: us, n, log⟩) (hi : i.Stores) :
    ∀ t ∈ ts ++ us, t.call = .zeroizeCache := fun t ht => by
  have := Async.pairwise_others PairCall.conflict_symm h t ht
  unfold PairCall.Conflict at this
  tauto

/-- Beside a clear or a `getKeyPair` nothing is stored. -/
theorem Apart.unstored (h : Apart ⟨s, ts ++ ⟨m, i, p⟩ :: us, n, log⟩) (hi : ¬i.Stores) (hz : i ≠ .zeroizeCache) :
    ∀ t ∈ ts ++ ⟨m, i, p⟩ :: us, ¬t.call.Stores := fun t ht => by
  rcases Async.mem_middle.mp ht with rfl | ht
  · exact hi
  · have := Async.pairwise_others PairCall.conflict_symm h t ht
    unfold PairCall.Conflict at this
    tauto

/-- The entries stay, the cache stays or is lost, and nothing more is settled. -/
theorem PairsInv.frame (h : PairsInv last ⟨s, ts, n, log⟩) (hb : s'.backend = s.backend) (hf : Fewer s' s)
    (hl : ∀ e ∈ log, e ∈ log') (hset : ∀ pair, settled log' = some pair → settled log = some pair)
    (hs : ReturnsStored log') (hp : ReturnsPairs log') : PairsInv last ⟨s', ts, n', log'⟩ := by
  have hnone : settled log = none → settled log' = none := fun h => by
    rw [Option.eq_none_iff_forall_ne_some]
    intro pair hp
    rw [hset pair hp] at h
    cases h
  refine ⟨h.apart, fun hw => (h.rest hw).fewer hf hl fun pair hp => ⟨hset pair hp, hb⟩, fun t ht pair hi => ?_,
    fun t ht hi => ?_, fun t ht hg => (h.loading t ht hg).congr hset, h.zeroize, hs, hp⟩
  · obtain ⟨h1, h2, m, hm⟩ := h.storing t ht pair hi
    exact ⟨h1.forget hb hf, hnone h2, m, hl _ hm⟩
  · obtain ⟨h1, h2⟩ := h.clearing t ht hi
    exact ⟨h1, hnone h2⟩

/-- Calls are dropped, but no store. -/
theorem PairsInv.sub (h : PairsInv last ⟨s, us, n, log⟩) (hd : ts.Sublist us)
    (hw : (∃ t ∈ us, t.call.Stores) → ∃ t ∈ ts, t.call.Stores) : PairsInv last ⟨s, ts, n, log⟩ where
  apart := h.apart.sublist hd
  rest hno := h.rest fun t ht hs => by
    obtain ⟨u, hu, hs⟩ := hw ⟨t, ht, hs⟩
    exact hno u hu hs
  storing t ht := h.storing t (hd.subset ht)
  clearing t ht := h.clearing t (hd.subset ht)
  loading t ht := h.loading t (hd.subset ht)
  zeroize t ht := h.zeroize t (hd.subset ht)
  stored := h.stored
  pairs := h.pairs

/-- A call that stores nothing goes. -/
theorem PairsInv.remove (h : PairsInv last ⟨s, ts ++ ⟨m, i, p⟩ :: us, n, log⟩) (hi : ¬i.Stores) :
    PairsInv last ⟨s, ts ++ us, n, log⟩ :=
  h.sub ((List.sublist_cons_self _ us).append_left ts) fun ⟨t, ht, hs⟩ => by
    rcases Async.mem_middle.mp ht with rfl | ht
    · exact absurd hs hi
    · exact ⟨t, ht, hs⟩

/-- What runs beside a store that is done is `zeroizeCache`, and its pair is the last one. -/
theorem PairsInv.settle {pair : Pair} {r : Option Pair} (h : PairsInv last ⟨s, us, n, log⟩)
    (ht : ⟨m, .storeKeyPair pair, .done r⟩ ∈ us) (hz : ∀ t ∈ ts, t ∈ us ∧ t.call = .zeroizeCache)
    (hl : ∀ e ∈ log, e ∈ log') (hset : ∀ pair', settled log' = some pair' → pair' = pair) (hs : ReturnsStored log')
    (hp : ReturnsPairs log') (ha : Apart ⟨s, ts, n, log'⟩) : PairsInv (some pair) ⟨s, ts, n, log'⟩ := by
  obtain ⟨h1, -, m', hm⟩ := h.storing _ ht pair rfl
  refine ⟨ha, fun _ => h1.rest ⟨m', hl _ hm⟩ hset, fun t ht pair hi => ?_, fun t ht hi => ?_, fun t ht hi => ?_,
    fun t ht => h.zeroize t (hz t ht).1, hs, hp⟩
  · cases (hz t ht).2.symm.trans hi
  · cases (hz t ht).2.symm.trans hi
  · cases (hz t ht).2.symm.trans hi

/-- Calls are dropped, but no store before it is done. -/
theorem PairsInv.drop (h : PairsInv last ⟨s, us, n, log⟩) (hd : ts.Sublist us)
    (hw : (∃ t ∈ us, t.call.Stores ∧ ∀ a, t.rest ≠ .done a) → ∃ t ∈ ts, t.call.Stores) :
    ∃ last', PairsInv last' ⟨s, ts, n, log⟩ := by
  by_cases hno : (∃ t ∈ us, t.call.Stores) → ∃ t ∈ ts, t.call.Stores
  · exact ⟨last, h.sub hd hno⟩
  · obtain ⟨⟨t, ht, hs⟩, hts⟩ := Classical.not_imp.mp hno
    obtain ⟨a, ha⟩ : ∃ a, t.rest = .done a := by
      by_contra hc
      exact hts (hw ⟨t, ht, hs, fun a ha => hc ⟨a, ha⟩⟩)
    obtain ⟨us₁, us₂, rfl⟩ := List.append_of_mem ht
    obtain ⟨m, i, p⟩ := t
    obtain rfl : p = .done a := ha
    have hothers := h.apart.alone hs
    obtain ⟨pair, rfl⟩ := hs.pair
    obtain ⟨-, hnone, -⟩ := h.storing _ ht pair rfl
    refine ⟨some pair, h.settle ht (fun t ht => ⟨hd.subset ht, ?_⟩) (fun _ => id) (fun pair' hp => ?_) h.stored h.pairs
      (h.apart.sublist hd)⟩
    · rcases Async.mem_middle.mp (hd.subset ht) with rfl | hm
      · exact absurd ⟨_, ht, hs⟩ hts
      · exact hothers t hm
    · cases hnone.symm.trans hp

/-- A call starts. -/
theorem PairsInv.start (h : PairsInv last ⟨s, ts, n, log⟩)
    (ha : Apart ⟨s, ⟨n, i, i.body⟩ :: ts, n + 1, .started n i :: log⟩) :
    PairsInv last ⟨s, ⟨n, i, i.body⟩ :: ts, n + 1, .started n i :: log⟩ := by
  have hset : ∀ pair, settled (.started n i :: log) = some pair → ¬Writing (.started n i) ∧ settled log = some pair := by
    intro pair hp
    cases i with
    | storeKeyPair pair => cases hp
    | clearAllAccountSecrets => cases hp
    | getKeyPair => exact ⟨id, hp⟩
    | zeroizeCache => exact ⟨id, hp⟩
  have hnone : i.Writes → settled (.started n i :: log) = none := fun hw => by
    rw [Option.eq_none_iff_forall_ne_some]
    exact fun pair hp => (hset pair hp).1 hw
  have hframe : PairsInv last ⟨s, ts, n + 1, .started n i :: log⟩ :=
    h.frame rfl ⟨fun _ _ => id, fun _ => id⟩ (fun _ he => List.mem_cons_of_mem _ he) (fun pair hp => (hset pair hp).2)
      (h.stored.cons fun n r he => by cases he) (h.pairs.cons fun n r he => by cases he)
  obtain ⟨-, hrest, hstoring, hclearing, hloading, hzeroize, hstored, hpairs⟩ := hframe
  refine ⟨ha, fun hno => hrest fun t ht => hno t (List.mem_cons_of_mem _ ht), fun t ht pair hi => ?_, fun t ht hi => ?_,
    fun t ht hi => ?_, fun t ht hi => ?_, hstored, hpairs⟩
  · rcases List.mem_cons.mp ht with rfl | ht
    · obtain rfl : i = .storeKeyPair pair := hi
      exact ⟨.begins, hnone trivial, n, List.mem_cons_self⟩
    · exact hstoring t ht pair hi
  · rcases List.mem_cons.mp ht with rfl | ht
    · obtain rfl : i = .clearAllAccountSecrets := hi
      exact ⟨.begins, hnone trivial⟩
    · exact hclearing t ht hi
  · rcases List.mem_cons.mp ht with rfl | ht
    · obtain rfl : i = .getKeyPair := hi
      exact .begins
    · exact hloading t ht hi
  · rcases List.mem_cons.mp ht with rfl | ht
    · obtain rfl : i = .zeroizeCache := hi
      exact Or.inl rfl
    · exact hzeroize t ht hi

/-- One call does what the others and the state bear. -/
theorem PairsInv.replace {p' : Prog (Option Pair)} (h : PairsInv last ⟨s, ts ++ ⟨m, i, p⟩ :: us, n, log⟩)
    (ha : Apart ⟨s', ts ++ ⟨m, i, p'⟩ :: us, n, log⟩)
    (hrest : (∀ t ∈ ts ++ ⟨m, i, p'⟩ :: us, ¬t.call.Stores) → Rest s' log last)
    (hothers : ∀ t ∈ ts ++ us, ∀ pair, t.call = .storeKeyPair pair → ∀ p, Storing s pair p → Storing s' pair p)
    (hs : ∀ pair, i = .storeKeyPair pair → Storing s pair p → Storing s' pair p')
    (hc : i = .clearAllAccountSecrets → Clearing p → Clearing p') (hg : i = .getKeyPair → Loading log last p → Loading log last p')
    (hz : i = .zeroizeCache → p' = .done none) : PairsInv last ⟨s', ts ++ ⟨m, i, p'⟩ :: us, n, log⟩ := by
  have hm : (⟨m, i, p⟩ : Async.Task PairCall Op Ans DartError (Option Pair)) ∈ ts ++ ⟨m, i, p⟩ :: us :=
    Async.mem_middle.mpr (Or.inl rfl)
  have hm' : ∀ {t}, t ∈ ts ++ us → t ∈ ts ++ ⟨m, i, p⟩ :: us := fun ht => Async.mem_middle.mpr (Or.inr ht)
  refine ⟨ha, hrest, fun t ht pair hi => ?_, fun t ht hi => ?_, fun t ht hi => ?_, fun t ht hi => ?_, h.stored, h.pairs⟩
  · rcases Async.mem_middle.mp ht with rfl | ht
    · exact (h.storing _ hm pair hi).imp_left (hs pair hi)
    · exact (h.storing t (hm' ht) pair hi).imp_left (hothers t ht pair hi _)
  · rcases Async.mem_middle.mp ht with rfl | ht
    · exact (h.clearing _ hm hi).imp_left (hc hi)
    · exact h.clearing t (hm' ht) hi
  · rcases Async.mem_middle.mp ht with rfl | ht
    · exact hg hi (h.loading _ hm hi)
    · exact h.loading t (hm' ht) hi
  · rcases Async.mem_middle.mp ht with rfl | ht
    · exact Or.inr (hz hi)
    · exact h.zeroize t (hm' ht) hi

/-- A call goes on. -/
theorem PairsInv.call {op : Op} {k : Except DartError (Ans op) → Prog (Option Pair)} {a : Except DartError (Ans op)}
    (h : PairsInv last ⟨s, ts ++ ⟨m, i, .call op k⟩ :: us, n, log⟩) (he : Effect s op a s')
    (ha : Apart ⟨s', ts ++ ⟨m, i, k a⟩ :: us, n, log⟩) (hk : i.Stores → ∀ e, k a ≠ .throw e) :
    PairsInv last ⟨s', ts ++ ⟨m, i, k a⟩ :: us, n, log⟩ := by
  have hm : (⟨m, i, .call op k⟩ : Async.Task PairCall Op Ans DartError (Option Pair)) ∈ ts ++ ⟨m, i, .call op k⟩ :: us :=
    Async.mem_middle.mpr (Or.inl rfl)
  -- where nothing is stored, no store has to bear the step
  have hfree : ∀ {Q : Prog (Option Pair) → Pair → Prop}, ¬i.Stores → i ≠ .zeroizeCache → ∀ t ∈ ts ++ us, ∀ pair,
      t.call = .storeKeyPair pair → ∀ p, Q p pair := fun {Q} hi hz t ht pair he p => by
    have := h.apart.unstored hi hz t (Async.mem_middle.mpr (Or.inr ht))
    rw [he] at this
    exact absurd trivial this
  cases i with
  | storeKeyPair pair =>
    refine h.replace ha (fun hno => absurd trivial (hno _ (Async.mem_middle.mpr (Or.inl rfl)))) (fun t ht pair' hi => ?_)
      (fun pair' hi hs => ?_) (fun hi => by cases hi) (fun hi => by cases hi) fun hi => by cases hi
    · cases (h.apart.alone trivial t ht).symm.trans hi
    · cases hi; exact hs.call he (hk trivial)
  | clearAllAccountSecrets =>
    obtain ⟨hclear, hnone⟩ := h.clearing _ hm rfl
    obtain ⟨hclear', hf⟩ := hclear.call he
    have hrest := h.rest (h.apart.unstored id fun h => by cases h)
    exact h.replace ha (fun _ => hrest.fewer hf (fun _ => id) fun pair hp => by cases hnone.symm.trans hp)
      (hfree id fun h => by cases h) (fun _ hi => by cases hi) (fun _ _ => hclear') (fun hi => by cases hi) fun hi => by cases hi
  | getKeyPair =>
    obtain ⟨h1, h2⟩ := (h.loading _ hm rfl).call (h.rest (h.apart.unstored id fun h => by cases h)) he
    exact h.replace ha (fun _ => h2) (hfree id fun h => by cases h) (fun _ hi => by cases hi) (fun hi => by cases hi)
      (fun _ _ => h1) fun hi => by cases hi
  | zeroizeCache =>
    rcases h.zeroize _ hm rfl with hz | hz
    · change Async.call op k = Async.call (Op.setForegroundIdentity none) _ at hz
      cases hz
      cases he
      have hf : Fewer { s with foregroundIdentity := none } s := ⟨fun _ _ => id, fun _ h => by cases h⟩
      refine h.replace ha (fun hno => (h.rest fun t ht => ?_).fewer hf (fun _ => id) fun pair hp => ⟨hp, rfl⟩)
        (fun _ _ _ _ _ hs => hs.forget rfl hf) (fun _ hi => by cases hi) (fun hi => by cases hi) (fun hi => by cases hi)
        fun _ => rfl
      rcases Async.mem_middle.mp ht with rfl | ht
      · exact id
      · exact hno t (Async.mem_middle.mpr (Or.inr ht))
    · cases hz

/-- A call returns. -/
theorem PairsInv.done {r : Option Pair} (h : PairsInv last ⟨s, ts ++ ⟨m, i, .done r⟩ :: us, n, log⟩)
    (ha : Apart ⟨s, ts ++ us, n, .ended m i (.ok r) :: log⟩) :
    ∃ last', PairsInv last' ⟨s, ts ++ us, n, .ended m i (.ok r) :: log⟩ := by
  have ht : (⟨m, i, .done r⟩ : Async.Task PairCall Op Ans DartError (Option Pair)) ∈ ts ++ ⟨m, i, .done r⟩ :: us :=
    Async.mem_middle.mpr (Or.inl rfl)
  have hgrow : ∀ e ∈ log, e ∈ .ended m i (.ok r) :: log := fun _ he => List.mem_cons_of_mem _ he
  cases i with
  | storeKeyPair pair =>
    refine ⟨some pair, h.settle ht (fun t hm => ⟨Async.mem_middle.mpr (Or.inr hm), h.apart.alone trivial t hm⟩) hgrow
      (fun pair' hp => ?_) (h.stored.cons fun n r he => by cases he) (h.pairs.cons fun n r he => by cases he) ha⟩
    cases hp; rfl
  | clearAllAccountSecrets =>
    exact ⟨last, (h.remove id).frame rfl ⟨fun _ _ => id, fun _ => id⟩ hgrow (fun pair hp => by cases hp)
      (h.stored.cons fun n r he => by cases he) (h.pairs.cons fun n r he => by cases he)⟩
  | zeroizeCache =>
    exact ⟨last, (h.remove id).frame rfl ⟨fun _ _ => id, fun _ => id⟩ hgrow (fun pair hp => hp)
      (h.stored.cons fun n r he => by cases he) (h.pairs.cons fun n r he => by cases he)⟩
  | getKeyPair =>
    obtain ⟨h1, h2⟩ := (h.loading _ ht rfl).returns
    have hrest := h.rest (h.apart.unstored id fun h => by cases h)
    exact ⟨last, (h.remove id).frame rfl ⟨fun _ _ => id, fun _ => id⟩ hgrow (fun pair hp => hp) (h.stored.get h2)
      (h.pairs.get fun pair hp => hrest.started pair (h1 pair hp))⟩

/-- A call throws. -/
theorem PairsInv.thrown {e : DartError} (h : PairsInv last ⟨s, ts ++ ⟨m, i, .throw e⟩ :: us, n, log⟩) :
    PairsInv last ⟨s, ts ++ us, n, .ended m i (.error e) :: log⟩ := by
  have hi : ¬i.Stores := fun hi => by
    obtain ⟨pair, rfl⟩ := hi.pair
    exact (h.storing _ (Async.mem_middle.mpr (Or.inl rfl)) pair rfl).1.ne_throw
  refine (h.remove hi).frame rfl ⟨fun _ _ => id, fun _ => id⟩ (fun _ he => List.mem_cons_of_mem _ he) (fun pair hp => ?_)
    (h.stored.cons fun n r he => by cases he) (h.pairs.cons fun n r he => by cases he)
  cases i with
  | storeKeyPair pair => cases hp
  | clearAllAccountSecrets => cases hp
  | getKeyPair => exact hp
  | zeroizeCache => exact hp

/-- One orderly step keeps the invariant. -/
theorem PairsInv.step (h : PairsInv last c) (ho : Orderly c c')
    (hs : Async.Pool.Step Effect PairCall.body Lost c c') : ∃ last', PairsInv last' c' := by
  obtain ⟨ha, hc, hd⟩ := ho
  cases hs with
  | start i => exact ⟨last, h.start ha⟩
  | call he => exact ⟨last, h.call he ha fun hi e => hc ⟨_, _, _⟩ (Async.mem_middle.mpr (Or.inl rfl)) hi e⟩
  | done => exact h.done ha
  | thrown => exact ⟨last, h.thrown⟩
  | other hl =>
    cases hl
    exact ⟨last, h.frame rfl ⟨fun _ _ => id, fun _ h => by cases h⟩ (fun _ => id) (fun _ => id) h.stored h.pairs⟩
  | drop hsub => exact h.drop hsub hd

/-- Where no store runs beside another one, a clear or a `getKeyPair`, and none throws or is dropped before it is done, a
`getKeyPair` returns what was stored last, and never the halves of two pairs. -/
theorem getKeyPair_coherent (h : Pairs.Reachable Orderly c) : ReturnsStored c.log ∧ ReturnsPairs c.log := by
  obtain ⟨last, hi⟩ : ∃ last, PairsInv last c := by
    induction h with
    | init =>
      refine ⟨none, List.Pairwise.nil, fun _ => ?_, fun t ht => ?_, fun t ht => ?_, fun t ht => ?_, fun t ht => ?_, ?_, ?_⟩
      · exact ⟨fun _ h => (nomatch h), fun _ h => (nomatch h), fun _ h => (nomatch h), fun _ h => (nomatch h),
          fun _ h => (nomatch h)⟩
      · exact (List.not_mem_nil ht).elim
      · exact (List.not_mem_nil ht).elim
      · exact (List.not_mem_nil ht).elim
      · exact (List.not_mem_nil ht).elim
      · exact fun es es' es'' n r pair hl => by simp at hl
      · exact fun n pair hm => (List.not_mem_nil hm).elim
    | step _ hs hok ih =>
      obtain ⟨last, ih⟩ := ih
      exact ih.step hok hs
  exact ⟨hi.stored, hi.pairs⟩

end Steps

/-! ## A store and a `getKeyPair` -/

/-- A pair of 32 byte keys. -/
def pairOf (b : UInt8) : Pair := ⟨List.replicate 32 b, List.replicate 32 b⟩

/-- The storage with the public key of one pair and the private key of another, and nothing cached. -/
def halves (pub priv : Pair) : KeyStore :=
  ⟨Function.update (Function.update emptyStore.backend publicKeyKey (some (base64Encode pub.publicKey))) privateKeyKey
    (some (base64Encode priv.privateKey)), none⟩

theorem halves_publicKey (pub priv : Pair) :
    (halves pub priv).backend publicKeyKey = some (base64Encode pub.publicKey) := by
  show Function.update _ privateKeyKey (some (base64Encode priv.privateKey)) publicKeyKey = _
  rw [Function.update_of_ne (show publicKeyKey ≠ privateKeyKey by decide)]
  exact Function.update_self publicKeyKey (some (base64Encode pub.publicKey)) emptyStore.backend

theorem halves_privateKey (pub priv : Pair) :
    (halves pub priv).backend privateKeyKey = some (base64Encode priv.privateKey) := by
  simp [halves]

/-- The public key is replaced. -/
theorem halves_update (pub pub' priv : Pair) : (⟨Function.update (halves pub priv).backend publicKeyKey
    (some (base64Encode pub'.publicKey)), none⟩ : KeyStore) = halves pub' priv := by
  unfold halves
  rw [Function.update_comm (show publicKeyKey ≠ privateKeyKey by decide), Function.update_idem,
    Function.update_comm (show privateKeyKey ≠ publicKeyKey by decide)]

/-- The next step of the only call that runs. -/
theorem orderly_one {c : Pairs} {s : KeyStore} {t : Async.Task PairCall Op Ans DartError (Option Pair)} {n : Nat}
    {log : List PairEvent} (ht : ∀ e, t.rest ≠ .throw e) (hw : t.call.Stores ∨ ∀ u ∈ c.running, ¬u.call.Stores) :
    Orderly c ⟨s, [t], n, log⟩ := by
  refine ⟨List.pairwise_singleton _ _, fun u hu _ => ?_, fun ⟨u, hu, hsu, _⟩ => ⟨t, List.mem_singleton_self t, ?_⟩⟩
  · obtain rfl := List.mem_singleton.mp hu
    exact ht
  · exact hw.resolve_right fun h => h u hu hsu

/-- The only call returns. -/
theorem orderly_done {s s' : KeyStore} {i : PairCall} {r : Option Pair} {m n : Nat} {log log' : List PairEvent} :
    Orderly ⟨s, [⟨m, i, .done r⟩], n, log⟩ ⟨s', [], n, log'⟩ :=
  ⟨List.Pairwise.nil, fun t ht => (List.not_mem_nil ht).elim, fun ⟨t, ht, _, hd⟩ => by
    obtain rfl := List.mem_singleton.mp ht
    exact absurd rfl (hd r)⟩

/-- The log of a `storeKeyPair` that returned. -/
def storedLog : List PairEvent :=
  [.ended 0 (.storeKeyPair (pairOf 1)) (.ok none), .started 0 (.storeKeyPair (pairOf 1))]

/-- A `storeKeyPair` alone. -/
theorem storeKeyPair_reachable : Pairs.Reachable Orderly ⟨halves (pairOf 1) (pairOf 1), [], 1, storedLog⟩ := by
  have h0 : Pairs.Reachable Orderly _ := Async.Pool.Reachable.init.step (.start (.storeKeyPair (pairOf 1)))
    (orderly_one (fun e h => by cases h) (Or.inl (show PairCall.Stores (.storeKeyPair _) from trivial)))
  have h1 := h0.step (.first (.setForegroundIdentity emptyStore none))
    (orderly_one (fun e h => by cases h) (Or.inl trivial))
  have h2 := h1.step (.first (.write emptyStore publicKeyKey _)) (orderly_one (fun e h => by cases h) (Or.inl trivial))
  have h3 := h2.step (.first (.write _ privateKeyKey _)) (orderly_one (fun e h => by cases h) (Or.inl trivial))
  exact h3.step .firstDone orderly_done

theorem halves_reads (pub priv : Pair) :
    Effect (halves pub priv) (.read publicKeyKey) (.ok (some (base64Encode pub.publicKey))) (halves pub priv) ∧
      Effect (halves pub priv) (.read privateKeyKey) (.ok (some (base64Encode priv.privateKey))) (halves pub priv) :=
  ⟨halves_publicKey pub priv ▸ .read _ publicKeyKey, halves_privateKey pub priv ▸ .read _ privateKeyKey⟩

/-- A `getKeyPair` runs beside `ts`, or has not started, or has ended. -/
def Getting (ts : List (Async.Task PairCall Op Ans DartError (Option Pair))) (c : Pairs) : Prop :=
  c.running = ts ∨ ∃ m p, c.running = ⟨m, .getKeyPair, p⟩ :: ts

/-- A `getKeyPair` that nothing interrupts returns what the storage holds. -/
theorem getKeyPair_reachable {ok : Pairs → Pairs → Prop} {ts : List (Async.Task PairCall Op Ans DartError (Option Pair))}
    {pub priv : Pair} {n : Nat} {log : List PairEvent} (hok : ∀ {c c'}, Getting ts c → Getting ts c' → ok c c')
    (h : Pairs.Reachable ok ⟨halves pub priv, ts, n, log⟩) :
    Pairs.Reachable ok ⟨{ halves pub priv with foregroundIdentity := some ⟨pub.publicKey, priv.privateKey⟩ }, ts, n + 1,
      .ended n .getKeyPair (.ok (some ⟨pub.publicKey, priv.privateKey⟩)) :: .started n .getKeyPair :: log⟩ := by
  have hg : ∀ {s n log m p}, Getting ts ⟨s, ⟨m, .getKeyPair, p⟩ :: ts, n, log⟩ := Or.inr ⟨_, _, rfl⟩
  obtain ⟨hpub, hpriv⟩ := halves_reads pub priv
  have h0 := h.step (.start .getKeyPair) (hok (Or.inl rfl) hg)
  have h1 : Pairs.Reachable ok ⟨halves pub priv, ⟨n, .getKeyPair, readPair⟩ :: ts, n + 1, .started n .getKeyPair :: log⟩ :=
    h0.step (.first (Effect.foregroundIdentity _)) (hok hg hg)
  have h2 := h1.step (.first hpub) (hok hg hg)
  have h3 := h2.step (.first hpriv) (hok hg hg)
  change Pairs.Reachable ok ⟨_, ⟨n, .getKeyPair, loadPair (some (base64Encode pub.publicKey))
    (some (base64Encode priv.privateKey))⟩ :: ts, _, _⟩ at h3
  rw [loadPair_encoded] at h3
  have h4 := h3.step (.first (.setForegroundIdentity _ _)) (hok hg hg)
  exact h4.step .firstDone (hok hg (Or.inl rfl))

/-- A `storeKeyPair` and then a `getKeyPair`. -/
theorem getKeyPair_coherent_once : ∃ c : Pairs, .ended 1 .getKeyPair (.ok (some (pairOf 1))) ∈ c.log ∧
    Pairs.Reachable Orderly c ∧ ReturnsStored c.log ∧ ReturnsPairs c.log := by
  have hno : ∀ {c : Pairs}, Getting [] c → ∀ u ∈ c.running, ¬u.call.Stores := by
    rintro c (h | ⟨m, p, h⟩) u hu
    · exact (List.not_mem_nil (h ▸ hu)).elim
    · obtain rfl := List.mem_singleton.mp (h ▸ hu)
      exact id
  have hok : ∀ {c c' : Pairs}, Getting [] c → Getting [] c' → Orderly c c' := by
    intro c c' hc hc'
    refine ⟨?_, fun u hu hw => absurd hw (hno hc' u hu), fun ⟨u, hu, hw, _⟩ => absurd hw (hno hc u hu)⟩
    rcases hc' with h | ⟨m, p, h⟩
    · unfold Apart; rw [h]; exact List.Pairwise.nil
    · unfold Apart; rw [h]; exact List.pairwise_singleton _ _
  have h := getKeyPair_reachable hok storeKeyPair_reachable
  exact ⟨_, List.mem_cons_self, h, getKeyPair_coherent h⟩

/-- A `getKeyPair` that reads between the two writes of a second store returns, and caches, halves of two pairs. -/
theorem getKeyPair_mixed : ∃ c : Pairs, Pairs.Reachable (fun _ _ => True) c ∧ ¬ReturnsPairs c.log := by
  have hok : ∀ {c : Pairs}, Pairs.Reachable Orderly c → Pairs.Reachable (fun _ _ => True) c := fun h => by
    induction h with
    | init => exact .init
    | step _ hs _ ih => exact ih.step hs trivial
  have h0 := (hok storeKeyPair_reachable).step (.start (.storeKeyPair (pairOf 2))) trivial
  have h1 := h0.step (.first (.setForegroundIdentity _ none)) trivial
  have h2 := h1.step (.first (.write _ publicKeyKey _)) trivial
  rw [halves_update] at h2
  have h3 := getKeyPair_reachable (fun _ _ => trivial) h2
  refine ⟨_, h3, fun h => ?_⟩
  obtain ⟨m, hm⟩ := h 2 ⟨(pairOf 2).publicKey, (pairOf 1).privateKey⟩ List.mem_cons_self
  simp [storedLog, pairOf] at hm

end KeyManager

end Chhaya
