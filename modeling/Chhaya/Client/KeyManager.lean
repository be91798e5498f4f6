import Chhaya.Codec.MessageCodec
import Chhaya.Crypto.Ideal
import Chhaya.Lib.Async

/-!
# The key manager

`lib/core/crypto/key_manager.dart`: the calls that await the secure storage. Calls on one `KeyManager` run beside each
other and wait at every access to the storage, where an access may also throw, with or without its effect.

- `derivePathKey_agree`: where no two calls create a master seed at once, calls with one path and salt return one key.
- `derivePathKey_disagree`: two first calls that overlap return keys of different seeds.
-/

namespace Chhaya

/-! ## Storage -/

/-- A `SecureStorage` and the fields of a `KeyManager` that the modelled calls use. -/
structure KeyStore where
  backend : String → Option String
  foregroundIdentity : Option (ChhayaKeyPair UInt8) := none

namespace KeyManager

/-- What a call of the key manager awaits, and its accesses to the cached identity. -/
inductive Op
  | read (key : String)
  | write (key value : String)
  | delete (key : String)
  | bytes (length : Nat)
  | foregroundIdentity
  | setForegroundIdentity (pair : Option (ChhayaKeyPair UInt8))

def Ans : Op → Type
  | .read _ => Option String
  | .write _ _ => Unit
  | .delete _ => Unit
  | .bytes length => {l : Bytes // l.length = length}
  | .foregroundIdentity => Option (ChhayaKeyPair UInt8)
  | .setForegroundIdentity _ => Unit

abbrev Prog (α : Type) := Async Op Ans DartError α

/-- `_backend.read`. -/
def read (key : String) : Prog (Option String) := Async.await (Op.read key)

/-- `_backend.write`. -/
def write (key value : String) : Prog Unit := Async.await (Op.write key value)

/-- `_backend.delete`. -/
def delete (key : String) : Prog Unit := Async.await (Op.delete key)

/-- `_rng.bytes`. -/
def bytes (length : Nat) : Prog {l : Bytes // l.length = length} := Async.await (Op.bytes length)

/-- What an access does. -/
inductive Effect : KeyStore → (op : Op) → Except DartError (Ans op) → KeyStore → Prop
  | read (s : KeyStore) (key : String) : Effect s (.read key) (.ok (s.backend key)) s
  | readFails (s : KeyStore) (key : String) (e : DartError) : Effect s (.read key) (.error e) s
  | write (s : KeyStore) (key value : String) :
    Effect s (.write key value) (.ok ()) { s with backend := Function.update s.backend key (some value) }
  | writeFails (s : KeyStore) (key value : String) (e : DartError) : Effect s (.write key value) (.error e) s
  | writeLost (s : KeyStore) (key value : String) (e : DartError) :
    Effect s (.write key value) (.error e) { s with backend := Function.update s.backend key (some value) }
  | delete (s : KeyStore) (key : String) :
    Effect s (.delete key) (.ok ()) { s with backend := Function.update s.backend key none }
  | deleteFails (s : KeyStore) (key : String) (e : DartError) : Effect s (.delete key) (.error e) s
  | deleteLost (s : KeyStore) (key : String) (e : DartError) :
    Effect s (.delete key) (.error e) { s with backend := Function.update s.backend key none }
  | bytes (s : KeyStore) (length : Nat) (b : {l : Bytes // l.length = length}) : Effect s (.bytes length) (.ok b) s
  | foregroundIdentity (s : KeyStore) : Effect s .foregroundIdentity (.ok s.foregroundIdentity) s
  | setForegroundIdentity (s : KeyStore) (pair : Option (ChhayaKeyPair UInt8)) :
    Effect s (.setForegroundIdentity pair) (.ok ()) { s with foregroundIdentity := pair }

/-! ## The master seed -/

def masterSeedKey : String := "chhaya_master_seed_v1"

/-- A character of `[A-Za-z0-9]`. -/
def isAlphanumeric (c : Char) : Bool := ('A' ≤ c && c ≤ 'Z') || ('a' ≤ c && c ≤ 'z') || ('0' ≤ c && c ≤ '9')

/-- `_checkPath`: `^[A-Za-z0-9][A-Za-z0-9/_-]*$`, which leaves no room for `..`. -/
def checkPath (path : String) : Except DartError Unit :=
  match path.toList with
  | c :: r =>
    if isAlphanumeric c && r.all (fun c => isAlphanumeric c || c == '/' || c == '_' || c == '-') then .ok ()
    else .error (.argument path "path" "Invalid derivation path")
  | [] => .error (.argument path "path" "Invalid derivation path")

/-- `_checkSegment`: `^[A-Za-z0-9_-]+$`. -/
def checkSegment (value name : String) : Except DartError Unit :=
  if !value.toList.isEmpty && value.toList.all (fun c => isAlphanumeric c || c == '_' || c == '-') then .ok ()
  else .error (.argument value name "Invalid path segment")

/-- `databasePath`. -/
def databasePath (userId : String) : Except DartError String := do
  checkSegment userId "userId"
  return "database/master/" ++ userId

/-- The rest of `_masterSeed` once a seed was generated. -/
def saveSeed (seed : Bytes) : Prog Bytes := do
  write masterSeedKey (base64Encode seed)
  return seed

/-- `_masterSeed`. -/
def masterSeed : Prog Bytes := do
  match ← read masterSeedKey with
  | some stored => Async.ofExcept (base64Decode stored)
  | none => saveSeed (← bytes 32).1

variable {β : Type}

/-- The HKDF info of a path. -/
def infoOf (path : String) : Bytes := utf8Encode ("chhaya-v14/" ++ path)

/-- What `derivePathKey` makes of the seed. -/
def keyOf (P : Primitives β) (path : String) (salt : Option (List β)) (seed : Bytes) : Except DartError (List β) :=
  Hkdf.deriveKey P (seed.map P.ofByte) 32 salt (some (infoOf path))

theorem keyOf_inv {P : Primitives β} {path : String} {salt : Option (List β)} {seed : Bytes} {k : List β}
    (h : keyOf P path salt seed = .ok k) : k = P.hkdf (seed.map P.ofByte) salt (some (infoOf path)) 32 := by
  rw [keyOf, Hkdf.deriveKey, if_neg (by decide)] at h
  exact (Except.ok.inj h).symm

/-- `derivePathKey`. -/
def derivePathKey (P : Primitives β) (path : String) (salt : Option (List β)) : Prog (List β) := do
  Async.ofExcept (checkPath path)
  let seed ← masterSeed
  Async.ofExcept (keyOf P path salt seed)

/-- `getDatabaseKey`. -/
def getDatabaseKey (P : Primitives β) (userId : String) : Prog (List β) := do
  derivePathKey P (← Async.ofExcept (databasePath userId)) none

/-- A call that derives a key. -/
inductive SeedCall (β : Type)
  | derivePathKey (path : String) (salt : Option (List β))
  | getDatabaseKey (userId : String)

namespace SeedCall

/-- The program of the call. -/
def body (P : Primitives β) : SeedCall β → Prog (List β)
  | .derivePathKey path salt => KeyManager.derivePathKey P path salt
  | .getDatabaseKey userId => KeyManager.getDatabaseKey P userId

/-- The path and the salt of the call. -/
def target : SeedCall β → String × Option (List β)
  | .derivePathKey path salt => (path, salt)
  | .getDatabaseKey userId => ("database/master/" ++ userId, none)

/-- What the call does with the seed. -/
def finish (P : Primitives β) (i : SeedCall β) (seed : Bytes) : Prog (List β) :=
  Async.ofExcept (keyOf P i.target.1 i.target.2 seed)

/-- A call is rejected, or it loads the seed and derives the key of its path and salt. -/
theorem body_eq (P : Primitives β) (i : SeedCall β) :
    (∃ e, i.body P = .throw e) ∨ i.body P = masterSeed.bind (i.finish P) := by
  have hd : ∀ (path : String) (salt : Option (List β)), (∃ e, KeyManager.derivePathKey P path salt = .throw e) ∨
      KeyManager.derivePathKey P path salt = masterSeed.bind fun seed => Async.ofExcept (keyOf P path salt seed) := by
    intro path salt
    unfold KeyManager.derivePathKey
    cases checkPath path with
    | error e => exact Or.inl ⟨e, rfl⟩
    | ok u => exact Or.inr rfl
  cases i with
  | derivePathKey path salt => exact hd path salt
  | getDatabaseKey userId =>
    show (∃ e, KeyManager.getDatabaseKey P userId = .throw e) ∨ KeyManager.getDatabaseKey P userId = _
    unfold KeyManager.getDatabaseKey databasePath
    cases checkSegment userId "userId" with
    | error e => exact Or.inl ⟨e, rfl⟩
    | ok u => exact hd _ none

end SeedCall

/-! ## Calls beside each other -/

section Seeds

variable {P : Primitives β}

/-- Derivations beside each other on one key manager. -/
abbrev Seeds (β : Type) := Async.Pool (SeedCall β) Op Ans DartError (List β) KeyStore

/-- A restart, or the background wipe: what is in memory is lost. -/
inductive Lost : KeyStore → KeyStore → Prop
  | lost (s : KeyStore) : Lost s { s with foregroundIdentity := none }

/-- The call found no seed and has not stored the one it generates. -/
def Creating {ι α : Type} (t : Async.Task ι Op Ans DartError α) : Prop :=
  (∃ k, t.rest = .call (.bytes 32) k) ∨ ∃ v k, t.rest = .call (.write masterSeedKey v) k

/-- No two calls create a seed at once. -/
def Exclusive (c : Seeds β) : Prop := c.running.Pairwise fun t u => ¬(Creating t ∧ Creating u)

/-- The derivations that steps which satisfy `ok` lead to. Programs are dropped and memory is lost at any time. -/
abbrev Seeds.Reachable (P : Primitives β) (ok : Seeds β → Seeds β → Prop) (s : KeyStore) (c : Seeds β) : Prop :=
  Async.Pool.Reachable Effect (SeedCall.body P) Lost ok s c

/-- Calls with one path and salt have returned one key. -/
def Agree (c : Seeds β) : Prop := ∀ n i k n' i' k', .ended n i (.ok k) ∈ c.log → .ended n' i' (.ok k') ∈ c.log →
  i.target = i'.target → k = k'

/-- The seed in the storage. -/
def Holds (s : KeyStore) (seed : Bytes) : Prop :=
  ∃ stored, s.backend masterSeedKey = some stored ∧ base64Decode stored = .ok seed

/-- How far a call has come. -/
inductive Stage (P : Primitives β) (s : KeyStore) (i : SeedCall β) : Prog (List β) → Prop
  | loads : Stage P s i (masterSeed.bind (i.finish P))
  | failed (e : DartError) : Stage P s i (.throw e)
  | found (seed : Bytes) (h : Holds s seed) : Stage P s i (i.finish P seed)
  | creates (h : s.backend masterSeedKey = none) : Stage P s i (((bytes 32).bind fun b => saveSeed b.1).bind (i.finish P))
  | saves (seed : Bytes) (h : s.backend masterSeedKey = none) : Stage P s i ((saveSeed seed).bind (i.finish P))

/-- The invariant of derivations. -/
structure SeedInv (P : Primitives β) (c : Seeds β) : Prop where
  exclusive : Exclusive c
  stage : ∀ t ∈ c.running, Stage P c.state t.call t.rest
  ended : ∀ n i k, .ended n i (.ok k) ∈ c.log → ∃ seed, Holds c.state seed ∧ keyOf P i.target.1 i.target.2 seed = .ok k

end Seeds

section SeedRuns

variable {P : Primitives β} {s s' : KeyStore} {i : SeedCall β} {op : Op}
  {k : Except DartError (Ans op) → Prog (List β)} {a : Except DartError (Ans op)} {c c' : Seeds β}

theorem finish_ne_call (seed : Bytes) : i.finish P seed ≠ .call op k := by
  unfold SeedCall.finish
  cases keyOf P i.target.1 i.target.2 seed <;> exact fun h => by cases h

/-- A call either creates the seed or leaves the storage alone. -/
theorem Stage.call (h : Stage P s i (.call op k)) (he : Effect s op a s') :
    (s' = s ∧ Stage P s i (k a)) ∨ s.backend masterSeedKey = none ∧ (∃ v, op = .write masterSeedKey v) ∧
      (∃ seed, s' = { s with backend := Function.update s.backend masterSeedKey (some (base64Encode seed)) }) ∧
      Stage P s' i (k a) := by
  generalize hp : Async.call op k = p at h
  cases h with
  | loads =>
    change Async.call op k = Async.call (Op.read masterSeedKey) _ at hp
    cases hp
    left
    cases he with
    | readFails => exact ⟨rfl, .failed _⟩
    | read =>
      refine ⟨rfl, ?_⟩
      cases hb : s.backend masterSeedKey with
      | none => exact .creates hb
      | some stored =>
        show Stage P s i ((Async.ofExcept (base64Decode stored)).bind _)
        cases hd : base64Decode stored with
        | error e => exact .failed e
        | ok seed => exact .found seed ⟨stored, hb, hd⟩
  | failed e => cases hp
  | found seed hf => exact absurd hp.symm (finish_ne_call seed)
  | creates hn =>
    change Async.call op k = Async.call (Op.bytes 32) _ at hp
    cases hp
    cases he with
    | bytes _ => exact Or.inl ⟨rfl, .saves _ hn⟩
  | saves seed hn =>
    change Async.call op k = Async.call (Op.write masterSeedKey (base64Encode seed)) _ at hp
    cases hp
    cases he with
    | writeFails => exact Or.inl ⟨rfl, .failed _⟩
    | writeLost => exact Or.inr ⟨hn, ⟨_, rfl⟩, ⟨seed, rfl⟩, .failed _⟩
    | write =>
      refine Or.inr ⟨hn, ⟨_, rfl⟩, ⟨seed, rfl⟩, .found seed ⟨_, ?_, base64Decode_base64Encode seed⟩⟩
      exact Function.update_self masterSeedKey (some (base64Encode seed)) s.backend

/-- A call that does not create a seed does not mind when one is stored. -/
theorem Stage.stored {p : Prog (List β)} (h : Stage P s i p) (hn : ¬Creating ⟨0, i, p⟩)
    (hs : ∀ seed, Holds s seed → Holds s' seed) : Stage P s' i p := by
  cases h with
  | loads => exact .loads
  | failed e => exact .failed e
  | found seed hf => exact .found seed (hs seed hf)
  | creates _ => exact absurd (Or.inl ⟨_, rfl⟩) hn
  | saves seed _ => exact absurd (Or.inr ⟨_, _, rfl⟩) hn

theorem Holds.inj {seed seed' : Bytes} (h : Holds s seed) (h' : Holds s seed') : seed = seed' := by
  obtain ⟨stored, h1, h2⟩ := h
  obtain ⟨stored', h3, h4⟩ := h'
  rw [h1] at h3
  cases h3
  rw [h2] at h4
  cases h4
  rfl

/-- One step of derivations keeps the invariant. -/
theorem SeedInv.step (h : SeedInv P c) (hx : Exclusive c') (hs : Async.Pool.Step Effect (SeedCall.body P) Lost c c') :
    SeedInv P c' := by
  obtain ⟨hex, hstage, hended⟩ := h
  cases hs with
  | start i =>
    refine ⟨hx, fun t ht => ?_, fun n j k hm => hended n j k ?_⟩
    · rcases List.mem_cons.mp ht with rfl | ht
      · rcases i.body_eq P with ⟨e, he⟩ | he
        · show Stage P _ i (i.body P)
          rw [he]; exact .failed e
        · show Stage P _ i (i.body P)
          rw [he]; exact .loads
      · exact hstage t ht
    · exact (List.mem_cons.mp hm).resolve_left fun h => by cases h
  | @call s s' m i op k a ts us n es he =>
    have ht : (⟨m, i, .call op k⟩ : Async.Task (SeedCall β) Op Ans DartError (List β)) ∈ ts ++ ⟨m, i, .call op k⟩ :: us := by
      simp
    rcases (hstage _ ht).call he with ⟨rfl, hk⟩ | ⟨hn, ⟨v, rfl⟩, ⟨seed, rfl⟩, hk⟩
    · refine ⟨hx, fun t hm => ?_, hended⟩
      rcases List.mem_append.mp hm with hm | hm
      · exact hstage t (List.mem_append_left _ hm)
      · rcases List.mem_cons.mp hm with rfl | hm
        · exact hk
        · exact hstage t (List.mem_append_right _ (List.mem_cons_of_mem _ hm))
    · -- the writer is the only call that creates a seed
      have hnone : ∀ seed', ¬Holds s seed' := fun seed' ⟨stored, h1, _⟩ => by rw [hn] at h1; cases h1
      have hw : Creating (⟨m, i, .call (.write masterSeedKey v) k⟩ : Async.Task (SeedCall β) Op Ans DartError (List β)) :=
        Or.inr ⟨v, k, rfl⟩
      obtain ⟨-, h1, h2⟩ := List.pairwise_append.mp hex
      have h3 := (List.pairwise_cons.mp h1).1
      refine ⟨hx, fun t hm => ?_, fun n j k' hm => ?_⟩
      · rcases List.mem_append.mp hm with hm | hm
        · exact (hstage t (List.mem_append_left _ hm)).stored (fun hc => h2 t hm _ List.mem_cons_self ⟨hc, hw⟩)
            fun seed' hh => absurd hh (hnone seed')
        · rcases List.mem_cons.mp hm with rfl | hm
          · exact hk
          · exact (hstage t (List.mem_append_right _ (List.mem_cons_of_mem _ hm))).stored (fun hc => h3 t hm ⟨hw, hc⟩)
              fun seed' hh => absurd hh (hnone seed')
      · obtain ⟨seed', hh, -⟩ := hended n j k' hm
        exact absurd hh (hnone seed')
  | @done s m i a ts us n es =>
    refine ⟨hx, fun t hm => hstage t ?_, fun n' j k hm => ?_⟩
    · rcases List.mem_append.mp hm with hm | hm
      · exact List.mem_append_left _ hm
      · exact List.mem_append_right _ (List.mem_cons_of_mem _ hm)
    · rcases List.mem_cons.mp hm with he | hm
      · cases he
        have ht : Stage P s i (.done a) := hstage ⟨m, i, .done a⟩ (by simp)
        generalize hp : (Async.done a : Prog (List β)) = p at ht
        cases ht with
        | found seed hf =>
          refine ⟨seed, hf, ?_⟩
          unfold SeedCall.finish at hp
          cases hk : keyOf P i.target.1 i.target.2 seed with
          | error e => rw [hk] at hp; cases hp
          | ok k' => rw [hk] at hp; cases hp; rfl
        | loads => cases hp
        | failed e => cases hp
        | creates _ => cases hp
        | saves seed _ => cases hp
      · exact hended n' j k hm
  | @thrown s m i e ts us n es =>
    refine ⟨hx, fun t hm => hstage t ?_, fun n' j k hm => ?_⟩
    · rcases List.mem_append.mp hm with hm | hm
      · exact List.mem_append_left _ hm
      · exact List.mem_append_right _ (List.mem_cons_of_mem _ hm)
    · exact hended n' j k ((List.mem_cons.mp hm).resolve_left fun h => by cases h)
  | other ho =>
    cases ho
    refine ⟨hx, fun t hm => ?_, hended⟩
    have ht := hstage t hm
    generalize t.rest = p at ht ⊢
    cases ht with
    | loads => exact .loads
    | failed e => exact .failed e
    | found seed hf => exact .found seed hf
    | creates hn => exact .creates hn
    | saves seed hn => exact .saves seed hn
  | drop hd => exact ⟨hx, fun t ht => hstage t (hd.subset ht), hended⟩

/-- Derivations of which no two create a seed at once return one key for one path and salt, over any number of restarts. -/
theorem derivePathKey_agree (h : Seeds.Reachable P (fun _ c' => Exclusive c') s c) : Agree c := by
  have hi : SeedInv P c := by
    induction h with
    | init =>
      exact ⟨List.Pairwise.nil, fun t ht => (List.not_mem_nil ht).elim, fun n i k hm => (List.not_mem_nil hm).elim⟩
    | step _ hs hok ih => exact ih.step hok hs
  intro n i k n' i' k' hk hk' ht
  obtain ⟨seed, hh, he⟩ := hi.ended n i k hk
  obtain ⟨seed', hh', he'⟩ := hi.ended n' i' k' hk'
  obtain rfl := hh.inj hh'
  rw [ht] at he
  exact Except.ok.inj (he.symm.trans he')

end SeedRuns

/-! ## The first calls -/

/-- An empty storage. -/
def emptyStore : KeyStore := ⟨fun _ => none, none⟩

/-- `derivePathKey('vault/master')`. -/
def vaultCall : SeedCall SymByte := .derivePathKey "vault/master" none

theorem vaultCall_body : vaultCall.body symbolic = masterSeed.bind (vaultCall.finish symbolic) := by
  rcases vaultCall.body_eq symbolic with ⟨e, he⟩ | he
  · cases he
  · exact he

/-- A draw of the random generator. -/
def drawn (b : UInt8) : {l : Bytes // l.length = 32} := ⟨List.replicate 32 b, List.length_replicate⟩

/-- The key that `vaultCall` derives from a draw. -/
def vaultKey (b : UInt8) : List SymByte :=
  symbolic.hkdf ((drawn b).1.map symbolic.ofByte) none (some (utf8Encode ("chhaya-v14/" ++ "vault/master"))) 32

/-- Two first calls that overlap: both find no seed, each stores its own, and they return different keys. -/
theorem derivePathKey_disagree : ∃ c : Seeds SymByte, Seeds.Reachable symbolic (fun _ _ => True) emptyStore c ∧
    ¬Agree c := by
  have h0 : Seeds.Reachable symbolic (fun _ _ => True) emptyStore
      ⟨emptyStore, [⟨1, vaultCall, masterSeed.bind (vaultCall.finish symbolic)⟩,
        ⟨0, vaultCall, masterSeed.bind (vaultCall.finish symbolic)⟩], 2, [.started 1 vaultCall, .started 0 vaultCall]⟩ := by
    rw [← vaultCall_body]
    exact (Async.Pool.Reachable.init.step (.start vaultCall) trivial).step (.start vaultCall) trivial
  have h1 := h0.step (.first (.read emptyStore masterSeedKey)) trivial
  have h2 := h1.step (.second (.read emptyStore masterSeedKey)) trivial
  have h3 := h2.step (.first (.bytes emptyStore 32 (drawn 1))) trivial
  have h4 := h3.step (.second (.bytes emptyStore 32 (drawn 0))) trivial
  have h5 := h4.step (.first (.write emptyStore masterSeedKey _)) trivial
  have h6 := h5.step (.second (.write _ masterSeedKey _)) trivial
  have h7 := (h6.step .firstDone trivial).step .firstDone trivial
  refine ⟨_, h7, fun h => ?_⟩
  have hk : vaultKey 0 = vaultKey 1 := h 0 vaultCall (vaultKey 0) 1 vaultCall (vaultKey 1) (by simp; rfl) (by simp; rfl) rfl
  have := congrArg (·[0]?) hk
  simp [vaultKey, drawn, symbolic, List.replicate] at this

/-- The call finds a seed. -/
theorem step_found {s : KeyStore} {stored : String} {seed : Bytes} {i : SeedCall SymByte} {f : Bytes → Prog (List SymByte)}
    {m n : Nat} {us : List (Async.Task (SeedCall SymByte) Op Ans DartError (List SymByte))}
    {es : List (Async.Event (SeedCall SymByte) DartError (List SymByte))}
    (hb : s.backend masterSeedKey = some stored) (hd : base64Decode stored = .ok seed) :
    Async.Pool.Step Effect (SeedCall.body symbolic) Lost ⟨s, ⟨m, i, masterSeed.bind f⟩ :: us, n, es⟩
      ⟨s, ⟨m, i, f seed⟩ :: us, n, es⟩ := by
  have hread := Effect.read s masterSeedKey
  rw [hb] at hread
  have hfound : (Async.ofExcept (base64Decode stored)).bind f = f seed := by
    rw [hd]
    rfl
  rw [← hfound]
  exact .first hread

/-- What the call makes of a draw. -/
theorem vaultCall_finish (b : UInt8) : vaultCall.finish symbolic (drawn b).1 = .done (vaultKey b) := rfl

/-- A call that has not read the storage creates no seed. -/
theorem exclusive_loading {s : KeyStore} {m n : Nat} {i : SeedCall SymByte} {f : Bytes → Prog (List SymByte)}
    {t : Async.Task (SeedCall SymByte) Op Ans DartError (List SymByte)}
    {es : List (Async.Event (SeedCall SymByte) DartError (List SymByte))} :
    Exclusive ⟨s, [⟨m, i, masterSeed.bind f⟩, t], n, es⟩ := by
  refine List.pairwise_pair.mpr fun h => ?_
  rcases h.1 with ⟨k, hk⟩ | ⟨v, k, hk⟩
  · change Async.call (Op.read masterSeedKey) _ = _ at hk
    cases hk
  · change Async.call (Op.read masterSeedKey) _ = _ at hk
    cases hk

/-- Two calls on one path, of which one waits while the other creates the seed, and a third one after a restart. -/
theorem derivePathKey_agree_restarted : ∃ c : Seeds SymByte,
    (∀ n < 3, ∃ k, .ended n vaultCall (.ok k) ∈ c.log) ∧
    Seeds.Reachable symbolic (fun _ c' => Exclusive c') emptyStore c ∧ Agree c := by
  have h0 : Seeds.Reachable symbolic (fun _ c' => Exclusive c') emptyStore
      ⟨emptyStore, [⟨1, vaultCall, masterSeed.bind (vaultCall.finish symbolic)⟩,
        ⟨0, vaultCall, masterSeed.bind (vaultCall.finish symbolic)⟩], 2, [.started 1 vaultCall, .started 0 vaultCall]⟩ := by
    rw [← vaultCall_body]
    refine (Async.Pool.Reachable.init.step (.start vaultCall) (List.pairwise_singleton _ _)).step (.start vaultCall) ?_
    exact exclusive_loading
  have h1 := h0.step (.second (.read emptyStore masterSeedKey)) exclusive_loading
  have h2 := h1.step (.second (.bytes emptyStore 32 (drawn 1))) exclusive_loading
  have h3 := h2.step (.second (.write emptyStore masterSeedKey _)) exclusive_loading
  have hstored := Function.update_self masterSeedKey (some (base64Encode (drawn 1).1)) emptyStore.backend
  have hdecoded := base64Decode_base64Encode (drawn 1).1
  change Seeds.Reachable symbolic _ emptyStore ⟨_, [_, ⟨0, vaultCall, vaultCall.finish symbolic (drawn 1).1⟩], _, _⟩ at h3
  have h4 := h3.step (step_found hstored hdecoded) (List.pairwise_pair.mpr fun h => by
    rcases h.2 with ⟨k, hk⟩ | ⟨v, k, hk⟩ <;> exact finish_ne_call _ hk)
  rw [vaultCall_finish] at h4
  have h5 := (h4.step .firstDone (List.pairwise_singleton _ _)).step .firstDone List.Pairwise.nil
  have h6 := (h5.step (.other (.lost _)) List.Pairwise.nil).step (.start vaultCall) (List.pairwise_singleton _ _)
  rw [vaultCall_body] at h6
  have h7 := h6.step (step_found hstored hdecoded) (List.pairwise_singleton _ _)
  rw [vaultCall_finish] at h7
  have h8 := h7.step .firstDone List.Pairwise.nil
  refine ⟨_, fun n hn => ⟨vaultKey 1, ?_⟩, h8, derivePathKey_agree h8⟩
  have hcases : n = 0 ∨ n = 1 ∨ n = 2 := by omega
  rcases hcases with rfl | rfl | rfl <;> simp

end KeyManager

end Chhaya
