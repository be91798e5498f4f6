import Chhaya.Client.Background

/-!
# Identity rotation

`rotateIdentity`: the old seed is read, or derived the first time, an announcement is signed with it, the new seed is
stored and the epoch is counted up, each with an await of its own.

- `Keys.cons`, `Chain.cons`: one rotation extends the chain of announcements.
- `RotationInv.step`: the invariant of rotations that do not overlap.
- `rotation_chain`: where no rotation reads the seed while another one is under way, and none is cut short once it has
  tried to store its seed, the announcements form one chain from the old key to the stored one.
- `rotation_fork`: two rotations that overlap announce two successors of one key, and count one epoch.
-/

namespace Chhaya

/-- `Ed25519` of the `cryptography` package, on seeds of 32 bytes. -/
structure Ed25519 where
  publicKey : Bytes → Bytes
  /-- The signature of a message under a seed. -/
  sign : Bytes → Bytes → Bytes
  /-- Whether this is a signature of the message under the public key. -/
  verify : Bytes → Bytes → Bytes → Bool
  length_publicKey : ∀ seed, (publicKey seed).length = 32
  length_sign : ∀ message seed, (sign message seed).length = 64
  verify_sign : ∀ message seed, verify message (sign message seed) (publicKey seed) = true

/-- `newKeyPairFromSeed` and `extractPublicKey`. -/
def Ed25519.newKeyPairFromSeed (E : Ed25519) (seed : Bytes) : Except DartError Bytes :=
  if seed.length ≠ 32 then .error (.argument (toString seed.length) "seed" "Seed must have 32 bytes")
  else .ok (E.publicKey seed)

def Ed25519Sign.sign (E : Ed25519) (message seed : Bytes) : Except DartError Bytes :=
  if seed.length ≠ 32 then .error (.argument (toString seed.length) "seed" "Ed25519 seeds must be 32 bytes")
  else .ok (E.sign message seed)

def Ed25519Sign.verify (E : Ed25519) (message signature publicKey : Bytes) : Bool :=
  if signature.length ≠ 64 ∨ publicKey.length ≠ 32 then false else E.verify message signature publicKey

/-- `int.parse(source, radix: 16)`. -/
def intParseRadix16 (source : List Char) : Option Int :=
  let digits (neg : Bool) (ds : List Char) : Option Int :=
    if !ds.isEmpty && ds.all (fun c => c.isDigit || ('a' ≤ c.toLower && c.toLower ≤ 'f')) then
      some (withSign neg (ofHexDigits ds))
    else none
  match ((source.dropWhile isBlank).reverse.dropWhile isBlank).reverse with
  | '-' :: ds => digits true ds
  | '+' :: ds => digits false ds
  | ds => digits false ds

/-- The byte with these two digits, as it is stored in a `Uint8List`. -/
def hexPair (a b : Char) : Except DartError UInt8 :=
  match intParseRadix16 [a, b] with
  | some n => .ok (UInt8.ofNat (n % 256).toNat)
  | none => .error (.format "Invalid radix-16 number")

/-- `RotationAnnouncement._hexToBytes`. -/
def hexToBytes : List Char → Except DartError Bytes
  | [] => .ok []
  | [_] => .error (.argument "end" "end" "Invalid value: Not in inclusive range")
  | a :: b :: r => do return (← hexPair a b) :: (← hexToBytes r)

theorem hexPair_hex : ∀ a < 16, ∀ b < 16,
    hexPair (Nat.digitChar a) (Nat.digitChar b) = .ok (UInt8.ofNat (16 * a + b)) := by decide +kernel

theorem hexToBytes_hexOf (bytes : Bytes) : hexToBytes (hexOf bytes).toList = .ok bytes := by
  rw [hexOf, String.toList_ofList]
  induction bytes with
  | nil => rfl
  | cons b bytes ih =>
    have hlt : b.toNat < 256 := UInt8.toNat_lt b
    have hn := hexPair_hex (b.toNat / 16) (by omega) (b.toNat % 16) (Nat.mod_lt _ (by decide))
    rw [Nat.div_add_mod, UInt8.ofNat_toNat] at hn
    rw [List.flatMap_cons, hexByte, List.cons_append, List.cons_append, List.nil_append, hexToBytes, hn, ih]
    rfl

/-- An announcement that a key follows another one. -/
structure RotationAnnouncement where
  oldPublicKeyHex : String
  newPublicKeyHex : String
  issuedAt : DateTime
  signatureHex : String
  deriving DecidableEq

/-- `_signedPayload`. -/
def RotationAnnouncement.signedPayload (a : RotationAnnouncement) : String :=
  a.oldPublicKeyHex ++ "|" ++ a.newPublicKeyHex ++ "|" ++ toString a.issuedAt.millisecondsSinceEpoch

def RotationAnnouncement.verifySignature (E : Ed25519) (a : RotationAnnouncement) (oldPublicKey : Bytes) :
    Except DartError Bool := do
  return Ed25519Sign.verify E (utf8Encode a.signedPayload) (← hexToBytes a.signatureHex.toList) oldPublicKey

namespace KeyManager

/-! ## The call -/

def identityEd25519Key : String := "chhaya_identity_ed25519_seed"
def identityEpochKey : String := "chhaya_identity_epoch"
def pathIdentityEd25519 : String := "identity/ed25519"

/-- `_bumpIdentityEpoch`, with `identityEpoch`. -/
def bumpIdentityEpoch : MemoryProg Unit := do
  let current := epochOf (← onMemory (read identityEpochKey))
  onMemory (write identityEpochKey (toString (int64 (current + 1))))

/-- The rest of `rotateIdentity` once the announcement is signed. -/
def installIdentity (newSeed : Bytes) (signed : RotationAnnouncement) : MemoryProg RotationAnnouncement := do
  onMemory (write identityEd25519Key (base64Encode newSeed))
  bumpIdentityEpoch
  return signed

/-- The rest of `rotateIdentity` once the old seed is there. -/
def rotateFrom (E : Ed25519) (oldSeed : Bytes) : MemoryProg RotationAnnouncement := do
  let oldPub ← Async.ofExcept (E.newKeyPairFromSeed oldSeed)
  let newSeed ← onMemory (bytes 32)
  let newPub ← Async.ofExcept (E.newKeyPairFromSeed newSeed.1)
  let announcement : RotationAnnouncement := ⟨hexOf oldPub, hexOf newPub, ← Async.await MemoryOp.now, ""⟩
  let signature ← Async.ofExcept (Ed25519Sign.sign E (utf8Encode announcement.signedPayload) oldSeed)
  installIdentity newSeed.1 { announcement with signatureHex := hexOf signature }

/-- `rotateIdentity`. -/
def rotateIdentity (E : Ed25519) (P : Primitives UInt8) : MemoryProg RotationAnnouncement := do
  match ← onMemory (read identityEd25519Key) with
  | some oldSeedBytes => do rotateFrom E (← Async.ofExcept (base64Decode oldSeedBytes))
  | none => do rotateFrom E (← onMemory (derivePathKey P pathIdentityEd25519 none))

/-- Rotations beside each other on one key manager. -/
abbrev Rotations := Async.Pool Unit MemoryOp MemoryAns DartError RotationAnnouncement Memory

abbrev Rotations.Reachable (E : Ed25519) (P : Primitives UInt8) (ok : Rotations → Rotations → Prop) (m : Memory)
    (c : Rotations) : Prop :=
  Async.Loop.Reachable MemoryEffect MemoryOp.IsSync (fun _ => rotateIdentity E P) (fun _ _ => False) ok m c

/-- The rotation has the old seed, or is about to derive it, and has not ended. -/
def Critical (E : Ed25519) (P : Primitives UInt8) (p : MemoryProg RotationAnnouncement) : Prop :=
  p ≠ rotateIdentity E P ∧ (∀ a, p ≠ .done a) ∧ ∀ e, p ≠ .throw e

/-- The rotation is about to store its seed, or has tried to. -/
inductive Installing : MemoryProg RotationAnnouncement → Prop
  | seed (newSeed : Bytes) (a : RotationAnnouncement) : Installing (installIdentity newSeed a)
  | epoch (a : RotationAnnouncement) : Installing (bumpIdentityEpoch.bind fun _ => .done a)
  | count (value : String) (a : RotationAnnouncement) :
    Installing ((onMemory (write identityEpochKey value)).bind fun _ => .done a)

/-- One step leaves at most one rotation under way, and no access of one that stores its seed throws. -/
structure Serial (E : Ed25519) (P : Primitives UInt8) (c c' : Rotations) : Prop where
  alone : c'.running.Pairwise fun t u => ¬(Critical E P t.rest ∧ Critical E P u.rest)
  complete : ∀ t ∈ c.running, Installing t.rest → ∀ u ∈ c'.running, u.number = t.number → ∀ e, u.rest ≠ .throw e

/-! ## What is to be shown -/

/-- The seed that is derived from the master seed in the storage. -/
def Derives (P : Primitives UInt8) (s : KeyStore) (seed : Bytes) : Prop :=
  ∃ master, Holds s master ∧ keyOf P pathIdentityEd25519 none master = .ok seed

/-- The seed that a rotation finds in the storage. -/
def Finds (P : Primitives UInt8) (s : KeyStore) (seed : Bytes) : Prop :=
  (∃ stored, s.backend identityEd25519Key = some stored ∧ base64Decode stored = .ok seed) ∨
    s.backend identityEd25519Key = none ∧ Derives P s seed

/-- The announcements, the newest first, lead from the key of the storage `s₀` to the key of the storage `s`. -/
structure Keys (E : Ed25519) (P : Primitives UInt8) (s₀ s : KeyStore) (anns : List RotationAnnouncement) : Prop where
  /-- Each old key is the new key before it. -/
  chained : anns.IsChain fun b a => b.oldPublicKeyHex = a.newPublicKeyHex
  /-- The first old key is the identity key before the run, or, where there was not even a master seed, the key that is
  derived from the one which the run has stored. -/
  first : ∀ a ∈ anns.getLast?, ∃ seed, a.oldPublicKeyHex = hexOf (E.publicKey seed) ∧
    (Finds P s₀ seed ∨ s₀.backend identityEd25519Key = none ∧ s₀.backend masterSeedKey = none ∧ Derives P s seed)
  /-- Each announcement is signed with its old key. -/
  verified : ∀ a ∈ anns, ∃ pub, a.oldPublicKeyHex = hexOf pub ∧ a.verifySignature E pub = .ok true
  /-- The last new key is the one stored. -/
  last : ∀ a ∈ anns.head?, ∃ seed, s.backend identityEd25519Key = some (base64Encode seed) ∧
    a.newPublicKeyHex = hexOf (E.publicKey seed)
  unchanged : anns = [] → s.backend identityEd25519Key = s₀.backend identityEd25519Key
  master : ∀ v, s₀.backend masterSeedKey = some v → s.backend masterSeedKey = some v

/-- `identityEpoch`. -/
def identityEpoch (s : KeyStore) : Int := epochOf (s.backend identityEpochKey)

/-- Beside the keys, the epoch has grown by one for each announcement. -/
structure Chain (E : Ed25519) (P : Primitives UInt8) (s₀ s : KeyStore) (anns : List RotationAnnouncement) : Prop
    extends Keys E P s₀ s anns where
  epoch : identityEpoch s = int64 (identityEpoch s₀ + anns.length)

/-- The announcements that were returned. -/
def announced (log : List (Async.Event Unit DartError RotationAnnouncement)) : List RotationAnnouncement :=
  log.filterMap fun
    | .ended _ _ (.ok a) => some a
    | _ => none

/-! ## Extending the chain -/

section Chain

variable {E : Ed25519} {P : Primitives UInt8} {s₀ s s' : KeyStore} {anns : List RotationAnnouncement}
  {a : RotationAnnouncement} {seed seed' newSeed : Bytes}

theorem Derives.inj (h : Derives P s seed) (h' : Derives P s seed') : seed = seed' := by
  obtain ⟨m, hm, hk⟩ := h
  obtain ⟨m', hm', hk'⟩ := h'
  obtain rfl := hm.inj hm'
  exact Except.ok.inj (hk.symm.trans hk')

/-- Only the master seed is used. -/
theorem Derives.congr (h : Derives P s seed) (hm : s'.backend masterSeedKey = s.backend masterSeedKey) :
    Derives P s' seed := by
  obtain ⟨m, ⟨v, hv, hd⟩, hk⟩ := h
  exact ⟨m, ⟨v, hm.trans hv, hd⟩, hk⟩

/-- The announcement of a rotation from one seed to another. -/
structure Announces (E : Ed25519) (seed newSeed : Bytes) (a : RotationAnnouncement) : Prop where
  old : a.oldPublicKeyHex = hexOf (E.publicKey seed)
  new : a.newPublicKeyHex = hexOf (E.publicKey newSeed)
  verified : a.verifySignature E (E.publicKey seed) = .ok true

/-- The announcement that `rotateIdentity` signs. -/
theorem Announces.signed (E : Ed25519) (seed newSeed : Bytes) (time : DateTime) : Announces E seed newSeed
    ⟨hexOf (E.publicKey seed), hexOf (E.publicKey newSeed), time, hexOf (E.sign (utf8Encode (RotationAnnouncement.signedPayload
      ⟨hexOf (E.publicKey seed), hexOf (E.publicKey newSeed), time, ""⟩)) seed)⟩ where
  old := rfl
  new := rfl
  verified := by
    simp only [RotationAnnouncement.verifySignature, hexToBytes_hexOf]
    show Except.ok (Ed25519Sign.verify E _ (E.sign _ seed) (E.publicKey seed)) = _
    rw [Ed25519Sign.verify, if_neg (by simp [E.length_sign, E.length_publicKey])]
    exact congrArg Except.ok (E.verify_sign _ seed)

/-- A stored seed is found. -/
theorem Finds.eq_stored (h : Finds P s seed) (hs : s.backend identityEd25519Key = some (base64Encode seed')) :
    seed = seed' := by
  rcases h with ⟨v, hv, hd⟩ | ⟨hn, -⟩
  · rw [hs] at hv
    cases hv
    rw [base64Decode_base64Encode] at hd
    exact (Except.ok.inj hd).symm
  · rw [hs] at hn
    cases hn

/-- One rotation extends the keys. -/
theorem Keys.cons (h : Keys E P s₀ s anns) (hf : Finds P s seed) (ha : Announces E seed newSeed a)
    (hm : s'.backend masterSeedKey = s.backend masterSeedKey)
    (hs : s'.backend identityEd25519Key = some (base64Encode newSeed)) : Keys E P s₀ s' (a :: anns) where
  chained := by
    cases anns with
    | nil => exact List.isChain_singleton a
    | cons b anns =>
      refine List.isChain_cons_cons.mpr ⟨?_, h.chained⟩
      obtain ⟨seed', hs', hb⟩ := h.last b rfl
      rw [ha.old, hb, hf.eq_stored hs']
  first := by
    intro b hb
    cases anns with
    | nil =>
      obtain rfl : a = b := Option.some.inj hb
      refine ⟨seed, ha.old, ?_⟩
      have hu := h.unchanged rfl
      rcases hf with ⟨v, hv, hd⟩ | ⟨hn, hd⟩
      · exact Or.inl (Or.inl ⟨v, hu ▸ hv, hd⟩)
      · cases hmaster : s₀.backend masterSeedKey with
        | none => exact Or.inr ⟨hu ▸ hn, rfl, hd.congr hm⟩
        | some v => exact Or.inl (Or.inr ⟨hu ▸ hn, hd.congr (hmaster.trans (h.master v hmaster).symm)⟩)
    | cons c anns =>
      obtain ⟨seed', ho, hfound⟩ := h.first b (by simpa using hb)
      exact ⟨seed', ho, hfound.imp id fun ⟨h1, h2, h3⟩ => ⟨h1, h2, h3.congr hm⟩⟩
  verified := by
    intro b hb
    rcases List.mem_cons.mp hb with rfl | hb
    · exact ⟨_, ha.old, ha.verified⟩
    · exact h.verified b hb
  last := by
    intro b hb
    obtain rfl : a = b := Option.some.inj hb
    exact ⟨newSeed, hs, ha.new⟩
  unchanged := fun he => nomatch he
  master := fun v hv => hm.trans (h.master v hv)

/-- The entries that the keys depend on. -/
theorem Keys.congr (h : Keys E P s₀ s anns) (hm : s'.backend masterSeedKey = s.backend masterSeedKey)
    (hs : s'.backend identityEd25519Key = s.backend identityEd25519Key) : Keys E P s₀ s' anns where
  chained := h.chained
  first := by
    intro b hb
    obtain ⟨seed', ho, hfound⟩ := h.first b hb
    exact ⟨seed', ho, hfound.imp id fun ⟨h1, h2, h3⟩ => ⟨h1, h2, h3.congr hm⟩⟩
  verified := h.verified
  last := fun b hb => by
    obtain ⟨seed', h1, h2⟩ := h.last b hb
    exact ⟨seed', hs.trans h1, h2⟩
  unchanged := fun he => hs.trans (h.unchanged he)
  master := fun v hv => hm.trans (h.master v hv)

/-- A master seed is stored before the first rotation. -/
theorem Keys.seeded (h : Keys E P s₀ s anns) (hn : s.backend identityEd25519Key = none)
    (hm : s.backend masterSeedKey = none) (hs : s'.backend identityEd25519Key = s.backend identityEd25519Key) :
    Keys E P s₀ s' anns := by
  obtain rfl : anns = [] := by
    cases anns with
    | nil => rfl
    | cons a anns =>
      obtain ⟨seed, hl, -⟩ := h.last a rfl
      cases hn.symm.trans hl
  exact {
    chained := List.isChain_nil
    first := fun a ha => nomatch ha
    verified := fun a ha => (List.not_mem_nil ha).elim
    last := fun a ha => nomatch ha
    unchanged := fun he => hs.trans (h.unchanged he)
    master := fun v hv => nomatch hm.symm.trans (h.master v hv) }

theorem int64_epochOf (stored : Option String) : int64 (epochOf stored) = epochOf stored := by
  unfold epochOf
  cases hp : intTryParse (stored.getD "") with
  | none => rfl
  | some n => exact int64_intTryParse hp

/-- The epoch that was counted up is read back. -/
theorem epochOf_toString (n : Int) : epochOf (some (toString (int64 n))) = int64 n := by
  rw [epochOf, Option.getD_some, intTryParse_toString (le_int64 n) (int64_lt n), Option.getD_some]

end Chain

/-! ## One rotation -/

/-- The rest of a first rotation once the master seed is there. -/
def deriveThen (E : Ed25519) (P : Primitives UInt8) (p : Prog Bytes) : MemoryProg RotationAnnouncement :=
  (onMemory (p.bind fun master => Async.ofExcept (keyOf P pathIdentityEd25519 none master))).bind (rotateFrom E)

/-- How far a rotation has come that has begun, over the announcements before it. -/
inductive Rotating (E : Ed25519) (P : Primitives UInt8) (s₀ s : KeyStore) (anns : List RotationAnnouncement) :
    MemoryProg RotationAnnouncement → Prop
  | loads (h : Chain E P s₀ s anns) (hn : s.backend identityEd25519Key = none) :
    Rotating E P s₀ s anns (deriveThen E P masterSeed)
  | creates (h : Chain E P s₀ s anns) (hn : s.backend identityEd25519Key = none) (hm : s.backend masterSeedKey = none) :
    Rotating E P s₀ s anns (deriveThen E P ((bytes 32).bind fun b => saveSeed b.1))
  | saves (master : Bytes) (h : Chain E P s₀ s anns) (hn : s.backend identityEd25519Key = none)
    (hm : s.backend masterSeedKey = none) : Rotating E P s₀ s anns (deriveThen E P (saveSeed master))
  | derives (master : Bytes) (h : Chain E P s₀ s anns) (hn : s.backend identityEd25519Key = none)
    (hm : Holds s master) : Rotating E P s₀ s anns (deriveThen E P (.done master))
  | rotates (seed : Bytes) (h : Chain E P s₀ s anns) (hf : Finds P s seed) : Rotating E P s₀ s anns (rotateFrom E seed)
  | installs (seed newSeed : Bytes) (a : RotationAnnouncement) (h : Chain E P s₀ s anns) (hf : Finds P s seed)
    (ha : Announces E seed newSeed a) : Rotating E P s₀ s anns (installIdentity newSeed a)
  | bumps (a : RotationAnnouncement) (h : Keys E P s₀ s (a :: anns))
    (he : identityEpoch s = int64 (identityEpoch s₀ + anns.length)) :
    Rotating E P s₀ s anns (bumpIdentityEpoch.bind fun _ => .done a)
  | counts (a : RotationAnnouncement) (h : Keys E P s₀ s (a :: anns))
    (he : identityEpoch s = int64 (identityEpoch s₀ + anns.length)) : Rotating E P s₀ s anns
    ((onMemory (write identityEpochKey (toString (int64 (identityEpoch s + 1))))).bind fun _ => .done a)

section Rotation

variable {E : Ed25519} {P : Primitives UInt8} {s₀ s s' : KeyStore} {anns : List RotationAnnouncement}
  {a : RotationAnnouncement} {seed : Bytes} {m m' : Memory} {op : MemoryOp}
  {k : Except DartError (MemoryAns op) → MemoryProg RotationAnnouncement} {r : Except DartError (MemoryAns op)}
  {p p' : MemoryProg RotationAnnouncement}

theorem derivePathKey_identity : derivePathKey P pathIdentityEd25519 none =
    masterSeed.bind fun master => Async.ofExcept (keyOf P pathIdentityEd25519 none master) := by
  unfold derivePathKey
  rw [show checkPath pathIdentityEd25519 = .ok () by decide]
  rfl

theorem masterSeedKey_ne_identity : masterSeedKey ≠ identityEd25519Key := by decide

theorem masterSeedKey_ne_epoch : masterSeedKey ≠ identityEpochKey := by decide

theorem identityKey_ne_epoch : identityEd25519Key ≠ identityEpochKey := by decide

/-- The entry of another key. -/
theorem backend_update_ne (s : KeyStore) (v : Option String) {key key' : String} (h : key' ≠ key) :
    Function.update s.backend key v key' = s.backend key' := Function.update_of_ne h v s.backend

/-- What is answered to a rotation that begins. -/
theorem rotateIdentity_answer (hp : Async.call op k = rotateIdentity E P) (he : MemoryEffect m op r m')
    (h : Chain E P s₀ m.store anns) :
    m' = m ∧ ((∃ e, k r = .throw e) ∨ Rotating E P s₀ m.store anns (k r)) := by
  change _ = Async.call (MemoryOp.access (.read identityEd25519Key)) _ at hp
  cases hp
  cases he with
  | access he =>
    cases he with
    | readFails => exact ⟨rfl, Or.inl ⟨_, rfl⟩⟩
    | read =>
      refine ⟨rfl, ?_⟩
      cases hb : m.store.backend identityEd25519Key with
      | none =>
        right
        have hl := Rotating.loads (E := E) (P := P) h hb
        unfold deriveThen at hl
        rw [← derivePathKey_identity] at hl
        exact hl
      | some stored =>
        show (∃ e, (Async.ofExcept (base64Decode stored)).bind (rotateFrom E) = .throw e) ∨
          Rotating E P s₀ m.store anns ((Async.ofExcept (base64Decode stored)).bind (rotateFrom E))
        cases hd : base64Decode stored with
        | error e => exact Or.inl ⟨e, rfl⟩
        | ok seed => exact Or.inr (.rotates seed h (Or.inl ⟨stored, hb, hd⟩))

/-- The chain after the master seed was stored. -/
theorem Chain.seeded (h : Chain E P s₀ s anns) (hn : s.backend identityEd25519Key = none)
    (hm : s.backend masterSeedKey = none) {v : Option String} :
    Chain E P s₀ { s with backend := Function.update s.backend masterSeedKey v } anns where
  toKeys := h.toKeys.seeded hn hm (Function.update_of_ne masterSeedKey_ne_identity.symm v s.backend)
  epoch := (congrArg epochOf (Function.update_of_ne masterSeedKey_ne_epoch.symm v s.backend)).trans h.epoch

/-- A rotation with its old seed goes on at once. -/
theorem rotateFrom_ne (seed : Bytes) (hop : ¬op.IsSync) : rotateFrom E seed ≠ .call op k := by
  unfold rotateFrom Ed25519.newKeyPairFromSeed
  intro h
  split at h
  · cases h
  · change Async.call (MemoryOp.access (.bytes 32)) _ = _ at h
    cases h
    exact hop trivial

theorem deriveThen_ne (master : Bytes) (hop : ¬op.IsSync) : deriveThen E P (.done master) ≠ .call op k := by
  intro h
  change (onMemory (Async.ofExcept (keyOf P pathIdentityEd25519 none master))).bind (rotateFrom E) = _ at h
  cases hk : keyOf P pathIdentityEd25519 none master with
  | error e =>
    rw [hk] at h
    cases h
  | ok seed =>
    rw [hk] at h
    exact rotateFrom_ne seed hop h

/-- What is answered to a rotation that is under way. -/
theorem Rotating.answer (h : Rotating E P s₀ m.store anns (.call op k)) (hop : ¬op.IsSync) (he : MemoryEffect m op r m')
    (hc : Installing (.call op k) → ∀ e, k r ≠ .throw e) :
    (∃ e, k r = .throw e ∧ Chain E P s₀ m'.store anns) ∨ Rotating E P s₀ m'.store anns (k r) ∨
      ∃ a, k r = .done a ∧ Chain E P s₀ m'.store (a :: anns) := by
  generalize hp : Async.call op k = p at h
  cases h with
  | loads h hn =>
    change _ = Async.call (MemoryOp.access (.read masterSeedKey)) _ at hp
    cases hp
    cases he with
    | access he =>
      cases he with
      | readFails => exact Or.inl ⟨_, rfl, h⟩
      | read =>
        cases hb : m.store.backend masterSeedKey with
        | none => exact Or.inr (Or.inl (.creates h hn hb))
        | some stored =>
          show (∃ e, deriveThen E P (Async.ofExcept (base64Decode stored)) = .throw e ∧ _) ∨
            Rotating E P s₀ m.store anns (deriveThen E P (Async.ofExcept (base64Decode stored))) ∨ _
          cases hd : base64Decode stored with
          | error e => exact Or.inl ⟨e, rfl, h⟩
          | ok master => exact Or.inr (Or.inl (.derives master h hn ⟨stored, hb, hd⟩))
  | creates h hn hm =>
    change _ = Async.call (MemoryOp.access (.bytes 32)) _ at hp
    cases hp
    exact absurd trivial hop
  | saves master h hn hm =>
    change _ = Async.call (MemoryOp.access (.write masterSeedKey (base64Encode master))) _ at hp
    cases hp
    cases he with
    | access he =>
      cases he with
      | writeFails => exact Or.inl ⟨_, rfl, h⟩
      | writeLost => exact Or.inl ⟨_, rfl, h.seeded hn hm⟩
      | write =>
        refine Or.inr (Or.inl (.derives master (h.seeded hn hm) ?_ ⟨_, ?_, base64Decode_base64Encode master⟩))
        · exact (backend_update_ne m.store (some (base64Encode master)) masterSeedKey_ne_identity.symm).trans hn
        · exact Function.update_self masterSeedKey (some (base64Encode master)) m.store.backend
  | derives master h hn hm => exact absurd hp.symm (deriveThen_ne master hop)
  | rotates seed h hf => exact absurd hp.symm (rotateFrom_ne seed hop)
  | installs seed newSeed a h hf ha =>
    change _ = Async.call (MemoryOp.access (.write identityEd25519Key (base64Encode newSeed))) _ at hp
    cases hp
    cases he with
    | access he =>
      cases he with
      | writeFails => exact absurd rfl (hc (.seed newSeed a) _)
      | writeLost => exact absurd rfl (hc (.seed newSeed a) _)
      | write =>
        refine Or.inr (Or.inl (.bumps a ?_ ?_))
        · refine h.toKeys.cons hf ha (backend_update_ne m.store (some (base64Encode newSeed)) masterSeedKey_ne_identity) ?_
          exact Function.update_self identityEd25519Key (some (base64Encode newSeed)) m.store.backend
        · refine Eq.trans (congrArg epochOf ?_) h.epoch
          exact backend_update_ne m.store (some (base64Encode newSeed)) identityKey_ne_epoch.symm
  | bumps a h he' =>
    change _ = Async.call (MemoryOp.access (.read identityEpochKey)) _ at hp
    cases hp
    cases he with
    | access he =>
      cases he with
      | readFails => exact absurd rfl (hc (.epoch a) _)
      | read => exact Or.inr (Or.inl (.counts a h he'))
  | counts a h he' =>
    change _ = Async.call (MemoryOp.access (.write identityEpochKey _)) _ at hp
    cases hp
    cases he with
    | access he =>
      cases he with
      | writeFails => exact absurd rfl (hc (.count _ a) _)
      | writeLost => exact absurd rfl (hc (.count _ a) _)
      | write =>
        have hne := fun {key : String} (h : key ≠ identityEpochKey) =>
          backend_update_ne m.store (some (toString (int64 (identityEpoch m.store + 1)))) h
        refine Or.inr (Or.inr ⟨a, rfl, h.congr (hne masterSeedKey_ne_epoch) (hne identityKey_ne_epoch), ?_⟩)
        calc
          epochOf (Function.update m.store.backend identityEpochKey (some (toString (int64 (identityEpoch m.store + 1))))
              identityEpochKey) = int64 (int64 (identityEpoch s₀ + anns.length) + 1) := by
            rw [Function.update_self, epochOf_toString, he']
          _ = int64 (identityEpoch s₀ + (a :: anns).length) := by
            rw [int64_int64_add, List.length_cons, Nat.cast_succ, add_assoc]

theorem MemoryEffect.bytes_inv {n : Nat} {r : Except DartError {l : Bytes // l.length = n}}
    (he : MemoryEffect m (.access (.bytes n)) r m') : ∃ b, r = .ok b ∧ m' = m := by
  cases he with
  | access he =>
    cases he
    exact ⟨_, rfl, rfl⟩

theorem MemoryEffect.now_inv {r : Except DartError DateTime} (he : MemoryEffect m .now r m') :
    ∃ time, r = .ok time ∧ m' = m := by
  cases he with
  | now time => exact ⟨time, rfl, rfl⟩

/-- The turn in which an announcement is signed. -/
theorem rotateFrom_turn (ht : Async.Turn MemoryEffect MemoryOp.IsSync (rotateFrom E seed) m p' m') :
    m' = m ∧ ((∃ e, p' = .throw e) ∨ ∃ newSeed a, p' = installIdentity newSeed a ∧ Announces E seed newSeed a) := by
  by_cases hl : seed.length = 32
  · have hpub : E.newKeyPairFromSeed seed = .ok (E.publicKey seed) := if_neg (not_not.mpr hl)
    unfold rotateFrom at ht
    rw [hpub] at ht
    obtain ⟨r, m₁, he, ht₁⟩ := Async.Turn.sync_inv ht trivial
    obtain ⟨newSeed, rfl, rfl⟩ := he.bytes_inv
    have hnew : E.newKeyPairFromSeed newSeed.1 = .ok (E.publicKey newSeed.1) := if_neg (not_not.mpr newSeed.2)
    change Async.Turn _ _ ((Async.ofExcept (E.newKeyPairFromSeed newSeed.1)).bind _) _ p' m' at ht₁
    rw [hnew] at ht₁
    obtain ⟨r, m₂, he', ht₂⟩ := Async.Turn.sync_inv ht₁ trivial
    obtain ⟨time, rfl, rfl⟩ := he'.now_inv
    have hsign : ∀ message, Ed25519Sign.sign E message seed = .ok (E.sign message seed) :=
      fun message => if_neg (not_not.mpr hl)
    change Async.Turn _ _ ((Async.ofExcept (Ed25519Sign.sign E (utf8Encode (RotationAnnouncement.signedPayload
      ⟨hexOf (E.publicKey seed), hexOf (E.publicKey newSeed.1), time, ""⟩)) seed)).bind _) _ p' m' at ht₂
    rw [hsign] at ht₂
    obtain ⟨rfl, rfl⟩ := Async.Turn.awaits_inv (k := _) ht₂ id
    exact ⟨rfl, Or.inr ⟨newSeed.1, _, rfl, .signed E seed newSeed.1 time⟩⟩
  · have hpub : ∃ e, E.newKeyPairFromSeed seed = .error e := ⟨_, if_pos hl⟩
    obtain ⟨e, hpub⟩ := hpub
    unfold rotateFrom at ht
    rw [hpub] at ht
    obtain ⟨rfl, rfl⟩ := Async.Turn.throw_inv ht
    exact ⟨rfl, Or.inl ⟨e, rfl⟩⟩

/-- A turn of a rotation that is under way leaves the storage alone. -/
theorem Rotating.turn (h : Rotating E P s₀ m.store anns p) (ht : Async.Turn MemoryEffect MemoryOp.IsSync p m p' m') :
    m' = m ∧ ((∃ e, p' = .throw e ∧ Chain E P s₀ m.store anns) ∨ Rotating E P s₀ m.store anns p') := by
  cases h with
  | loads h hn =>
    obtain ⟨rfl, rfl⟩ := Async.Turn.awaits_inv (k := _) ht id
    exact ⟨rfl, Or.inr (.loads h hn)⟩
  | creates h hn hm =>
    obtain ⟨r, m₁, he, ht₁⟩ := Async.Turn.sync_inv (k := _) ht trivial
    obtain ⟨master, rfl, rfl⟩ := MemoryEffect.bytes_inv he
    obtain ⟨rfl, rfl⟩ := Async.Turn.awaits_inv (k := _) ht₁ id
    exact ⟨rfl, Or.inr (.saves master.1 h hn hm)⟩
  | saves master h hn hm =>
    obtain ⟨rfl, rfl⟩ := Async.Turn.awaits_inv (k := _) ht id
    exact ⟨rfl, Or.inr (.saves master h hn hm)⟩
  | derives master h hn hm =>
    change Async.Turn _ _ ((onMemory (Async.ofExcept (keyOf P pathIdentityEd25519 none master))).bind (rotateFrom E))
      m p' m' at ht
    cases hk : keyOf P pathIdentityEd25519 none master with
    | error e =>
      rw [hk] at ht
      obtain ⟨rfl, rfl⟩ := Async.Turn.throw_inv ht
      exact ⟨rfl, Or.inl ⟨e, rfl, h⟩⟩
    | ok seed =>
      rw [hk] at ht
      obtain ⟨rfl, ⟨e, rfl⟩ | ⟨newSeed, a, rfl, ha⟩⟩ := rotateFrom_turn ht
      · exact ⟨rfl, Or.inl ⟨e, rfl, h⟩⟩
      · exact ⟨rfl, Or.inr (.installs seed newSeed a h (Or.inr ⟨hn, master, hm, hk⟩) ha)⟩
  | rotates seed h hf =>
    obtain ⟨rfl, ⟨e, rfl⟩ | ⟨newSeed, a, rfl, ha⟩⟩ := rotateFrom_turn ht
    · exact ⟨rfl, Or.inl ⟨e, rfl, h⟩⟩
    · exact ⟨rfl, Or.inr (.installs seed newSeed a h hf ha)⟩
  | installs seed newSeed a h hf ha =>
    obtain ⟨rfl, rfl⟩ := Async.Turn.awaits_inv (k := _) ht id
    exact ⟨rfl, Or.inr (.installs seed newSeed a h hf ha)⟩
  | bumps a h he =>
    obtain ⟨rfl, rfl⟩ := Async.Turn.awaits_inv (k := _) ht id
    exact ⟨rfl, Or.inr (.bumps a h he)⟩
  | counts a h he =>
    obtain ⟨rfl, rfl⟩ := Async.Turn.awaits_inv (k := _) ht id
    exact ⟨rfl, Or.inr (.counts a h he)⟩

end Rotation

/-! ## Runs -/

/-- The announcement of a rotation that has nothing left to do. -/
def finished (t : Async.Task Unit MemoryOp MemoryAns DartError RotationAnnouncement) : Option RotationAnnouncement :=
  match t.rest with
  | .done a => some a
  | _ => none

/-- The invariant of rotations that do not overlap. -/
structure RotationInv (E : Ed25519) (P : Primitives UInt8) (s₀ : KeyStore) (c : Rotations)
    (anns : List RotationAnnouncement) : Prop where
  /-- The announcements of the chain are those that were returned or are about to be. -/
  perm : anns.Perm (c.running.filterMap finished ++ announced c.log)
  alone : c.running.Pairwise fun t u => ¬(Critical E P t.rest ∧ Critical E P u.rest)
  settled : (∀ t ∈ c.running, ¬Critical E P t.rest) → Chain E P s₀ c.state.store anns
  rotating : ∀ t ∈ c.running, Critical E P t.rest → Rotating E P s₀ c.state.store anns t.rest

section Steps

variable {E : Ed25519} {P : Primitives UInt8} {s₀ : KeyStore} {anns : List RotationAnnouncement} {c c' : Rotations}
  {m m' : Memory} {n j : Nat} {ts us : List (Async.Task Unit MemoryOp MemoryAns DartError RotationAnnouncement)}
  {es : List (Async.Event Unit DartError RotationAnnouncement)} {op : MemoryOp}
  {k : Except DartError (MemoryAns op) → MemoryProg RotationAnnouncement} {r : Except DartError (MemoryAns op)}
  {p p' : MemoryProg RotationAnnouncement}

theorem rotateFrom_ne_done (seed : Bytes) (a : RotationAnnouncement) : rotateFrom E seed ≠ .done a := by
  unfold rotateFrom Ed25519.newKeyPairFromSeed
  intro h
  split at h <;> cases h

theorem Rotating.ne_done {s : KeyStore} (h : Rotating E P s₀ s anns p) (a : RotationAnnouncement) : p ≠ .done a := by
  intro he
  cases h with
  | loads h hn => cases he
  | creates h hn hm => cases he
  | saves master h hn hm => cases he
  | derives master h hn hm =>
    change (onMemory (Async.ofExcept (keyOf P pathIdentityEd25519 none master))).bind (rotateFrom E) = _ at he
    cases hk : keyOf P pathIdentityEd25519 none master with
    | error e =>
      rw [hk] at he
      cases he
    | ok seed =>
      rw [hk] at he
      exact rotateFrom_ne_done seed a he
  | rotates seed h hf => exact rotateFrom_ne_done seed a he
  | installs seed newSeed b h hf ha => cases he
  | bumps b h he' => cases he
  | counts b h he' => cases he

theorem critical_call (h : op ≠ .access (.read identityEd25519Key)) : Critical E P (.call op k) :=
  ⟨fun hc => h (Async.call.inj hc).1, fun _ hc => (nomatch hc), fun _ hc => (nomatch hc)⟩

/-- A rotation that has failed has not touched the chain. -/
theorem Rotating.chain {s : KeyStore} (h : Rotating E P s₀ s anns p) (hp : ¬Critical E P p) : Chain E P s₀ s anns := by
  cases h with
  | loads h hn => exact h
  | creates h hn hm => exact h
  | saves master h hn hm => exact h
  | derives master h hn hm => exact h
  | rotates seed h hf => exact h
  | installs seed newSeed b h hf ha => exact h
  | bumps b h he =>
    have hc : Critical E P (bumpIdentityEpoch.bind fun _ => .done b) :=
      critical_call fun h => identityKey_ne_epoch.symm (Op.read.inj (MemoryOp.access.inj h))
    exact absurd hc hp
  | counts b h he =>
    have hc : Critical E P ((onMemory (write identityEpochKey (toString (int64 (identityEpoch s + 1))))).bind
        fun _ => .done b) := critical_call fun h => nomatch MemoryOp.access.inj h
    exact absurd hc hp

/-- What is answered to a rotation that begins leaves the memory alone. -/
theorem rotateIdentity_reads (hp : Async.call op k = rotateIdentity E P) (he : MemoryEffect m op r m') :
    m' = m ∧ ∀ a, k r ≠ .done a := by
  change _ = Async.call (MemoryOp.access (.read identityEd25519Key)) _ at hp
  cases hp
  cases he with
  | access he =>
    cases he with
    | readFails => exact ⟨rfl, fun a h => nomatch h⟩
    | read =>
      refine ⟨rfl, fun a => ?_⟩
      cases hb : m.store.backend identityEd25519Key with
      | none =>
        intro h
        change (onMemory (derivePathKey P pathIdentityEd25519 none)).bind (rotateFrom E) = _ at h
        rw [derivePathKey_identity] at h
        cases h
      | some stored =>
        intro h
        change (Async.ofExcept (base64Decode stored)).bind (rotateFrom E) = _ at h
        cases hd : base64Decode stored with
        | error e =>
          rw [hd] at h
          cases h
        | ok seed =>
          rw [hd] at h
          exact rotateFrom_ne_done seed a h

theorem finished_of_ne {t : Async.Task Unit MemoryOp MemoryAns DartError RotationAnnouncement}
    (h : ∀ a, t.rest ≠ .done a) : finished t = none := by
  unfold finished
  split
  · rename_i a ha
    exact absurd ha (h a)
  · rfl

/-- A rotation goes on, with nothing more announced. -/
theorem filterMap_replace (hp : ∀ a, p ≠ .done a) (hp' : ∀ a, p' ≠ .done a) :
    (ts ++ ⟨j, (), p'⟩ :: us).filterMap finished = (ts ++ ⟨j, (), p⟩ :: us).filterMap finished := by
  have h1 : finished ⟨j, (), p⟩ = none := finished_of_ne hp
  have h2 : finished ⟨j, (), p'⟩ = none := finished_of_ne hp'
  rw [List.filterMap_append, List.filterMap_append, List.filterMap_cons_none h1, List.filterMap_cons_none h2]

/-- The other rotations are not under way beside one that is. -/
theorem RotationInv.others (h : RotationInv E P s₀ ⟨m, ts ++ ⟨j, (), p⟩ :: us, n, es⟩ anns) (hp : Critical E P p) :
    ∀ t ∈ ts ++ us, ¬Critical E P t.rest := fun t ht hc =>
  Async.pairwise_others (fun h hc => h hc.symm) h.alone t ht ⟨hp, hc⟩

/-- A rotation has its access answered. -/
theorem RotationInv.answer (h : RotationInv E P s₀ ⟨m, ts ++ ⟨j, (), .call op k⟩ :: us, n, es⟩ anns) (hop : ¬op.IsSync)
    (he : MemoryEffect m op r m')
    (hs : Serial E P ⟨m, ts ++ ⟨j, (), .call op k⟩ :: us, n, es⟩ ⟨m', ts ++ ⟨j, (), k r⟩ :: us, n, es⟩) :
    ∃ anns', RotationInv E P s₀ ⟨m', ts ++ ⟨j, (), k r⟩ :: us, n, es⟩ anns' := by
  have hm : (⟨j, (), .call op k⟩ : Async.Task Unit MemoryOp MemoryAns DartError RotationAnnouncement) ∈
      ts ++ ⟨j, (), .call op k⟩ :: us := Async.mem_middle.mpr (Or.inl rfl)
  have hcall : ∀ a : RotationAnnouncement, Async.call op k ≠ .done a := fun a ha => nomatch ha
  by_cases hp : Critical E P (.call op k)
  · have hothers := h.others hp
    have hc : Installing (.call op k) → ∀ e, k r ≠ .throw e := fun hi e =>
      hs.complete _ hm hi ⟨j, (), k r⟩ (Async.mem_middle.mpr (Or.inl rfl)) rfl e
    rcases (h.rotating _ hm hp).answer hop he hc with ⟨e, hk, hchain⟩ | hrot | ⟨a, hk, hchain⟩
    · refine ⟨anns, ?_, hs.alone, fun _ => hchain, fun t ht hct => ?_⟩
      · rw [filterMap_replace hcall fun a ha => by cases hk.symm.trans ha]
        exact h.perm
      · rcases Async.mem_middle.mp ht with rfl | ht
        · exact absurd hk (hct.2.2 e)
        · exact absurd hct (hothers t ht)
    · refine ⟨anns, ?_, hs.alone, fun hn => hrot.chain (hn _ (Async.mem_middle.mpr (Or.inl rfl))), fun t ht hct => ?_⟩
      · rw [filterMap_replace hcall hrot.ne_done]
        exact h.perm
      · rcases Async.mem_middle.mp ht with rfl | ht
        · exact hrot
        · exact absurd hct (hothers t ht)
    · refine ⟨a :: anns, ?_, hs.alone, fun _ => hchain, fun t ht hct => ?_⟩
      · have h1 : finished ⟨j, (), .call op k⟩ = none := rfl
        have h2 : finished ⟨j, (), k r⟩ = some a := by rw [hk]; rfl
        have hperm := h.perm
        simp only [List.filterMap_append, List.filterMap_cons_none h1] at hperm
        simp only [List.filterMap_append, List.filterMap_cons_some h2, List.append_assoc]
        refine (hperm.cons a).trans ?_
        rw [List.append_assoc]
        exact List.perm_middle.symm
      · rcases Async.mem_middle.mp ht with rfl | ht
        · exact absurd hk (hct.2.1 a)
        · exact absurd hct (hothers t ht)
  · have hbegin : Async.call op k = rotateIdentity E P := by
      by_contra hne
      exact hp ⟨hne, fun a ha => (nomatch ha), fun e ha => (nomatch ha)⟩
    obtain ⟨rfl, hdone⟩ := rotateIdentity_reads hbegin he
    refine ⟨anns, ?_, hs.alone, fun hn => ?_, fun t ht hct => ?_⟩
    · rw [filterMap_replace hcall hdone]
      exact h.perm
    · refine h.settled fun t ht => ?_
      rcases Async.mem_middle.mp ht with rfl | ht
      · exact hp
      · exact hn t (Async.mem_middle.mpr (Or.inr ht))
    · rcases Async.mem_middle.mp ht with rfl | ht
      · have hothers : ∀ t ∈ ts ++ us, ¬Critical E P t.rest := fun t ht hc =>
          Async.pairwise_others (fun h hc => h hc.symm) hs.alone t ht ⟨hct, hc⟩
        have hchain : Chain E P s₀ m'.store anns := h.settled fun t ht => by
          rcases Async.mem_middle.mp ht with rfl | ht
          · exact hp
          · exact hothers t ht
        rcases (rotateIdentity_answer hbegin he hchain).2 with ⟨e, hk⟩ | hrot
        · exact absurd hk (hct.2.2 e)
        · exact hrot
      · exact h.rotating t (Async.mem_middle.mpr (Or.inr ht)) hct

/-- A rotation that does not go on. -/
theorem RotationInv.remove {e : DartError} (h : RotationInv E P s₀ ⟨m, ts ++ ⟨j, (), p⟩ :: us, n, es⟩ anns)
    (hp : ∀ a, p ≠ .done a)
    (hchain : Critical E P p → Chain E P s₀ m.store anns) :
    RotationInv E P s₀ ⟨m, ts ++ us, n, .ended j () (.error e) :: es⟩ anns := by
  have hsub : (ts ++ us).Sublist (ts ++ ⟨j, (), p⟩ :: us) := (List.Sublist.refl ts).append (List.sublist_cons_self _ us)
  refine ⟨?_, h.alone.sublist hsub, fun hn => ?_, fun t ht hct => h.rotating t (hsub.subset ht) hct⟩
  · have h1 : finished ⟨j, (), p⟩ = none := finished_of_ne hp
    have hperm := h.perm
    simp only [List.filterMap_append, List.filterMap_cons_none h1] at hperm
    simp only [List.filterMap_append]
    exact hperm
  · by_cases hcp : Critical E P p
    · exact hchain hcp
    · refine h.settled fun t ht => ?_
      rcases Async.mem_middle.mp ht with rfl | ht
      · exact hcp
      · exact hn t ht

/-- A rotation runs a turn. -/
theorem RotationInv.resume (h : RotationInv E P s₀ ⟨m, ts ++ ⟨j, (), p⟩ :: us, n, es⟩ anns)
    (ht : Async.Turn MemoryEffect MemoryOp.IsSync p m p' m')
    (ha : (ts ++ (Async.Task.kept ⟨j, (), p'⟩ ++ us)).Pairwise fun t u => ¬(Critical E P t.rest ∧ Critical E P u.rest)) :
    RotationInv E P s₀ ⟨m', ts ++ (Async.Task.kept ⟨j, (), p'⟩ ++ us), n, Async.Task.seen ⟨j, (), p'⟩ ++ es⟩ anns := by
  have hm : (⟨j, (), p⟩ : Async.Task Unit MemoryOp MemoryAns DartError RotationAnnouncement) ∈ ts ++ ⟨j, (), p⟩ :: us :=
    Async.mem_middle.mpr (Or.inl rfl)
  by_cases hp : Critical E P p
  · have hothers := h.others hp
    obtain ⟨rfl, ⟨e, rfl, hchain⟩ | hrot⟩ := (h.rotating _ hm hp).turn ht
    · exact h.remove hp.2.1 fun _ => hchain
    · cases p' with
      | done a => exact absurd rfl (hrot.ne_done a)
      | throw e => exact h.remove hp.2.1 fun _ => hrot.chain fun hc => hc.2.2 e rfl
      | call op k =>
        refine ⟨?_, ha, fun hn => hrot.chain (hn _ (Async.mem_middle.mpr (Or.inl rfl))), fun t ht hct => ?_⟩
        · show anns.Perm ((ts ++ ⟨j, (), .call op k⟩ :: us).filterMap finished ++ announced es)
          rw [filterMap_replace hp.2.1 hrot.ne_done]
          exact h.perm
        · rcases Async.mem_middle.mp ht with rfl | ht
          · exact hrot
          · exact absurd hct (hothers t ht)
  · by_cases hb : p = rotateIdentity E P
    · obtain rfl := hb
      obtain ⟨rfl, rfl⟩ := Async.Turn.awaits_inv (k := _) ht id
      exact ⟨h.perm, h.alone, h.settled, h.rotating⟩
    · cases p with
      | done a =>
        obtain ⟨rfl, rfl⟩ := ht.done_inv
        have hsub : (ts ++ us).Sublist (ts ++ ⟨j, (), .done a⟩ :: us) :=
          (List.Sublist.refl ts).append (List.sublist_cons_self _ us)
        refine ⟨?_, h.alone.sublist hsub, fun hn => h.settled fun t ht => ?_, fun t ht hct =>
          h.rotating t (hsub.subset ht) hct⟩
        · have h1 : finished ⟨j, (), .done a⟩ = some a := rfl
          have hperm := h.perm
          simp only [List.filterMap_append, List.filterMap_cons_some h1, List.append_assoc] at hperm
          show anns.Perm ((ts ++ us).filterMap finished ++ a :: announced es)
          rw [List.filterMap_append, List.append_assoc]
          exact hperm.trans (List.Perm.append_left _ List.perm_middle.symm)
        · rcases Async.mem_middle.mp ht with rfl | ht
          · exact hp
          · exact hn t ht
      | throw e =>
        obtain ⟨rfl, rfl⟩ := ht.throw_inv
        exact h.remove (fun a ha => nomatch ha) fun hc => absurd hc hp
      | call op k => exact absurd ⟨hb, fun a ha => (nomatch ha), fun e ha => (nomatch ha)⟩ hp

/-- One step keeps the invariant, where rotations do not overlap. -/
theorem RotationInv.step (h : RotationInv E P s₀ c anns) (hok : Serial E P c c')
    (hs : Async.Loop.Step MemoryEffect MemoryOp.IsSync (fun _ => rotateIdentity E P) (fun _ _ => False) c c') :
    ∃ anns', RotationInv E P s₀ c' anns' := by
  cases hs with
  | start i ht =>
    obtain ⟨rfl, rfl⟩ := Async.Turn.awaits_inv (k := _) ht id
    have hnew : ¬Critical E P (rotateIdentity E P) := fun hc => hc.1 rfl
    refine ⟨anns, h.perm, hok.alone, fun hn => h.settled fun t ht => hn t (List.mem_cons_of_mem _ ht), fun t ht hct => ?_⟩
    rcases List.mem_cons.mp ht with rfl | ht
    · exact absurd hct hnew
    · exact h.rotating t ht hct
  | answer hop he => exact h.answer hop he hok
  | resume ht => exact ⟨anns, h.resume ht hok.alone⟩
  | other ho => exact ho.elim

/-- Where no rotation begins while another one is under way, and no storage access of one throws from its seed's write
on, the announcements that were returned form one chain whenever no call is running. -/
theorem rotation_chain (h : Rotations.Reachable E P (Serial E P) m c) (hidle : c.running = []) :
    ∃ anns, anns.Perm (announced c.log) ∧ Chain E P m.store c.state.store anns := by
  obtain ⟨anns, hi⟩ : ∃ anns, RotationInv E P m.store c anns := by
    clear hidle
    induction h with
    | init =>
      refine ⟨[], List.Perm.nil, List.Pairwise.nil, fun _ => ⟨⟨List.isChain_nil, fun a ha => (nomatch ha), fun a ha =>
        (List.not_mem_nil ha).elim, fun a ha => (nomatch ha), fun _ => rfl, fun _ => id⟩, ?_⟩, fun t ht =>
        (List.not_mem_nil ht).elim⟩
      rw [List.length_nil, Nat.cast_zero, add_zero]
      exact (int64_epochOf _).symm
    | step _ hs hok ih =>
      obtain ⟨anns, ih⟩ := ih
      exact ih.step hok hs
  refine ⟨anns, ?_, hi.settled fun t ht => ?_⟩
  · have hperm := hi.perm
    rw [hidle] at hperm
    exact hperm
  · rw [hidle] at ht
    exact (List.not_mem_nil ht).elim

end Steps

/-! ## Rotations alone and at once -/

/-- Signatures that name their key, and keys that show their seed. -/
def namedKeys : Ed25519 where
  publicKey seed := (seed ++ List.replicate 32 0).take 32
  sign _ seed := (seed ++ List.replicate 32 0).take 32 ++ List.replicate 32 0
  verify _ signature publicKey := decide (signature.take 32 = publicKey)
  length_publicKey seed := by simp
  length_sign message seed := by simp
  verify_sign message seed := by simp

/-- The announcement of a rotation between two seeds at a time. -/
def announcementOf (E : Ed25519) (seed newSeed : Bytes) (time : DateTime) : RotationAnnouncement :=
  ⟨hexOf (E.publicKey seed), hexOf (E.publicKey newSeed), time, hexOf (E.sign (utf8Encode (RotationAnnouncement.signedPayload
    ⟨hexOf (E.publicKey seed), hexOf (E.publicKey newSeed), time, ""⟩)) seed)⟩

/-- A rotation that has read its seed draws a new one and signs. -/
theorem rotateFrom_runs {E : Ed25519} {seed newSeed : Bytes} (hl : seed.length = 32) (hn : newSeed.length = 32)
    (time : DateTime) (m : Memory) : Async.Turn MemoryEffect MemoryOp.IsSync (rotateFrom E seed) m
      (installIdentity newSeed (announcementOf E seed newSeed time)) m := by
  have hpub : E.newKeyPairFromSeed seed = .ok (E.publicKey seed) := if_neg (not_not.mpr hl)
  have hnew : E.newKeyPairFromSeed newSeed = .ok (E.publicKey newSeed) := if_neg (not_not.mpr hn)
  have hsign : ∀ message, Ed25519Sign.sign E message seed = .ok (E.sign message seed) :=
    fun message => if_neg (not_not.mpr hl)
  unfold rotateFrom
  rw [hpub]
  refine .sync trivial (.access (.bytes m.store 32 ⟨newSeed, hn⟩)) ?_
  show Async.Turn _ _ ((Async.ofExcept (E.newKeyPairFromSeed newSeed)).bind _) _ _ _
  rw [hnew]
  refine .sync trivial (.now _ time) ?_
  show Async.Turn _ _ ((Async.ofExcept (Ed25519Sign.sign E _ seed)).bind _) _ _ _
  rw [hsign]
  exact .awaits _ _ id

/-- A key manager with an identity seed in its storage. -/
def seeded (seed : Bytes) : Memory :=
  ⟨⟨Function.update emptyStore.backend identityEd25519Key (some (base64Encode seed)), none⟩, fun _ => none, fun _ => none⟩

/-- The storage answers with the seed. -/
theorem seed_read {m : Memory} {seed : Bytes} (h : m.store.backend identityEd25519Key = some (base64Encode seed)) :
    MemoryEffect m (.access (.read identityEd25519Key)) (.ok (some (base64Encode seed))) m := by
  have hread : Effect m.store (.read identityEd25519Key) (.ok (m.store.backend identityEd25519Key)) m.store := .read _ _
  rw [h] at hread
  exact .access hread

theorem seeded_seed (seed : Bytes) : (seeded seed).store.backend identityEd25519Key = some (base64Encode seed) := by
  simp only [seeded, Function.update_self]

/-- What is left of a rotation that has read the seed. -/
theorem rotateIdentity_read {E : Ed25519} (seed : Bytes) :
    (Async.ofExcept (base64Decode (base64Encode seed))).bind (rotateFrom E) = rotateFrom E seed := by
  rw [base64Decode_base64Encode]
  rfl

theorem rotateFrom_ne_throw {E : Ed25519} {seed : Bytes} (hl : seed.length = 32) (e : DartError) :
    rotateFrom E seed ≠ .throw e := by
  have hpub : E.newKeyPairFromSeed seed = .ok (E.publicKey seed) := if_neg (not_not.mpr hl)
  unfold rotateFrom
  rw [hpub]
  exact fun h => nomatch h

/-- A step of the only rotation. -/
theorem serial_one {E : Ed25519} {P : Primitives UInt8} {c c' : Rotations} (hlen : c'.running.length ≤ 1)
    (ht : ∀ t ∈ c'.running, ∀ e, t.rest ≠ .throw e) : Serial E P c c' := by
  refine ⟨?_, fun _ _ _ u hu _ e => ht u hu e⟩
  match h : c'.running, hlen with
  | [], _ => exact List.Pairwise.nil
  | [t], _ => exact List.pairwise_singleton _ t

/-- A rotation runs from its start to its end, and leaves its seed in the storage. -/
theorem rotateIdentity_alone {E : Ed25519} {P : Primitives UInt8} {m₀ m : Memory} {seed newSeed : Bytes} {n : Nat}
    {es : List (Async.Event Unit DartError RotationAnnouncement)} (hl : seed.length = 32) (hn : newSeed.length = 32)
    (time : DateTime) (hs : m.store.backend identityEd25519Key = some (base64Encode seed))
    (h : Rotations.Reachable E P (Serial E P) m₀ ⟨m, [], n, es⟩) : ∃ m' n' es',
      Rotations.Reachable E P (Serial E P) m₀ ⟨m', [], n', es'⟩ ∧
      m'.store.backend identityEd25519Key = some (base64Encode newSeed) ∧
      announced es' = announcementOf E seed newSeed time :: announced es := by
  have hone : ∀ {c c' : Rotations} {t}, c'.running = [t] → (∀ e, t.rest ≠ .throw e) → Serial E P c c' := by
    intro c c' t h ht
    refine serial_one (by rw [h]; rfl) fun u hu => ?_
    rw [h] at hu
    obtain rfl := List.mem_singleton.mp hu
    exact ht
  have h1 := h.step (.start () (.awaits _ _ id)) (hone rfl fun e h => nomatch h)
  have h2 : Rotations.Reachable E P (Serial E P) m₀
      ⟨m, [⟨n, (), rotateFrom E seed⟩], n + 1, .started n () :: es⟩ := by
    rw [← rotateIdentity_read]
    refine h1.step (.answerFirst id (seed_read hs)) (hone rfl fun e h => ?_)
    exact rotateFrom_ne_throw hl e ((rotateIdentity_read seed).symm.trans h)
  have h3 := h2.step (.first (rotateFrom_runs hl hn time m)) (hone rfl fun e h => nomatch h)
  have h4 := h3.step (.answerFirst id (.access (.write _ identityEd25519Key _))) (hone rfl fun e h => nomatch h)
  have h5 := h4.step (.answerFirst id (.access (.read _ identityEpochKey))) (hone rfl fun e h => nomatch h)
  have h6 := h5.step (.answerFirst id (.access (.write _ identityEpochKey _))) (hone rfl fun e h => nomatch h)
  have h7 := h6.step (.first (.done _ _)) (serial_one (Nat.zero_le 1) fun t ht => (List.not_mem_nil ht).elim)
  have hkeys : identityEd25519Key ≠ identityEpochKey := by decide
  refine ⟨_, _, _, h7, ?_, rfl⟩
  simp only [Function.update_of_ne hkeys, Function.update_self]

/-- Two rotations one after the other, from a seed of sevens to one of eights and on to one of nines. -/
theorem rotation_chain_twice : ∃ c : Rotations,
    Rotations.Reachable namedKeys zeroPrimitives (Serial namedKeys zeroPrimitives) (seeded (List.replicate 32 7)) c ∧
      announced c.log = [announcementOf namedKeys (List.replicate 32 8) (List.replicate 32 9) ⟨1, true⟩,
        announcementOf namedKeys (List.replicate 32 7) (List.replicate 32 8) ⟨0, true⟩] ∧
      ∃ anns, anns.Perm (announced c.log) ∧
        Chain namedKeys zeroPrimitives (seeded (List.replicate 32 7)).store c.state.store anns := by
  have h0 : Rotations.Reachable namedKeys zeroPrimitives (Serial namedKeys zeroPrimitives) (seeded (List.replicate 32 7))
      ⟨seeded (List.replicate 32 7), [], 0, []⟩ := .init
  have hlen : ∀ b : UInt8, (List.replicate 32 b).length = 32 := fun b => List.length_replicate
  obtain ⟨m₁, n₁, es₁, h1, hs₁, ha₁⟩ := rotateIdentity_alone (hlen 7) (hlen 8) ⟨0, true⟩ (seeded_seed _) h0
  obtain ⟨m₂, n₂, es₂, h2, -, ha₂⟩ := rotateIdentity_alone (hlen 8) (hlen 9) ⟨1, true⟩ hs₁ h1
  refine ⟨_, h2, ?_, rotation_chain h2 rfl⟩
  rw [ha₂, ha₁]
  rfl

/-- A rotation that has read its seed runs to its end while the others wait. -/
theorem rotateFrom_finish {E : Ed25519} {P : Primitives UInt8} {m₀ m : Memory} {seed newSeed : Bytes} {j n : Nat}
    {us : List (Async.Task Unit MemoryOp MemoryAns DartError RotationAnnouncement)}
    {es : List (Async.Event Unit DartError RotationAnnouncement)} (hl : seed.length = 32) (hn : newSeed.length = 32)
    (time : DateTime) (h : Rotations.Reachable E P (fun _ _ => True) m₀ ⟨m, ⟨j, (), rotateFrom E seed⟩ :: us, n, es⟩) :
    ∃ m', Rotations.Reachable E P (fun _ _ => True) m₀
      ⟨m', us, n, .ended j () (.ok (announcementOf E seed newSeed time)) :: es⟩ := by
  have h1 := h.step (.first (rotateFrom_runs hl hn time m)) trivial
  have h2 := h1.step (.answerFirst id (.access (.write _ identityEd25519Key _))) trivial
  have h3 := h2.step (.answerFirst id (.access (.read _ identityEpochKey))) trivial
  have h4 := h3.step (.answerFirst id (.access (.write _ identityEpochKey _))) trivial
  exact ⟨_, h4.step (.first (.done _ _)) trivial⟩

/-- Two rotations that read the same seed announce two successors of one key. -/
theorem rotateIdentity_twice {E : Ed25519} {P : Primitives UInt8} {seed new₁ new₂ : Bytes} (hl : seed.length = 32)
    (h₁ : new₁.length = 32) (h₂ : new₂.length = 32) (time : DateTime) : ∃ c : Rotations,
      Rotations.Reachable E P (fun _ _ => True) (seeded seed) c ∧ c.running = [] ∧
      announced c.log = [announcementOf E seed new₂ time, announcementOf E seed new₁ time] := by
  have h1 : Rotations.Reachable E P (fun _ _ => True) (seeded seed) _ :=
    Async.Loop.Reachable.init.step (.start () (.awaits _ _ id)) trivial
  have h2 : Rotations.Reachable E P (fun _ _ => True) (seeded seed)
      ⟨seeded seed, [⟨0, (), rotateFrom E seed⟩], 1, [.started 0 ()]⟩ := by
    rw [← rotateIdentity_read]
    exact h1.step (.answerFirst id (seed_read (seeded_seed seed))) trivial
  have h3 := h2.step (.start () (.awaits _ _ id)) trivial
  have h4 : Rotations.Reachable E P (fun _ _ => True) (seeded seed) ⟨seeded seed,
      ⟨1, (), (Async.ofExcept (base64Decode (base64Encode seed))).bind (rotateFrom E)⟩ :: [⟨0, (), rotateFrom E seed⟩], 2,
        [.started 1 (), .started 0 ()]⟩ :=
    h3.step (.answerFirst id (seed_read (seeded_seed seed))) trivial
  rw [rotateIdentity_read] at h4
  obtain ⟨m₁, h5⟩ := rotateFrom_finish hl h₁ time h4
  obtain ⟨m₂, h6⟩ := rotateFrom_finish hl h₂ time h5
  exact ⟨_, h6, rfl, rfl⟩

/-- Two rotations at once, from a seed of sevens to seeds of eights and nines: no order of the two announcements is a
chain. -/
theorem rotation_fork : ∃ c : Rotations,
    Rotations.Reachable namedKeys zeroPrimitives (fun _ _ => True) (seeded (List.replicate 32 7)) c ∧ c.running = [] ∧
      ¬∃ anns, anns.Perm (announced c.log) ∧
        Chain namedKeys zeroPrimitives (seeded (List.replicate 32 7)).store c.state.store anns := by
  obtain ⟨c, h, hr, hl⟩ := @rotateIdentity_twice namedKeys zeroPrimitives (List.replicate 32 7) (List.replicate 32 8)
    (List.replicate 32 9) List.length_replicate List.length_replicate List.length_replicate ⟨0, true⟩
  refine ⟨c, h, hr, fun ⟨anns, hperm, hchain⟩ => ?_⟩
  rw [hl] at hperm
  have hold : ∀ x ∈ anns, x.oldPublicKeyHex = hexOf (namedKeys.publicKey (List.replicate 32 7)) := by
    intro x hx
    rcases List.mem_pair.mp (hperm.subset hx) with rfl | rfl <;> rfl
  have hnew : ∀ y ∈ anns, y.newPublicKeyHex ≠ hexOf (namedKeys.publicKey (List.replicate 32 7)) := by
    intro y hy he
    rcases List.mem_pair.mp (hperm.subset hy) with rfl | rfl
    · exact absurd (hexOf_injective he) (by decide)
    · exact absurd (hexOf_injective he) (by decide)
  match anns, hperm.length_eq with
  | [x, y], _ =>
    have hxy := (List.isChain_cons_cons.mp hchain.chained).1
    rw [hold x List.mem_cons_self] at hxy
    exact hnew y (List.mem_cons_of_mem _ List.mem_cons_self) hxy.symm

end KeyManager

end Chhaya
