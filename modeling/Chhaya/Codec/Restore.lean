import Chhaya.Codec.Storage

/-!
# What is read as a session

`fromJson` reads its fields one after the other. A reading may find what it should, refuse it with a `FormatException`, throw
another error, or take something that no session holds. What comes of the whole map is decided by the first reading that
throws.

- `settles_iff`: what a list of readings comes to.
- `formatOr_bind`: one reading and then the rest.
- `corrupt_refused_iff`: for exactly which maps `fromJson` keeps what its documentation says.
-/

namespace Chhaya

/-! ## Readings -/

/-- What comes of reading one field. -/
inductive Reading
  | wellFormed
  /-- It is read, and is not what a session holds. -/
  | tolerated
  /-- A `FormatException`. -/
  | refused
  /-- Another error. -/
  | miscast
  deriving DecidableEq

/-- The result of a reading, where `good` says what a session holds. -/
def Reading.Of {α : Type} (r : Reading) (x : Except DartError α) (good : α → Prop) : Prop :=
  match r with
  | .wellFormed => ∃ a, x = .ok a ∧ good a
  | .tolerated => ∃ a, x = .ok a ∧ ¬good a
  | .refused => ∃ m, x = .error (.format m)
  | .miscast => ∃ e, x = .error e ∧ ∀ m, e ≠ .format m

/-- A `FormatException`, or something good. -/
def FormatOr {α : Type} (good : α → Prop) : Except DartError α → Prop
  | .ok a => good a
  | .error e => ∃ m, e = .format m

/-- Readings one after the other come to a `FormatException` or, if what was read before is as `p` says, to something good. -/
def Settles (p : Prop) : List Reading → Prop
  | [] => p
  | .wellFormed :: rs => Settles p rs
  | .tolerated :: rs => Settles False rs
  | .refused :: _ => True
  | .miscast :: _ => False

/-- All readings are well-formed, or one is refused before another error is thrown. -/
def Decided (rs : List Reading) : Prop :=
  (∀ r ∈ rs, r = .wellFormed) ∨ ∃ l l', rs = l ++ .refused :: l' ∧ .miscast ∉ l

theorem settles_iff (p : Prop) : ∀ rs : List Reading, Settles p rs ↔
    (p ∧ ∀ r ∈ rs, r = .wellFormed) ∨ ∃ l l', rs = l ++ .refused :: l' ∧ .miscast ∉ l
  | [] => by simp [Settles]
  | r :: rs => by
    have hcons : ∀ q : Prop, r ≠ .refused → r ≠ .miscast → (Settles q rs ↔
        (q ∧ ∀ r ∈ rs, r = .wellFormed) ∨ ∃ l l', r :: rs = l ++ .refused :: l' ∧ .miscast ∉ l) := fun q h1 h2 => by
      rw [settles_iff q rs]
      refine or_congr Iff.rfl ⟨fun ⟨l, l', h3, h4⟩ => ⟨r :: l, l', by rw [h3]; rfl, ?_⟩, ?_⟩
      · rw [List.mem_cons, not_or]
        exact ⟨h2.symm, h4⟩
      · rintro ⟨_ | ⟨a, l⟩, l', h3, h4⟩
        · exact absurd (List.cons.inj h3).1 h1
        · exact ⟨l, l', (List.cons.inj h3).2, fun hm => h4 (List.mem_cons_of_mem a hm)⟩
    cases r with
    | wellFormed =>
      rw [Settles, hcons p nofun nofun]
      simp
    | tolerated =>
      rw [Settles, hcons False nofun nofun]
      simp
    | refused => exact iff_of_true trivial (Or.inr ⟨[], rs, rfl, List.not_mem_nil⟩)
    | miscast =>
      refine iff_of_false id ?_
      rintro (⟨-, h⟩ | ⟨_ | ⟨a, l⟩, l', h1, h2⟩)
      · cases h _ List.mem_cons_self
      · cases (List.cons.inj h1).1
      · obtain rfl := (List.cons.inj h1).1
        exact h2 List.mem_cons_self

/-- One reading and then the rest. -/
theorem formatOr_bind {α γ : Type} {r : Reading} {rs : List Reading} {x : Except DartError α} {good : α → Prop} {p : Prop}
    {f : α → Except DartError γ} {good' : γ → Prop} (hx : r.Of x good)
    (hf : ∀ a, FormatOr good' (f a) ↔ Settles (p ∧ good a) rs) : FormatOr good' (x >>= f) ↔ Settles p (r :: rs) := by
  cases r with
  | wellFormed =>
    obtain ⟨a, rfl, ha⟩ := hx
    refine (hf a).trans ?_
    rw [and_iff_left ha]
    rfl
  | tolerated =>
    obtain ⟨a, rfl, ha⟩ := hx
    refine (hf a).trans ?_
    rw [eq_false fun h : p ∧ good a => ha h.2]
    rfl
  | refused =>
    obtain ⟨m, rfl⟩ := hx
    exact iff_of_true ⟨m, rfl⟩ trivial
  | miscast =>
    obtain ⟨e, rfl, he⟩ := hx
    exact iff_of_false (fun ⟨m, hm⟩ => he m hm) id

/-! ## Fields -/

/-- A counter fits in u32. -/
def FitsU32 (i : Int) : Prop := 0 ≤ i ∧ i < 2 ^ 32

instance (i : Int) : Decidable (FitsU32 i) := inferInstanceAs (Decidable (_ ∧ _))

/-- The chain and the number that a name in the skipped cache is made of. -/
def skipName (name : String) : Bytes × Nat :=
  (parseHex (name.toList.take 64), Nat.ofDigitChars 10 (name.toList.drop 65) 0)

/-- A name in the skipped cache is made of a public key and a number. -/
def NamesSkipped (name : String) : Prop :=
  (skipName name).1.length = 32 ∧ (skipName name).2 < 2 ^ 32 ∧ name = skipKey (skipName name).1 (skipName name).2

instance (name : String) : Decidable (NamesSkipped name) := inferInstanceAs (Decidable (_ ∧ _))

theorem namesSkipped_iff {name : String} :
    NamesSkipped name ↔ ∃ (A : Bytes) (n : Nat), A.length = 32 ∧ n < 2 ^ 32 ∧ name = skipKey A n := by
  refine ⟨fun h => ⟨_, _, h⟩, ?_⟩
  rintro ⟨A, n, hA, hn, rfl⟩
  have hl : (A.flatMap hexByte).length = 64 := by
    rw [List.length_flatMap]
    simp [hexByte, hA]
  have hs : (skipKey A n).toList = A.flatMap hexByte ++ ':' :: Nat.toDigits 10 n := by
    rw [skipKey_natCast, hexOf]
    simp [String.toList_append, Nat.toList_repr]
  have h1 : skipName (skipKey A n) = (A, n) := by
    rw [skipName, hs, List.take_left' hl, parseHex_flatMap, ← List.drop_drop (i := 1), List.drop_left' hl, List.drop_one,
      List.tail_cons, Nat.ofDigitChars_ten_toDigits]
  rw [NamesSkipped, h1]
  exact ⟨hA, hn, rfl⟩

namespace Reading

/-- `json[name] as String`. -/
def ofString : Json → Reading
  | .str _ => .wellFormed
  | _ => .miscast

/-- `json[name] as bool`. -/
def ofBool : Json → Reading
  | .bool _ => .wellFormed
  | _ => .miscast

/-- `json[name] as bool? ?? true`. -/
def ofFlag : Json → Reading
  | .null => .wellFormed
  | j => ofBool j

/-- `json[name] as int`, a counter. -/
def ofCounter : Json → Reading
  | .int i => if FitsU32 i then .wellFormed else .tolerated
  | _ => .miscast

/-- `b64(name)`, a key. -/
def ofKey : Json → Reading
  | .str s =>
    match base64Decode (String.ofList s) with
    | .ok key => if key.length = 32 then .wellFormed else .tolerated
    | .error _ => .refused
  | _ => .refused

/-- The key and the nonce of an entry; the constructor of `MessageKeyBundle` throws an `ArgumentError`. -/
def ofBundle : Json → Reading
  | .obj fields =>
    match field fields "key", field fields "nonce" with
    | .str key, .str nonce =>
      match base64Decode (String.ofList key), base64Decode (String.ofList nonce) with
      | .ok key, .ok nonce => if key.length = 32 ∧ nonce.length = 12 then .wellFormed else .miscast
      | _, _ => .refused
    | _, _ => .refused
  | _ => .refused

/-- An entry of the skipped cache. Its name is not looked at. -/
def ofEntry (name : String) (v : Json) : Reading :=
  match ofBundle v with
  | .wellFormed => if NamesSkipped name then .wellFormed else .tolerated
  | r => r

/-- The entries of the skipped cache. -/
def ofSkipped : Json → List Reading
  | .obj fields => fields.map fun e => ofEntry (String.ofList e.1) e.2
  | _ => [.refused]

end Reading

/-- The readings of the fields after `skipped`. -/
def fieldReadings (json : JsonFields) : List Reading :=
  [.ofString (field json "peerId"), .ofBool (field json "initiatedByUs"), .ofKey (field json "rootKey"),
    .ofKey (field json "sendChainKey"), .ofCounter (field json "sendCounter"),
    .ofCounter (field json "prevSendChainLength"), .ofFlag (field json "sendInitialized"),
    .ofKey (field json "recvChainKey"), .ofCounter (field json "recvCounter"), .ofCounter (field json "recvGeneration"),
    .ofKey (field json "ourPrivateKey"), .ofKey (field json "ourPublicKey"), .ofKey (field json "remotePublicKey"),
    .ofKey (field json "spqrSeed"), .ofCounter (field json "spqrEpoch")]

/-- The readings of `fromJson`, in their order. -/
def readings (json : JsonFields) : List Reading := Reading.ofSkipped (field json "skipped") ++ fieldReadings json

theorem castError_ne_format (j : Json) (t m : String) : castError j t ≠ .format m := nofun

theorem base64Decode_error {s : String} {e : DartError} (h : base64Decode s = .error e) : ∃ m, e = .format m := by
  unfold base64Decode at h
  split at h
  · cases h
  · exact ⟨_, (Except.error.inj h).symm⟩

namespace SessionState

theorem ofString_asString (j : Json) : (Reading.ofString j).Of (asString j) fun _ => True := by
  cases j <;> first | exact ⟨_, rfl, trivial⟩ | exact ⟨_, rfl, castError_ne_format _ _⟩

theorem ofBool_asBool (j : Json) : (Reading.ofBool j).Of (asBool j) fun _ => True := by
  cases j <;> first | exact ⟨_, rfl, trivial⟩ | exact ⟨_, rfl, castError_ne_format _ _⟩

theorem ofCounter_asInt (j : Json) : (Reading.ofCounter j).Of (asInt j) FitsU32 := by
  cases j with
  | int i =>
    by_cases hi : FitsU32 i
    · rw [Reading.ofCounter, if_pos hi]
      exact ⟨i, rfl, hi⟩
    · rw [Reading.ofCounter, if_neg hi]
      exact ⟨i, rfl, hi⟩
  | _ => exact ⟨_, rfl, castError_ne_format _ _⟩

theorem ofKey_b64 (json : JsonFields) (name : String) :
    (Reading.ofKey (field json name)).Of (b64 json name) fun key => key.length = 32 := by
  unfold b64
  cases field json name with
  | str s =>
    simp only [Reading.ofKey]
    cases hb : base64Decode (String.ofList s) with
    | error e =>
      obtain ⟨m, rfl⟩ := base64Decode_error hb
      exact ⟨m, rfl⟩
    | ok key =>
      dsimp only
      by_cases hl : key.length = 32
      · rw [if_pos hl]
        exact ⟨key, rfl, hl⟩
      · rw [if_neg hl]
        exact ⟨key, rfl, hl⟩
  | _ => exact ⟨_, rfl⟩

theorem create_inv {key nonce : Bytes} (h : ¬(key.length = 32 ∧ nonce.length = 12)) :
    ∃ e, MessageKeyBundle.create key nonce = .error e ∧ ∀ m, e ≠ .format m := by
  unfold MessageKeyBundle.create
  by_cases h1 : key.length = 32
  · rw [dif_pos h1, dif_neg fun h2 => h ⟨h1, h2⟩]
    exact ⟨_, rfl, nofun⟩
  · rw [dif_neg h1]
    exact ⟨_, rfl, nofun⟩

theorem ofBundle_readBundle (v : Json) : (Reading.ofBundle v).Of (readBundle v) fun _ => True := by
  cases v with
  | obj fields =>
    simp only [Reading.ofBundle, readBundle]
    cases field fields "key" with
    | str key =>
      cases field fields "nonce" with
      | str nonce =>
        dsimp only
        cases hk : base64Decode (String.ofList key) with
        | error e =>
          obtain ⟨m, rfl⟩ := base64Decode_error hk
          exact ⟨m, rfl⟩
        | ok key =>
          cases hn : base64Decode (String.ofList nonce) with
          | error e =>
            obtain ⟨m, rfl⟩ := base64Decode_error hn
            exact ⟨m, rfl⟩
          | ok nonce =>
            by_cases hl : key.length = 32 ∧ nonce.length = 12
            · dsimp only
              rw [if_pos hl]
              exact ⟨_, MessageKeyBundle.create_ok hl.1 hl.2, trivial⟩
            · dsimp only
              rw [if_neg hl]
              exact create_inv hl
      | _ => exact ⟨_, rfl⟩
    | _ => exact ⟨_, rfl⟩
  | _ => exact ⟨_, rfl⟩

theorem ofEntry_readBundle (name : String) (v : Json) :
    (Reading.ofEntry name v).Of (readBundle v) fun _ => NamesSkipped name := by
  have h := ofBundle_readBundle v
  unfold Reading.ofEntry
  cases hr : Reading.ofBundle v with
  | wellFormed =>
    rw [hr] at h
    obtain ⟨b, hb, -⟩ := h
    dsimp only
    by_cases hn : NamesSkipped name
    · rw [if_pos hn]
      exact ⟨b, hb, hn⟩
    · rw [if_neg hn]
      exact ⟨b, hb, hn⟩
  | tolerated =>
    rw [hr] at h
    obtain ⟨b, -, hb⟩ := h
    exact absurd trivial hb
  | refused =>
    rw [hr] at h
    exact h
  | miscast =>
    rw [hr] at h
    exact h

/-! ## The whole map -/

/-- The `skipped` field. -/
def skippedRaw (json : JsonFields) : Except DartError JsonFields :=
  match field json "skipped" with
  | .obj fields => .ok fields
  | _ => .error (.format "Session field skipped missing")

/-- `j as bool? ?? true`. -/
def asFlag : Json → Except DartError Bool
  | .null => .ok true
  | j => asBool j

/-- The fields after `skipped`, in their order. -/
def readFields (json : JsonFields) (skipped : DartMap String (MessageKeyBundle UInt8)) :
    Except DartError (SessionState UInt8) := do
  let peerId ← asString (field json "peerId")
  let initiatedByUs ← asBool (field json "initiatedByUs")
  let rootKey ← b64 json "rootKey"
  let sendChainKey ← b64 json "sendChainKey"
  let sendCounter ← asInt (field json "sendCounter")
  let prevSendChainLength ← asInt (field json "prevSendChainLength")
  let sendInitialized ← asFlag (field json "sendInitialized")
  let recvChainKey ← b64 json "recvChainKey"
  let recvCounter ← asInt (field json "recvCounter")
  let recvGeneration ← asInt (field json "recvGeneration")
  let ourPrivateKey ← b64 json "ourPrivateKey"
  let ourPublicKey ← b64 json "ourPublicKey"
  let remotePublicKey ← b64 json "remotePublicKey"
  let spqrSeed ← b64 json "spqrSeed"
  let spqrEpoch ← asInt (field json "spqrEpoch")
  return ⟨peerId, initiatedByUs, rootKey, sendChainKey, sendInitialized, sendCounter, prevSendChainLength, recvChainKey,
    recvCounter, recvGeneration, ourPrivateKey, ourPublicKey, remotePublicKey, skipped, spqrSeed, spqrEpoch⟩

theorem fromJson_eq (json : JsonFields) :
    fromJson json = skippedRaw json >>= fun raw => readSkipped raw ∅ >>= readFields json := by
  unfold fromJson skippedRaw readFields asFlag
  generalize field json "sendInitialized" = flag
  cases field json "skipped" <;> cases flag <;> rfl

theorem ofFlag_asFlag (j : Json) : (Reading.ofFlag j).Of (asFlag j) fun _ => True := by
  cases j with
  | null => exact ⟨true, rfl, trivial⟩
  | bool b => exact ofBool_asBool (.bool b)
  | int i => exact ofBool_asBool (.int i)
  | double d => exact ofBool_asBool (.double d)
  | str s => exact ofBool_asBool (.str s)
  | arr l => exact ofBool_asBool (.arr l)
  | obj l => exact ofBool_asBool (.obj l)

/-- The entries of the skipped cache, after those of `m`, and then the rest. -/
theorem formatOr_readSkipped {γ : Type} {rs : List Reading} {p : Prop} {good : γ → Prop}
    {f : DartMap String (MessageKeyBundle UInt8) → Except DartError γ}
    (hf : ∀ m, FormatOr good (f m) ↔ Settles (p ∧ ∀ name ∈ m.keys, NamesSkipped name) rs) :
    ∀ (fields : JsonFields) (m : DartMap String (MessageKeyBundle UInt8)),
      FormatOr good (readSkipped fields m >>= f) ↔ Settles (p ∧ ∀ name ∈ m.keys, NamesSkipped name)
        ((fields.map fun e => Reading.ofEntry (String.ofList e.1) e.2) ++ rs)
  | [], m => hf m
  | (key, v) :: fields, m => by
    have hassoc : (readSkipped ((key, v) :: fields) m >>= f) =
        (readBundle v >>= fun b => readSkipped fields (m.insert (String.ofList key) b) >>= f) := by
      rw [readSkipped]
      cases readBundle v <;> rfl
    rw [hassoc, List.map_cons, List.cons_append]
    refine formatOr_bind (ofEntry_readBundle (String.ofList key) v) fun b => ?_
    rw [formatOr_readSkipped hf fields]
    refine iff_of_eq (congrArg (fun q => Settles q _) (propext ?_))
    rw [and_assoc]
    refine and_congr_right fun _ => ⟨fun h => ⟨fun name hn => ?_, ?_⟩, fun ⟨h1, h2⟩ name hn => ?_⟩
    · exact h name (AList.mem_keys.mp (AList.mem_insert _ |>.mpr (Or.inr (AList.mem_keys.mpr hn))))
    · exact h _ (AList.mem_keys.mp (AList.mem_insert _ |>.mpr (Or.inl rfl)))
    · rcases AList.mem_insert _ |>.mp (AList.mem_keys.mpr hn) with rfl | hn
      · exact h2
      · exact h1 name (AList.mem_keys.mp hn)

end SessionState

/-- A session that the ratchet can run on; the lengths of the skipped keys are part of their type. -/
structure Usable (s : SessionState UInt8) : Prop where
  rootKey : s.rootKey.length = 32
  sendChainKey : s.sendChainKey.length = 32
  recvChainKey : s.recvChainKey.length = 32
  ourPrivateKey : s.ourPrivateKey.length = 32
  ourPublicKey : s.ourPublicKey.length = 32
  remotePublicKey : s.remotePublicKey.length = 32
  spqrSeed : s.spqrSeed.length = 32
  sendCounter : FitsU32 s.sendCounter
  prevSendChainLength : FitsU32 s.prevSendChainLength
  recvCounter : FitsU32 s.recvCounter
  recvGeneration : FitsU32 s.recvGeneration
  spqrEpoch : FitsU32 s.spqrEpoch
  skipped : ∀ name ∈ s.skipped.keys, ∃ (A : Bytes) (n : Nat), A.length = 32 ∧ n < 2 ^ 32 ∧ name = skipKey A n

open SessionState in
theorem formatOr_readFields (json : JsonFields) (m : DartMap String (MessageKeyBundle UInt8)) :
    FormatOr Usable (readFields json m) ↔ Settles (True ∧ ∀ name ∈ m.keys, NamesSkipped name) (fieldReadings json) := by
  refine formatOr_bind (ofString_asString _) fun _ => ?_
  refine formatOr_bind (ofBool_asBool _) fun _ => ?_
  refine formatOr_bind (ofKey_b64 json _) fun _ => ?_
  refine formatOr_bind (ofKey_b64 json _) fun _ => ?_
  refine formatOr_bind (ofCounter_asInt _) fun _ => ?_
  refine formatOr_bind (ofCounter_asInt _) fun _ => ?_
  refine formatOr_bind (ofFlag_asFlag _) fun _ => ?_
  refine formatOr_bind (ofKey_b64 json _) fun _ => ?_
  refine formatOr_bind (ofCounter_asInt _) fun _ => ?_
  refine formatOr_bind (ofCounter_asInt _) fun _ => ?_
  refine formatOr_bind (ofKey_b64 json _) fun _ => ?_
  refine formatOr_bind (ofKey_b64 json _) fun _ => ?_
  refine formatOr_bind (ofKey_b64 json _) fun _ => ?_
  refine formatOr_bind (ofKey_b64 json _) fun _ => ?_
  refine formatOr_bind (ofCounter_asInt _) fun _ => ?_
  show Usable _ ↔ _
  simp only [Settles, true_and, and_true, and_assoc]
  refine ⟨fun h => ⟨fun name hn => namesSkipped_iff.mpr (h.skipped name hn), h.rootKey, h.sendChainKey, h.sendCounter,
    h.prevSendChainLength, h.recvChainKey, h.recvCounter, h.recvGeneration, h.ourPrivateKey, h.ourPublicKey,
    h.remotePublicKey, h.spqrSeed, h.spqrEpoch⟩, ?_⟩
  rintro ⟨hn, h1, h2, h3, h4, h5, h6, h7, h8, h9, h10, h11, h12⟩
  exact ⟨h1, h2, h5, h8, h9, h10, h11, h3, h4, h6, h7, h12, fun name h => namesSkipped_iff.mp (hn name h)⟩

/-- `fromJson` throws a `FormatException` or returns a session that the ratchet can run on, for exactly these maps: all fields
are well-formed, or a field is refused before one of another type, or an entry of the cache with a key or nonce of another
length, is come to. -/
theorem corrupt_refused_iff (json : JsonFields) :
    FormatOr Usable (SessionState.fromJson json) ↔ Decided (readings json) := by
  have h := settles_iff True (readings json)
  rw [true_and] at h
  refine Iff.trans ?_ h
  rw [SessionState.fromJson_eq, SessionState.skippedRaw, readings]
  cases field json "skipped" with
  | obj fields =>
    refine (SessionState.formatOr_readSkipped (fun m => formatOr_readFields json m) fields ∅).trans ?_
    refine iff_of_eq (congrArg (fun q => Settles q _) (propext (iff_of_true ⟨trivial, fun name hn => ?_⟩ trivial)))
    exact absurd hn List.not_mem_nil
  | _ => exact iff_of_true ⟨_, rfl⟩ trivial

/-- A session with empty keys and a negative counter. -/
def emptySession : SessionState UInt8 where
  peerId := "bob"
  initiatedByUs := true
  rootKey := []
  sendChainKey := []
  sendCounter := -1
  recvChainKey := []
  ourPrivateKey := []
  ourPublicKey := []
  remotePublicKey := []
  spqrSeed := []

/-- A map without `peerId` throws a `TypeError`, and one with empty keys and a negative counter is accepted. -/
theorem corrupt_accepted : ¬FormatOr Usable (SessionState.fromJson [("skipped".toList, .obj [])]) ∧
    ¬FormatOr Usable (SessionState.fromJson emptySession.toJson) := by
  refine ⟨?_, ?_⟩
  · rintro ⟨m, hm⟩
    exact castError_ne_format .null "String" m hm
  · rw [SessionState.fromJson_toJson]
    exact fun h => absurd h.rootKey (by decide)

end Chhaya
