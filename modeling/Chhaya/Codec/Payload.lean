import Chhaya.Codec.MessageCodec
import Chhaya.Crypto.Ideal

/-!
# Encrypted payloads

`EncryptedPayload` of the crypto engine, written by `toBase64` as nonce, tag and ciphertext and read by `fromBase64` as
nonce, ciphertext and tag.

- `EncryptedPayload.fromBase64_of_bytes`: how the bytes of a text are split.
- `EncryptedPayload.fromBase64_toBase64_iff`: a payload is read back if moving its tag changes nothing.
- `payload_format`: the same for what AES-GCM seals, and texts that are too short are rejected.
-/

namespace Chhaya

/-- `Uint8List.sublist(start, stop)`; it throws a `RangeError` outside the list. -/
def sublist (bytes : Bytes) (start stop : Int) : Except DartError Bytes :=
  if start < 0 ∨ (bytes.length : Int) < start then .error (.argument (toString start) "start" "Invalid value")
  else if stop < start ∨ (bytes.length : Int) < stop then .error (.argument (toString stop) "end" "Invalid value")
  else .ok ((bytes.drop start.toNat).take (stop - start).toNat)

theorem sublist_left (a b : Bytes) : sublist (a ++ b) 0 a.length = .ok a := by
  rw [sublist, if_neg (by omega), if_neg (by rw [List.length_append]; omega), Int.sub_zero, Int.toNat_natCast]
  exact congrArg Except.ok List.take_left

theorem sublist_right (a b : Bytes) : sublist (a ++ b) a.length (a ++ b).length = .ok b := by
  rw [sublist, if_neg (by rw [List.length_append]; omega), if_neg (by rw [List.length_append]; omega), Int.toNat_natCast,
    List.drop_left]
  refine congrArg Except.ok (List.take_of_length_le ?_)
  rw [List.length_append]
  omega

theorem sublist_inv {bytes r : Bytes} {start stop : Int} (h : sublist bytes start stop = .ok r) :
    0 ≤ start ∧ start ≤ stop ∧ stop ≤ bytes.length ∧ r.length = (stop - start).toNat := by
  unfold sublist at h
  split at h
  · cases h
  · split at h
    · cases h
    · obtain rfl := Except.ok.inj h
      refine ⟨by omega, by omega, by omega, ?_⟩
      rw [List.length_take, List.length_drop]
      omega

/-- `EncryptedPayload`. -/
structure EncryptedPayload where
  nonce : Bytes
  ciphertext : Bytes
  tag : Bytes
  deriving DecidableEq, Repr

namespace EncryptedPayload

/-- `toBase64`: the parts in the order in which `setAll` stores them. -/
def toBase64 (p : EncryptedPayload) : String := base64Encode (p.nonce ++ p.tag ++ p.ciphertext)

/-- `EncryptedPayload.fromBase64`. -/
def fromBase64 (encoded : String) : Except DartError EncryptedPayload := do
  let combined ← base64Decode encoded
  let nonce ← sublist combined 0 12
  let ciphertextWithTag ← sublist combined 12 combined.length
  let tag ← sublist ciphertextWithTag (ciphertextWithTag.length - 16) ciphertextWithTag.length
  let ciphertext ← sublist ciphertextWithTag 0 (ciphertextWithTag.length - 16)
  return { nonce, ciphertext, tag }

/-- A payload with a nonce of 12 bytes and a tag of 16. -/
structure Sized (p : EncryptedPayload) : Prop where
  nonce : p.nonce.length = 12
  tag : p.tag.length = 16

/-- Moving the tag in front of the ciphertext changes nothing. -/
def Invariant (p : EncryptedPayload) : Prop := p.tag ++ p.ciphertext = p.ciphertext ++ p.tag

instance (p : EncryptedPayload) : Decidable p.Invariant := inferInstanceAs (Decidable (_ = _))

/-- Nonce, ciphertext and tag in this order are read as such. -/
theorem fromBase64_of_bytes {encoded : String} {p : EncryptedPayload} (hp : p.Sized)
    (h : base64Decode encoded = .ok (p.nonce ++ (p.ciphertext ++ p.tag))) : fromBase64 encoded = .ok p := by
  have hn := sublist_left p.nonce (p.ciphertext ++ p.tag)
  have hr := sublist_right p.nonce (p.ciphertext ++ p.tag)
  have hc := sublist_left p.ciphertext p.tag
  have ht := sublist_right p.ciphertext p.tag
  rw [hp.nonce] at hn hr
  have hl : ((p.ciphertext ++ p.tag).length : Int) - 16 = p.ciphertext.length := by
    rw [List.length_append, hp.tag]
    omega
  rw [fromBase64, h]
  simp only [bind, Except.bind]
  rw [show ((12 : Nat) : Int) = 12 from rfl] at hn hr
  simp only [hn, hr, hl, ht, hc]
  rfl

/-- Less than 28 bytes are not read. -/
theorem fromBase64_short {encoded : String} (h : ∀ bytes, base64Decode encoded = .ok bytes → bytes.length < 28) :
    ∃ e, fromBase64 encoded = .error e := by
  cases hr : fromBase64 encoded with
  | error e => exact ⟨e, rfl⟩
  | ok p =>
    obtain ⟨combined, hd, hr⟩ := except_bind_ok hr
    obtain ⟨nonce, _, hr⟩ := except_bind_ok hr
    obtain ⟨rest, hrest, hr⟩ := except_bind_ok hr
    obtain ⟨tag, htag, _⟩ := except_bind_ok hr
    have h1 := sublist_inv hrest
    have h2 := sublist_inv htag
    have := h _ hd
    omega

/-- A payload is read back from its text exactly if moving its tag changes nothing. -/
theorem fromBase64_toBase64_iff {p : EncryptedPayload} (hp : p.Sized) : fromBase64 p.toBase64 = .ok p ↔ p.Invariant := by
  -- the parser reads the moved bytes as a payload with the first `ciphertext.length` of them as its ciphertext
  have hl : (p.tag ++ p.ciphertext).length = p.ciphertext.length + 16 := by
    rw [List.length_append, hp.tag]
    omega
  have hq : fromBase64 p.toBase64 = .ok ⟨p.nonce, (p.tag ++ p.ciphertext).take p.ciphertext.length,
      (p.tag ++ p.ciphertext).drop p.ciphertext.length⟩ := by
    refine fromBase64_of_bytes ⟨hp.nonce, ?_⟩ ?_
    · rw [List.length_drop, hl]
      omega
    · rw [List.take_append_drop, toBase64, base64Decode_base64Encode, List.append_assoc]
  rw [hq]
  constructor
  · intro h
    obtain ⟨-, hc, ht⟩ := mk.inj (Except.ok.inj h)
    calc p.tag ++ p.ciphertext = _ := (List.take_append_drop p.ciphertext.length _).symm
      _ = p.ciphertext ++ p.tag := by rw [hc, ht]
  · intro h
    rw [Invariant] at h
    rw [h, List.take_left, List.drop_left]

variable {β : Type} {P : Primitives β}

/-- What AES-GCM seals, by its parts. -/
theorem encryptBytes_parts {key nonce : List β} {plaintext aad out : Bytes}
    (h : AesGcm.encryptBytes P key plaintext nonce aad = .ok out) :
    ∃ p : EncryptedPayload, p.Sized ∧ out = p.nonce ++ (p.ciphertext ++ p.tag) ∧
      p.ciphertext ++ p.tag = P.gcmSeal key p.nonce aad plaintext := by
  obtain ⟨_, _, h⟩ := except_bind_ok h
  split at h
  · cases h
  · rename_i hn
    obtain rfl := Except.ok.inj h
    have hs := P.length_gcmSeal key (nonce.map P.toByte) aad plaintext
    refine ⟨⟨nonce.map P.toByte, (P.gcmSeal key (nonce.map P.toByte) aad plaintext).take plaintext.length,
      (P.gcmSeal key (nonce.map P.toByte) aad plaintext).drop plaintext.length⟩, ⟨?_, ?_⟩, ?_, ?_⟩
    · rw [List.length_map, not_not.mp hn]
    · rw [List.length_drop, hs]
      omega
    · rw [List.take_append_drop]
    · exact List.take_append_drop _ _

/-- Nonce and tag in their places are opened as the cipher opens them. -/
theorem decryptBytes_parts {key : List β} (hk : key.length = 32) {nonce rest aad plaintext : Bytes}
    (hn : nonce.length = 12) (hr : 16 ≤ rest.length) :
    AesGcm.decryptBytes P key (nonce ++ rest) aad = .ok plaintext ↔ P.gcmOpen key nonce aad rest = some plaintext := by
  rw [AesGcm.decryptBytes, AesGcm.checkKey, if_neg (not_not.mpr hk)]
  simp only [bind, Except.bind]
  rw [if_neg (by rw [List.length_append]; omega), ← hn, List.take_left, List.drop_left]
  cases P.gcmOpen key nonce aad rest with
  | none => exact iff_of_false (by rintro ⟨⟩) (by rintro ⟨⟩)
  | some plain => exact ⟨fun h => congrArg some (Except.ok.inj h), fun h => congrArg Except.ok (Option.some.inj h)⟩

end EncryptedPayload

/-- The payload format. When only one sealed text opens to a plaintext, a payload is read back from its text exactly if
moving its tag in front of its ciphertext changes nothing, and so for payloads that AES-GCM sealed. What is too short is
rejected. -/
theorem payload_format {β : Type} (P : Primitives β) (hP : ∀ {key iv aad sealed plaintext},
      P.gcmOpen key iv aad sealed = some plaintext → sealed = P.gcmSeal key iv aad plaintext) :
    (∀ p : EncryptedPayload, p.Sized → (EncryptedPayload.fromBase64 p.toBase64 = .ok p ↔ p.Invariant)) ∧
    (∀ key plaintext nonce aad out, AesGcm.encryptBytes P key plaintext nonce aad = .ok out →
      ∃ p : EncryptedPayload, p.Sized ∧ out = p.nonce ++ (p.ciphertext ++ p.tag) ∧
        EncryptedPayload.fromBase64 (base64Encode out) = .ok p ∧
        ((∃ again, base64Decode p.toBase64 = .ok again ∧ AesGcm.decryptBytes P key again aad = .ok plaintext) ↔
          p.Invariant)) ∧
    ∀ encoded, (∀ bytes, base64Decode encoded = .ok bytes → bytes.length < 28) →
      ∃ e, EncryptedPayload.fromBase64 encoded = .error e := by
  refine ⟨fun p hp => EncryptedPayload.fromBase64_toBase64_iff hp, fun key plaintext nonce aad out h => ?_,
    fun _ h => EncryptedPayload.fromBase64_short h⟩
  obtain ⟨p, hp, rfl, hs⟩ := EncryptedPayload.encryptBytes_parts h
  have hk : key.length = 32 := by
    obtain ⟨_, hk, _⟩ := except_bind_ok h
    by_contra hne
    rw [AesGcm.checkKey, if_pos hne] at hk
    cases hk
  have hd : base64Decode p.toBase64 = .ok (p.nonce ++ (p.tag ++ p.ciphertext)) := by
    rw [EncryptedPayload.toBase64, base64Decode_base64Encode, List.append_assoc]
  have hopen : AesGcm.decryptBytes P key (p.nonce ++ (p.tag ++ p.ciphertext)) aad = .ok plaintext ↔
      P.gcmOpen key p.nonce aad (p.tag ++ p.ciphertext) = some plaintext :=
    EncryptedPayload.decryptBytes_parts hk hp.nonce (by rw [List.length_append, hp.tag]; omega)
  refine ⟨p, hp, rfl, EncryptedPayload.fromBase64_of_bytes hp (base64Decode_base64Encode _), ?_⟩
  constructor
  · rintro ⟨again, ha, hr⟩
    rw [hd] at ha
    obtain rfl := Except.ok.inj ha
    exact (hP (hopen.mp hr)).trans hs.symm
  · intro hi
    refine ⟨_, hd, hopen.mpr ?_⟩
    rw [EncryptedPayload.Invariant] at hi
    rw [hi, hs]
    exact P.gcmOpen_gcmSeal _ _ _ _

/-- A cipher that opens nothing but what it seals. -/
def strictGcm : Primitives UInt8 where
  __ := zeroPrimitives
  gcmOpen _ _ _ sealed :=
    if sealed = sealed.take (sealed.length - 16) ++ List.replicate 16 0 then some (sealed.take (sealed.length - 16)) else none
  gcmOpen_gcmSeal key iv aad plaintext := by simp [zeroPrimitives]

theorem strictGcm_canonical {key iv aad sealed plaintext : Bytes}
    (h : strictGcm.gcmOpen key iv aad sealed = some plaintext) : sealed = strictGcm.gcmSeal key iv aad plaintext := by
  simp only [strictGcm] at h
  split at h
  · rename_i hs
    rw [Option.some.inj h] at hs
    exact hs
  · cases h

/-- A payload of two sevens with a tag of sevens is read back; two zeros that were sealed with a tag of zeros are opened
again; three bytes are rejected. -/
theorem payload_format_repeated :
    EncryptedPayload.fromBase64 (EncryptedPayload.toBase64 ⟨List.replicate 12 0, [7, 7], List.replicate 16 7⟩) =
      .ok ⟨List.replicate 12 0, [7, 7], List.replicate 16 7⟩ ∧
    (∃ p : EncryptedPayload, p.ciphertext = [0, 0] ∧
      AesGcm.encryptBytes strictGcm (List.replicate 32 0) [0, 0] (List.replicate 12 0) [] =
        .ok (p.nonce ++ (p.ciphertext ++ p.tag)) ∧
      ∃ again, base64Decode p.toBase64 = .ok again ∧
        AesGcm.decryptBytes strictGcm (List.replicate 32 0) again [] = .ok [0, 0]) ∧
    ∃ e, EncryptedPayload.fromBase64 (base64Encode [1, 2, 3]) = .error e := by
  obtain ⟨hread, hsealed, hshort⟩ := payload_format strictGcm strictGcm_canonical
  refine ⟨(hread _ ⟨rfl, rfl⟩).mpr (by decide), ?_, hshort _ fun bytes h => ?_⟩
  · have hout : AesGcm.encryptBytes strictGcm (List.replicate 32 0) [0, 0] (List.replicate 12 0) [] =
        .ok (List.replicate 12 0 ++ ([0, 0] ++ List.replicate 16 0)) := rfl
    obtain ⟨p, hp, he, -, hagain⟩ := hsealed _ _ _ _ _ hout
    obtain ⟨-, hrest⟩ := List.append_inj he (by rw [hp.nonce]; rfl)
    obtain ⟨hc, ht⟩ := List.append_inj' hrest (by rw [hp.tag]; rfl)
    refine ⟨p, hc.symm, he ▸ hout, hagain.mpr ?_⟩
    rw [EncryptedPayload.Invariant, ← hc, ← ht]
    decide
  · rw [base64Decode_base64Encode] at h
    obtain rfl := Except.ok.inj h
    decide

/-- A payload of one byte is read back with the first byte of its tag as its ciphertext. -/
theorem payload_shifted : ¬ ∀ p : EncryptedPayload, p.Sized → EncryptedPayload.fromBase64 p.toBase64 = .ok p := by
  intro h
  have hi := (EncryptedPayload.fromBase64_toBase64_iff ⟨rfl, rfl⟩).mp
    (h ⟨List.replicate 12 0, [1], List.replicate 16 0⟩ ⟨rfl, rfl⟩)
  exact absurd hi (by decide)

end Chhaya
