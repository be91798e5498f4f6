import Chhaya.Lib.Base64
import Chhaya.Lib.Json
import Chhaya.Models
import Chhaya.Ratchet.Step

/-!
# Message envelopes

`lib/services/messaging/ratchet_message_codec.dart`. A call of the codec loads a session, works on it and commits it;
what it does between the load and the commit is a function of what it loaded, so `encrypt` and `decrypt` take the loaded
session and return what the code hands to `commit`. A call that throws commits nothing.

- `utf8Decode_utf8Encode`, `decodeMap_jsonEncode`: texts survive the wire.
- `sessionKey_inj`, `aad_inj`: what a session is stored under and what an envelope is bound to determine their parts.
- `parseIdentity_identityOf`, `parseIdentity_inj`: an account id determines its public key.
- `encrypt_inv`, `decrypt_inv`: what a call that returns did.
-/

namespace Chhaya

variable {β : Type}

/-! ## Texts -/

/-- `utf8.decode`: a byte order mark at the front is dropped, malformed input is rejected. -/
def utf8Decode (bytes : Bytes) : Except DartError String :=
  let body := match bytes with
    | 0xEF :: 0xBB :: 0xBF :: r => r
    | r => r
  match String.fromUTF8? ⟨body.toArray⟩ with
  | some s => .ok s
  | none => .error (.format "Invalid UTF-8 byte")

/-- The fields of a Dart `Map<String, dynamic>` that was read from JSON, in insertion order. -/
abbrev JsonFields := List (List Char × Json)

/-- `map[key]`: null when there is no such key. -/
def field (m : JsonFields) (key : String) : Json :=
  match m.find? (fun kj => kj.1 = key.toList) with
  | some kj => kj.2
  | none => .null

/-- A map that can be written as JSON: its keys are different and its integers fit 64 bits. -/
structure JsonMap where
  fields : JsonFields
  wf : Json.WF (.obj fields)

/-- `jsonEncode`. -/
def jsonEncode (j : Json) : String := String.ofList (Json.encode j)

/-- `jsonDecode`. -/
def jsonDecode (s : String) : Except DartError Json :=
  match Json.decode s.toList with
  | some j => .ok j
  | none => .error (.format "Unexpected character")

/-- The name of the Dart type of a value. -/
def dartType : Json → String
  | .null => "Null"
  | .bool _ => "bool"
  | .int _ => "int"
  | .double _ => "double"
  | .str _ => "String"
  | .arr _ => "List<dynamic>"
  | .obj _ => "_Map<String, dynamic>"

/-- What a failed `as` throws. -/
def castError (j : Json) (type : String) : DartError :=
  .type ("type '" ++ dartType j ++ "' is not a subtype of type '" ++ type ++ "' in type cast")

/-- `j as Map<String, dynamic>`. -/
def asMap : Json → Except DartError JsonFields
  | .obj l => .ok l
  | j => .error (castError j "Map<String, dynamic>")

/-- `j as String`. -/
def asString : Json → Except DartError String
  | .str s => .ok (String.ofList s)
  | j => .error (castError j "String")

/-- `j == 1`. -/
def isOne : Json → Bool
  | .int i => i == 1
  | .double d => d.isOne
  | _ => false

/-- `base64Encode`. -/
def base64Encode (bytes : Bytes) : String := String.ofList (Base64.encode bytes)

/-- `base64Decode`. -/
def base64Decode (s : String) : Except DartError Bytes :=
  match Base64.decode s.toList with
  | some bytes => .ok bytes
  | none => .error (.format "Invalid base64 data")

/-- `jsonDecode(utf8.decode(bytes)) as Map<String, dynamic>`. -/
def decodeMap (bytes : Bytes) : Except DartError JsonFields := do
  asMap (← jsonDecode (← utf8Decode bytes))

/-! ## Account ids -/

/-- A digit of the regular expression `[0-9a-f]`. -/
def isLowerHex (c : Char) : Bool := ('0' ≤ c && c ≤ '9') || ('a' ≤ c && c ≤ 'f')

/-- `RegExp(r'^05[0-9a-f]{64}$').hasMatch`. -/
def isIdentity (id : String) : Bool :=
  match id.toList with
  | '0' :: '5' :: digits => digits.length == 64 && digits.all isLowerHex
  | _ => false

/-- `int.parse(c, radix: 16)` of one digit. -/
def hexDigit (c : Char) : Nat := if c ≤ '9' then c.toNat - '0'.toNat else c.toNat - 'a'.toNat + 10

/-- `int.parse(..., radix: 16)` of every two digits. -/
def parseHex : List Char → Bytes
  | a :: b :: r => UInt8.ofNat (16 * hexDigit a + hexDigit b) :: parseHex r
  | _ => []

/-- The public key of an account id. -/
def parseIdentity (id : String) : Bytes := parseHex (id.toList.drop 2)

/-- `AccountIdentity.idFor`: the account id of a public key. -/
def identityOf (publicKey : Bytes) : String := "05" ++ hexOf publicKey

/-! ## The codec -/

/-- A `RatchetMessageCodec`; its session storage is passed to each call. -/
structure RatchetMessageCodec (β : Type) where
  identity : ChhayaKeyPair β
  ownId : String

/-- What the session with `peer` on `conversation` is stored under. -/
def sessionKey (peer : Contact) (conversation : String) : String := conversation ++ ":" ++ peer.chhayaId.publicKey

/-- The input of the HKDF that makes the shared secret of a conversation. -/
def directInfo (conversation : String) : Bytes := utf8Encode ("Chhaya-direct-v1:" ++ conversation)

/-- What `encrypt` computes: the session and the envelope are handed to `commit`. -/
structure Sealed (β : Type) where
  state : SessionState β
  envelope : String
  header : TripleHeader
  keys : MessageKeyBundle β
  aad : Bytes
  plaintext : Bytes

/-- What `decrypt` computes: the session and the payload are handed to `commit`. -/
structure Opened (β : Type) where
  state : SessionState β
  payload : JsonFields
  header : TripleHeader
  keys : MessageKeyBundle β
  aad : Bytes
  plaintext : Bytes

namespace RatchetMessageCodec

/-- `_state`, where `saved` is what the storage returned. -/
def state (P : Primitives β) (codec : RatchetMessageCodec β) (saved : Option (SessionState β)) (peer : Contact)
    (conversation : String) (fresh : X25519Seed β) : Except DartError (SessionState β) := do
  if !peer.isVerified then
    throw (.state "Verify this contact using their QR code first")
  match saved with
  | some s => return s
  | none =>
    let hex := peer.chhayaId.publicKey
    if !isIdentity hex then
      throw (.state "Invalid contact identity")
    let publicKey := parseIdentity hex
    let shared ← X25519Kex.sharedSecret P codec.identity.privateKey publicKey
    if shared.all P.isZero then
      throw (.state "Invalid peer key")
    let secret ← Hkdf.deriveKey P shared 32 none (some (directInfo conversation))
    TripleRatchet.startSession P { peer with id := sessionKey peer conversation } publicKey secret
      (codec.ownId < hex) (some codec.identity.privateKey) fresh

/-- `_aad`. -/
def aad (conversation messageId sender : String) : Bytes :=
  utf8Encode (jsonEncode (.arr [.str "chhaya-message-v1".toList, .str conversation.toList, .str messageId.toList,
    .str sender.toList]))

/-- The fields of an envelope. -/
def envelopeFields (header body : Bytes) : JsonFields :=
  [("v".toList, .int 1), ("header".toList, .str (base64Encode header).toList),
    ("body".toList, .str (base64Encode body).toList)]

/-- The text of an envelope. -/
def envelopeText (header body : Bytes) : String := jsonEncode (.obj (envelopeFields header body))

/-- `encrypt`, up to its commit. -/
def encrypt (P : Primitives β) (codec : RatchetMessageCodec β) (saved : Option (SessionState β)) (peer : Contact)
    (conversation messageId sender : String) (payload : JsonMap) (fresh : X25519Seed β) :
    Except DartError (Sealed β) := do
  let state ← codec.state P saved peer conversation fresh
  match (TripleRatchet.encrypt P fresh).run state with
  | .error e _ => throw e
  | .ok (header, keys) state =>
    let aad := aad conversation messageId sender ++ header.toBytes
    let plaintext := utf8Encode (jsonEncode (.obj payload.fields))
    let bytes ← AesGcm.encryptBytes P keys.messageKey plaintext keys.nonce aad
    return { state, envelope := envelopeText header.toBytes bytes, header, keys, aad, plaintext }

/-- The start of `decrypt`: the fields of an envelope and the bytes of its header. -/
def wireOf (envelope : String) : Except DartError (JsonFields × Bytes) := do
  let wire ← asMap (← jsonDecode envelope)
  if !isOne (field wire "v") then
    throw (.format "Unsupported message protocol")
  let header ← base64Decode (← asString (field wire "header"))
  return (wire, header)

/-- `decrypt`, up to its commit. -/
def decrypt (P : Primitives β) (codec : RatchetMessageCodec β) (saved : Option (SessionState β)) (peer : Contact)
    (conversation messageId sender envelope : String) (fresh : X25519Seed β) : Except DartError (Opened β) := do
  let (wire, headerBytes) ← wireOf envelope
  let state ← codec.state P saved peer conversation fresh
  let header ← TripleHeader.fromBytes headerBytes
  match (TripleRatchet.decrypt P fresh header).run state with
  | .error e _ => throw e
  | .ok keys state =>
    let aad := aad conversation messageId sender ++ headerBytes
    let body ← base64Decode (← asString (field wire "body"))
    let plaintext ← AesGcm.decryptBytes P keys.messageKey body aad
    let payload ← decodeMap plaintext
    return { state, payload, header, keys, aad, plaintext }

end RatchetMessageCodec

/-! ## Texts survive the wire -/

theorem fromUTF8_utf8Encode (s : String) : String.fromUTF8? ⟨(utf8Encode s).toArray⟩ = some s := by
  have h : (⟨(utf8Encode s).toArray⟩ : ByteArray) = s.toByteArray := by
    show (⟨s.toByteArray.data.toList.toArray⟩ : ByteArray) = s.toByteArray
    rw [Array.toArray_toList]
  rw [h, String.fromUTF8?, dif_pos s.isValidUTF8]
  rfl

theorem utf8Encode_injective : Function.Injective utf8Encode := by
  intro s t h
  have hs := fromUTF8_utf8Encode s
  rw [h, fromUTF8_utf8Encode t] at hs
  exact (Option.some.inj hs).symm

/-- Text that does not start with a byte order mark survives. -/
theorem utf8Decode_utf8Encode {s : String} (h : ∀ r, utf8Encode s ≠ 0xEF :: 0xBB :: 0xBF :: r) :
    utf8Decode (utf8Encode s) = .ok s := by
  unfold utf8Decode
  split
  · rename_i r hr
    exact absurd hr (h r)
  · dsimp only
    rw [fromUTF8_utf8Encode]

theorem utf8Encode_cons (c : Char) (l : List Char) :
    utf8Encode (String.ofList (c :: l)) = String.utf8EncodeChar c ++ utf8Encode (String.ofList l) := by
  simp only [utf8Encode]
  show (String.ofList (c :: l)).toByteArray.data.toList = _ ++ (String.ofList l).toByteArray.data.toList
  simp [List.utf8Encode]

/-- A map that was written and read back. -/
theorem decodeMap_jsonEncode (m : JsonMap) : decodeMap (utf8Encode (jsonEncode (.obj m.fields))) = .ok m.fields := by
  have hb : ∀ r, utf8Encode (jsonEncode (.obj m.fields)) ≠ 0xEF :: 0xBB :: 0xBF :: r := by
    intro r h
    have h0 : (utf8Encode (jsonEncode (.obj m.fields))).head? = some 0x7B := by
      rw [jsonEncode, Json.encode, utf8Encode_cons]
      rfl
    rw [h] at h0
    cases h0
  have hd : jsonDecode (jsonEncode (.obj m.fields)) = .ok (.obj m.fields) := by
    rw [jsonDecode, jsonEncode, String.toList_ofList, Json.decode_encode m.wf]
  rw [decodeMap, utf8Decode_utf8Encode hb]
  show (jsonDecode _ >>= asMap) = _
  rw [hd]
  rfl

theorem jsonEncode_inj {j j' : Json} (h : Json.WF j) (h' : Json.WF j') (he : jsonEncode j = jsonEncode j') : j = j' :=
  Json.encode_injective h h' (String.ofList_injective he)

/-- The conversation, the message and the sender that associated data is about. -/
theorem aad_inj {c c' m m' s s' : String} (h : RatchetMessageCodec.aad c m s = RatchetMessageCodec.aad c' m' s') :
    c = c' ∧ m = m' ∧ s = s' := by
  have hj := jsonEncode_inj (by simp [Json.WF, Json.WFElements]) (by simp [Json.WF, Json.WFElements])
    (utf8Encode_injective h)
  simp only [Json.arr.injEq, List.cons.injEq, Json.str.injEq, true_and, and_true] at hj
  exact ⟨String.toList_injective hj.1, String.toList_injective hj.2.1, String.toList_injective hj.2.2⟩

/-- Conversations have different labels. -/
theorem directInfo_injective : Function.Injective directInfo := fun c d h => by
  have := utf8Encode_injective h
  exact String.toList_injective (by simpa using congrArg String.toList this)

theorem base64Decode_base64Encode (bytes : Bytes) : base64Decode (base64Encode bytes) = .ok bytes := by
  rw [base64Decode, base64Encode, String.toList_ofList, Base64.decode_encode]

/-! ## Account ids and public keys -/

theorem hexDigit_digitChar : ∀ n < 16, hexDigit (Nat.digitChar n) = n ∧ isLowerHex (Nat.digitChar n) = true := by decide

theorem parseHex_flatMap : ∀ bytes : Bytes, parseHex (bytes.flatMap hexByte) = bytes
  | [] => rfl
  | b :: bytes => by
    have hb := UInt8.toNat_lt b
    have h1 := (hexDigit_digitChar (b.toNat / 16) (by omega)).1
    have h2 := (hexDigit_digitChar (b.toNat % 16) (Nat.mod_lt _ (by decide))).1
    show UInt8.ofNat (16 * hexDigit _ + hexDigit _) :: parseHex (bytes.flatMap hexByte) = b :: bytes
    rw [h1, h2, parseHex_flatMap bytes, Nat.div_add_mod, UInt8.ofNat_toNat]

theorem digitChar_hexDigit {c : Char} (h : isLowerHex c = true) : hexDigit c < 16 ∧ Nat.digitChar (hexDigit c) = c := by
  have hlt : ∀ n < 128, isLowerHex (Char.ofNat n) = true →
      hexDigit (Char.ofNat n) < 16 ∧ Nat.digitChar (hexDigit (Char.ofNat n)) = Char.ofNat n := by decide
  have hc : c.toNat < 128 := by
    simp only [isLowerHex, Bool.or_eq_true, Bool.and_eq_true, decide_eq_true_eq, Char.le_def, UInt32.le_iff_toNat_le] at h
    have h9 : ('9' : Char).val.toNat = 57 := rfl
    have hf : ('f' : Char).val.toNat = 102 := rfl
    show c.val.toNat < 128
    omega
  have hd := hlt c.toNat hc
  rw [Char.ofNat_toNat] at hd
  exact hd h

/-- Lower-case text of bytes is the text of what it reads as. -/
theorem flatMap_parseHex : ∀ {n : Nat} {l : List Char}, l.length = 2 * n → (∀ c ∈ l, isLowerHex c = true) →
    (parseHex l).length = n ∧ (parseHex l).flatMap hexByte = l
  | 0, l, hn, _ => by
    obtain rfl := List.length_eq_zero_iff.mp hn
    exact ⟨rfl, rfl⟩
  | n + 1, [], hn, _ => by simp at hn
  | n + 1, [_], hn, _ => by simp at hn; omega
  | n + 1, a :: b :: l, hn, h => by
    obtain ⟨h1, h2⟩ := flatMap_parseHex (n := n) (l := l) (by simp at hn; omega) (fun c hc => h c (by simp [hc]))
    obtain ⟨ha, ha'⟩ := digitChar_hexDigit (h a (by simp))
    obtain ⟨hb, hb'⟩ := digitChar_hexDigit (h b (by simp))
    refine ⟨by simp [parseHex, h1], ?_⟩
    have hn : (UInt8.ofNat (16 * hexDigit a + hexDigit b)).toNat = 16 * hexDigit a + hexDigit b := by
      rw [UInt8.toNat_ofNat']; omega
    simp only [parseHex, List.flatMap_cons, hexByte, hn]
    rw [show (16 * hexDigit a + hexDigit b) / 16 = hexDigit a by omega,
      show (16 * hexDigit a + hexDigit b) % 16 = hexDigit b by omega, ha', hb', h2]
    rfl

theorem toList_identityOf (A : Bytes) : (identityOf A).toList = '0' :: '5' :: A.flatMap hexByte := by
  simp only [identityOf, hexOf, String.toList_append, String.toList_ofList]
  rfl

/-- An account id is `05` and the text of its public key. -/
theorem identityOf_parseIdentity {id : String} (h : isIdentity id = true) :
    (parseIdentity id).length = 32 ∧ identityOf (parseIdentity id) = id := by
  unfold isIdentity at h
  split at h
  · rename_i digits hd
    simp only [Bool.and_eq_true, beq_iff_eq, List.all_eq_true] at h
    obtain ⟨h1, h2⟩ := flatMap_parseHex (n := 32) (by omega) h.2
    refine ⟨by rw [parseIdentity, hd]; exact h1, String.toList_injective ?_⟩
    rw [parseIdentity, toList_identityOf, hd]
    show '0' :: '5' :: (parseHex digits).flatMap hexByte = _
    rw [h2]
  · cases h

theorem isIdentity_identityOf {A : Bytes} (h : A.length = 32) : isIdentity (identityOf A) = true := by
  simp only [isIdentity, toList_identityOf, Bool.and_eq_true, beq_iff_eq, List.all_eq_true]
  refine ⟨by simp [hexByte, List.length_flatMap, h], fun c hc => ?_⟩
  obtain ⟨b, -, hb⟩ := List.mem_flatMap.mp hc
  have hlt := UInt8.toNat_lt b
  simp only [hexByte, List.mem_cons, List.not_mem_nil, or_false] at hb
  rcases hb with rfl | rfl
  · exact (hexDigit_digitChar _ (by omega)).2
  · exact (hexDigit_digitChar _ (Nat.mod_lt _ (by decide))).2

theorem parseIdentity_identityOf (A : Bytes) : parseIdentity (identityOf A) = A := by
  rw [parseIdentity, toList_identityOf]
  exact parseHex_flatMap A

theorem parseIdentity_inj {a b : String} (ha : isIdentity a = true) (hb : isIdentity b = true)
    (h : parseIdentity a = parseIdentity b) : a = b := by
  rw [← (identityOf_parseIdentity ha).2, h, (identityOf_parseIdentity hb).2]

theorem length_of_isIdentity {id : String} (h : isIdentity id = true) : id.length = 66 := by
  rw [← (identityOf_parseIdentity h).2, identityOf, String.length_append, length_hexOf, (identityOf_parseIdentity h).1]
  rfl

/-- What a session is stored under determines the conversation and the account id. -/
theorem sessionKey_inj {p q : Contact} {c d : String} (hp : isIdentity p.chhayaId.publicKey = true)
    (hq : isIdentity q.chhayaId.publicKey = true) (h : sessionKey p c = sessionKey q d) :
    c = d ∧ p.chhayaId.publicKey = q.chhayaId.publicKey := by
  have hl := congrArg String.toList h
  simp only [sessionKey, String.toList_append, List.append_assoc] at hl
  have h1 := length_of_isIdentity hp
  have h2 := length_of_isIdentity hq
  obtain ⟨h3, h4⟩ := List.append_inj' hl (by simp [String.length_toList, h1, h2])
  exact ⟨String.toList_injective h3, String.toList_injective (List.append_cancel_left h4)⟩

/-! ## Headers on the wire -/

theorem u32be_readU32be : ∀ {bytes : Bytes}, bytes.length = 4 → u32be (readU32be bytes) = bytes ∧
    readU32be bytes < 2 ^ 32
  | [a, b, c, d], _ => by
    have ha := UInt8.toNat_lt a
    have hb := UInt8.toNat_lt b
    have hc := UInt8.toNat_lt c
    have hd := UInt8.toNat_lt d
    simp only [readU32be, u32be, List.cons.injEq, and_true, ← UInt8.toNat_inj, UInt8.toNat_ofNat']
    omega

@[simp] theorem RatchetHeader.length_toBytes (h : RatchetHeader) : h.toBytes.length = 40 := by
  simp [toBytes, h.dhPublicKey_length]

@[simp] theorem TripleHeader.length_toBytes (h : TripleHeader) : h.toBytes.length = 44 := by simp [toBytes]

/-- What was read from bytes is written as these bytes. -/
theorem RatchetHeader.toBytes_fromBytes {bytes : Bytes} {h : RatchetHeader} (hb : fromBytes bytes = .ok h) :
    h.toBytes = bytes ∧ h.prevChainLength < 2 ^ 32 ∧ h.messageNumber < 2 ^ 32 := by
  unfold fromBytes at hb
  split at hb
  · cases hb
  · rename_i hl
    have hl : bytes.length = 40 := not_not.mp hl
    rw [create_ok (by simp [hl])] at hb
    cases hb
    obtain ⟨h1, h2⟩ := u32be_readU32be (show ((bytes.drop 32).take 4).length = 4 by simp [hl])
    obtain ⟨h3, h4⟩ := u32be_readU32be (show (bytes.drop 36).length = 4 by simp [hl])
    refine ⟨?_, h2, h4⟩
    rw [toBytes, h1, h3, List.append_assoc, show bytes.drop 36 = (bytes.drop 32).drop 4 by simp,
      List.take_append_drop, List.take_append_drop]

theorem TripleHeader.toBytes_fromBytes {bytes : Bytes} {h : TripleHeader} (hb : fromBytes bytes = .ok h) :
    h.toBytes = bytes ∧ h.dh.prevChainLength < 2 ^ 32 ∧ h.dh.messageNumber < 2 ^ 32 := by
  unfold fromBytes at hb
  by_cases hl : bytes.length = 44
  · simp only [hl, ne_eq, not_true_eq_false, if_false] at hb
    obtain ⟨dh, hd, hb⟩ := except_bind_ok hb
    obtain ⟨h1, h2, h3⟩ := RatchetHeader.toBytes_fromBytes hd
    obtain ⟨h4, h5⟩ := u32be_readU32be (show (bytes.drop 40).length = 4 by simp [hl])
    have hc : ¬((readU32be (bytes.drop 40) : Int) < 0 ∨ (readU32be (bytes.drop 40) : Int) > 0xFFFFFFFF) := by omega
    rw [create, dif_neg hc] at hb
    cases hb
    refine ⟨?_, h2, h3⟩
    show dh.toBytes ++ u32be (readU32be (bytes.drop 40)) = bytes
    rw [h1, h4, List.take_append_drop]
  · simp only [hl, ne_eq, not_false_eq_true, if_true] at hb
    cases hb

theorem RatchetHeader.fromBytes_toBytes {h : RatchetHeader} (hp : h.prevChainLength < 2 ^ 32)
    (hn : h.messageNumber < 2 ^ 32) : fromBytes h.toBytes = .ok h := by
  have hd := h.dhPublicKey_length
  have h1 : h.toBytes.take 32 = h.dhPublicKey := by rw [toBytes, List.append_assoc, List.take_left' hd]
  have h2 : h.toBytes.drop 32 = u32be h.prevChainLength ++ u32be h.messageNumber := by
    rw [toBytes, List.append_assoc, List.drop_left' hd]
  have h3 : h.toBytes.drop 36 = u32be h.messageNumber := by
    rw [show h.toBytes.drop 36 = (h.toBytes.drop 32).drop 4 by simp, h2, List.drop_left' (length_u32be _)]
  rw [fromBytes, if_neg (by simp), h1, h2, h3, List.take_left' (length_u32be _), readU32be_u32be hp, readU32be_u32be hn,
    create_ok hd]

/-- A header whose counters fit 32 bits is read back. -/
theorem TripleHeader.fromBytes_toBytes {h : TripleHeader} (hp : h.dh.prevChainLength < 2 ^ 32)
    (hn : h.dh.messageNumber < 2 ^ 32) : fromBytes h.toBytes = .ok h := by
  have he := h.spqrEpoch_le
  have h1 : h.toBytes.take 40 = h.dh.toBytes := by rw [toBytes, List.take_left' (by simp)]
  have h2 : h.toBytes.drop 40 = u32be h.spqrEpoch := by rw [toBytes, List.drop_left' (by simp)]
  have hc : ¬((h.spqrEpoch : Int) < 0 ∨ (h.spqrEpoch : Int) > 0xFFFFFFFF) := by omega
  simp only [fromBytes, length_toBytes, h1, h2, RatchetHeader.fromBytes_toBytes hp hn, ne_eq, not_true_eq_false,
    if_false, bind, Except.bind, readU32be_u32be (show h.spqrEpoch < 2 ^ 32 by omega), create, dif_neg hc]
  rfl

/-- Equal header bytes: the previous chain length is only kept modulo `2 ^ 32`. -/
theorem TripleHeader.toBytes_inj {h h' : TripleHeader} (hb : h.toBytes = h'.toBytes) :
    h.dh.dhPublicKey = h'.dh.dhPublicKey ∧ u32be h.dh.prevChainLength = u32be h'.dh.prevChainLength ∧
      u32be h.dh.messageNumber = u32be h'.dh.messageNumber ∧ h.spqrEpoch = h'.spqrEpoch := by
  simp only [toBytes, RatchetHeader.toBytes] at hb
  obtain ⟨hb, he⟩ := List.append_inj' hb rfl
  obtain ⟨hb, hn⟩ := List.append_inj' hb rfl
  obtain ⟨hb, hp⟩ := List.append_inj' hb rfl
  have h1 := h.spqrEpoch_le
  have h2 := h'.spqrEpoch_le
  exact ⟨hb, hp, hn, u32be_injective (by omega) (by omega) he⟩

/-! ## What a call that returns did -/

namespace RatchetMessageCodec

/-- The shared secret of the conversation with the owner of the account id `hex`. -/
def directSecret (P : Primitives β) (codec : RatchetMessageCodec β) (hex conversation : String) : List β :=
  P.hkdf (P.x25519 codec.identity.privateKey (parseIdentity hex)) none (some (directInfo conversation)) 32

/-- The session that `_state` opens with the owner of the account id `hex` when none is saved. -/
def newSession (P : Primitives β) (codec : RatchetMessageCodec β) (hex conversation : String) : SessionState β :=
  openedSession P (conversation ++ ":" ++ hex) (codec.ownId < hex) (codec.directSecret P hex conversation)
    (parseIdentity hex) codec.identity.privateKey

variable {P : Primitives β} {codec : RatchetMessageCodec β} {saved : Option (SessionState β)} {peer : Contact}
  {conversation messageId sender : String} {fresh : X25519Seed β}

/-- A session that is not saved is opened. -/
theorem state_none_inv {s : SessionState β} (h : codec.state P none peer conversation fresh = .ok s)
    (hv : peer.isVerified = true) : isIdentity peer.chhayaId.publicKey = true ∧
      codec.identity.privateKey.length = 32 ∧ s = codec.newSession P peer.chhayaId.publicKey conversation := by
  unfold state at h
  simp only [hv, Bool.not_true, Bool.false_eq_true, if_false] at h
  cases hi : isIdentity peer.chhayaId.publicKey with
  | false => simp [hi] at h; cases h
  | true =>
    simp only [hi, Bool.not_true, Bool.false_eq_true, if_false] at h
    obtain ⟨shared, h1, h⟩ := except_bind_ok h
    obtain ⟨hp, hr, rfl⟩ := X25519Kex.sharedSecret_inv h1
    split at h
    · cases h
    · have hs := P.length_hkdf (P.x25519 codec.identity.privateKey (parseIdentity peer.chhayaId.publicKey)) none
        (some (directInfo conversation)) 32
      have hrun := TripleRatchet.startSession_run P { peer with id := sessionKey peer conversation } hv
        (codec.ownId < peer.chhayaId.publicKey) fresh (Nat.le_of_eq hs.symm) hr hp
      refine ⟨rfl, hp, ?_⟩
      rw [hv] at hrun
      exact Except.ok.inj (h.symm.trans hrun)

/-- `_state` returns the saved session, or opens one. -/
theorem state_inv {s : SessionState β} (h : codec.state P saved peer conversation fresh = .ok s) :
    peer.isVerified = true ∧ (saved = some s ∨ saved = none ∧ isIdentity peer.chhayaId.publicKey = true ∧
      codec.identity.privateKey.length = 32 ∧ s = codec.newSession P peer.chhayaId.publicKey conversation) := by
  have hv : peer.isVerified = true := by
    cases hv : peer.isVerified with
    | true => rfl
    | false => simp [state, hv] at h; cases h
  refine ⟨hv, ?_⟩
  cases saved with
  | none => exact Or.inr ⟨rfl, state_none_inv h hv⟩
  | some s' =>
    simp [state, hv] at h
    cases h
    exact Or.inl rfl

/-- The converse, when the DH output is not all zeros. -/
theorem state_none (hv : peer.isVerified = true) (hi : isIdentity peer.chhayaId.publicKey = true)
    (hp : codec.identity.privateKey.length = 32)
    (hz : (P.x25519 codec.identity.privateKey (parseIdentity peer.chhayaId.publicKey)).all P.isZero = false) :
    codec.state P none peer conversation fresh = .ok (codec.newSession P peer.chhayaId.publicKey conversation) := by
  have hr := (identityOf_parseIdentity hi).1
  have hs := P.length_hkdf (P.x25519 codec.identity.privateKey (parseIdentity peer.chhayaId.publicKey)) none
    (some (directInfo conversation)) 32
  have hrun := TripleRatchet.startSession_run P { peer with id := sessionKey peer conversation } hv
    (codec.ownId < peer.chhayaId.publicKey) fresh (Nat.le_of_eq hs.symm) hr hp
  unfold state
  simp only [hv, hi, Bool.not_true, Bool.false_eq_true, if_false, X25519Kex.sharedSecret_ok P hp hr, bind, Except.bind,
    hz]
  rw [hv] at hrun
  exact hrun

/-- An `encrypt` that returns advanced the session and sealed the payload. -/
theorem encrypt_inv {payload : JsonMap} {r : Sealed β}
    (h : codec.encrypt P saved peer conversation messageId sender payload fresh = .ok r) :
    ∃ s, codec.state P saved peer conversation fresh = .ok s ∧
      (TripleRatchet.encrypt P fresh).run s = .ok (r.header, r.keys) r.state ∧
      r.aad = aad conversation messageId sender ++ r.header.toBytes ∧
      r.plaintext = utf8Encode (jsonEncode (.obj payload.fields)) ∧
      ∃ body, AesGcm.encryptBytes P r.keys.messageKey r.plaintext r.keys.nonce r.aad = .ok body ∧
        r.envelope = envelopeText r.header.toBytes body := by
  unfold encrypt at h
  obtain ⟨s, hs, h⟩ := except_bind_ok h
  refine ⟨s, hs, ?_⟩
  cases hr : (TripleRatchet.encrypt P fresh).run s with
  | error e s' => simp only [hr] at h; cases h
  | ok w s' =>
    simp only [hr] at h
    obtain ⟨body, hb, h⟩ := except_bind_ok h
    cases h
    exact ⟨rfl, rfl, rfl, body, hb, rfl⟩

/-- Once the ratchet has advanced, sealing cannot fail. -/
theorem encrypt_ok {s s' : SessionState β} {header : TripleHeader} {keys : MessageKeyBundle β}
    (messageId sender : String) (payload : JsonMap) (hs : codec.state P saved peer conversation fresh = .ok s)
    (hr : (TripleRatchet.encrypt P fresh).run s = .ok (header, keys) s') :
    let bound := aad conversation messageId sender ++ header.toBytes
    let plaintext := utf8Encode (jsonEncode (.obj payload.fields))
    let iv := keys.nonce.map P.toByte
    codec.encrypt P saved peer conversation messageId sender payload fresh =
      .ok ⟨s', envelopeText header.toBytes (iv ++ P.gcmSeal keys.messageKey iv bound plaintext), header, keys, bound,
        plaintext⟩ := by
  intro bound plaintext iv
  have hb := AesGcm.encryptBytes_ok P keys.messageKey_length keys.nonce_length plaintext bound
  simp only [encrypt, hs, hr, bind, Except.bind]
  rw [hb]
  rfl

/-- A `decrypt` that returns advanced the session and opened the body. -/
theorem decrypt_inv {envelope : String} {r : Opened β}
    (h : codec.decrypt P saved peer conversation messageId sender envelope fresh = .ok r) :
    ∃ wire headerBytes s body, wireOf envelope = .ok (wire, headerBytes) ∧
      codec.state P saved peer conversation fresh = .ok s ∧ TripleHeader.fromBytes headerBytes = .ok r.header ∧
      (TripleRatchet.decrypt P fresh r.header).run s = .ok r.keys r.state ∧
      r.aad = aad conversation messageId sender ++ headerBytes ∧
      AesGcm.decryptBytes P r.keys.messageKey body r.aad = .ok r.plaintext ∧
      decodeMap r.plaintext = .ok r.payload := by
  unfold decrypt at h
  obtain ⟨⟨wire, headerBytes⟩, hw, h⟩ := except_bind_ok h
  obtain ⟨s, hs, h⟩ := except_bind_ok h
  obtain ⟨header, hh, h⟩ := except_bind_ok h
  cases hr : (TripleRatchet.decrypt P fresh header).run s with
  | error e s' => simp only [hr] at h; cases h
  | ok keys s' =>
    simp only [hr] at h
    obtain ⟨bs, -, h⟩ := except_bind_ok h
    obtain ⟨body, -, h⟩ := except_bind_ok h
    obtain ⟨plaintext, hp, h⟩ := except_bind_ok h
    obtain ⟨payload, hd, h⟩ := except_bind_ok h
    cases h
    exact ⟨wire, headerBytes, s, body, hw, hs, hh, hr, rfl, hp, hd⟩

/-- An envelope reads back as its fields. -/
theorem jsonDecode_envelopeText (header body : Bytes) :
    jsonDecode (envelopeText header body) = .ok (.obj (envelopeFields header body)) := by
  rw [jsonDecode, envelopeText, jsonEncode, String.toList_ofList, Json.decode_encode]
  simp [envelopeFields, Json.WF, Json.WFFields, Json.fits64]

theorem asString_header (header body : Bytes) :
    asString (field (envelopeFields header body) "header") = .ok (base64Encode header) := by
  simp [envelopeFields, field, asString]

theorem asString_body (header body : Bytes) :
    asString (field (envelopeFields header body) "body") = .ok (base64Encode body) := by
  simp [envelopeFields, field, asString]

theorem wireOf_envelopeText (header body : Bytes) :
    wireOf (envelopeText header body) = .ok (envelopeFields header body, header) := by
  have h : isOne (field (envelopeFields header body) "v") = true := rfl
  simp only [wireOf, jsonDecode_envelopeText, asMap, h, asString_header, base64Decode_base64Encode, bind, Except.bind,
    Bool.not_true, Bool.false_eq_true, if_false]
  rfl

/-- An envelope whose header the ratchet takes and whose body opens is decrypted. -/
theorem decrypt_envelope {s s' : SessionState β} {headerBytes body plaintext : Bytes} {header : TripleHeader}
    {keys : MessageKeyBundle β} {payload : JsonFields}
    (hs : codec.state P saved peer conversation fresh = .ok s) (hh : TripleHeader.fromBytes headerBytes = .ok header)
    (hr : (TripleRatchet.decrypt P fresh header).run s = .ok keys s')
    (hb : AesGcm.decryptBytes P keys.messageKey body (aad conversation messageId sender ++ headerBytes) = .ok plaintext)
    (hp : decodeMap plaintext = .ok payload) :
    codec.decrypt P saved peer conversation messageId sender (envelopeText headerBytes body) fresh =
      .ok ⟨s', payload, header, keys, aad conversation messageId sender ++ headerBytes, plaintext⟩ := by
  simp only [decrypt, wireOf_envelopeText, asString_body, base64Decode_base64Encode, hs, hh, hr, hb, hp, bind,
    Except.bind]
  rfl

end RatchetMessageCodec

end Chhaya
