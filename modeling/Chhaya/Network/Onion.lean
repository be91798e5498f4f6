import Chhaya.Models
import Chhaya.Codec.MessageCodec
import Chhaya.Crypto.Ideal

/-!
# The onion router

`lib/services/network/onion_router_service.dart`: messages of one size, wrapped in a layer for each node of a path. What
the random source and the clock give is a parameter (`OnionDraws`); the hash of a node's public key is the key of its
layer.

- `length_wrapLayers`, `Carries.unwrapLayer`: what a layer adds, and what taking it off leaves.
- `Carries.unwrapAll`: the nodes of a path take off what is theirs, one after the other.
- `onion_round_trip`: what is wrapped comes out, whatever the path, and its size does not tell what it is.
-/

namespace Chhaya

/-- A node of the directory. Its reliability is a positive number. -/
structure OnionNode where
  id : String
  address : String
  publicKey : Bytes
  latencyMs : Int
  isActive : Bool := true
  region : String
  reliability : ℚ
  reliable : 0 < reliability
  deriving DecidableEq

structure OnionPacket where
  packetId : String
  payload : Bytes
  layersRemaining : Int
  routePath : List String
  createdAt : DateTime
  ttlSeconds : Int := 30
  circuitId : String

/-- The nonce of a layer. -/
abbrev LayerNonce := {n : Bytes // n.length = 12}

/-- What `Random.secure()` and the clock give one call of `wrapMessage`: the padding byte at each position, the nonce of
the layer of each position on the path, and the bytes of the two ids. -/
structure OnionDraws where
  padding : Nat → UInt8
  nonces : Nat → LayerNonce
  packetIdBytes : Bytes
  circuitIdBytes : Bytes
  now : DateTime

/-! ## Texts that may be malformed -/

/-- A sequence of UTF-8 that has begun: the bytes it needs, its value so far, and the range of its next byte. -/
structure Utf8State where
  need : Nat := 0
  value : Nat := 0
  low : UInt8 := 0x80
  high : UInt8 := 0xBF

/-- What a first byte stands for, or begins. -/
def utf8Start (b : UInt8) : List Char × Utf8State :=
  let n := b.toNat
  if n < 0x80 then ([Char.ofNat n], {})
  else if 0xC2 ≤ n ∧ n ≤ 0xDF then ([], ⟨1, n - 0xC0, 0x80, 0xBF⟩)
  else if 0xE0 ≤ n ∧ n ≤ 0xEF then
    ([], ⟨2, n - 0xE0, if n = 0xE0 then 0xA0 else 0x80, if n = 0xED then 0x9F else 0xBF⟩)
  else if 0xF0 ≤ n ∧ n ≤ 0xF4 then
    ([], ⟨3, n - 0xF0, if n = 0xF0 then 0x90 else 0x80, if n = 0xF4 then 0x8F else 0xBF⟩)
  else (['\uFFFD'], {})

/-- Each part that begins no character, or whose character does not end, is one U+FFFD. -/
def utf8Replacing : Bytes → Utf8State → List Char
  | [], st => if st.need = 0 then [] else ['\uFFFD']
  | b :: r, st =>
    if st.need = 0 then (utf8Start b).1 ++ utf8Replacing r (utf8Start b).2
    else if st.low ≤ b ∧ b ≤ st.high then
      let value := st.value * 64 + (b.toNat - 0x80)
      if st.need = 1 then Char.ofNat value :: utf8Replacing r {} else utf8Replacing r { need := st.need - 1, value }
    else '\uFFFD' :: ((utf8Start b).1 ++ utf8Replacing r (utf8Start b).2)

/-- `utf8.decode(bytes, allowMalformed: true)`: a byte order mark at the front is dropped. -/
def utf8DecodeMalformed (bytes : Bytes) : String :=
  let body := match bytes with
    | 0xEF :: 0xBB :: 0xBF :: r => r
    | r => r
  String.ofList (utf8Replacing body {})

namespace OnionRouterService

/-! ## Wrapping and unwrapping -/

def paddedSize : Nat := 512

section

variable (P : Primitives UInt8) (sha256 : Bytes → Bytes)

/-- `_aesGcmEncrypt`: the ciphertext and the tag. -/
def aesGcmEncrypt (key nonce plain : Bytes) : Bytes := P.gcmSeal key nonce [] plain

/-- `_aesGcmDecrypt`. -/
def aesGcmDecrypt (key nonce cipherAndTag : Bytes) : Except DartError Bytes :=
  match P.gcmOpen key nonce [] cipherAndTag with
  | some plain => .ok plain
  | none => .error (.argument "" "" "mac check in GCM failed")

/-- `_deriveNodeKey`. -/
def deriveNodeKey (pubKey : Bytes) : Bytes := sha256 pubKey

/-- The padded plaintext: the length of the content, the content and random bytes. -/
def pad (padding : Nat → UInt8) (originalBytes : Bytes) : Bytes :=
  u32be originalBytes.length ++ originalBytes ++
    (List.range (paddedSize - 4 - originalBytes.length)).map fun i => padding (4 + originalBytes.length + i)

/-- One layer. -/
def wrapLayer (pubKey : Bytes) (nonce : LayerNonce) (payload : Bytes) : Bytes :=
  nonce.1 ++ aesGcmEncrypt P (deriveNodeKey sha256 pubKey) nonce.1 payload

/-- The loop of `wrapMessage` over the positions from `i` on: the last node's layer is the innermost. -/
def wrapLayers (nonces : Nat → LayerNonce) : Nat → List OnionNode → Bytes → Bytes
  | _, [], payload => payload
  | i, node :: path, payload => wrapLayer P sha256 node.publicKey (nonces i) (wrapLayers nonces (i + 1) path payload)

def wrapMessage (draws : OnionDraws) (message : Message) (path : List OnionNode) : Except DartError OnionPacket :=
  let originalBytes := utf8Encode message.content
  if originalBytes.length > paddedSize - 4 then
    .error (.argument "" "" "Message too large for 512B padding (max 508)")
  else .ok {
    packetId := hexOf draws.packetIdBytes
    payload := wrapLayers P sha256 draws.nonces 0 path (pad draws.padding originalBytes)
    layersRemaining := path.length
    routePath := path.map OnionNode.id
    createdAt := draws.now
    circuitId := hexOf draws.circuitIdBytes }

def unwrapLayer (packet : OnionPacket) (nodePrivateKeyOrPub : Bytes) : Except DartError OnionPacket :=
  if packet.payload.length < 12 + 16 then .error (.argument "" "" "payload too short")
  else do
    let plain ← aesGcmDecrypt P (deriveNodeKey sha256 nodePrivateKeyOrPub) (packet.payload.take 12) (packet.payload.drop 12)
    return {
      packetId := packet.packetId
      payload := plain
      layersRemaining := packet.layersRemaining - 1
      routePath := if packet.routePath.length > 1 then packet.routePath.drop 1 else []
      createdAt := packet.createdAt
      circuitId := packet.circuitId }

/-- Each key in turn takes off a layer. -/
def unwrapAll (packet : OnionPacket) (keys : List Bytes) : Except DartError OnionPacket :=
  keys.foldlM (unwrapLayer P sha256) packet

end

/-- The length in front of the content. -/
def sizeHeader (payload : Bytes) : Nat := readU32be (payload.take 4)

def extractContent (decryptedPayload : Bytes) : Except DartError String :=
  let length := sizeHeader decryptedPayload
  let content := (decryptedPayload.drop 4).take length
  if decryptedPayload.length = 512 then
    if length > decryptedPayload.length - 4 then .error (.format ("Malformed payload size header: " ++ toString length))
    else utf8Decode content
  else if decryptedPayload.length > 4 ∧ length ≤ decryptedPayload.length - 4 ∧ length < 512 then
    match utf8Decode content with
    | .ok s => .ok s
    | .error _ => .ok (utf8DecodeMalformed decryptedPayload)
  else .ok (utf8DecodeMalformed decryptedPayload)

/-! ## One size -/

section

variable {P : Primitives UInt8} {sha256 : Bytes → Bytes} {padding : Nat → UInt8} {nonces : Nat → LayerNonce}
  {content payload : Bytes}

theorem length_pad (h : content.length ≤ paddedSize - 4) : (pad padding content).length = paddedSize := by
  simp only [pad, paddedSize] at h ⊢
  simp only [List.length_append, length_u32be, List.length_map, List.length_range]
  omega

theorem length_wrapLayer (pubKey : Bytes) (nonce : LayerNonce) (payload : Bytes) :
    (wrapLayer P sha256 pubKey nonce payload).length = payload.length + 28 := by
  rw [wrapLayer, List.length_append, nonce.2, aesGcmEncrypt, P.length_gcmSeal]
  omega

/-- Every node adds a nonce and a tag. -/
theorem length_wrapLayers (i : Nat) (path : List OnionNode) (payload : Bytes) :
    (wrapLayers P sha256 nonces i path payload).length = payload.length + 28 * path.length := by
  induction path generalizing i with
  | nil => rfl
  | cons node path ih =>
    rw [wrapLayers, length_wrapLayer, ih, List.length_cons]
    omega

/-- What was padded is found again. -/
theorem extractContent_pad (h : content.length ≤ paddedSize - 4) :
    extractContent (pad padding content) = utf8Decode content := by
  have hlen : (pad padding content).length = 512 := length_pad h
  have hle : content.length ≤ 508 := h
  have hsize : sizeHeader (pad padding content) = content.length := by
    show readU32be (u32be content.length) = content.length
    exact readU32be_u32be (by omega)
  have hcontent : ((pad padding content).drop 4).take content.length = content := by
    show (content ++ _).take content.length = content
    exact List.take_left
  unfold extractContent
  dsimp only
  rw [if_pos hlen, hsize, if_neg (by omega), hcontent]

/-! ## Layers -/

/-- The packet is wrapped for the rest of the path. -/
structure Carries (P : Primitives UInt8) (sha256 : Bytes → Bytes) (payload : Bytes) (packet : OnionPacket)
    (path : List OnionNode) : Prop where
  payload : ∃ nonces i, packet.payload = wrapLayers P sha256 nonces i path payload
  layersRemaining : packet.layersRemaining = path.length
  routePath : packet.routePath = path.map OnionNode.id

/-- The first node of the rest takes off its layer. -/
theorem Carries.unwrapLayer {packet : OnionPacket} {node : OnionNode} {path : List OnionNode}
    (h : Carries P sha256 payload packet (node :: path)) : ∃ packet',
      unwrapLayer P sha256 packet node.publicKey = .ok packet' ∧ Carries P sha256 payload packet' path := by
  obtain ⟨⟨nonces, i, hp⟩, hl, hr⟩ := h
  have hlen : ¬packet.payload.length < 12 + 16 := by
    rw [hp, wrapLayers, length_wrapLayer]
    omega
  have htake : packet.payload.take 12 = (nonces i).1 := by
    rw [hp, wrapLayers, wrapLayer, List.take_left' (nonces i).2]
  have hdrop : packet.payload.drop 12 =
      aesGcmEncrypt P (deriveNodeKey sha256 node.publicKey) (nonces i).1 (wrapLayers P sha256 nonces (i + 1) path payload) := by
    rw [hp, wrapLayers, wrapLayer, List.drop_left' (nonces i).2]
  unfold OnionRouterService.unwrapLayer
  rw [if_neg hlen, htake, hdrop, aesGcmDecrypt, aesGcmEncrypt, P.gcmOpen_gcmSeal]
  refine ⟨_, rfl, ⟨nonces, i + 1, rfl⟩, ?_, ?_⟩
  · show packet.layersRemaining - 1 = path.length
    rw [hl, List.length_cons]
    omega
  · show (if packet.routePath.length > 1 then packet.routePath.drop 1 else []) = path.map OnionNode.id
    rw [hr]
    cases path with
    | nil => rfl
    | cons next path => rfl

/-- The nodes of a path take off their layers. -/
theorem Carries.unwrapAll {packet : OnionPacket} {pre post : List OnionNode}
    (h : Carries P sha256 payload packet (pre ++ post)) : ∃ packet',
      unwrapAll P sha256 packet (pre.map OnionNode.publicKey) = .ok packet' ∧ Carries P sha256 payload packet' post := by
  induction pre generalizing packet with
  | nil => exact ⟨packet, rfl, h⟩
  | cons node pre ih =>
    obtain ⟨next, hn, hc⟩ := h.unwrapLayer
    obtain ⟨last, hl, hc'⟩ := ih hc
    refine ⟨last, ?_, hc'⟩
    show (OnionRouterService.unwrapLayer P sha256 packet node.publicKey >>= fun p => OnionRouterService.unwrapAll P sha256 p _) = _
    rw [hn]
    exact hl

/-! ## The round trip -/

/-- Only U+FEFF is encoded as a byte order mark. -/
theorem utf8Encode_no_bom {s : String} (h : s.toList.head? ≠ some '\uFEFF') (r : Bytes) :
    utf8Encode s ≠ 0xEF :: 0xBB :: 0xBF :: r := by
  intro hr
  obtain ⟨l, rfl⟩ : ∃ l, s = String.ofList l := ⟨s.toList, (String.ofList_toList).symm⟩
  rw [String.toList_ofList] at h
  cases l with
  | nil => cases hr
  | cons c l =>
    rw [utf8Encode_cons, String.utf8EncodeChar] at hr
    have hne : c.val.toNat ≠ 0xFEFF := by
      intro hc
      refine h (congrArg some (Char.ext (UInt32.toNat_inj.mp ?_)))
      exact hc
    have hlt : c.val.toNat < 0x110000 := by
      rcases c.valid with h | h
      · exact Nat.lt_trans h (by decide)
      · exact h.2
    have hbyte : ∀ {a : Nat} {b : UInt8} {bs cs : Bytes}, UInt8.ofNat a :: bs = b :: cs → a % 256 = b.toNat ∧ bs = cs := by
      intro a b bs cs he
      obtain ⟨rfl, h2⟩ := List.cons.inj he
      exact ⟨(UInt8.toNat_ofNat' ..).symm, h2⟩
    -- One case for each length of the encoding of the first character.
    split at hr
    · have h1 : _ % 256 = 239 := (hbyte hr).1
      omega
    · split at hr
      · have h1 : _ % 256 = 239 := (hbyte hr).1
        omega
      · split at hr
        · obtain ⟨h1, hr⟩ := hbyte hr
          obtain ⟨h2, hr⟩ := hbyte hr
          have h1 : _ % 256 = 239 := h1
          have h2 : _ % 256 = 187 := h2
          have h3 : _ % 256 = 191 := (hbyte hr).1
          omega
        · have h1 : _ % 256 = 239 := (hbyte hr).1
          omega

end

/-- What is wrapped for a path has the size of the path, and what its nodes leave of it is the message. -/
theorem onion_round_trip (P : Primitives UInt8) (sha256 : Bytes → Bytes) (draws : OnionDraws) (message : Message)
    (path : List OnionNode) (hbom : message.content.toList.head? ≠ some '\uFEFF') :
    ((∃ e, wrapMessage P sha256 draws message path = .error e) ↔ 508 < (utf8Encode message.content).length) ∧
    ∀ packet, wrapMessage P sha256 draws message path = .ok packet →
      packet.payload.length = 512 + 28 * path.length ∧
      (∀ pre post, path = pre ++ post → ∃ p, unwrapAll P sha256 packet (pre.map OnionNode.publicKey) = .ok p ∧
        p.routePath = post.map OnionNode.id ∧ p.layersRemaining = p.routePath.length) ∧
      ∃ p, unwrapAll P sha256 packet (path.map OnionNode.publicKey) = .ok p ∧ p.layersRemaining = 0 ∧ p.routePath = [] ∧
        extractContent p.payload = .ok message.content := by
  unfold wrapMessage
  dsimp only
  split
  · rename_i hlarge
    exact ⟨iff_of_true ⟨_, rfl⟩ hlarge, by rintro packet ⟨⟩⟩
  · rename_i hfits
    have hle : (utf8Encode message.content).length ≤ paddedSize - 4 := Nat.le_of_not_lt hfits
    refine ⟨iff_of_false (by rintro ⟨e, ⟨⟩⟩) hfits, ?_⟩
    intro packet hpacket
    have hcarries : Carries P sha256 (pad draws.padding (utf8Encode message.content)) packet path := by
      cases hpacket
      exact ⟨⟨draws.nonces, 0, rfl⟩, rfl, rfl⟩
    refine ⟨?_, fun pre post hpath => ?_, ?_⟩
    · obtain ⟨nonces, i, hpayload⟩ := hcarries.payload
      rw [hpayload, length_wrapLayers, length_pad hle]
      rfl
    · rw [hpath] at hcarries
      obtain ⟨p, hp, hc⟩ := hcarries.unwrapAll
      refine ⟨p, hp, hc.routePath, ?_⟩
      rw [hc.layersRemaining, hc.routePath, List.length_map]
    · have hall : Carries P sha256 (pad draws.padding (utf8Encode message.content)) packet (path ++ []) := by
        rw [List.append_nil]
        exact hcarries
      obtain ⟨p, hp, hc⟩ := hall.unwrapAll
      obtain ⟨nonces, i, hpayload⟩ := hc.payload
      refine ⟨p, hp, hc.layersRemaining, hc.routePath, ?_⟩
      rw [hpayload]
      show extractContent (pad draws.padding (utf8Encode message.content)) = .ok message.content
      rw [extractContent_pad hle, utf8Decode_utf8Encode (utf8Encode_no_bom hbom)]

def usEast : OnionNode where
  id := "node_us-east_000"
  address := "us-east.chhaya.network:8443"
  publicKey := List.replicate 32 1
  latencyMs := 45
  region := "us-east"
  reliability := 24 / 25
  reliable := by norm_num

def zeroDraws : OnionDraws where
  padding _ := 0
  nonces _ := ⟨List.replicate 12 0, rfl⟩
  packetIdBytes := List.replicate 16 0
  circuitIdBytes := List.replicate 8 0
  now := ⟨0, true⟩

def hi : Message where
  id := "1"
  conversationId := "c1"
  senderId := "alice"
  content := "Hi"
  timestamp := ⟨0, true⟩

/-- Two layers of the same node. -/
theorem onion_hi : ∃ packet, wrapMessage zeroPrimitives id zeroDraws hi [usEast, usEast] = .ok packet ∧
    packet.payload.length = 568 := by
  obtain ⟨herror, hok⟩ := onion_round_trip zeroPrimitives id zeroDraws hi [usEast, usEast] (by decide)
  cases h : wrapMessage zeroPrimitives id zeroDraws hi [usEast, usEast] with
  | error e => exact absurd (herror.mp ⟨e, h⟩) (by decide)
  | ok packet => exact ⟨packet, rfl, (hok packet h).1⟩

end OnionRouterService

end Chhaya
