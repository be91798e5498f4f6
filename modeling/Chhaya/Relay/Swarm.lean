import Chhaya.Codec.MessageCodec
import Chhaya.Lib.Typestate

/-!
# The swarm relay

`backend/relay/src/main.rs`: a store of encrypted chunks and a counter of its bytes, each behind a `RwLock`, and the
handlers of uploads, downloads, garbage collections and health checks. Instants and durations are nanoseconds; no length
comes near the end of `u64`. What a handler does between two lock acquisitions is one operation on what it has locked.

- `bytes_insert`, `bytes_erase`, `bytes_retain`: the bytes of a store that has changed.
- `RelayState.collect_spec`: what a garbage collection leaves.
-/

namespace Chhaya

namespace Swarm

/-! ## Chunks -/

structure EncryptedChunk where
  data : Bytes
  uploadedAt : Nat
  ttl : Nat
  downloadCount : Nat := 0
  maxDownloads : Nat
  sha256 : String

/-- `is_expired` at the instant `now`. -/
def EncryptedChunk.isExpired (c : EncryptedChunk) (now : Nat) : Bool :=
  decide (c.ttl < now - c.uploadedAt) || decide (c.maxDownloads ≤ c.downloadCount)

abbrev Chunks := DartMap String EncryptedChunk

/-- The length of the data of all chunks. -/
def bytes (m : Chunks) : Nat := (m.entries.map fun e => e.2.data.length).sum

/-- `retain` with the chunks that are not expired. -/
def retain (m : Chunks) (now : Nat) : Chunks :=
  ⟨m.entries.filter fun e => !e.2.isExpired now, m.nodupKeys.sublist List.filter_sublist⟩

/-- The length of the data of the expired chunks. -/
def expiredBytes (m : Chunks) (now : Nat) : Nat :=
  ((m.entries.filter fun e => e.2.isExpired now).map fun e => e.2.data.length).sum

section

variable {m : Chunks} {id : String} {c : EncryptedChunk} {now : Nat}

@[simp] theorem bytes_empty : bytes ∅ = 0 := rfl

theorem bytes_erase (h : m.lookup id = some c) : bytes (m.erase id) + c.data.length = bytes m := by
  have hk : id ∈ m.entries.keys := AList.mem_keys.mp (AList.lookup_isSome.mp (by rw [h]; rfl))
  obtain ⟨b, l₁, l₂, hn, hl, he⟩ := List.exists_of_kerase hk
  have hb : b = c := by
    have hm : ⟨id, b⟩ ∈ m.entries := by rw [hl]; simp
    exact (Option.some.inj ((AList.mem_lookup_iff.mpr hm).symm.trans h))
  show ((m.entries.kerase id).map _).sum + _ = (m.entries.map _).sum
  rw [he, hl, hb]
  simp only [List.map_append, List.map_cons, List.sum_append, List.sum_cons]
  omega

theorem bytes_erase_of_notMem (h : m.lookup id = none) : bytes (m.erase id) = bytes m := by
  have hk : id ∉ m.entries.keys := AList.lookup_eq_none.mp h
  show ((m.entries.kerase id).map _).sum = _
  rw [List.kerase_of_notMem_keys hk]
  rfl

/-- A chunk replaces the one with its id. -/
theorem bytes_insert (m : Chunks) (id : String) (c : EncryptedChunk) :
    bytes (m.insert id c) = c.data.length + bytes (m.erase id) := rfl

theorem bytes_retain (m : Chunks) (now : Nat) : bytes (retain m now) + expiredBytes m now = bytes m := by
  show ((m.entries.filter _).map _).sum + ((m.entries.filter _).map _).sum = (m.entries.map _).sum
  induction m.entries with
  | nil => rfl
  | cons e l ih =>
    cases he : e.2.isExpired now <;> simp [he] <;> omega

end

/-! ## Locks -/

inductive LockName
  | chunks | curBytes
  deriving DecidableEq

inductive Mode
  | read | write
  deriving DecidableEq

/-- A `RwLock`: how many have it for reading, and whether one has it for writing. -/
structure RwLock where
  readers : Nat := 0
  writer : Bool := false
  deriving DecidableEq

def RwLock.Free (l : RwLock) : Prop := l.readers = 0 ∧ l.writer = false

/-- Whether the lock can be granted. -/
def RwLock.Admits (l : RwLock) : Mode → Prop
  | .read => l.writer = false
  | .write => l.Free

def RwLock.take (l : RwLock) : Mode → RwLock
  | .read => { l with readers := l.readers + 1 }
  | .write => { l with writer := true }

def RwLock.drop (l : RwLock) : Mode → RwLock
  | .read => { l with readers := l.readers - 1 }
  | .write => { l with writer := false }

/-! ## The state -/

/-- The relay, and whether a subtraction has saturated, which it does not record. -/
structure RelayState where
  chunks : Chunks := ∅
  curBytes : Nat := 0
  locks : LockName → RwLock := fun _ => {}
  now : Nat := 0
  saturated : Bool := false

/-- `*cur = cur.saturating_sub(n)`. -/
def RelayState.subtract (s : RelayState) (n : Nat) : RelayState :=
  { s with curBytes := s.curBytes - n, saturated := s.saturated || decide (s.curBytes < n) }

/-- `if !map.contains_key(..) { *cur += .. }` and `map.insert(..)`. -/
def RelayState.insert (s : RelayState) (id : String) (c : EncryptedChunk) : RelayState :=
  { s with
    curBytes := if (s.chunks.lookup id).isSome then s.curBytes else s.curBytes + c.data.length
    chunks := s.chunks.insert id c }

/-- What `chunk_handler` finds: an expired chunk of so many bytes, or a chunk that is counted once more. -/
inductive Fetched
  | expired (len : Nat)
  | found (c : EncryptedChunk)
  | missing

/-- `map.get_mut(&id)` and what is done with it under the lock of the map. -/
def RelayState.fetch (s : RelayState) (id : String) : Fetched × RelayState :=
  match s.chunks.lookup id with
  | none => (.missing, s)
  | some c =>
    if c.isExpired s.now then (.expired c.data.length, { s with chunks := s.chunks.erase id })
    else
      let counted := { c with downloadCount := c.downloadCount + 1 }
      (.found counted, { s with chunks := s.chunks.insert id counted })

theorem RelayState.fetch_cases (s : RelayState) (id : String) :
    (s.chunks.lookup id = none ∧ s.fetch id = (.missing, s)) ∨
    (∃ c, s.chunks.lookup id = some c ∧ s.fetch id = (.expired c.data.length, { s with chunks := s.chunks.erase id })) ∨
    ∃ c, s.chunks.lookup id = some c ∧ s.fetch id = (.found { c with downloadCount := c.downloadCount + 1 },
      { s with chunks := s.chunks.insert id { c with downloadCount := c.downloadCount + 1 } }) := by
  unfold fetch
  cases hc : s.chunks.lookup id with
  | none => exact Or.inl ⟨rfl, rfl⟩
  | some c =>
    dsimp only
    split
    · exact Or.inr (Or.inl ⟨c, rfl, rfl⟩)
    · exact Or.inr (Or.inr ⟨c, rfl, rfl⟩)

/-- The subtractions of `gc_handler`, one for each expired chunk. -/
def RelayState.collect (s : RelayState) : Nat × Nat × RelayState :=
  let expired := s.chunks.entries.filter fun e => e.2.isExpired s.now
  let kept := retain s.chunks s.now
  (expired.length, kept.entries.length,
    { (expired.map fun e => e.2.data.length).foldl RelayState.subtract s with chunks := kept })

theorem RelayState.foldl_subtract (l : List Nat) (s : RelayState) :
    (l.foldl subtract s).chunks = s.chunks ∧ (l.foldl subtract s).curBytes = s.curBytes - l.sum ∧
      (l.sum ≤ s.curBytes → (l.foldl subtract s).saturated = s.saturated) := by
  induction l generalizing s with
  | nil => exact ⟨rfl, rfl, fun _ => rfl⟩
  | cons n l ih =>
    obtain ⟨h1, h2, h3⟩ := ih (s.subtract n)
    refine ⟨h1, ?_, fun hle => ?_⟩
    · rw [List.foldl_cons, h2, List.sum_cons]
      exact Nat.sub_sub _ _ _
    · rw [List.sum_cons] at hle
      have hn : n ≤ s.curBytes := by omega
      have hs : (s.subtract n).saturated = s.saturated := by
        show (s.saturated || decide (s.curBytes < n)) = s.saturated
        rw [decide_eq_false (by omega), Bool.or_false]
      rw [List.foldl_cons, h3 (show l.sum ≤ s.curBytes - n by omega), hs]

/-- What a garbage collection leaves. -/
theorem RelayState.collect_spec (s : RelayState) : s.collect.2.2.chunks = retain s.chunks s.now ∧
    s.collect.2.2.curBytes = s.curBytes - expiredBytes s.chunks s.now ∧
    (expiredBytes s.chunks s.now ≤ s.curBytes → s.collect.2.2.saturated = s.saturated) :=
  ⟨rfl, (foldl_subtract _ s).2⟩

/-! ## The handlers -/

/-- What a handler awaits (`acquire`) and does. An insertion says what its upload has read of the counter when it checked the
capacity, which it does not look at. -/
inductive SwarmOp
  | acquire (l : LockName) (m : Mode)
  | release (l : LockName) (m : Mode)
  | curBytes
  | count
  | instant
  | insert (id : String) (c : EncryptedChunk) (checked : Nat)
  | fetch (id : String)
  | subtract (len : Nat)
  | collect

@[reducible] def SwarmAns : SwarmOp → Type
  | .curBytes | .count | .instant => Nat
  | .fetch _ => Fetched
  | .collect => Nat × Nat
  | _ => Unit

/-- Only locks are awaited. -/
def SwarmOp.Sync : SwarmOp → Prop
  | .acquire _ _ => False
  | _ => True

/-- What an operation does. -/
def exec : (op : SwarmOp) → RelayState → Except Empty (SwarmAns op) × RelayState
  | .acquire l m, s => (.ok (), { s with locks := Function.update s.locks l ((s.locks l).take m) })
  | .release l m, s => (.ok (), { s with locks := Function.update s.locks l ((s.locks l).drop m) })
  | .curBytes, s => (.ok s.curBytes, s)
  | .count, s => (.ok s.chunks.entries.length, s)
  | .instant, s => (.ok s.now, s)
  | .insert id c _, s => (.ok (), s.insert id c)
  | .fetch id, s => (.ok (s.fetch id).1, (s.fetch id).2)
  | .subtract len, s => (.ok (), s.subtract len)
  | .collect, s => (.ok (s.collect.1, s.collect.2.1), s.collect.2.2)

/-- A lock is granted when it can be, whoever else waits for it. -/
def Admitted (s : RelayState) : SwarmOp → Prop
  | .acquire l m => (s.locks l).Admits m
  | _ => True

def Effect (s : RelayState) (op : SwarmOp) (a : Except Empty (SwarmAns op)) (s' : RelayState) : Prop :=
  Admitted s op ∧ exec op s = (a, s')

/-- Time passes. -/
inductive Waits : RelayState → RelayState → Prop
  | waits (s : RelayState) (n : Nat) : Waits s { s with now := s.now + n }

abbrev SwarmProg (α : Type) := Async SwarmOp SwarmAns Empty α

/-- One operation. -/
def ask (op : SwarmOp) : SwarmProg (SwarmAns op) := Async.await op

/-- The relay's own data, and the hexadecimal SHA-256. -/
structure SwarmRelay where
  nodeId : String
  maxBytes : Nat
  sha256 : Bytes → String

structure UploadReq where
  chunkId : String
  dataB64 : String
  ttlHours : Option Nat := none
  maxDownloads : Option Nat := none

inductive Response
  | badRequest (error : String)
  | insufficientStorage
  | stored (chunkId sha256 : String)
  | gone
  | chunk (chunkId dataB64 sha256 : String) (downloads : Nat)
  | notFound
  | collected (removed remaining : Nat)
  | health (nodeId : String) (chunks bytesUsed bytesMax uptimeSecs : Nat)

def isAsciiHexDigit (c : Char) : Bool := ('0' ≤ c && c ≤ '9') || ('a' ≤ c && c ≤ 'f') || ('A' ≤ c && c ≤ 'F')

/-- The value of a hexadecimal digit in `hex::decode`. -/
def hexDecodeDigit (c : Char) : Nat :=
  if c ≤ '9' then c.toNat - '0'.toNat else if c ≤ 'F' then c.toNat - 'A'.toNat + 10 else c.toNat - 'a'.toNat + 10

/-- `hex::decode` of an even number of hexadecimal digits. -/
def hexDecode : List Char → Bytes
  | a :: b :: cs => UInt8.ofNat (16 * hexDecodeDigit a + hexDecodeDigit b) :: hexDecode cs
  | _ => []

/-- `base64_decode`. -/
def base64_decode (s : String) : Except String Bytes :=
  if s.toList.all isAsciiHexDigit && (utf8Encode s).length % 2 == 0 then .ok (hexDecode s.toList) else .ok (utf8Encode s)

/-- `base64_encode`. -/
def base64_encode (b : Bytes) : String := hexOf b

/-- Nanoseconds of `Duration::from_secs(h * 3600)`. The product wraps. -/
def ttlOf (ttlHours : Option Nat) : Nat := (ttlHours.getD 24 * 3600) % 2 ^ 64 * 1000000000

/-- `upload_handler` once the chunk is made, after a check that has read `checked`. -/
def insertChunk (relay : SwarmRelay) (req : UploadReq) (data : Bytes) (checked uploadedAt : Nat) : SwarmProg Response := do
  ask (.acquire .chunks .write)
  ask (.acquire .curBytes .write)
  ask (.insert req.chunkId
    { data, uploadedAt, ttl := ttlOf req.ttlHours, maxDownloads := req.maxDownloads.getD 5, sha256 := relay.sha256 data }
    checked)
  ask (.release .curBytes .write)
  ask (.release .chunks .write)
  return .stored req.chunkId (relay.sha256 data)

/-- `upload_handler` from the capacity check on. -/
def store (relay : SwarmRelay) (req : UploadReq) (data : Bytes) : SwarmProg Response := do
  ask (.acquire .curBytes .read)
  let cur ← ask .curBytes
  ask (.release .curBytes .read)
  if cur + data.length > relay.maxBytes then return .insufficientStorage
  else insertChunk relay req data cur (← ask .instant)

/-- `upload_handler`. -/
def uploadHandler (relay : SwarmRelay) (req : UploadReq) : SwarmProg Response :=
  match base64_decode req.dataB64 with
  | .ok data => store relay req data
  | .error e => return .badRequest ("b64: " ++ e)

/-- `chunk_handler` once it has looked. -/
def answerChunk (id : String) : Fetched → SwarmProg Response
  | .expired len => do
    ask (.acquire .curBytes .write)
    ask (.subtract len)
    ask (.release .curBytes .write)
    ask (.release .chunks .write)
    return .gone
  | .found c => do
    ask (.release .chunks .write)
    return .chunk id (base64_encode c.data) c.sha256 c.downloadCount
  | .missing => do
    ask (.release .chunks .write)
    return .notFound

/-- `chunk_handler`. -/
def chunkHandler (id : String) : SwarmProg Response := do
  ask (.acquire .chunks .write)
  answerChunk id (← ask (.fetch id))

/-- `gc_handler`. -/
def gcHandler : SwarmProg Response := do
  ask (.acquire .chunks .write)
  ask (.acquire .curBytes .write)
  let r ← ask .collect
  ask (.release .curBytes .write)
  ask (.release .chunks .write)
  return .collected r.1 r.2

/-- `health_handler`. The relay starts at the instant 0. -/
def healthHandler (relay : SwarmRelay) : SwarmProg Response := do
  ask (.acquire .chunks .read)
  let chunks ← ask .count
  ask (.release .chunks .read)
  ask (.acquire .curBytes .read)
  let bytes ← ask .curBytes
  ask (.release .curBytes .read)
  return .health relay.nodeId chunks bytes relay.maxBytes ((← ask .instant) / 1000000000)

inductive Request
  | upload (req : UploadReq)
  | chunk (id : String)
  | gc
  | health

def handler (relay : SwarmRelay) : Request → SwarmProg Response
  | .upload req => uploadHandler relay req
  | .chunk id => chunkHandler id
  | .gc => gcHandler
  | .health => healthHandler relay

end Swarm

end Chhaya
