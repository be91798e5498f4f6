import Chhaya.Dart.Sort
import Chhaya.Crypto.Ideal

/-!
# Files in chunks

`lib/services/network/decentralized_file_client.dart`: a file is split into encrypted chunks of at most 4 MB, with a
manifest of their hashes, and reassembled from a list of chunks that may be any.

- `flatMap_slice`: the slices of a file are the file.
- `checkHashes_cases`, `decryptAll_cases`: what passes the hashes is what was encrypted, and what decrypts is what was
  there.
- `split_reassemble`: chunks in any order give the file, and other lists nothing else.
-/

namespace Chhaya

structure FileChunk where
  index : Int
  totalChunks : Nat
  data : Bytes
  hash : String
  nonce : Bytes

structure FileManifest where
  fileId : String
  fileName : String
  totalSize : Nat
  totalChunks : Nat
  chunkHashes : List String
  encryptionKey : Bytes
  createdAt : DateTime
  ttlHours : Int := 24
  sha256 : String

/-- What the client throws: an `ArgumentError`, a `StateError`, a `RangeError`, or what the cipher throws. -/
inductive FileError
  | argument (message : String)
  | state (message : String)
  | range (message : String)
  | authentication
  deriving DecidableEq

/-- What `Random.secure()` and the clock give one call of `splitFile`. -/
structure FileDraws where
  fileIdBytes : Bytes
  encryptionKey : Bytes
  now : DateTime

namespace DecentralizedFileClient

def maxChunkSize : Nat := 4 * 1024 * 1024

def maxFileSize : Nat := 200 * 1024 * 1024

/-- The comparison of `reassembleFile`. -/
abbrev ChunkSort := ListSort fun a b : FileChunk => a.index ≤ b.index

section

variable (P : Primitives UInt8) (sha256 : Bytes → Bytes)

def aesGcmEncrypt (key nonce plain : Bytes) : Bytes := P.gcmSeal key nonce [] plain

def aesGcmDecrypt (key nonce ct : Bytes) : Except FileError Bytes :=
  match P.gcmOpen key nonce [] ct with
  | some plain => .ok plain
  | none => .error .authentication

/-- `_deriveChunkNonce`. -/
def deriveChunkNonce (baseKey : Bytes) (index : Nat) : Bytes :=
  (sha256 (baseKey ++ [UInt8.ofNat index, UInt8.ofNat (index / 2 ^ 8), UInt8.ofNat (index / 2 ^ 16),
    UInt8.ofNat (index / 2 ^ 24)])).take 12

/-- `fileData.sublist(start, end)` of chunk `i`. -/
def slice (fileData : Bytes) (i : Nat) : Bytes :=
  (fileData.take (min (i * maxChunkSize + maxChunkSize) fileData.length)).drop (i * maxChunkSize)

/-- `(fileData.length / maxChunkSize).ceil().clamp(1, 1024)`. -/
def chunkCount (fileData : Bytes) : Nat := max 1 (min ((fileData.length + (maxChunkSize - 1)) / maxChunkSize) 1024)

/-- Chunk `i` of a file. -/
def chunkOf (key fileData : Bytes) (totalChunks i : Nat) : FileChunk :=
  let nonce := deriveChunkNonce sha256 key i
  let encrypted := aesGcmEncrypt P key nonce (slice fileData i)
  { index := i, totalChunks, data := encrypted, hash := hexOf (sha256 encrypted), nonce }

def splitFile (draws : FileDraws) (fileData : Bytes) (fileName : String) : Except FileError (FileManifest × List FileChunk) :=
  if fileData.length > maxFileSize then
    .error (.argument ("File " ++ toString fileData.length ++ " exceeds " ++ toString maxFileSize))
  else
    let totalChunks := chunkCount fileData
    let chunks := (List.range totalChunks).map (chunkOf P sha256 draws.encryptionKey fileData totalChunks)
    .ok ({
      fileId := hexOf draws.fileIdBytes
      fileName
      totalSize := fileData.length
      totalChunks
      chunkHashes := chunks.map FileChunk.hash
      encryptionKey := draws.encryptionKey
      createdAt := draws.now
      sha256 := hexOf (sha256 fileData) }, chunks)

/-- The loop of `reassembleFile` over the hashes, from the position `i` on. -/
def checkHashes (chunkHashes : List String) : Nat → List FileChunk → Except FileError Unit
  | _, [] => .ok ()
  | i, c :: sorted =>
    match chunkHashes[i]? with
    | none => .error (.range ("Not in range: " ++ toString i))
    | some expected =>
      if hexOf (sha256 c.data) ≠ expected then .error (.state ("Chunk " ++ toString i ++ " hash mismatch"))
      else checkHashes chunkHashes (i + 1) sorted

/-- The decrypted parts. -/
def decryptAll (key : Bytes) (sorted : List FileChunk) : Except FileError (List Bytes) :=
  sorted.mapM fun c => aesGcmDecrypt P key c.nonce c.data

def reassembleFile (S : ChunkSort) (manifest : FileManifest) (chunks : List FileChunk) : Except FileError Bytes := do
  let sorted := S.sort chunks
  if sorted.length ≠ manifest.totalChunks then
    .error (.state ("Missing chunks: " ++ toString sorted.length ++ "/" ++ toString manifest.totalChunks))
  else do
    checkHashes sha256 manifest.chunkHashes 0 sorted
    let parts ← decryptAll P manifest.encryptionKey sorted
    let out := parts.flatten
    if manifest.totalSize > out.length then .error (.range ("Not in range: " ++ toString manifest.totalSize))
    else
      let res := out.take manifest.totalSize
      if hexOf (sha256 res) ≠ manifest.sha256 then .error (.state "File hash mismatch after reassembly")
      else .ok res

end

/-! ## Slices -/

/-- Consecutive slices of one length. -/
theorem flatMap_drop_take (l : Bytes) (k n : Nat) :
    ((List.range n).flatMap fun i => (l.drop (i * k)).take k) = l.take (n * k) := by
  induction n with
  | zero => simp
  | succ n ih =>
    rw [List.range_succ, List.flatMap_append, ih, List.flatMap_singleton, Nat.succ_mul, List.take_add]

theorem slice_eq (fileData : Bytes) (i : Nat) : slice fileData i = (fileData.drop (i * maxChunkSize)).take maxChunkSize := by
  have htake : fileData.take (min (i * maxChunkSize + maxChunkSize) fileData.length) =
      fileData.take (i * maxChunkSize + maxChunkSize) := by
    rw [List.take_eq_take_iff]
    omega
  rw [slice, htake, List.drop_take, Nat.add_sub_cancel_left]

theorem length_le_chunkCount {fileData : Bytes} (h : fileData.length ≤ maxFileSize) :
    fileData.length ≤ chunkCount fileData * maxChunkSize := by
  have hchunk : maxChunkSize = 4194304 := by decide
  have hfile : maxFileSize = 209715200 := by decide
  rw [hfile] at h
  rw [chunkCount, hchunk]
  omega

/-- The slices of a file are the file. -/
theorem flatMap_slice {fileData : Bytes} (h : fileData.length ≤ maxFileSize) :
    ((List.range (chunkCount fileData)).map (slice fileData)).flatten = fileData := by
  have hslice : slice fileData = fun i => (fileData.drop (i * maxChunkSize)).take maxChunkSize := funext (slice_eq fileData)
  rw [hslice, ← List.flatMap_def, flatMap_drop_take, List.take_of_length_le (length_le_chunkCount h)]

/-! ## Reassembling -/

section

variable {P : Primitives UInt8} {sha256 : Bytes → Bytes}

/-- The hashes refuse a list of chunks, or are theirs in the order of the list. -/
theorem checkHashes_cases (sha256 : Bytes → Bytes) (hashes : List String) (sorted : List FileChunk) {i : Nat}
    (hle : i + sorted.length ≤ hashes.length) :
    ((∃ m, checkHashes sha256 hashes i sorted = .error (.state m)) ∧
      ¬List.Forall₂ (fun c h => hexOf (sha256 c.data) = h) sorted ((hashes.drop i).take sorted.length)) ∨
      (checkHashes sha256 hashes i sorted = .ok () ∧
        List.Forall₂ (fun c h => hexOf (sha256 c.data) = h) sorted ((hashes.drop i).take sorted.length)) := by
  induction sorted generalizing i with
  | nil => exact Or.inr ⟨rfl, .nil⟩
  | cons c sorted ih =>
    rw [List.length_cons] at hle
    have hi : i < hashes.length := by omega
    rw [checkHashes, List.getElem?_eq_getElem hi, List.length_cons, List.drop_eq_getElem_cons hi, List.take_succ_cons]
    dsimp only
    by_cases hc : hexOf (sha256 c.data) = hashes[i]
    · rw [if_neg (not_not.mpr hc)]
      rcases ih (i := i + 1) (by omega) with ⟨h, hno⟩ | ⟨h, hall⟩
      · exact Or.inl ⟨h, fun hall => hno (List.forall₂_cons.mp hall).2⟩
      · exact Or.inr ⟨h, .cons hc hall⟩
    · rw [if_pos hc]
      exact Or.inl ⟨⟨_, rfl⟩, fun hall => hc (List.forall₂_cons.mp hall).1⟩

theorem decryptAll_cons (key : Bytes) (c : FileChunk) (sorted : List FileChunk) : decryptAll P key (c :: sorted) =
    (aesGcmDecrypt P key c.nonce c.data).bind fun p => (decryptAll P key sorted).bind fun ps => .ok (p :: ps) :=
  List.mapM_cons

/-- What stands for chunks that were sealed is refused by the cipher or opens to what they were made of. -/
theorem decryptAll_cases {key : Bytes} {sorted : List FileChunk} {parts : List Bytes}
    (h : List.Forall₂ (fun c part => ∀ p, P.gcmOpen key c.nonce [] c.data = some p → p = part) sorted parts) :
    decryptAll P key sorted = .error .authentication ∨ decryptAll P key sorted = .ok parts := by
  induction h with
  | nil => exact Or.inr rfl
  | @cons c part sorted parts hc _ ih =>
    rw [decryptAll_cons, aesGcmDecrypt]
    cases ho : P.gcmOpen key c.nonce [] c.data with
    | none => exact Or.inl rfl
    | some p =>
      obtain rfl := hc p ho
      rcases ih with ih | ih
      · rw [ih]
        exact Or.inl rfl
      · rw [ih]
        exact Or.inr rfl

/-- The cipher opens what it sealed. -/
theorem decryptAll_sealed {key : Bytes} {sorted : List FileChunk} {parts : List Bytes}
    (h : List.Forall₂ (fun c part => c.data = aesGcmEncrypt P key c.nonce part) sorted parts) :
    decryptAll P key sorted = .ok parts := by
  induction h with
  | nil => rfl
  | @cons c part sorted parts hc _ ih =>
    rw [decryptAll_cons, aesGcmDecrypt, hc, aesGcmEncrypt, P.gcmOpen_gcmSeal, ih]
    rfl

/-! ## The round trip -/

/-- Of the hashes and the cipher that matter here: no chunk of the list has the hash of a chunk of the file and other
data, and what the file's key has sealed opens under no nonce of the list to anything else. -/
structure Ideal (P : Primitives UInt8) (sha256 : Bytes → Bytes) (manifest : FileManifest) (original chunks : List FileChunk) :
    Prop where
  sha : ∀ c ∈ chunks, ∀ d ∈ original, sha256 c.data = sha256 d.data → c.data = d.data
  gcm : ∀ c ∈ chunks, ∀ d ∈ original, ∀ part p, d.data = aesGcmEncrypt P manifest.encryptionKey d.nonce part →
    P.gcmOpen manifest.encryptionKey c.nonce [] d.data = some p → p = part

variable {draws : FileDraws} {fileData : Bytes} {fileName : String} {manifest : FileManifest} {original : List FileChunk}

/-- What is known of a file that was split. -/
structure Split (P : Primitives UInt8) (sha256 : Bytes → Bytes) (fileData : Bytes) (manifest : FileManifest)
    (original : List FileChunk) (parts : List Bytes) : Prop where
  total : manifest.totalChunks = original.length
  hashes : manifest.chunkHashes = original.map FileChunk.hash
  hash : ∀ d ∈ original, d.hash = hexOf (sha256 d.data)
  size : manifest.totalSize = fileData.length
  sha256 : manifest.sha256 = hexOf (sha256 fileData)
  ordered : original.Pairwise fun a b => a.index < b.index
  data : List.Forall₂ (fun d part => d.data = aesGcmEncrypt P manifest.encryptionKey d.nonce part) original parts
  parts : parts.flatten = fileData

theorem splitFile_spec (P : Primitives UInt8) (sha256 : Bytes → Bytes) (draws : FileDraws) (fileName : String)
    (h : fileData.length ≤ maxFileSize) : ∃ manifest original parts,
      splitFile P sha256 draws fileData fileName = .ok (manifest, original) ∧
        Split P sha256 fileData manifest original parts := by
  unfold splitFile
  rw [if_neg (Nat.not_lt.mpr h)]
  refine ⟨_, _, (List.range (chunkCount fileData)).map (slice fileData), rfl, ?_, rfl, ?_, rfl, rfl, ?_, ?_, flatMap_slice h⟩
  · dsimp only
    rw [List.length_map, List.length_range]
  · intro d hd
    obtain ⟨i, -, rfl⟩ := List.mem_map.mp hd
    rfl
  · rw [List.pairwise_map]
    exact List.pairwise_lt_range.imp fun hlt => Int.ofNat_lt.mpr hlt
  · rw [List.forall₂_map_left_iff, List.forall₂_map_right_iff, List.forall₂_same]
    exact fun i _ => rfl

theorem Ideal.mono {original' chunks chunks' : List FileChunk} (h : Ideal P sha256 manifest original chunks)
    (ho : original' ⊆ original) (hc : chunks' ⊆ chunks) : Ideal P sha256 manifest original' chunks' :=
  ⟨fun c hcm d hdm => h.sha c (hc hcm) d (ho hdm), fun c hcm d hdm => h.gcm c (hc hcm) d (ho hdm)⟩

/-- Chunks with the hashes of the file's chunks open to the parts of the file, if they open. -/
theorem Ideal.opens {sorted : List FileChunk} {parts : List Bytes} (h : Ideal P sha256 manifest original sorted)
    (hhash : ∀ d ∈ original, d.hash = hexOf (sha256 d.data))
    (hs : List.Forall₂ (fun c h => hexOf (sha256 c.data) = h) sorted (original.map FileChunk.hash))
    (hd : List.Forall₂ (fun d part => d.data = aesGcmEncrypt P manifest.encryptionKey d.nonce part) original parts) :
    List.Forall₂ (fun c part => ∀ p, P.gcmOpen manifest.encryptionKey c.nonce [] c.data = some p → p = part) sorted parts := by
  induction hd generalizing sorted with
  | nil =>
    obtain rfl := List.forall₂_nil_right_iff.mp hs
    exact .nil
  | @cons d part original parts hpart _ ih =>
    obtain ⟨c, sorted, hc, hs', rfl⟩ := List.forall₂_cons_right_iff.mp hs
    refine .cons (fun p hp => ?_) (ih (h.mono (List.subset_cons_self _ _) (List.subset_cons_self _ _))
      (fun d hdm => hhash d (List.mem_cons_of_mem _ hdm)) hs')
    have hcm : c ∈ c :: sorted := List.mem_cons_self
    have hdm : d ∈ d :: original := List.mem_cons_self
    have hdata : c.data = d.data := h.sha c hcm d hdm (hexOf_injective (hc.trans (hhash d hdm)))
    rw [hdata] at hp
    exact h.gcm c hcm d hdm part p hpart hp

variable {parts : List Bytes} {S : ChunkSort} {chunks : List FileChunk}

/-- A list that passes the hashes and decrypts to the parts gives the file. -/
theorem Split.reassemble (h : Split P sha256 fileData manifest original parts) (hlen : (S.sort chunks).length = original.length)
    (hcheck : checkHashes sha256 manifest.chunkHashes 0 (S.sort chunks) = .ok ())
    (hparts : decryptAll P manifest.encryptionKey (S.sort chunks) = .ok parts) :
    reassembleFile P sha256 S manifest chunks = .ok fileData := by
  have htake : fileData.take fileData.length = fileData := List.take_length
  unfold reassembleFile
  dsimp only
  rw [if_neg (not_not.mpr (hlen.trans h.total.symm)), hcheck, hparts]
  show (if manifest.totalSize > parts.flatten.length then _ else _) = _
  rw [h.parts, h.size, if_neg (Nat.lt_irrefl _), htake, if_neg (not_not.mpr h.sha256.symm)]

/-- The hashes of the manifest are for exactly as many chunks as there are. -/
theorem Split.checkHashes (h : Split P sha256 fileData manifest original parts) {sorted : List FileChunk}
    (hlen : sorted.length = original.length) :
    ((∃ m, DecentralizedFileClient.checkHashes sha256 manifest.chunkHashes 0 sorted = .error (.state m)) ∧
      ¬List.Forall₂ (fun c h => hexOf (sha256 c.data) = h) sorted (original.map FileChunk.hash)) ∨
    (DecentralizedFileClient.checkHashes sha256 manifest.chunkHashes 0 sorted = .ok () ∧
      List.Forall₂ (fun c h => hexOf (sha256 c.data) = h) sorted (original.map FileChunk.hash)) := by
  have hmap : (original.map FileChunk.hash).length = sorted.length := by rw [List.length_map, hlen]
  have hc := checkHashes_cases sha256 manifest.chunkHashes sorted (i := 0) (by rw [h.hashes, hmap, Nat.zero_add])
  rw [List.drop_zero, h.hashes, ← hmap, List.take_length] at hc
  rw [h.hashes]
  exact hc

/-- The chunks of the file in any order give it back. -/
theorem Split.permuted (h : Split P sha256 fileData manifest original parts) (hp : chunks.Perm original) :
    reassembleFile P sha256 S manifest chunks = .ok fileData := by
  have hinj : ∀ a ∈ original, ∀ b ∈ original, a.index = b.index → a = b := by
    intro a ha b hb he
    by_contra hne
    have hlt := List.pairwise_iff_getElem.mp h.ordered
    obtain ⟨i, hi, rfl⟩ := List.getElem_of_mem ha
    obtain ⟨j, hj, rfl⟩ := List.getElem_of_mem hb
    rcases Nat.lt_trichotomy i j with hij | rfl | hij
    · exact absurd he (Int.ne_of_lt (hlt i j hi hj hij))
    · exact hne rfl
    · exact absurd he.symm (Int.ne_of_lt (hlt j i hj hi hij))
  have hsort : S.sort chunks = original :=
    S.sort_eq hp (h.ordered.imp Int.le_of_lt) fun a b ha hb hab hba => hinj a ha b hb (Int.le_antisymm hab hba)
  have hhashes : List.Forall₂ (fun c h => hexOf (sha256 c.data) = h) original (original.map FileChunk.hash) := by
    rw [List.forall₂_map_right_iff, List.forall₂_same]
    exact fun d hd => (h.hash d hd).symm
  rcases h.checkHashes rfl with ⟨-, hno⟩ | ⟨hok, -⟩
  · exact absurd hhashes hno
  · refine h.reassemble (by rw [hsort]) (by rw [hsort]; exact hok) ?_
    rw [hsort]
    exact decryptAll_sealed h.data

/-- Any list of chunks gives the file, or a `StateError`, or is refused by the cipher. -/
theorem Split.any (h : Split P sha256 fileData manifest original parts) (hi : Ideal P sha256 manifest original chunks) :
    reassembleFile P sha256 S manifest chunks = .ok fileData ∨
      (∃ m, reassembleFile P sha256 S manifest chunks = .error (.state m)) ∨
      reassembleFile P sha256 S manifest chunks = .error .authentication := by
  by_cases hlen : (S.sort chunks).length = original.length
  · have hguard : ¬(S.sort chunks).length ≠ manifest.totalChunks := not_not.mpr (hlen.trans h.total.symm)
    rcases h.checkHashes hlen with ⟨⟨m, hm⟩, -⟩ | ⟨hok, hall⟩
    · refine Or.inr (Or.inl ⟨m, ?_⟩)
      unfold reassembleFile
      dsimp only
      rw [if_neg hguard, hm]
      rfl
    · have hsub : S.sort chunks ⊆ chunks := fun c hc => S.mem_sort.mp hc
      rcases decryptAll_cases ((hi.mono (List.Subset.refl _) hsub).opens h.hash hall h.data) with hd | hd
      · refine Or.inr (Or.inr ?_)
        unfold reassembleFile
        dsimp only
        rw [if_neg hguard, hok, hd]
        rfl
      · exact Or.inl (h.reassemble hlen hok hd)
  · refine Or.inr (Or.inl ⟨"Missing chunks: " ++ toString (S.sort chunks).length ++ "/" ++ toString manifest.totalChunks, ?_⟩)
    unfold reassembleFile
    dsimp only
    rw [if_pos (fun he => hlen (he.trans h.total))]

end

/-- A file of at most 200 MB is split. Its chunks in any order give it back; and any list of chunks, where hashes do not
collide and the cipher is ideal, gives the file, a `StateError` or an authentication error. -/
theorem split_reassemble (P : Primitives UInt8) (sha256 : Bytes → Bytes) (S : ChunkSort) (draws : FileDraws)
    (fileData : Bytes) (fileName : String) (h : fileData.length ≤ maxFileSize) : ∃ manifest original,
      splitFile P sha256 draws fileData fileName = .ok (manifest, original) ∧
      (∀ chunks, chunks.Perm original → reassembleFile P sha256 S manifest chunks = .ok fileData) ∧
      ∀ chunks, Ideal P sha256 manifest original chunks → reassembleFile P sha256 S manifest chunks = .ok fileData ∨
        (∃ m, reassembleFile P sha256 S manifest chunks = .error (.state m)) ∨
        reassembleFile P sha256 S manifest chunks = .error .authentication := by
  obtain ⟨manifest, original, parts, hs, hsplit⟩ := splitFile_spec P sha256 draws fileName h
  exact ⟨manifest, original, hs, fun chunks hp => hsplit.permuted hp, fun chunks hi => hsplit.any hi⟩

def zeroFileDraws : FileDraws := ⟨List.replicate 16 0, List.replicate 32 0, ⟨0, true⟩⟩

/-- Chunks are merge sorted by their index. -/
def mergeChunks : ChunkSort :=
  ListSort.merge _ (fun _ _ _ => Int.le_trans) fun a b => Int.le_total a.index b.index

/-- A file of two bytes comes back, and nothing else comes of its chunk twice. -/
theorem split_two : ∃ manifest original, splitFile zeroPrimitives id zeroFileDraws [1, 2] "f" = .ok (manifest, original) ∧
    reassembleFile zeroPrimitives id mergeChunks manifest original = .ok [1, 2] ∧
    (reassembleFile zeroPrimitives id mergeChunks manifest (original ++ original) = .ok [1, 2] ∨
      (∃ m, reassembleFile zeroPrimitives id mergeChunks manifest (original ++ original) = .error (.state m)) ∨
      reassembleFile zeroPrimitives id mergeChunks manifest (original ++ original) = .error .authentication) := by
  obtain ⟨manifest, original, hs, hperm, hany⟩ :=
    split_reassemble zeroPrimitives id mergeChunks zeroFileDraws [1, 2] "f" (by decide)
  refine ⟨manifest, original, hs, hperm original (List.Perm.refl _), hany _ ⟨fun c _ d _ he => he, ?_⟩⟩
  intro c _ d _ part p hd ho
  rw [hd, aesGcmEncrypt] at ho
  exact (Option.some.inj (ho.symm.trans (zeroPrimitives.gcmOpen_gcmSeal manifest.encryptionKey c.nonce [] part)))

end DecentralizedFileClient

end Chhaya
