import Chhaya.Dart.Core
import Chhaya.Lib.Bits

/-!
# Recovery phrases

`Bip39.entropyToMnemonic` and `Bip39.mnemonicToEntropy` over any hash of 32 bytes and any list of 2048 distinct words.
`Bip39.Valid` says which phrases are well formed, without either function.

- `Bip39.entropyToMnemonic_inv`, `Bip39.entropyToMnemonic_ok`: which phrases are written.
- `Bip39.mnemonicToEntropy_iff`: which phrases are read, and as what.
- `Bip39.mnemonic_round_trip`: the two functions are inverse, and the accepted phrases are the well-formed ones.
-/

namespace Chhaya

/-- `Sha`: a hash of 32 bytes. -/
structure Sha where
  hash256 : Bytes → Bytes
  length_hash256 : ∀ data, (hash256 data).length = 32

instance : Inhabited Sha := ⟨⟨fun _ => List.replicate 32 0, fun _ => List.length_replicate⟩⟩

namespace Bip39

/-- A word list: 2048 words, no two of them equal. -/
structure Wordlist where
  words : List String
  length_words : words.length = 2048
  nodup : words.Nodup

instance : Inhabited Wordlist :=
  ⟨⟨(List.range 2048).map Nat.repr, by rw [List.length_map, List.length_range], List.nodup_range.map natRepr_injective⟩⟩

variable (S : Sha) (W : Wordlist)

/-! ## The source -/

/-- `bits.substring(start, stop)`; it throws a `RangeError` beyond the end. -/
def substring (bits : List Char) (start stop : Nat) : Except DartError (List Char) :=
  if start ≤ stop ∧ stop ≤ bits.length then .ok ((bits.drop start).take (stop - start))
  else .error (.argument (toString stop) "end" "Invalid value")

/-- `byte.toRadixString(2).padLeft(8, '0')`. -/
def byteBits (byte : UInt8) : List Char := Bits.text 8 byte.toNat

/-- `((hash[i ~/ 8] >> (7 - (i % 8))) & 1).toString()`. -/
def checksumBit (hash : Bytes) (i : Nat) : Except DartError Char :=
  match hash[i / 8]? with
  | some b => .ok (Nat.digitChar (b.toNat / 2 ^ (7 - i % 8) % 2))
  | none => .error (.argument (toString (i / 8)) "index" "Index out of range")

/-- `wordlist[index]`. -/
def wordAt (index : Nat) : Except DartError String :=
  match W.words[index]? with
  | some word => .ok word
  | none => .error (.argument (toString index) "index" "Index out of range")

/-- `entropyToMnemonic`. -/
def entropyToMnemonic (entropy : Bytes) : Except DartError (List String) := do
  let entropyBits := entropy.length * 8
  let checksumBits := entropyBits / 32
  let hash := S.hash256 entropy
  let checksum ← (List.range checksumBits).mapM (checksumBit hash)
  let bits := entropy.flatMap byteBits ++ checksum
  (List.range ((bits.length + 10) / 11)).mapM fun i => do
    let index ← substring bits (11 * i) (11 * i + 11)
    wordAt W (Bits.value index)

/-- The bits of one word: `wordlist.indexOf(word).toRadixString(2).padLeft(11, '0')`. -/
def wordBits (word : String) : Except DartError (List Char) :=
  match W.words.idxOf? word with
  | some index => .ok (Bits.text 11 index)
  | none => .error (.argument word "mnemonic" "Unknown word")

/-- One turn of the last loop of `mnemonicToEntropy`. -/
def checkBit (hash : Bytes) (bits : List Char) (entropyBits i : Nat) : Except DartError Unit := do
  let expected ← checksumBit hash i
  if bits[entropyBits + i]? ≠ some expected then .error (.state "BIP-39 checksum mismatch") else .ok ()

/-- `mnemonicToEntropy` on the bits of the words. -/
def bitsToEntropy (bits : List Char) : Except DartError Bytes := do
  let totalBits := bits.length
  let checksumBits := totalBits / 33
  let entropyBits := totalBits - checksumBits
  let entropy ← (List.range (entropyBits / 8)).mapM fun i => do
    let byte ← substring bits (i * 8) (i * 8 + 8)
    .ok (UInt8.ofNat (Bits.value byte))
  let hash := S.hash256 entropy
  (List.range checksumBits).forM (checkBit hash bits entropyBits)
  .ok entropy

/-- `mnemonicToEntropy`. -/
def mnemonicToEntropy (mnemonic : List String) : Except DartError Bytes := do
  if mnemonic.length ≠ 12 ∧ mnemonic.length ≠ 24 then
    .error (.argument (toString mnemonic.length) "mnemonic" "Only 12-word or 24-word mnemonics are supported")
  else
    let groups ← mnemonic.mapM (wordBits W)
    bitsToEntropy S groups.flatten

/-! ## Well-formed phrases -/

/-- Bit `i` of a hash, most significant bit first. -/
def hashBit (hash : Bytes) (i : Nat) : Char := Nat.digitChar ((hash.getD (i / 8) 0).toNat / 2 ^ (7 - i % 8) % 2)

/-- The entropy followed by its checksum: one bit for four bytes. -/
def checkedBits (entropy : Bytes) : List Char :=
  entropy.flatMap byteBits ++ (List.range (entropy.length / 4)).map (hashBit (S.hash256 entropy))

/-- The bits of a phrase: eleven a word. -/
def phraseBits (mnemonic : List String) : List Char := mnemonic.flatMap fun word => Bits.text 11 (W.words.idxOf word)

/-- A phrase of 12 or 24 words of the list whose bits are some entropy followed by its checksum. -/
structure Valid (mnemonic : List String) : Prop where
  count : mnemonic.length = 12 ∨ mnemonic.length = 24
  words : ∀ word ∈ mnemonic, word ∈ W.words
  checksum : ∃ entropy : Bytes, phraseBits W mnemonic = checkedBits S entropy

section

variable {S : Sha} {W : Wordlist}

/-! ## Bytes and words as bits -/

theorem substring_ok {bits : List Char} {width i : Nat} (h : width * i + width ≤ bits.length) :
    substring bits (width * i) (width * i + width) = .ok (Bits.group width i bits) := by
  rw [substring, if_pos ⟨by omega, h⟩, Nat.add_sub_cancel_left, Bits.group]

theorem substring_inv {bits r : List Char} {width i : Nat}
    (h : substring bits (width * i) (width * i + width) = .ok r) :
    width * i + width ≤ bits.length ∧ r = Bits.group width i bits := by
  unfold substring at h
  split at h
  · rename_i hb
    rw [Nat.add_sub_cancel_left] at h
    exact ⟨hb.2, (Except.ok.inj h).symm⟩
  · cases h

theorem length_byteBits (b : UInt8) : (byteBits b).length = 8 := Bits.length_text (by omega) b.toNat_lt

theorem binary_byteBits (b : UInt8) : Bits.Binary (byteBits b) := Bits.binary_text _ _

theorem ofNat_value_byteBits (b : UInt8) : UInt8.ofNat (Bits.value (byteBits b)) = b := by
  rw [byteBits, Bits.value_text, UInt8.ofNat_toNat]

theorem length_flatMap_byteBits (bytes : Bytes) : (bytes.flatMap byteBits).length = 8 * bytes.length := by
  simp [List.length_flatMap, length_byteBits, Nat.mul_comm]

theorem flatMap_byteBits_injective {a b : Bytes} (h : a.flatMap byteBits = b.flatMap byteBits) : a = b := by
  have hl := congrArg List.length h
  rw [length_flatMap_byteBits, length_flatMap_byteBits] at hl
  refine List.ext_getElem (by omega) fun i h1 h2 => ?_
  have ha := Bits.group_flatMap (r := []) (fun x _ => length_byteBits x) h1
  have hb := Bits.group_flatMap (r := []) (fun x _ => length_byteBits x) h2
  rw [h, hb] at ha
  rw [← ofNat_value_byteBits a[i], ← ha, ofNat_value_byteBits]

theorem wordBits_ok {word : String} (h : word ∈ W.words) : wordBits W word = .ok (Bits.text 11 (W.words.idxOf word)) := by
  rw [wordBits, List.idxOf_eq_getD_idxOf?]
  cases hi : W.words.idxOf? word with
  | none => exact absurd h (List.idxOf?_eq_none_iff.mp hi)
  | some i => rfl

theorem wordBits_inv {word : String} {r : List Char} (h : wordBits W word = .ok r) :
    word ∈ W.words ∧ r = Bits.text 11 (W.words.idxOf word) := by
  by_cases hw : word ∈ W.words
  · rw [wordBits_ok hw] at h
    exact ⟨hw, (Except.ok.inj h).symm⟩
  · rw [wordBits, List.idxOf?_eq_none_iff.mpr hw] at h
    cases h

theorem length_wordText {word : String} (h : word ∈ W.words) : (Bits.text 11 (W.words.idxOf word)).length = 11 := by
  have := List.idxOf_lt_length_of_mem h
  rw [W.length_words] at this
  exact Bits.length_text (by omega) this

theorem length_phraseBits {m : List String} (h : ∀ word ∈ m, word ∈ W.words) : (phraseBits W m).length = 11 * m.length := by
  rw [phraseBits, List.length_flatMap, List.map_congr_left fun w hw => length_wordText (h w hw)]
  simp [Nat.mul_comm]

theorem wordAt_idxOf {word : String} (h : word ∈ W.words) : wordAt W (W.words.idxOf word) = .ok word := by
  rw [wordAt, List.getElem?_idxOf h]

theorem wordAt_inv {index : Nat} {word : String} (h : wordAt W index = .ok word) :
    word ∈ W.words ∧ W.words.idxOf word = index := by
  unfold wordAt at h
  split at h
  · rename_i w hw
    obtain rfl := Except.ok.inj h
    obtain ⟨hi, rfl⟩ := List.getElem?_eq_some_iff.mp hw
    exact ⟨List.getElem_mem hi, W.nodup.idxOf_getElem _ hi⟩
  · cases h

/-! ## Checksums -/

theorem checksumBit_ok {hash : Bytes} {i : Nat} (h : i / 8 < hash.length) : checksumBit hash i = .ok (hashBit hash i) := by
  rw [checksumBit, List.getElem?_eq_getElem h, hashBit, List.getD_eq_getElem _ _ h]

theorem checksumBit_inv {hash : Bytes} {i : Nat} {c : Char} (h : checksumBit hash i = .ok c) : c = hashBit hash i := by
  by_cases hi : i / 8 < hash.length
  · rw [checksumBit_ok hi] at h
    exact (Except.ok.inj h).symm
  · rw [checksumBit, List.getElem?_eq_none (Nat.le_of_not_lt hi)] at h
    cases h

theorem binary_hashBits (hash : Bytes) (n : Nat) : Bits.Binary ((List.range n).map (hashBit hash)) := by
  intro c hc
  obtain ⟨i, -, rfl⟩ := List.mem_map.mp hc
  exact Bits.binary_digit _ (Nat.mod_lt _ (by omega)) _ List.mem_cons_self

theorem length_checkedBits (entropy : Bytes) : (checkedBits S entropy).length = 8 * entropy.length + entropy.length / 4 := by
  rw [checkedBits, List.length_append, length_flatMap_byteBits, List.length_map, List.length_range]

theorem binary_checkedBits (entropy : Bytes) : Bits.Binary (checkedBits S entropy) :=
  (Bits.Binary.flatMap fun x _ => binary_byteBits x).append (binary_hashBits _ _)

/-- The checked bits begin with the entropy. -/
theorem checkedBits_injective {a b : Bytes} (h : checkedBits S a = checkedBits S b) : a = b := by
  have hl := congrArg List.length h
  rw [length_checkedBits, length_checkedBits] at hl
  have hn : a.length = b.length := by omega
  exact flatMap_byteBits_injective
    (List.append_inj_left h (by rw [length_flatMap_byteBits, length_flatMap_byteBits, hn]))

theorem mapM_checksumBit {hash : Bytes} {n : Nat} {bits : List Char}
    (h : (List.range n).mapM (checksumBit hash) = .ok bits) : bits = (List.range n).map (hashBit hash) := by
  obtain ⟨hl, h⟩ := mapM_range_eq_ok_iff.mp h
  refine List.ext_getElem (by rw [hl, List.length_map, List.length_range]) fun i h1 _ => ?_
  rw [List.getElem_map, List.getElem_range]
  exact checksumBit_inv (h i h1)

/-! ## From entropy to a phrase -/

/-- The bits of the phrase of an entropy are the checked bits. -/
theorem entropyToMnemonic_inv {entropy : Bytes} {m : List String} (h : entropyToMnemonic S W entropy = .ok m) :
    (∀ word ∈ m, word ∈ W.words) ∧ phraseBits W m = checkedBits S entropy := by
  obtain ⟨checksum, hc, h⟩ := except_bind_ok h
  have hc := mapM_checksumBit hc
  have hbits : entropy.flatMap byteBits ++ checksum = checkedBits S entropy := by
    rw [hc, checkedBits, show entropy.length * 8 / 32 = entropy.length / 4 by omega]
  dsimp only at h
  rw [hbits] at h
  obtain ⟨hl, h⟩ := mapM_range_eq_ok_iff.mp h
  have hword : ∀ i (hi : i < m.length), 11 * i + 11 ≤ (checkedBits S entropy).length ∧ m[i] ∈ W.words ∧
      W.words.idxOf m[i] = Bits.value (Bits.group 11 i (checkedBits S entropy)) := by
    intro i hi
    obtain ⟨g, hg, hw⟩ := except_bind_ok (h i hi)
    obtain ⟨hle, rfl⟩ := substring_inv hg
    exact ⟨hle, wordAt_inv hw⟩
  have hlen : (checkedBits S entropy).length = 11 * m.length := by
    rcases Nat.eq_zero_or_pos m.length with h0 | h0
    · omega
    · have := (hword (m.length - 1) (by omega)).1
      omega
  constructor
  · intro word hw
    obtain ⟨i, hi, rfl⟩ := List.getElem_of_mem hw
    exact (hword i hi).2.1
  · refine Bits.flatMap_groups hlen fun i hi => ?_
    have hgl := Bits.length_group (hword i hi).1
    have ht := Bits.text_value ((binary_checkedBits entropy).group 11 i) (by rw [hgl]; omega)
    rwa [hgl, ← (hword i hi).2.2] at ht

/-- A phrase of at most 24 words whose bits are checked is the phrase of the entropy. -/
theorem entropyToMnemonic_ok {entropy : Bytes} {m : List String} (hm : m.length ≤ 24) (hw : ∀ word ∈ m, word ∈ W.words)
    (h : phraseBits W m = checkedBits S entropy) : entropyToMnemonic S W entropy = .ok m := by
  have hlen := length_checkedBits (S := S) entropy
  rw [← h, length_phraseBits hw] at hlen
  have hc : (List.range (entropy.length * 8 / 32)).mapM (checksumBit (S.hash256 entropy)) =
      .ok ((List.range (entropy.length / 4)).map (hashBit (S.hash256 entropy))) := by
    rw [show entropy.length * 8 / 32 = entropy.length / 4 by omega]
    refine mapM_range_eq_ok_iff.mpr ⟨by rw [List.length_map, List.length_range], fun i hi => ?_⟩
    rw [List.length_map, List.length_range] at hi
    rw [List.getElem_map, List.getElem_range]
    exact checksumBit_ok (by rw [S.length_hash256]; omega)
  rw [entropyToMnemonic]
  simp only [hc, bind, Except.bind]
  rw [← checkedBits, ← h]
  refine mapM_range_eq_ok_iff.mpr ⟨by rw [length_phraseBits hw]; omega, fun i hi => ?_⟩
  have hg := Bits.group_flatMap (r := []) (fun x hx => length_wordText (W := W) (hw x hx)) hi
  rw [List.append_nil] at hg
  rw [substring_ok (by rw [length_phraseBits hw]; omega), phraseBits, hg]
  simp only [Bits.value_text]
  exact wordAt_idxOf (hw _ (List.getElem_mem hi))

/-- Every text of zeros and ones in groups of eleven is the text of a phrase. -/
theorem exists_phrase {bits : List Char} {n : Nat} (hb : Bits.Binary bits) (hl : bits.length = 11 * n) :
    ∃ m : List String, m.length = n ∧ (∀ word ∈ m, word ∈ W.words) ∧ phraseBits W m = bits := by
  have hlt : ∀ i < n, Bits.value (Bits.group 11 i bits) < W.words.length := by
    intro i hi
    have := Bits.value_lt (hb.group 11 i)
    rw [Bits.length_group (by omega)] at this
    rw [W.length_words]
    exact this
  refine ⟨List.ofFn fun i : Fin n => W.words.get ⟨Bits.value (Bits.group 11 i bits), hlt i i.2⟩, List.length_ofFn, ?_, ?_⟩
  · intro word hw
    obtain ⟨i, rfl⟩ := List.mem_ofFn.mp hw
    exact List.getElem_mem _
  · refine Bits.flatMap_groups (by rw [List.length_ofFn, hl]) fun i hi => ?_
    rw [List.length_ofFn] at hi
    have hgl : (Bits.group 11 i bits).length = 11 := Bits.length_group (by omega)
    have ht := Bits.text_value (hb.group 11 i) (by rw [hgl]; omega)
    rw [hgl] at ht
    rw [List.getElem_ofFn, List.get_eq_getElem, W.nodup.idxOf_getElem]
    exact ht

/-! ## From a phrase to its entropy -/

/-- A byte of the entropy as the source reads it. -/
theorem entropyByte_ok {bits : List Char} {i : Nat} (h : 8 * i + 8 ≤ bits.length) :
    (do let byte ← substring bits (i * 8) (i * 8 + 8)
        Except.ok (UInt8.ofNat (Bits.value byte))) = .ok (UInt8.ofNat (Bits.value (Bits.group 8 i bits))) := by
  rw [Nat.mul_comm i 8, substring_ok h]
  rfl

theorem byteBits_ofNat_value {bits : List Char} (hb : Bits.Binary bits) (hl : bits.length = 8) :
    byteBits (UInt8.ofNat (Bits.value bits)) = bits := by
  have hlt := Bits.value_lt hb
  rw [hl] at hlt
  have ht := Bits.text_value hb (by omega)
  rwa [hl, ← UInt8.toNat_ofNat_of_lt' (show Bits.value bits < UInt8.size from hlt)] at ht

theorem checkBit_iff {hash : Bytes} {bits : List Char} {n i : Nat} (h : i / 8 < hash.length) :
    checkBit hash bits n i = .ok () ↔ bits[n + i]? = some (hashBit hash i) := by
  rw [checkBit, checksumBit_ok h]
  simp only [bind, Except.bind]
  split
  · rename_i hne
    exact ⟨fun h => (nomatch h), fun h => absurd h hne⟩
  · rename_i he
    exact ⟨fun _ => not_not.mp he, fun _ => rfl⟩

/-- The last loop compares the rest of the bits with the hash. -/
theorem checksum_iff {hash : Bytes} {b : List Char} {n c : Nat} (hh : hash.length = 32) (hc : c ≤ 256)
    (hl : b.length = n + c) :
    (List.range c).forM (checkBit hash b n) = .ok () ↔ b.drop n = (List.range c).map (hashBit hash) := by
  have hbit : ∀ i ∈ List.range c, (checkBit hash b n i = .ok () ↔ b[n + i]? = some (hashBit hash i)) := by
    intro i hi
    have := List.mem_range.mp hi
    exact checkBit_iff (by omega)
  rw [forM_eq_ok_iff]
  constructor
  · intro h
    refine List.ext_getElem? fun i => ?_
    rw [List.getElem?_drop, List.getElem?_map]
    rcases Nat.lt_or_ge i c with hi | hi
    · have hi' := List.mem_range.mpr hi
      rw [(hbit i hi').mp (h i hi'), List.getElem?_range hi]
      rfl
    · rw [List.getElem?_eq_none (by omega), List.getElem?_eq_none (by rwa [List.length_range])]
      rfl
  · intro h i hi
    rw [hbit i hi, ← List.getElem?_drop, h, List.getElem?_map, List.getElem?_range (List.mem_range.mp hi)]
    rfl

/-- The bytes that the bits begin with. -/
def frontBytes (bits : List Char) (n : Nat) : Bytes :=
  (List.range n).map fun i => UInt8.ofNat (Bits.value (Bits.group 8 i bits))

theorem length_frontBytes (bits : List Char) (n : Nat) : (frontBytes bits n).length = n := by
  rw [frontBytes, List.length_map, List.length_range]

theorem flatMap_frontBytes {bits : List Char} (hb : Bits.Binary bits) {n : Nat} (h : 8 * n ≤ bits.length) :
    (frontBytes bits n).flatMap byteBits = bits.take (8 * n) := by
  refine Bits.flatMap_groups (w := 8) (by rw [List.length_take, length_frontBytes]; omega) fun i hi => ?_
  rw [length_frontBytes] at hi
  have hg : (Bits.group 8 i bits).length = 8 := Bits.length_group (by omega)
  have hsplit := Bits.group_append (w := 8) (i := i) (a := bits.take (8 * n)) (b := bits.drop (8 * n))
    (by rw [List.length_take]; omega)
  rw [List.take_append_drop] at hsplit
  rw [← hsplit]
  simp only [frontBytes, List.getElem_map, List.getElem_range]
  exact byteBits_ofNat_value (hb.group 8 i) hg

/-- `mnemonicToEntropy` on a multiple of 33 bits. -/
theorem bitsToEntropy_eq {bits : List Char} {c : Nat} (hl : bits.length = 33 * c) :
    bitsToEntropy S bits = (do
      (List.range c).forM (checkBit (S.hash256 (frontBytes bits (4 * c))) bits (32 * c))
      .ok (frontBytes bits (4 * c))) := by
  have h1 : bits.length / 33 = c := by omega
  have h2 : bits.length - c = 32 * c := by omega
  have h3 : 32 * c / 8 = 4 * c := by omega
  have hread : (List.range (4 * c)).mapM (fun i => do
      let byte ← substring bits (i * 8) (i * 8 + 8)
      Except.ok (UInt8.ofNat (Bits.value byte))) = .ok (frontBytes bits (4 * c)) := by
    refine mapM_range_eq_ok_iff.mpr ⟨length_frontBytes _ _, fun i hi => ?_⟩
    rw [length_frontBytes] at hi
    rw [entropyByte_ok (by omega)]
    simp only [frontBytes, List.getElem_map, List.getElem_range]
  rw [bitsToEntropy]
  simp only [h1, h2, h3]
  rw [hread]
  rfl

/-- The bits of 12 or 24 words give an entropy exactly if they are its checked bits. -/
theorem bitsToEntropy_iff {bits : List Char} {c : Nat} (hb : Bits.Binary bits) (hc : c ≤ 8) (hl : bits.length = 33 * c)
    {entropy : Bytes} : bitsToEntropy S bits = .ok entropy ↔ bits = checkedBits S entropy := by
  have hfront := flatMap_frontBytes hb (n := 4 * c) (by omega)
  have hn := length_frontBytes bits (4 * c)
  rw [bitsToEntropy_eq hl]
  generalize frontBytes bits (4 * c) = front at hfront hn
  rw [show 8 * (4 * c) = 32 * c by omega] at hfront
  have hsum := checksum_iff (b := bits) (S.length_hash256 front) (show c ≤ 256 by omega) (by omega : _ = 32 * c + c)
  constructor
  · intro h
    obtain ⟨_, hk, h⟩ := except_bind_ok h
    obtain rfl := Except.ok.inj h
    rw [checkedBits, hfront, show front.length / 4 = c by omega, ← hsum.mp hk, List.take_append_drop]
  · intro h
    have hel : entropy.length = 4 * c := by
      have := length_checkedBits (S := S) entropy
      rw [← h] at this
      omega
    have htake : bits.take (32 * c) = entropy.flatMap byteBits := by
      rw [h, checkedBits, List.take_left' (by rw [length_flatMap_byteBits, hel]; omega)]
    obtain rfl := flatMap_byteBits_injective (hfront.trans htake)
    have hdrop : bits.drop (32 * c) = (List.range c).map (hashBit (S.hash256 front)) := by
      conv_lhs => rw [h]
      rw [checkedBits, List.drop_left' (by rw [length_flatMap_byteBits, hel]; omega), show front.length / 4 = c by omega]
    rw [hsum.mpr hdrop]
    rfl

theorem mapM_wordBits {m : List String} {groups : List (List Char)} :
    m.mapM (wordBits W) = .ok groups ↔
      (∀ word ∈ m, word ∈ W.words) ∧ groups = m.map fun word => Bits.text 11 (W.words.idxOf word) := by
  rw [mapM_eq_ok_iff]
  constructor
  · intro h
    induction h with
    | nil => exact ⟨fun _ h => (List.not_mem_nil h).elim, rfl⟩
    | cons hw _ ih =>
      obtain ⟨hmem, rfl⟩ := wordBits_inv hw
      exact ⟨List.forall_mem_cons.mpr ⟨hmem, ih.1⟩, by rw [ih.2, List.map_cons]⟩
  · rintro ⟨hw, rfl⟩
    rw [List.forall₂_map_right_iff]
    exact List.forall₂_same.mpr fun word h => wordBits_ok (hw word h)

/-- A phrase is accepted with the entropy of which it spells the checked bits. -/
theorem mnemonicToEntropy_iff {m : List String} {entropy : Bytes} :
    mnemonicToEntropy S W m = .ok entropy ↔ (m.length = 12 ∨ m.length = 24) ∧ (∀ word ∈ m, word ∈ W.words) ∧
      phraseBits W m = checkedBits S entropy := by
  have hbits : ∀ {m : List String}, (m.length = 12 ∨ m.length = 24) → (∀ word ∈ m, word ∈ W.words) →
      (bitsToEntropy S (phraseBits W m) = .ok entropy ↔ phraseBits W m = checkedBits S entropy) := by
    intro m hm hw
    have hl := length_phraseBits hw
    have hb : Bits.Binary (phraseBits W m) := Bits.Binary.flatMap fun _ _ => Bits.binary_text _ _
    exact bitsToEntropy_iff (c := m.length / 3) hb (by omega) (by omega)
  unfold mnemonicToEntropy
  split
  · rename_i hn
    exact ⟨fun h => (nomatch h), fun h => absurd h.1 (by omega)⟩
  · rename_i hn
    have hm : m.length = 12 ∨ m.length = 24 := by omega
    constructor
    · intro h
      obtain ⟨groups, hg, h⟩ := except_bind_ok h
      obtain ⟨hw, rfl⟩ := mapM_wordBits.mp hg
      rw [← List.flatMap_def] at h
      exact ⟨hm, hw, (hbits hm hw).mp h⟩
    · rintro ⟨_, hw, h⟩
      rw [mapM_wordBits.mpr ⟨hw, rfl⟩]
      show bitsToEntropy S (List.flatten _) = _
      rw [← List.flatMap_def]
      exact (hbits hm hw).mpr h

end

/-- Entropy of 16 or 32 bytes is read back from its phrase; a phrase that is accepted is the phrase of what is returned
and of nothing else; and the well-formed phrases are accepted. -/
theorem mnemonic_round_trip (S : Sha) (W : Wordlist) :
    (∀ entropy : Bytes, entropy.length = 16 ∨ entropy.length = 32 →
      ∃ m, entropyToMnemonic S W entropy = .ok m ∧ mnemonicToEntropy S W m = .ok entropy) ∧
    (∀ m, (∃ e, mnemonicToEntropy S W m = .error e) ∨ ∃ entropy, mnemonicToEntropy S W m = .ok entropy ∧
      entropyToMnemonic S W entropy = .ok m ∧ ∀ other, entropyToMnemonic S W other = .ok m → other = entropy) ∧
    ∀ m, (∃ entropy, mnemonicToEntropy S W m = .ok entropy) ↔ Valid S W m := by
  refine ⟨fun entropy hl => ?_, fun m => ?_, fun m => ?_⟩
  · have hlen := length_checkedBits (S := S) entropy
    obtain ⟨m, hm, hw, hp⟩ := exists_phrase (W := W) (n := entropy.length * 3 / 4) (binary_checkedBits (S := S) entropy)
      (by omega)
    have hc : m.length = 12 ∨ m.length = 24 := by omega
    exact ⟨m, entropyToMnemonic_ok (by omega) hw hp, mnemonicToEntropy_iff.mpr ⟨hc, hw, hp⟩⟩
  · cases h : mnemonicToEntropy S W m with
    | error e => exact Or.inl ⟨e, rfl⟩
    | ok entropy =>
      obtain ⟨hc, hw, hp⟩ := mnemonicToEntropy_iff.mp h
      refine Or.inr ⟨entropy, rfl, entropyToMnemonic_ok (by omega) hw hp, fun other ho => ?_⟩
      exact checkedBits_injective ((entropyToMnemonic_inv ho).2.symm.trans hp)
  · constructor
    · rintro ⟨entropy, h⟩
      obtain ⟨hc, hw, hp⟩ := mnemonicToEntropy_iff.mp h
      exact ⟨hc, hw, entropy, hp⟩
    · rintro ⟨hc, hw, entropy, hp⟩
      exact ⟨entropy, mnemonicToEntropy_iff.mpr ⟨hc, hw, hp⟩⟩

end Bip39

end Chhaya
