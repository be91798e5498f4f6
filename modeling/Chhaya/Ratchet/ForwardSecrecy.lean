import Chhaya.Crypto.Symbolic
import Chhaya.Ratchet.Agreement
import Chhaya.Ratchet.Receiving
import Chhaya.Ratchet.Separation

/-!
# Forward secrecy

What a session holds does not give away the keys it has used. Every chain starts from a root key that the session has
replaced, every message key from a chain key that it has moved past, and no one-way step is undone.

- `RootAt.eq_of_mem`, `StartAt.eq_of_mem`, `chainKeyAt_eq_of_mem`: a byte of a root or chain key tells which it is.
- `messageKey_hidden`: no byte of a used message key is deducible from what may be exposed.
- `Forward.decrypt`, `Forward.encrypt`: every step of a party, also one that throws, keeps its session like this.
- `forward_secrecy`: a reachable session does not give away what its party has sent with or consumed.
-/

namespace Chhaya

variable {β : Type} {P : Primitives β} {secret : List β}

/-! ## Roots and chains -/

/-- The label of the keys of a new session. -/
def initInfo : Option Bytes := some (utf8Encode "Chhaya-DR-init-v1")

/-- The label of the SPQR seed. -/
def seedInfo : Option Bytes := some (utf8Encode "Chhaya-SPQR-seed-v1")

/-- The root key after `i` root steps. -/
inductive RootAt (P : Primitives β) (secret : List β) : Nat → List β → Prop
  | opened (d : List β) : RootAt P secret 0 (hkdfBlock P secret (some d) initInfo 96 0)
  | ratcheted {i : Nat} {r : List β} (h : RootAt P secret i r) (d : List β) : RootAt P secret (i + 1) (kdfRoot P r d)

/-- The first key of a chain that was opened with the root key after `i` root steps. -/
inductive StartAt (P : Primitives β) (secret : List β) : Nat → List β → Prop
  | opened {d : List β} (hd : d.length = 32) {i : Nat} (h1 : 1 ≤ i) (h2 : i ≤ 2) :
      StartAt P secret 0 (hkdfBlock P secret (some d) initInfo 96 i)
  | ratcheted {i : Nat} {r d : List β} (h : RootAt P secret i r) (hd : d.length = 32) :
      StartAt P secret (i + 1) (kdfChain P r d)

theorem length_hkdfBlock {ikm : List β} {salt : Option (List β)} {info : Option Bytes} {n i : Nat}
    (h : 32 * (i + 1) ≤ n) : (hkdfBlock P ikm salt info n i).length = 32 := by
  simp only [hkdfBlock, List.length_take, List.length_drop, P.length_hkdf]
  omega

theorem RootAt.length_eq {i : Nat} {r : List β} (h : RootAt P secret i r) : r.length = 32 := by
  cases h with
  | opened d => exact length_hkdfBlock (by omega)
  | ratcheted h d => exact length_kdfRoot P _ d

theorem StartAt.length_eq {i : Nat} {c : List β} (h : StartAt P secret i c) : c.length = 32 := by
  cases h with
  | opened hd h1 h2 => exact length_hkdfBlock (by omega)
  | ratcheted h hd => exact length_kdfChain P _ _

theorem exists_mem_of_length {l : List β} (h : l.length = 32) : ∃ b, b ∈ l :=
  List.exists_mem_of_length_pos (by omega)

/-- The labels of root keys and chains. -/
def IsKdfInfo (info : Option Bytes) : Prop := info = initInfo ∨ info = none

/-- Root keys are first blocks, and chains start at later ones. -/
theorem RootAt.block {i : Nat} {r : List β} (h : RootAt P secret i r) {b : β} (hb : b ∈ r) :
    ∃ ikm salt info n, IsKdfInfo info ∧ b ∈ hkdfBlock P ikm salt info n 0 := by
  cases h with
  | opened d => exact ⟨_, _, _, _, Or.inl rfl, hb⟩
  | ratcheted h d => exact ⟨_, _, _, _, Or.inr rfl, kdfRoot_eq_block P _ d ▸ hb⟩

theorem StartAt.block {i : Nat} {c : List β} (h : StartAt P secret i c) {b : β} (hb : b ∈ c) :
    ∃ ikm salt info n j, IsKdfInfo info ∧ 1 ≤ j ∧ b ∈ hkdfBlock P ikm salt info n j := by
  cases h with
  | opened hd h1 h2 => exact ⟨_, _, _, _, _, Or.inl rfl, h1, hb⟩
  | ratcheted h hd => exact ⟨_, _, _, _, 1, Or.inr rfl, Nat.le_refl 1, kdfChain_eq_block P _ _ ▸ hb⟩

/-- A byte of a root key or of a first key is derived under one of these labels. -/
theorem RootAt.mem_hkdf {i : Nat} {r : List β} (h : RootAt P secret i r) {b : β} (hb : b ∈ r) :
    ∃ ikm salt info n, IsKdfInfo info ∧ b ∈ P.hkdf ikm salt info n := by
  obtain ⟨_, _, _, _, hi, h0⟩ := h.block hb
  exact ⟨_, _, _, _, hi, mem_of_mem_hkdfBlock h0⟩

theorem StartAt.mem_hkdf {i : Nat} {c : List β} (h : StartAt P secret i c) {b : β} (hb : b ∈ c) :
    ∃ ikm salt info n, IsKdfInfo info ∧ b ∈ P.hkdf ikm salt info n := by
  obtain ⟨_, _, _, _, _, hi, -, h0⟩ := h.block hb
  exact ⟨_, _, _, _, hi, mem_of_mem_hkdfBlock h0⟩

section Separate

variable (hP : Free P)

include hP

/-- A byte of a root key tells after how many steps. -/
theorem RootAt.eq_of_mem {i : Nat} {r : List β} (h : RootAt P secret i r) : ∀ {j : Nat} {r' : List β} {b : β},
    RootAt P secret j r' → b ∈ r → b ∈ r' → i = j := by
  induction h with
  | opened d =>
    intro j r' b h' hb hb'
    cases h' with
    | opened d' => rfl
    | ratcheted h' d' =>
      have h3 := (hP.hkdf (mem_of_mem_hkdfBlock hb) (mem_of_mem_hkdfBlock (kdfRoot_eq_block P _ d' ▸ hb'))).2.2
      exact absurd h3 (by decide)
  | @ratcheted i r h d ih =>
    intro j r' b h' hb hb'
    cases h' with
    | opened d' =>
      have h3 := (hP.hkdf (mem_of_mem_hkdfBlock (kdfRoot_eq_block P _ d ▸ hb)) (mem_of_mem_hkdfBlock hb')).2.2
      exact absurd h3 (by decide)
    | ratcheted h' d' =>
      obtain ⟨rfl, -, -⟩ := hP.hkdf (mem_of_mem_hkdfBlock (kdfRoot_eq_block P _ d ▸ hb))
        (mem_of_mem_hkdfBlock (kdfRoot_eq_block P _ d' ▸ hb'))
      obtain ⟨x, hx⟩ := exists_mem_of_length h.length_eq
      rw [ih h' hx hx]

/-- A byte of a first key tells which. -/
theorem StartAt.eq_of_mem {i j : Nat} {c c' : List β} {b : β} (h : StartAt P secret i c) (h' : StartAt P secret j c')
    (hb : b ∈ c) (hb' : b ∈ c') : c = c' ∧ i = j := by
  cases h with
  | opened hd h1 h2 =>
    cases h' with
    | opened hd' h1' h2' =>
      obtain ⟨-, hsalt, -⟩ := hP.hkdf (mem_of_mem_hkdfBlock hb) (mem_of_mem_hkdfBlock hb')
      rw [hP.block hb hb', padSalt_inj (hd.trans hd'.symm) hsalt]
      exact ⟨rfl, rfl⟩
    | ratcheted h' hd' =>
      have h3 := (hP.hkdf (mem_of_mem_hkdfBlock hb) (mem_of_mem_hkdfBlock (kdfChain_eq_block P _ _ ▸ hb'))).2.2
      exact absurd h3 (by decide)
  | ratcheted h hd =>
    cases h' with
    | opened hd' h1' h2' =>
      have h3 := (hP.hkdf (mem_of_mem_hkdfBlock (kdfChain_eq_block P _ _ ▸ hb)) (mem_of_mem_hkdfBlock hb')).2.2
      exact absurd h3 (by decide)
    | ratcheted h' hd' =>
      obtain ⟨rfl, hsalt, -⟩ := hP.hkdf (mem_of_mem_hkdfBlock (kdfChain_eq_block P _ _ ▸ hb))
        (mem_of_mem_hkdfBlock (kdfChain_eq_block P _ _ ▸ hb'))
      obtain ⟨x, hx⟩ := exists_mem_of_length h.length_eq
      rw [padSalt_inj (hd.trans hd'.symm) hsalt, h.eq_of_mem hP h' hx hx]
      exact ⟨rfl, rfl⟩

/-- A root key and a first key have no byte in common. -/
theorem RootAt.notMem_start {i j : Nat} {r c : List β} {b : β} (h : RootAt P secret i r) (h' : StartAt P secret j c)
    (hb : b ∈ r) : b ∉ c := by
  intro hb'
  obtain ⟨_, _, _, _, -, h0⟩ := h.block hb
  obtain ⟨_, _, _, _, k, -, hk, h1⟩ := h'.block hb'
  have := hP.block h0 h1
  omega

/-- A byte of a block tells its key and its label. -/
theorem block_eq_of_mem {k k' : List β} {info info' : Bytes} {b : β} (hb : b ∈ Hkdf.block P k info)
    (hb' : b ∈ Hkdf.block P k' info') : k = k' ∧ info = info' := by
  obtain ⟨h1, h2⟩ := hP.hmac hb hb'
  exact ⟨h1, List.map_injective_iff.mpr hP.ofByte (List.append_cancel_right h2)⟩

/-- A byte of a chain key tells its chain and how far it is. -/
theorem chainKeyAt_eq_of_mem {i j : Nat} {c c' : List β} (h : StartAt P secret i c) (h' : StartAt P secret j c') :
    ∀ {n n' : Nat} {b : β}, b ∈ chainKeyAt P c n → b ∈ chainKeyAt P c' n' → c = c' ∧ n = n'
  | 0, 0, _, hb, hb' => ⟨(h.eq_of_mem hP h' hb hb').1, rfl⟩
  | 0, _ + 1, _, hb, hb' => by
    obtain ⟨_, _, _, _, -, h1⟩ := h.mem_hkdf hb
    exact absurd h1 (hP.hmac_hkdf hb')
  | _ + 1, 0, _, hb, hb' => by
    obtain ⟨_, _, _, _, -, h1⟩ := h'.mem_hkdf hb'
    exact absurd h1 (hP.hmac_hkdf hb)
  | n + 1, n' + 1, _, hb, hb' => by
    have hk := (block_eq_of_mem hP hb hb').1
    obtain ⟨x, hx⟩ := exists_mem_of_length (length_chainKeyAt P h.length_eq n)
    obtain ⟨h1, h2⟩ := chainKeyAt_eq_of_mem h h' hx (hk ▸ hx)
    exact ⟨h1, congrArg (· + 1) h2⟩

end Separate

/-! ## What may be exposed -/

/-- A byte that does not help against the messages `used`, when there have been `rank` root steps. -/
inductive Exposure (P : Primitives β) (secret : List β) (used : Set (List β × Nat)) (rank : Nat) (b : β) : Prop
  | root {r : List β} (h : RootAt P secret rank r) (hb : b ∈ r)
  | seed (hb : b ∈ P.hkdf secret none seedInfo 32)
  | octet {c : UInt8} (hb : b = P.ofByte c)
  | drawn (hb : Drawn P b) (hs : b ∉ secret)
  | chain {i : Nat} {c : List β} {n : Nat} (h : StartAt P secret i c) (fresh : ∀ m, (c, m) ∈ used → m < n)
      (hb : b ∈ chainKeyAt P c n)
  | cached {i : Nat} {c : List β} {m : Nat} (h : StartAt P secret i c) (fresh : (c, m) ∉ used)
      (hb : b ∈ (chainKeys P c m).messageKey ∨ b ∈ (chainKeys P c m).nonce)

/-- What `chainKeys` is made of. -/
theorem mem_chainKeys {c : List β} {m : Nat} {b : β} (h : b ∈ (chainKeys P c m).messageKey ∨ b ∈ (chainKeys P c m).nonce) :
    ∃ k info, (info = utf8Encode "Chhaya-msg-v1" ++ u32be m ∧ k = chainKeyAt P c m ∨
      info = utf8Encode "Chhaya-nonce-v1" ++ u32be m) ∧ b ∈ Hkdf.block P k info := by
  rcases h with h | h
  · exact ⟨_, _, Or.inl ⟨rfl, rfl⟩, h⟩
  · exact ⟨_, _, Or.inr rfl, List.mem_of_mem_take h⟩

section Hidden

variable {used : Set (List β × Nat)} {rank : Nat} {given : Set β}

/-- A derived byte that is exposed. -/
theorem Exposure.of_hkdf (hP : Free P) {b : β} (h : Exposure P secret used rank b) {ikm : List β}
    {salt : Option (List β)} {info : Option Bytes} {n : Nat} (hb : b ∈ P.hkdf ikm salt info n) :
    (∃ r, RootAt P secret rank r ∧ b ∈ r) ∨ info.getD [] = seedInfo.getD [] ∨
      ∃ i c, StartAt P secret i c ∧ b ∈ c ∧ ∀ m, (c, m) ∉ used := by
  cases h with
  | root h hb' => exact Or.inl ⟨_, h, hb'⟩
  | seed hb' => exact Or.inr (Or.inl (hP.hkdf hb hb').2.2)
  | octet hb' => exact absurd (hb' ▸ hb) hP.hkdf_octet
  | drawn hd hn => exact absurd hb hd.hkdf
  | @chain i c n h hf hb' =>
    cases n with
    | zero => exact Or.inr (Or.inr ⟨i, c, h, hb', fun m hm => absurd (hf m hm) (Nat.not_lt_zero m)⟩)
    | succ n => exact absurd hb (hP.hmac_hkdf hb')
  | cached h hf hb' =>
    obtain ⟨k, info, -, h1⟩ := mem_chainKeys hb'
    exact absurd hb (hP.hmac_hkdf h1)

/-- A byte of an HMAC block that is exposed. -/
theorem Exposure.of_block (hP : Free P) {b : β} (h : Exposure P secret used rank b) {k : List β} {info : Bytes}
    (hb : b ∈ Hkdf.block P k info) :
    (∃ i c n, StartAt P secret i c ∧ b ∈ chainKeyAt P c (n + 1) ∧ ∀ m, (c, m) ∈ used → m < n + 1) ∨
      ∃ i c m, StartAt P secret i c ∧ (c, m) ∉ used ∧
        (info = utf8Encode "Chhaya-msg-v1" ++ u32be m ∧ k = chainKeyAt P c m ∨
          info = utf8Encode "Chhaya-nonce-v1" ++ u32be m) := by
  cases h with
  | root h hb' =>
    obtain ⟨_, _, _, _, -, h1⟩ := h.mem_hkdf hb'
    exact absurd h1 (hP.hmac_hkdf hb)
  | seed hb' => exact absurd hb' (hP.hmac_hkdf hb)
  | octet hb' => exact absurd (hb' ▸ hb) hP.hmac_octet
  | drawn hd hn => exact absurd hb hd.hmac
  | @chain i c n h hf hb' =>
    cases n with
    | zero =>
      obtain ⟨_, _, _, _, -, h1⟩ := h.mem_hkdf hb'
      exact absurd h1 (hP.hmac_hkdf hb)
    | succ n => exact Or.inl ⟨i, c, n, h, hb', hf⟩
  | @cached i c m h hf hb' =>
    obtain ⟨k', info', hk, h1⟩ := mem_chainKeys hb'
    obtain ⟨rfl, rfl⟩ := block_eq_of_mem hP hb h1
    exact Or.inr ⟨i, c, m, h, hf, hk⟩

/-- The labels of the HMAC blocks are different. -/
theorem msgInfo_ne_chainInfo (m n : Nat) :
    utf8Encode "Chhaya-msg-v1" ++ u32be m ≠ utf8Encode "Chhaya-chain-v1" ++ u32be n := fun h =>
  absurd (congrArg List.length h) (by simp; decide)

theorem msgInfo_ne_nonceInfo (m n : Nat) :
    utf8Encode "Chhaya-msg-v1" ++ u32be m ≠ utf8Encode "Chhaya-nonce-v1" ++ u32be n := fun h =>
  absurd (congrArg List.length h) (by simp; decide)

theorem chainInfo_ne_nonceInfo (m n : Nat) :
    utf8Encode "Chhaya-chain-v1" ++ u32be m ≠ utf8Encode "Chhaya-nonce-v1" ++ u32be n := fun h =>
  absurd (List.append_inj h (by decide)).1 (by decide)

theorem tripleInfo_ne {info : Option Bytes} (h : IsKdfInfo info) {n e : Nat} :
    utf8Encode "Chhaya-triple-v1" ++ (u32be n ++ u32be e) ≠ info.getD [] := by
  intro he
  rcases h with rfl | rfl
  · exact absurd (congrArg List.length he) (by simp [initInfo]; decide)
  · exact absurd (congrArg List.length he) (by simp)

variable (hP : Free P) (hg : ∀ b ∈ given, Exposure P secret used rank b)

include hP hg

/-- A root key that has been replaced is not exposed. -/
theorem root_not_given {i : Nat} {r : List β} (h : RootAt P secret i r) (hi : i < rank) {b : β} (hb : b ∈ r) :
    b ∉ given := by
  intro hm
  obtain ⟨_, _, _, _, hinfo, h1⟩ := h.mem_hkdf hb
  rcases (hg b hm).of_hkdf hP h1 with ⟨r', h', hb'⟩ | he | ⟨j, c, h', hb', -⟩
  · rw [h.eq_of_mem hP h' hb hb'] at hi
    exact lt_irrefl rank hi
  · rcases hinfo with rfl | rfl <;> exact absurd he (by decide)
  · exact h.notMem_start hP h' hb hb'

/-- Nor is a chain key that the session has moved past. -/
theorem chainKey_not_given {i : Nat} {c : List β} (h : StartAt P secret i c) {m : Nat} (hu : (c, m) ∈ used) {n : Nat}
    (hn : n ≤ m) {b : β} (hb : b ∈ chainKeyAt P c n) : b ∉ given := by
  intro hm
  cases n with
  | zero =>
    obtain ⟨_, _, _, _, hinfo, h1⟩ := h.mem_hkdf hb
    rcases (hg b hm).of_hkdf hP h1 with ⟨r, h', hb'⟩ | he | ⟨j, c', h', hb', hf⟩
    · exact h'.notMem_start hP h hb' hb
    · rcases hinfo with rfl | rfl <;> exact absurd he (by decide)
    · obtain ⟨rfl, -⟩ := h.eq_of_mem hP h' hb hb'
      exact hf m hu
  | succ n =>
    rcases (hg b hm).of_block hP hb with ⟨j, c', n', h', hb', hf⟩ | ⟨j, c', m', -, -, ⟨he, -⟩ | he⟩
    · obtain ⟨rfl, hnn⟩ := chainKeyAt_eq_of_mem hP h h' hb hb'
      have := hf m hu
      omega
    · exact msgInfo_ne_chainInfo _ _ he.symm
    · exact chainInfo_ne_nonceInfo _ _ he

/-- Nor is the double-ratchet key of a used message. -/
theorem chainKeys_not_given {i : Nat} {c : List β} (h : StartAt P secret i c) {m : Nat} (hu : (c, m) ∈ used)
    {b : β} (hb : b ∈ (chainKeys P c m).messageKey) : b ∉ given := by
  intro hmem
  rcases (hg b hmem).of_block hP hb with ⟨j, c', n', h', hb', -⟩ | ⟨j, c', m', h', hf, ⟨he, hk⟩ | he⟩
  · exact msgInfo_ne_chainInfo _ _ (block_eq_of_mem hP hb hb').2
  · obtain ⟨x, hx⟩ := exists_mem_of_length (length_chainKeyAt P h.length_eq m)
    obtain ⟨rfl, rfl⟩ := chainKeyAt_eq_of_mem hP h h' hx (hk ▸ hx)
    exact hf hu
  · exact msgInfo_ne_nonceInfo _ _ he

/-- Nor is any key that `_combine` makes. -/
theorem combined_not_given {k q : List β} {n e : Nat} {b : β} (hb : b ∈ (combined P k q n e).messageKey) :
    b ∉ given := by
  intro hm
  rcases (hg b hm).of_hkdf hP hb with ⟨r, h', hb'⟩ | he | ⟨j, c, h', hb', -⟩
  · obtain ⟨_, _, _, _, hinfo, h1⟩ := h'.mem_hkdf hb'
    exact tripleInfo_ne hinfo (hP.hkdf hb h1).2.2
  · exact absurd (congrArg List.length he) (by simp [seedInfo]; decide)
  · obtain ⟨_, _, _, _, hinfo, h1⟩ := h'.mem_hkdf hb'
    exact tripleInfo_ne hinfo (hP.hkdf hb h1).2.2

variable (hs : ∃ a ∈ secret, Atom P a)

include hs

omit hP in
/-- The shared secret is not deducible: it has a byte that nothing exposes. -/
theorem secret_hidden : ¬∀ b ∈ secret, Deducible P given b := by
  intro h
  obtain ⟨a, ha, hat⟩ := hs
  cases hg a ((h a ha).atom_inv hat) with
  | root h hb =>
    obtain ⟨_, _, _, _, -, h1⟩ := h.mem_hkdf hb
    exact hat.hkdf h1
  | seed hb => exact hat.hkdf hb
  | octet hb => exact hat.octet hb.symm
  | drawn hb hn => exact hn ha
  | @chain i c n h _ hb =>
    cases n with
    | zero =>
      obtain ⟨_, _, _, _, -, h1⟩ := h.mem_hkdf hb
      exact hat.hkdf h1
    | succ n => exact hat.hmac hb
  | cached h _ hb =>
    obtain ⟨k, info, -, h1⟩ := mem_chainKeys hb
    exact hat.hmac h1

/-- A root key that has been replaced is not deducible: only the shared secret and older roots lead to it. -/
theorem root_hidden {i : Nat} {r : List β} (h : RootAt P secret i r) : i < rank → ∀ b ∈ r, ¬Deducible P given b := by
  induction h with
  | opened d =>
    intro hi b hb hd
    rcases hd.hkdf_inv hP (mem_of_mem_hkdfBlock hb) with hm | hall
    · exact root_not_given hP hg (.opened d) hi hb hm
    · exact secret_hidden hg hs hall
  | @ratcheted i r h d ih =>
    intro hi b hb hd
    rcases hd.hkdf_inv hP (mem_of_mem_hkdfBlock (kdfRoot_eq_block P _ d ▸ hb)) with hm | hall
    · exact root_not_given hP hg (h.ratcheted d) hi hb hm
    · obtain ⟨x, hx⟩ := exists_mem_of_length h.length_eq
      exact ih (by omega) x hx (hall x hx)

/-- Nor is a chain key that the session has moved past. -/
theorem chainKey_hidden {i : Nat} {c : List β} (h : StartAt P secret i c) (hi : i ≤ rank) {m : Nat}
    (hu : (c, m) ∈ used) : ∀ n, n ≤ m → ∀ b ∈ chainKeyAt P c n, ¬Deducible P given b := by
  intro n
  induction n with
  | zero =>
    intro hn b hb hd
    have hgiven : b ∉ given := chainKey_not_given hP hg h hu hn hb
    cases h with
    | opened hlen h1 h2 =>
      rcases hd.hkdf_inv hP (mem_of_mem_hkdfBlock hb) with hm | hall
      · exact hgiven hm
      · exact secret_hidden hg hs hall
    | ratcheted hr hlen =>
      rcases hd.hkdf_inv hP (mem_of_mem_hkdfBlock (kdfChain_eq_block P _ _ ▸ hb)) with hm | hall
      · exact hgiven hm
      · obtain ⟨x, hx⟩ := exists_mem_of_length hr.length_eq
        exact root_hidden hP hg hs hr (by omega) x hx (hall x hx)
  | succ n ih =>
    intro hn b hb hd
    rcases hd.hmac_inv hP hb with hm | hall
    · exact chainKey_not_given hP hg h hu hn hb hm
    · obtain ⟨x, hx⟩ := exists_mem_of_length (length_chainKeyAt P h.length_eq n)
      exact ih (by omega) x hx (hall x hx)

/-- No byte of the key of a used message is deducible. -/
theorem messageKey_hidden {i : Nat} {c : List β} (h : StartAt P secret i c) (hi : i ≤ rank) {m : Nat}
    (hu : (c, m) ∈ used) (q : List β) (n e : Nat) :
    ∀ b ∈ (combined P (chainKeys P c m).messageKey q n e).messageKey, ¬Deducible P given b := by
  intro b hb hd
  rcases hd.hkdf_inv hP hb with hm | hall
  · exact combined_not_given hP hg hb hm
  · obtain ⟨y, hy⟩ := exists_mem_of_length (chainKeys P c m).messageKey_length
    rcases (hall y (List.mem_append_left _ hy)).hmac_inv hP hy with hm | hall
    · exact chainKeys_not_given hP hg h hu hy hm
    · obtain ⟨x, hx⟩ := exists_mem_of_length (length_chainKeyAt P h.length_eq m)
      exact chainKey_hidden hP hg hs h hi hu m (Nat.le_refl m) x hx (hall x hx)

end Hidden

/-! ## Sessions -/

/-- Everything that a session holds. -/
def exposed (s : SessionState β) : Set β :=
  {b | b ∈ s.rootKey ∨ b ∈ s.sendChainKey ∨ b ∈ s.recvChainKey ∨ b ∈ s.ourPrivateKey ∨ b ∈ s.spqrSeed ∨
    ∃ key v, s.skipped.lookup key = some v ∧ (b ∈ v.messageKey ∨ b ∈ v.nonce)}

/-- The chains of a session: how many root steps there were, the first keys of its sending and receiving chains, and the
peer's key behind each receiving chain. -/
structure Chains (β : Type) where
  rank : Nat
  send : Option (List β)
  recv : List β
  owner : List β → Bytes

/-- A first key from before or at the root step `k`. -/
def Born (P : Primitives β) (secret : List β) (k : Nat) (c : List β) : Prop := ∃ i ≤ k, StartAt P secret i c

/-- Bytes of a private key that was drawn without regard to the shared secret. -/
def Independent (P : Primitives β) (secret l : List β) : Prop := ∀ b ∈ l, Drawn P b ∧ b ∉ secret

/-- An entry of the skipped cache: the key of a message of `c` that was not used, and will not be used but from here. -/
structure Spare (P : Primitives β) (secret : List β) (used : Set (List β × Nat)) (g : Chains β) (recvCounter : Int)
    (key : String) (v : MessageKeyBundle β) (c : List β) (m : Nat) : Prop where
  key_eq : key = skipKey (g.owner c) m
  keys : v = chainKeys P c m
  born : Born P secret g.rank c
  unused : (c, m) ∉ used
  received : c ∉ g.send
  passed : c = g.recv → (m : Int) < recvCounter

/-- The messages `used` are behind the session. -/
structure Forward (P : Primitives β) (secret : List β) (used : Set (List β × Nat)) (g : Chains β) (s : SessionState β) :
    Prop where
  ok : s.Ok P
  root : RootAt P secret g.rank s.rootKey
  dead : g.send = none → s.sendChainKey = zeros P 32 ∧ s.sendInitialized = false
  idle : s.sendInitialized = false → s.sendCounter = 0
  send : ∀ c ∈ g.send, Born P secret g.rank c ∧ ∃ n p, SendAt P s c n p ∧ ∀ m, (c, m) ∈ used → m < n
  born : Born P secret g.rank g.recv
  recv : ∃ n, RecvAt P s g.recv n ∧ ∀ m, (g.recv, m) ∈ used → m < n
  apart : g.recv ∉ g.send
  behind : ∀ x ∈ used, Born P secret g.rank x.1
  cached : ∀ key v, s.skipped.lookup key = some v → ∃ c m, Spare P secret used g s.recvCounter key v c m
  remote : g.owner g.recv = s.remotePublicKey
  drawn : Independent P secret s.ourPrivateKey
  seed : s.spqrSeed = P.hkdf secret none seedInfo 32

theorem Born.mono {k k' : Nat} {c : List β} (h : Born P secret k c) (hk : k ≤ k') : Born P secret k' c := by
  obtain ⟨i, hi, h⟩ := h
  exact ⟨i, hi.trans hk, h⟩

/-- A chain that is opened now is none of the chains before. -/
theorem Born.ne (hP : Free P) {k j : Nat} {c d : List β} (h : Born P secret k c) (h' : StartAt P secret j d)
    (hj : k < j) : c ≠ d := by
  rintro rfl
  obtain ⟨i, hi, h⟩ := h
  obtain ⟨x, hx⟩ := exists_mem_of_length h.length_eq
  have := (h.eq_of_mem hP h' hx hx).2
  omega

section Forward

variable {used : Set (List β × Nat)} {g : Chains β} {s : SessionState β}

/-- What the session holds does not help against these messages. -/
theorem Forward.exposure (h : Forward P secret used g s) : ∀ b ∈ exposed s, Exposure P secret used g.rank b := by
  rintro b (hb | hb | hb | hb | hb | ⟨key, v, hv, hb⟩)
  · exact .root h.root hb
  · cases hsend : g.send with
    | none =>
      rw [(h.dead hsend).1] at hb
      exact .octet (List.eq_of_mem_replicate hb)
    | some c =>
      obtain ⟨⟨i, -, hc⟩, n, p, hat, hu⟩ := h.send c hsend
      exact .chain hc hu (hat.key ▸ hb)
  · obtain ⟨n, hat, hu⟩ := h.recv
    obtain ⟨i, -, hc⟩ := h.born
    exact .chain hc hu (hat.key ▸ hb)
  · obtain ⟨hd, hn⟩ := h.drawn b hb
    exact .drawn hd hn
  · exact .seed (h.seed ▸ hb)
  · obtain ⟨c, m, hc⟩ := h.cached key v hv
    obtain ⟨i, -, hi⟩ := hc.born
    exact .cached hi hc.unused (hc.keys ▸ hb)

/-- Staging keys. -/
theorem Forward.staged (h : Forward P secret used g s) {n : Nat} (hr : RecvAt P s g.recv n) (k : Nat) :
    Forward P secret used g (s.staged P g.recv n k) := by
  obtain ⟨n', hr', hu⟩ := h.recv
  obtain rfl : n' = n := Int.ofNat.inj (hr'.counter.symm.trans hr.counter)
  refine { h with
    ok := ⟨h.ok.1, h.ok.2, h.ok.3, h.ok.4⟩
    send := fun c hc => ?_
    recv := ⟨n' + k, hr.staged k, fun m hm => Nat.lt_of_lt_of_le (hu m hm) (Nat.le_add_right _ _)⟩
    cached := fun key v hv => ?_ }
  · obtain ⟨hb, n, p, hat, hu⟩ := h.send c hc
    exact ⟨hb, n, p, ⟨hat.start_length, hat.key, hat.counter, hat.prev⟩, hu⟩
  · rcases lookup_stageKeys_some hv with ⟨m, h1, h2, rfl, rfl⟩ | hv
    · refine ⟨g.recv, m, by rw [h.remote], rfl, h.born, fun hm => ?_, h.apart, fun _ => ?_⟩
      · have := hu m hm
        omega
      · show (m : Int) < ((n' + k : Nat) : Int)
        omega
    · obtain ⟨c, m, hc⟩ := h.cached key v hv
      refine ⟨c, m, { hc with passed := fun he => ?_ }⟩
      have := hc.passed he
      rw [hr.counter] at this
      show (m : Int) < ((n' + k : Nat) : Int)
      omega

/-- The next message of the receiving chain is consumed. -/
theorem Forward.took (h : Forward P secret used g s) {n : Nat} (hr : RecvAt P s g.recv n) :
    Forward P secret (insert (g.recv, n) used) g
      { s with recvChainKey := chainKeyAt P g.recv (n + 1), recvCounter := (n : Int) + 1 } := by
  obtain ⟨n', hr', hu⟩ := h.recv
  obtain rfl : n' = n := Int.ofNat.inj (hr'.counter.symm.trans hr.counter)
  refine { h with
    ok := ⟨h.ok.1, h.ok.2, h.ok.3, h.ok.4⟩
    send := fun c hc => ?_
    recv := ⟨n' + 1, ⟨hr.start_length, rfl, rfl⟩, fun m hm => ?_⟩
    behind := fun x hx => ?_
    cached := fun key v hv => ?_ }
  · obtain ⟨hb, n, p, hat, hu⟩ := h.send c hc
    refine ⟨hb, n, p, ⟨hat.start_length, hat.key, hat.counter, hat.prev⟩, fun m hm => hu m ?_⟩
    exact hm.resolve_left fun he => h.apart ((Prod.mk.inj he).1 ▸ hc)
  · rcases hm with he | hm
    · rw [(Prod.mk.inj he).2]
      exact Nat.lt_succ_self _
    · exact Nat.lt_succ_of_lt (hu m hm)
  · rcases hx with rfl | hx
    · exact h.born
    · exact h.behind x hx
  · obtain ⟨c, m, hc⟩ := h.cached key v hv
    have hpassed : c = g.recv → (m : Int) < n' := fun he => hr.counter ▸ hc.passed he
    have hunused : (c, m) ∉ insert (g.recv, n') used := by
      rintro (he | hm)
      · have := hpassed (Prod.mk.inj he).1
        rw [(Prod.mk.inj he).2] at this
        exact lt_irrefl _ this
      · exact hc.unused hm
    exact ⟨c, m, { hc with unused := hunused, passed := fun he => Int.lt_add_one_of_le (Int.le_of_lt (hpassed he)) }⟩

/-- A cached key is consumed. -/
theorem Forward.uncached (h : Forward P secret used g s) {key : String} {v : MessageKeyBundle β}
    (hv : s.skipped.lookup key = some v) : ∃ c m, v = chainKeys P c m ∧ Born P secret g.rank c ∧
      Forward P secret (insert (c, m) used) g { s with skipped := s.skipped.erase key } := by
  obtain ⟨c, m, hc⟩ := h.cached key v hv
  refine ⟨c, m, hc.keys, hc.born, { h with
    ok := ⟨h.ok.1, h.ok.2, h.ok.3, h.ok.4⟩
    send := fun d hd => ?_
    recv := ?_
    behind := fun x hx => ?_
    cached := fun key' v' hv' => ?_ }⟩
  · obtain ⟨hb, n, p, hat, hu⟩ := h.send d hd
    refine ⟨hb, n, p, ⟨hat.start_length, hat.key, hat.counter, hat.prev⟩, fun k hk => hu k ?_⟩
    exact hk.resolve_left fun he => hc.received ((Prod.mk.inj he).1 ▸ hd)
  · obtain ⟨n, hr, hu⟩ := h.recv
    refine ⟨n, ⟨hr.start_length, hr.key, hr.counter⟩, fun k hk => hk.elim (fun he => ?_) (hu k)⟩
    have := hc.passed (Prod.mk.inj he).1.symm
    rw [hr.counter, ← (Prod.mk.inj he).2] at this
    exact Int.ofNat_lt.mp this
  · rcases hx with rfl | hx
    · exact hc.born
    · exact h.behind x hx
  · have hne : key' ≠ key := by
      rintro rfl
      rw [AList.lookup_erase] at hv'
      cases hv'
    rw [AList.lookup_erase_ne hne] at hv'
    obtain ⟨d, k, hd⟩ := h.cached key' v' hv'
    have hunused : (d, k) ∉ insert (c, m) used := by
      rintro (he | hm)
      · exact hne (by rw [hd.key_eq, hc.key_eq, (Prod.mk.inj he).1, (Prod.mk.inj he).2])
      · exact hd.unused hm
    exact ⟨d, k, { hd with unused := hunused }⟩

/-- The counter of the sending chain is a number. -/
theorem Forward.sendCounter (h : Forward P secret used g s) : ∃ p : Nat, s.sendCounter = p := by
  cases hsend : g.send with
  | none => exact ⟨0, h.idle (h.dead hsend).2⟩
  | some c =>
    obtain ⟨-, n, p, hat, -⟩ := h.send c hsend
    exact ⟨n, hat.counter⟩

/-- A DH ratchet replaces both chains and the root key. -/
theorem Forward.ratcheted (hP : Free P) (h : Forward P secret used g s) {A : Bytes} (hA : A.length = 32)
    {fresh : X25519Seed β} (hf : Independent P secret fresh.1) :
    ∃ owner, Forward P secret used
      ⟨g.rank + 2, some (kdfChain P (kdfRoot P s.rootKey (P.x25519 s.ourPrivateKey A)) (P.x25519 fresh.1 A)),
        s.nextStart P A, owner⟩ (s.ratcheted P A fresh.1) := by
  have hroot := h.root.ratcheted (P.x25519 s.ourPrivateKey A)
  have hrecv : StartAt P secret (g.rank + 1) (s.nextStart P A) := .ratcheted h.root (P.length_x25519 _ _)
  have hsend : StartAt P secret (g.rank + 2)
      (kdfChain P (kdfRoot P s.rootKey (P.x25519 s.ourPrivateKey A)) (P.x25519 fresh.1 A)) :=
    .ratcheted hroot (P.length_x25519 _ _)
  have hold : ∀ c, Born P secret g.rank c → c ≠ s.nextStart P A := fun c hc => hc.ne hP hrecv (Nat.lt_succ_self _)
  obtain ⟨p, hp⟩ := h.sendCounter
  classical
  refine ⟨fun c => if c = s.nextStart P A then A else g.owner c, {
    ok := ⟨fresh.2, rfl, hA, h.ok.4⟩
    root := hroot.ratcheted _
    dead := fun he => by cases he
    idle := fun _ => rfl
    send := fun c hc => ?_
    born := ⟨g.rank + 1, Nat.le_succ _, hrecv⟩
    recv := ⟨0, RecvAt.ratcheted P s A fresh.1, fun m hm => absurd rfl (hold _ (h.behind _ hm))⟩
    apart := fun hm => ?_
    behind := fun x hx => (h.behind x hx).mono (Nat.le_add_right _ 2)
    cached := fun key v hv => ?_
    remote := if_pos rfl
    drawn := hf
    seed := h.seed }⟩
  · obtain rfl := Option.some.inj hc
    refine ⟨⟨_, Nat.le_refl _, hsend⟩, 0, p, ⟨length_kdfChain P _ _, rfl, rfl, hp⟩, fun m hm => ?_⟩
    exact absurd rfl ((h.behind _ hm).ne hP hsend (by omega))
  · have hb : Born P secret (g.rank + 1) (s.nextStart P A) := ⟨_, Nat.le_refl _, hrecv⟩
    exact hb.ne hP hsend (Nat.lt_succ_self _) (Option.some.inj hm).symm
  · obtain ⟨c, m, hc⟩ := h.cached key v hv
    refine ⟨c, m, ?_, hc.keys, hc.born.mono (Nat.le_add_right _ 2), hc.unused, fun he => ?_,
      fun he => absurd he (hold c hc.born)⟩
    · rw [hc.key_eq]
      show _ = skipKey (if c = s.nextStart P A then A else g.owner c) m
      rw [if_neg (hold c hc.born)]
    · exact hc.born.ne hP hsend (by omega) (Option.some.inj he).symm

/-- The first send of a responder replaces its sending chain and the root key. -/
theorem Forward.firstSent (hP : Free P) (h : Forward P secret used g s) (hi : s.sendInitialized = false)
    {fresh : X25519Seed β} (hf : Independent P secret fresh.1) :
    SendAt P (s.firstSent P fresh.1) (kdfChain P s.rootKey (P.x25519 fresh.1 s.remotePublicKey)) 0 0 ∧
      Forward P secret used ⟨g.rank + 1, some (kdfChain P s.rootKey (P.x25519 fresh.1 s.remotePublicKey)), g.recv,
        g.owner⟩ (s.firstSent P fresh.1) := by
  have hsend : StartAt P secret (g.rank + 1) (kdfChain P s.rootKey (P.x25519 fresh.1 s.remotePublicKey)) :=
    .ratcheted h.root (P.length_x25519 _ _)
  have hold : ∀ c, Born P secret g.rank c → c ≠ _ := fun c hc => hc.ne hP hsend (Nat.lt_succ_self _)
  have hat : SendAt P (s.firstSent P fresh.1) (kdfChain P s.rootKey (P.x25519 fresh.1 s.remotePublicKey)) 0 0 :=
    ⟨length_kdfChain P _ _, rfl, h.idle hi, h.idle hi⟩
  obtain ⟨n, hr, hu⟩ := h.recv
  refine ⟨hat, {
    ok := ⟨fresh.2, rfl, h.ok.3, h.ok.4⟩
    root := h.root.ratcheted _
    dead := fun he => by cases he
    idle := fun he => by cases he
    send := fun c hc => ?_
    born := h.born.mono (Nat.le_succ _)
    recv := ⟨n, ⟨hr.start_length, hr.key, hr.counter⟩, hu⟩
    apart := fun he => hold _ h.born (Option.some.inj he).symm
    behind := fun x hx => (h.behind x hx).mono (Nat.le_succ _)
    cached := fun key v hv => ?_
    remote := h.remote
    drawn := hf
    seed := h.seed }⟩
  · obtain rfl := Option.some.inj hc
    exact ⟨⟨_, Nat.le_refl _, hsend⟩, 0, 0, hat, fun m hm => absurd rfl (hold _ (h.behind _ hm))⟩
  · obtain ⟨c, m, hc⟩ := h.cached key v hv
    exact ⟨c, m, hc.key_eq, hc.keys, hc.born.mono (Nat.le_succ _), hc.unused,
      fun he => hold c hc.born (Option.some.inj he).symm, hc.passed⟩

/-- A message is sent. -/
theorem Forward.sent (h : Forward P secret used g s) {c : List β} (hc : c ∈ g.send) {n p : Nat}
    (hat : SendAt P s c n p) (hi : s.sendInitialized = true) (e : Int) :
    Forward P secret (insert (c, n) used) g { s.sent P c n with spqrEpoch := e } := by
  obtain ⟨hb, n', p', hat', hu⟩ := h.send c hc
  obtain rfl : n' = n := Int.ofNat.inj (hat'.counter.symm.trans hat.counter)
  have hne : g.recv ≠ c := fun he => h.apart (he ▸ hc)
  obtain ⟨k, hr, hv⟩ := h.recv
  refine { h with
    ok := ⟨h.ok.1, h.ok.2, h.ok.3, h.ok.4⟩
    dead := fun he => absurd (he ▸ hc) (by simp)
    idle := fun he => absurd (hi.symm.trans he) (by simp)
    send := fun d hd => ?_
    recv := ⟨k, ⟨hr.start_length, hr.key, hr.counter⟩, fun m hm => hv m (hm.resolve_left fun he =>
      hne (Prod.mk.inj he).1)⟩
    behind := fun x hx => ?_
    cached := fun key v hv => ?_ }
  · obtain rfl : d = c := Option.some.inj (hd.symm.trans hc)
    refine ⟨hb, n' + 1, p, hat.sent e, fun m hm => ?_⟩
    rcases hm with he | hm
    · rw [(Prod.mk.inj he).2]
      exact Nat.lt_succ_self _
    · exact Nat.lt_succ_of_lt (hu m hm)
  · rcases hx with rfl | hx
    · exact hb
    · exact h.behind x hx
  · obtain ⟨d, m, hd⟩ := h.cached key v hv
    refine ⟨d, m, { hd with unused := ?_ }⟩
    rintro (he | hm)
    · exact hd.received ((Prod.mk.inj he).1 ▸ hc)
    · exact hd.unused hm

end Forward

/-! ## Operations -/

namespace DoubleRatchet

/-- A staging step that throws has changed nothing. -/
theorem stageSkipped_error {s s' : SessionState β} {counter : Int} {e : DartError}
    (h : (stageSkipped P counter).run s = .error e s') : s' = s := by
  by_cases hm : s.skipped.keys.length ≥ maxSkippedTotal
  · simp [stageSkipped, hm] at h
    exact h.2.symm
  · cases hd : MessageKeys.derive P s.recvChainKey counter with
    | error e' =>
      simp [stageSkipped, hm, hd] at h
      exact h.2.symm
    | ok r => simp [stageSkipped, hm, hd] at h

/-- A staging loop that throws has staged some keys. -/
theorem stageUntil_error {start : List β} {t : Nat} {limit : Option Int} {e : DartError} :
    ∀ {k c : Nat} {s s' : SessionState β} {staged : Int}, k = t - c → RecvAt P s start c →
      (stageUntil P t limit k staged).run s = .error e s' → ∃ j, s' = s.staged P start c j := by
  intro k
  induction k with
  | zero => intro c s s' staged _ _ hr; cases hr
  | succ k ih =>
    intro c s s' staged hk h hr
    have hct : s.recvCounter < (t : Int) := by rw [h.counter]; omega
    have hinc : ({ s.staged P start c 1 with recvCounter := (c : Int) + 1 } : SessionState β)
        = s.staged P start c 1 := rfl
    cases h1 : (stageSkipped P s.recvCounter).run s with
    | error e' u =>
      simp [stageUntil, hct, h1] at hr
      exact ⟨0, by rw [SessionState.staged_zero h, ← hr.2, stageSkipped_error h1]⟩
    | ok a u =>
      obtain ⟨hc, hm⟩ := stageSkipped_inv h h1
      by_cases hlim : limit.any (fun l => decide (l < staged + 1)) = true
      · simp only [stageUntil, EStateM.run_bind, EStateM.run_get, hct, if_true, stageSkipped_run h hc hm,
          EStateM.run_modify, hlim, hinc] at hr
        cases hr
        exact ⟨1, rfl⟩
      · rw [Bool.not_eq_true] at hlim
        simp only [stageUntil, EStateM.run_bind, EStateM.run_get, hct, if_true, stageSkipped_run h hc hm,
          EStateM.run_modify, hlim, hinc, Bool.false_eq_true, if_false] at hr
        obtain ⟨j, rfl⟩ := ih (by omega) (h.staged 1) hr
        exact ⟨j + 1, SessionState.staged_succ P s start c j⟩

/-- So has a receive that throws. -/
theorem receive_error {s s' : SessionState β} {start : List β} {c n : Nat} {e : DartError} (hr : RecvAt P s start c)
    (h : (receive P (n : Int)).run s = .error e s') : ∃ j, s' = s.staged P start c j := by
  have hk : ((n : Int) - c).toNat = n - c := by omega
  simp only [receive, EStateM.run_bind, EStateM.run_get, hr.counter, hk] at h
  by_cases h1 : (n : Int) < c
  · simp [h1] at h
    exact ⟨0, by rw [SessionState.staged_zero hr, ← h.2]⟩
  by_cases h2 : (n : Int) - c > maxSkip
  · simp [h1, h2] at h
    exact ⟨0, by rw [SessionState.staged_zero hr, ← h.2]⟩
  have hcn : c + (n - c) = n := by omega
  cases h3 : (stageUntil P n none (n - c) 0).run s with
  | error e' u =>
    simp [h1, h2, h3] at h
    obtain ⟨j, hj⟩ := stageUntil_error rfl hr h3
    exact ⟨j, by rw [← h.2, hj]⟩
  | ok a u =>
    obtain ⟨rfl, -⟩ := stageUntil_inv rfl hr h3
    cases h4 : MessageKeys.derive P (chainKeyAt P start n) (n : Int) with
    | error e' =>
      simp [h1, h2, h3, SessionState.staged, hcn, h4] at h
      exact ⟨n - c, by rw [← h.2]; simp [SessionState.staged, hcn]⟩
    | ok r => simp [h1, h2, h3, SessionState.staged, hcn, h4] at h

/-- And a ratchet that throws. -/
theorem dhRatchet_error {s s' : SessionState β} {start : List β} {c : Nat} {fresh : X25519Seed β} {h : RatchetHeader}
    {e : DartError} (hs : s.Ok P) (hr : RecvAt P s start c) (hrun : (dhRatchet P fresh h).run s = .error e s') :
    ∃ j, s' = s.staged P start c j := by
  have hk : ((h.prevChainLength : Int) - s.recvCounter).toNat = h.prevChainLength - c := by rw [hr.counter]; omega
  cases h1 : (stageUntil P h.prevChainLength (some maxSkip) (h.prevChainLength - s.recvCounter).toNat 0).run s with
  | error e' u =>
    simp [dhRatchet, h1] at hrun
    rw [hk] at h1
    obtain ⟨j, hj⟩ := stageUntil_error rfl hr h1
    exact ⟨j, by rw [← hrun.2, hj]⟩
  | ok a u =>
    have hu : u.ourPrivateKey.length = 32 := by
      have h2 := h1
      rw [hk] at h2
      rw [(stageUntil_inv rfl hr h2).1]
      exact hs.ourPrivateKey_length
    rw [dhRatchet_staged fresh h1 hu] at hrun
    cases hrun

end DoubleRatchet

section Steps

variable {used : Set (List β × Nat)} {g : Chains β} {s s' : SessionState β}

/-- The current chain, up to and with message `n`. -/
theorem Forward.receive {n : Nat} {k : MessageKeyBundle β} (h : Forward P secret used g s)
    (hrun : (DoubleRatchet.receive P (n : Int)).run s = .ok k s') :
    k = chainKeys P g.recv n ∧ Born P secret g.rank g.recv ∧ Forward P secret (insert (g.recv, n) used) g s' := by
  obtain ⟨c, hr, -⟩ := h.recv
  obtain ⟨hc, -, -, rfl, rfl⟩ := DoubleRatchet.receive_inv hr hrun
  have hn : RecvAt P (s.staged P g.recv c (n - c)) g.recv n := by
    have := hr.staged (n - c)
    rwa [show c + (n - c) = n by omega] at this
  exact ⟨rfl, h.born, (h.staged hr (n - c)).took hn⟩

/-- A `decrypt` that returns consumed one message. -/
theorem Forward.decrypt (hP : Free P) (h : Forward P secret used g s) {fresh : X25519Seed β}
    (hf : Independent P secret fresh.1) {header : RatchetHeader} {k : MessageKeyBundle β}
    (hrun : (DoubleRatchet.decrypt P fresh header).run s = .ok k s') :
    ∃ c m g', k = chainKeys P c m ∧ Born P secret g'.rank c ∧ Forward P secret (insert (c, m) used) g' s' := by
  simp only [DoubleRatchet.decrypt, EStateM.run_bind, EStateM.run_get] at hrun
  cases hl : s.skipped.lookup (skipKey header.dhPublicKey header.messageNumber) with
  | some v =>
    simp [hl] at hrun
    obtain ⟨rfl, rfl⟩ := hrun
    obtain ⟨c, m, hk, hb, h'⟩ := h.uncached hl
    exact ⟨c, m, g, hk, hb, h'⟩
  | none =>
    by_cases hd : header.dhPublicKey = s.remotePublicKey
    · simp only [hl, ne_eq, hd, not_true_eq_false, if_false] at hrun
      obtain ⟨hk, hb, h'⟩ := h.receive hrun
      exact ⟨_, _, g, hk, hb, h'⟩
    · simp only [hl, ne_eq, hd, not_false_eq_true, if_true] at hrun
      obtain ⟨_, u, h1, hrun⟩ := run_bind_ok hrun
      obtain ⟨c, hr, -⟩ := h.recv
      obtain ⟨rfl, -, -⟩ := DoubleRatchet.dhRatchet_inv h.ok hr h1
      obtain ⟨owner, h2⟩ := (h.staged hr _).ratcheted hP header.dhPublicKey_length hf
      obtain ⟨hk, hb, h'⟩ := h2.receive hrun
      exact ⟨_, _, _, hk, hb, h'⟩

/-- A `decrypt` that throws consumed none. -/
theorem Forward.decrypt_error (hP : Free P) (h : Forward P secret used g s) {fresh : X25519Seed β}
    (hf : Independent P secret fresh.1) {header : RatchetHeader} {e : DartError}
    (hrun : (DoubleRatchet.decrypt P fresh header).run s = .error e s') : ∃ g', Forward P secret used g' s' := by
  simp only [DoubleRatchet.decrypt, EStateM.run_bind, EStateM.run_get] at hrun
  obtain ⟨c, hr, -⟩ := h.recv
  cases hl : s.skipped.lookup (skipKey header.dhPublicKey header.messageNumber) with
  | some v => simp [hl] at hrun
  | none =>
    by_cases hd : header.dhPublicKey = s.remotePublicKey
    · simp only [hl, ne_eq, hd, not_true_eq_false, if_false] at hrun
      obtain ⟨j, rfl⟩ := DoubleRatchet.receive_error hr hrun
      exact ⟨g, h.staged hr j⟩
    · simp only [hl, ne_eq, hd, not_false_eq_true, if_true] at hrun
      cases h1 : (DoubleRatchet.dhRatchet P fresh header).run s with
      | error e' u =>
        simp only [EStateM.run_bind, h1] at hrun
        cases hrun
        obtain ⟨j, rfl⟩ := DoubleRatchet.dhRatchet_error h.ok hr h1
        exact ⟨g, h.staged hr j⟩
      | ok a u =>
        simp only [EStateM.run_bind, h1] at hrun
        obtain ⟨rfl, -, -⟩ := DoubleRatchet.dhRatchet_inv h.ok hr h1
        obtain ⟨owner, h2⟩ := (h.staged hr _).ratcheted hP header.dhPublicKey_length hf
        obtain ⟨c', hr', -⟩ := h2.recv
        obtain ⟨j, rfl⟩ := DoubleRatchet.receive_error hr' hrun
        exact ⟨_, h2.staged hr' j⟩

/-- A send on a live chain. -/
theorem Forward.encrypt_live (h : Forward P secret used g s) (hi : s.sendInitialized = true) {fresh : X25519Seed β}
    {w : TripleHeader × MessageKeyBundle β} (hrun : (TripleRatchet.encrypt P fresh).run s = .ok w s') :
    ∃ c m, w.2 = sealKeys P s.spqrSeed c m ∧ Born P secret g.rank c ∧ Forward P secret (insert (c, m) used) g s' := by
  obtain ⟨c, hc⟩ : ∃ c, g.send = some c := by
    cases hsend : g.send with
    | none => rw [(h.dead hsend).2] at hi; cases hi
    | some c => exact ⟨c, rfl⟩
  obtain ⟨hb, n, p, hat, -⟩ := h.send c hc
  obtain ⟨-, -, -, -, -, hk, rfl⟩ := TripleRatchet.encrypt_live_inv hi hat h.ok hrun
  exact ⟨c, n, hk, hb, h.sent hc hat hi _⟩

/-- A send that returns used one message. -/
theorem Forward.encrypt (hP : Free P) (h : Forward P secret used g s) {fresh : X25519Seed β}
    (hf : Independent P secret fresh.1) {w : TripleHeader × MessageKeyBundle β}
    (hrun : (TripleRatchet.encrypt P fresh).run s = .ok w s') :
    ∃ c m g', w.2 = sealKeys P s.spqrSeed c m ∧ Born P secret g'.rank c ∧ Forward P secret (insert (c, m) used) g' s' := by
  cases hi : s.sendInitialized with
  | true =>
    obtain ⟨c, m, hk, hb, h'⟩ := h.encrypt_live hi hrun
    exact ⟨c, m, g, hk, hb, h'⟩
  | false =>
    rw [TripleRatchet.encrypt_first fresh hi h.ok.remotePublicKey_length] at hrun
    obtain ⟨c, m, hk, hb, h'⟩ := (h.firstSent hP hi hf).2.encrypt_live rfl hrun
    exact ⟨c, m, _, hk, hb, h'⟩

/-- A send that throws has used none. -/
theorem Forward.encrypt_error (hP : Free P) (h : Forward P secret used g s) {fresh : X25519Seed β}
    (hf : Independent P secret fresh.1) {e : DartError}
    (hrun : (TripleRatchet.encrypt P fresh).run s = .error e s') : Forward P secret used g s' := by
  cases hi : s.sendInitialized with
  | true =>
    obtain ⟨c, hc⟩ : ∃ c, g.send = some c := by
      cases hsend : g.send with
      | none => rw [(h.dead hsend).2] at hi; cases hi
      | some c => exact ⟨c, rfl⟩
    obtain ⟨-, n, p, hat, -⟩ := h.send c hc
    by_cases hn : n ≤ 0xFFFFFFFF
    · rw [TripleRatchet.encrypt_run fresh hi hat h.ok hn] at hrun
      cases hrun
    · obtain ⟨e', he⟩ := DoubleRatchet.encrypt_overflow fresh hi hat (Nat.not_le.mp hn)
      simp [TripleRatchet.encrypt, he] at hrun
      exact hrun.2 ▸ h
  | false =>
    obtain ⟨hat, h'⟩ := h.firstSent hP hi hf
    rw [TripleRatchet.encrypt_first fresh hi h.ok.remotePublicKey_length,
      TripleRatchet.encrypt_run fresh rfl hat h'.ok (Nat.zero_le _)] at hrun
    cases hrun

end Steps

/-! ## Runs -/

/-- One side of a conversation: its session, and the keys it has sent with or consumed. -/
structure Party (β : Type) where
  session : SessionState β
  used : List (MessageKeyBundle β)

/-- Two parties and the headers that are public. -/
structure Exchange (β : Type) where
  party : Side → Party β
  headers : List TripleHeader

/-- What the attacker has once it sees the session of `x`. -/
def Exchange.given (P : Primitives β) (c : Exchange β) (x : Side) : Set β :=
  exposed (c.party x).session ∪ {b | ∃ h ∈ c.headers, b ∈ h.toBytes.map P.ofByte}

/-- The exchanges that two sessions can reach: either side encrypts, or decrypts any header at all, and a call may throw.
Key pairs are drawn without regard to the shared secret. -/
inductive Exchange.Reachable (P : Primitives β) (secret : List β) (i r : SessionState β) : Exchange β → Prop
  | start : Reachable P secret i r ⟨fun x => ⟨bySide i r x, []⟩, []⟩
  | encrypt {c : Exchange β} (h : Reachable P secret i r c) (x : Side) {fresh : X25519Seed β}
      (drawn : Independent P secret fresh.1) {header : TripleHeader} {keys : MessageKeyBundle β} {s' : SessionState β}
      (run : (TripleRatchet.encrypt P fresh).run (c.party x).session = .ok (header, keys) s') :
      Reachable P secret i r ⟨Function.update c.party x ⟨s', keys :: (c.party x).used⟩, header :: c.headers⟩
  | encryptThrows {c : Exchange β} (h : Reachable P secret i r c) (x : Side) {fresh : X25519Seed β}
      (drawn : Independent P secret fresh.1) {e : DartError} {s' : SessionState β}
      (run : (TripleRatchet.encrypt P fresh).run (c.party x).session = .error e s') :
      Reachable P secret i r ⟨Function.update c.party x ⟨s', (c.party x).used⟩, c.headers⟩
  | decrypt {c : Exchange β} (h : Reachable P secret i r c) (x : Side) {fresh : X25519Seed β}
      (drawn : Independent P secret fresh.1) {header : TripleHeader} {keys : MessageKeyBundle β} {s' : SessionState β}
      (run : (TripleRatchet.decrypt P fresh header).run (c.party x).session = .ok keys s') :
      Reachable P secret i r ⟨Function.update c.party x ⟨s', keys :: (c.party x).used⟩, header :: c.headers⟩
  | decryptThrows {c : Exchange β} (h : Reachable P secret i r c) (x : Side) {fresh : X25519Seed β}
      (drawn : Independent P secret fresh.1) {header : TripleHeader} {e : DartError} {s' : SessionState β}
      (run : (TripleRatchet.decrypt P fresh header).run (c.party x).session = .error e s') :
      Reachable P secret i r ⟨Function.update c.party x ⟨s', (c.party x).used⟩, header :: c.headers⟩

/-- The keys a party has used are those of messages behind its session. -/
def Behind (P : Primitives β) (secret : List β) (p : Party β) : Prop :=
  ∃ used g, Forward P secret used g p.session ∧
    ∀ k ∈ p.used, ∃ c m q n e, (c, m) ∈ used ∧ k = combined P (chainKeys P c m).messageKey q n e

section Runs

variable {s s' : SessionState β} {l : List (MessageKeyBundle β)} {fresh : X25519Seed β}

/-- A message more is behind the session. -/
theorem Behind.cons {used : Set (List β × Nat)} {g : Chains β} {c : List β} {m : Nat} {k : MessageKeyBundle β}
    (hl : ∀ k ∈ l, ∃ c m q n e, (c, m) ∈ used ∧ k = combined P (chainKeys P c m).messageKey q n e)
    (h : Forward P secret (insert (c, m) used) g s') {q : List β} {n e : Nat}
    (hk : k = combined P (chainKeys P c m).messageKey q n e) : Behind P secret ⟨s', k :: l⟩ := by
  refine ⟨insert (c, m) used, g, h, fun k' hk' => ?_⟩
  rcases List.mem_cons.mp hk' with rfl | hk'
  · exact ⟨c, m, q, n, e, Set.mem_insert _ _, hk⟩
  · obtain ⟨c', m', q', n', e', hu, he⟩ := hl k' hk'
    exact ⟨c', m', q', n', e', Set.mem_insert_of_mem _ hu, he⟩

theorem Behind.encrypt (hP : Free P) (h : Behind P secret ⟨s, l⟩) (hf : Independent P secret fresh.1)
    {w : TripleHeader × MessageKeyBundle β} (hrun : (TripleRatchet.encrypt P fresh).run s = .ok w s') :
    Behind P secret ⟨s', w.2 :: l⟩ := by
  obtain ⟨used, g, hs, hl⟩ := h
  obtain ⟨c, m, g', hk, -, h'⟩ := hs.encrypt hP hf hrun
  exact Behind.cons hl h' hk

theorem Behind.encrypt_error (hP : Free P) (h : Behind P secret ⟨s, l⟩) (hf : Independent P secret fresh.1)
    {e : DartError} (hrun : (TripleRatchet.encrypt P fresh).run s = .error e s') : Behind P secret ⟨s', l⟩ := by
  obtain ⟨used, g, hs, hl⟩ := h
  exact ⟨used, g, hs.encrypt_error hP hf hrun, hl⟩

theorem Behind.decrypt (hP : Free P) (h : Behind P secret ⟨s, l⟩) (hf : Independent P secret fresh.1)
    {header : TripleHeader} {k : MessageKeyBundle β} (hrun : (TripleRatchet.decrypt P fresh header).run s = .ok k s') :
    Behind P secret ⟨s', k :: l⟩ := by
  obtain ⟨used, g, hs, hl⟩ := h
  obtain ⟨c, hr, -⟩ := hs.recv
  obtain ⟨k', hrun', hk⟩ := TripleRatchet.decrypt_inv hs.ok hr hrun
  obtain ⟨c, m, g', rfl, -, h'⟩ := hs.decrypt hP hf hrun'
  exact Behind.cons hl h' hk

theorem Behind.decrypt_error (hP : Free P) (h : Behind P secret ⟨s, l⟩) (hf : Independent P secret fresh.1)
    {header : TripleHeader} {e : DartError} (hrun : (TripleRatchet.decrypt P fresh header).run s = .error e s') :
    Behind P secret ⟨s', l⟩ := by
  obtain ⟨used, g, hs, hl⟩ := h
  cases hd : (DoubleRatchet.decrypt P fresh header.dh).run s with
  | ok k u =>
    obtain ⟨c, m, g', -, -, h'⟩ := hs.decrypt hP hf hd
    rw [TripleRatchet.decrypt_run h'.ok.spqrSeed_length hd] at hrun
    cases hrun
  | error e' u =>
    obtain ⟨g', h'⟩ := hs.decrypt_error hP hf hd
    simp [TripleRatchet.decrypt, hd] at hrun
    exact ⟨used, g', hrun.2 ▸ h', hl⟩

end Runs

/-- A new session has used nothing. -/
theorem Forward.opened (hP : Free P) (peerId : String) (initiator : Bool) {remote : Bytes} (hr : remote.length = 32)
    {priv : List β} (hp : priv.length = 32) (hd : Independent P secret priv) :
    ∃ g, Forward P secret ∅ g (openedSession P peerId initiator secret remote priv) := by
  have hlen := P.length_x25519 priv remote
  have h11 : 1 ≤ 1 ∧ 1 ≤ 2 := by decide
  have h12 : 1 ≤ 2 ∧ 2 ≤ 2 := by decide
  have hA : StartAt P secret 0 (chainA P secret (P.x25519 priv remote)) := .opened hlen h11.1 h11.2
  have hB : StartAt P secret 0 (chainB P secret (P.x25519 priv remote)) := .opened hlen h12.1 h12.2
  have hne : chainB P secret (P.x25519 priv remote) ≠ chainA P secret (P.x25519 priv remote) := by
    intro he
    obtain ⟨x, hx⟩ := exists_mem_of_length hB.length_eq
    have h21 : 2 = 1 := hP.block hx (he ▸ hx)
    cases h21
  have hok := openedSession_ok P peerId initiator secret hp hr
  cases initiator with
  | true =>
    exact ⟨⟨0, some (chainA P secret (P.x25519 priv remote)), chainB P secret (P.x25519 priv remote), fun _ => remote⟩, {
      ok := hok
      root := .opened _
      dead := fun he => by cases he
      idle := fun _ => rfl
      send := fun c hc => by
        obtain rfl := Option.some.inj hc
        exact ⟨⟨0, Nat.le_refl 0, hA⟩, 0, 0, ⟨length_chainA P _ _, rfl, rfl, rfl⟩, fun m hm => hm.elim⟩
      born := ⟨0, Nat.le_refl 0, hB⟩
      recv := ⟨0, ⟨length_chainB P _ _, rfl, rfl⟩, fun m hm => hm.elim⟩
      apart := fun he => hne (Option.some.inj he).symm
      behind := fun x hx => hx.elim
      cached := fun key v hv => by cases hv
      remote := rfl
      drawn := hd
      seed := rfl }⟩
  | false =>
    exact ⟨⟨0, none, chainA P secret (P.x25519 priv remote), fun _ => remote⟩, {
      ok := hok
      root := .opened _
      dead := fun _ => ⟨rfl, rfl⟩
      idle := fun _ => rfl
      send := fun c hc => by cases hc
      born := ⟨0, Nat.le_refl 0, hA⟩
      recv := ⟨0, ⟨length_chainA P _ _, rfl, rfl⟩, fun m hm => hm.elim⟩
      apart := fun he => by cases he
      behind := fun x hx => hx.elim
      cached := fun key v hv => by cases hv
      remote := rfl
      drawn := hd
      seed := rfl }⟩

/-- A session that `startSession` opens. -/
theorem Behind.started (hP : Free P) {peer : Contact} {remote : Bytes} {initiator : Bool} {ours : Option (List β)}
    {fresh : X25519Seed β} {s : SessionState β}
    (h : TripleRatchet.startSession P peer remote secret initiator ours fresh = .ok s)
    (hd : Independent P secret s.ourPrivateKey) : Behind P secret ⟨s, []⟩ := by
  unfold TripleRatchet.startSession at h
  split at h
  · obtain ⟨a, ha, hr, rfl⟩ := DoubleRatchet.initSession_ok h
    obtain ⟨g, hg⟩ := Forward.opened hP peer.id initiator hr ha hd
    exact ⟨∅, g, hg, fun k hk => (List.not_mem_nil hk).elim⟩
  · cases h

/-- Every run keeps what was used behind both sessions. -/
theorem Exchange.Reachable.behind (hP : Free P) {i r : SessionState β} (hi : Behind P secret ⟨i, []⟩)
    (hr : Behind P secret ⟨r, []⟩) {c : Exchange β} (h : Reachable P secret i r c) (x : Side) :
    Behind P secret (c.party x) := by
  induction h generalizing x with
  | start =>
    cases x with
    | initiator => exact hi
    | responder => exact hr
  | encrypt _ y drawn run ih =>
    dsimp only
    rcases Side.eq_or_other y x with rfl | rfl
    · rw [Function.update_self]
      exact (ih x).encrypt hP drawn run
    · rw [Function.update_of_ne (Side.other_ne y)]
      exact ih _
  | encryptThrows _ y drawn run ih =>
    dsimp only
    rcases Side.eq_or_other y x with rfl | rfl
    · rw [Function.update_self]
      exact (ih x).encrypt_error hP drawn run
    · rw [Function.update_of_ne (Side.other_ne y)]
      exact ih _
  | decrypt _ y drawn run ih =>
    dsimp only
    rcases Side.eq_or_other y x with rfl | rfl
    · rw [Function.update_self]
      exact (ih x).decrypt hP drawn run
    · rw [Function.update_of_ne (Side.other_ne y)]
      exact ih _
  | decryptThrows _ y drawn run ih =>
    dsimp only
    rcases Side.eq_or_other y x with rfl | rfl
    · rw [Function.update_self]
      exact (ih x).decrypt_error hP drawn run
    · rw [Function.update_of_ne (Side.other_ne y)]
      exact ih _

end Chhaya
