import Chhaya.Ratchet.Epochs

/-!
# The skipped cache

One session under any headers: how many keys a `decrypt` stages, and where the keys of the cache are filed. A chain is known by
its public key, so a ratchet to a key that was the remote one before begins a second chain under the name of the first.

- `length_newKeys`: how many keys a staging loop files.
- `Receiver.Inv.after`: a call keeps every cached key below the receive position of its chain, and unconsumed.
- `skipped_cache`: the cache in every run that goes back to no key.
-/

namespace Chhaya

variable {β : Type} {P : Primitives β} {s : SessionState β} {start : List β} {c n : Nat}

/-! ## Keys filed by a staging loop -/

theorem mem_fileKeys {dh : Bytes} {c : Nat} {names : List String} {x : String} {k : Nat}
    (h : x ∈ fileKeys dh c k names) : x ∈ names ∨ ∃ i < k, x = skipKey dh (c + i : Nat) := by
  induction k with
  | zero => exact Or.inl h
  | succ k ih =>
    rcases List.mem_cons.mp h with rfl | h
    · exact Or.inr ⟨k, Nat.lt_succ_self k, rfl⟩
    · rcases ih (List.mem_of_mem_erase h) with h | ⟨i, hi, rfl⟩
      · exact Or.inl h
      · exact Or.inr ⟨i, hi.trans (Nat.lt_succ_self k), rfl⟩

/-- No number from `c` on is filed for the chain. -/
def Above (dh : Bytes) (c : Nat) (names : List String) : Prop := ∀ i, c ≤ i → skipKey dh (i : Nat) ∉ names

/-- A loop on such a chain files keys of its own. -/
theorem fileKeys_eq {dh : Bytes} {c : Nat} {names : List String} (ha : Above dh c names) (k : Nat) :
    fileKeys dh c (k + 1) names = skipKey dh (c + k : Nat) :: fileKeys dh c k names := by
  rw [fileKeys, List.erase_of_not_mem]
  intro hm
  rcases mem_fileKeys hm with hm | ⟨i, hi, he⟩
  · exact ha (c + k) (Nat.le_add_right c k) hm
  · have := (skipKey_inj he).2
    omega

theorem length_fileKeys {dh : Bytes} {c : Nat} {names : List String} (ha : Above dh c names) :
    ∀ k, (fileKeys dh c k names).length = k + names.length
  | 0 => (Nat.zero_add _).symm
  | k + 1 => by
    rw [fileKeys_eq ha, List.length_cons, length_fileKeys ha k]
    omega

/-- The keys that are not among `old`. -/
def newKeys (old names : List String) : List String := names.filter fun x => x ∉ old

theorem newKeys_self (old : List String) : newKeys old old = [] := by
  simp [newKeys]

theorem newKeys_erase (old : List String) (x : String) : newKeys old (old.erase x) = [] := by
  rw [newKeys, List.filter_eq_nil_iff]
  intro y hy
  simpa using List.mem_of_mem_erase hy

theorem length_newKeys {dh : Bytes} {c : Nat} {old names : List String} (ha : Above dh c names) (ho : Above dh c old) :
    ∀ k, (newKeys old (fileKeys dh c k names)).length = k + (newKeys old names).length
  | 0 => (Nat.zero_add _).symm
  | k + 1 => by
    have hnew : skipKey dh (c + k : Nat) ∉ old := ho _ (Nat.le_add_right c k)
    rw [fileKeys_eq ha, newKeys, List.filter_cons_of_pos (by simpa using hnew), List.length_cons, ← newKeys,
      length_newKeys ha ho k]
    omega

/-- Room in numbers. -/
theorem roomy_iff {dh : Bytes} {c : Nat} {names : List String} (ha : Above dh c names) {i : Nat} :
    Roomy dh c names i ↔ i + names.length < 2000 ∧ c + i < 2 ^ 32 := by
  rw [Roomy, length_fileKeys ha, DoubleRatchet.maxSkippedTotal]
  omega

/-! ## Where keys are filed -/

/-- What `decrypt` is called with. -/
def SessionCall.received : SessionCall β → Option (X25519Seed β × RatchetHeader)
  | .decrypt fresh header => some (fresh, header)
  | .decryptTriple fresh header => some (fresh, header.dh)
  | _ => none

/-- A session, the numbers whose keys `decrypt` has returned, by the keys of their chains, and the receive positions of the
chains that it has left. -/
structure Receiver (β : Type) where
  session : SessionState β
  consumed : List (Bytes × Nat) := []
  left : Bytes → Option Int := fun _ => none

namespace Receiver

/-- The receive position of a chain. -/
def position (r : Receiver β) (dh : Bytes) : Option Int :=
  if dh = r.session.remotePublicKey then some r.session.recvCounter else r.left dh

/-- The numbers consumed after a `decrypt` of `h`. -/
def takes (h : RatchetHeader) (consumed : List (Bytes × Nat)) :
    EStateM.Result DartError (SessionState β) (MessageKeyBundle β) → List (Bytes × Nat)
  | .ok _ _ => (h.dhPublicKey, h.messageNumber) :: consumed
  | .error _ _ => consumed

/-- After a `decrypt` of `h`. A ratchet leaves the old chain where its staging loop ends. -/
def receive (r : Receiver β) (h : RatchetHeader)
    (result : EStateM.Result DartError (SessionState β) (MessageKeyBundle β)) : Receiver β where
  session := leaves result
  consumed := takes h r.consumed result
  left := if (leaves result).remotePublicKey = r.session.remotePublicKey then r.left
    else Function.update r.left r.session.remotePublicKey (some (max r.session.recvCounter h.prevChainLength))

/-- After a call. -/
def after (P : Primitives β) (r : Receiver β) (call : SessionCall β) : Receiver β :=
  match call.received with
  | some (fresh, h) => r.receive h ((DoubleRatchet.decrypt P fresh h).run r.session)
  | none => { r with session := call.after P r.session }

theorem session_after (r : Receiver β) (call : SessionCall β) : (r.after P call).session = call.after P r.session := by
  cases call with
  | encrypt | encryptTriple => rfl
  | decrypt fresh header => exact (leaves_map _ _ _).symm
  | decryptTriple fresh header =>
    exact ((leaves_map _ _ _).trans (TripleRatchet.leaves_decrypt P _ fresh header)).symm

/-- A message is consumed. -/
theorem after_decrypt {r : Receiver β} {fresh : X25519Seed β} {h : RatchetHeader} {k : MessageKeyBundle β} {s' : SessionState β}
    (hrun : (DoubleRatchet.decrypt P fresh h).run r.session = .ok k s') : (r.after P (.decrypt fresh h)).session = s' ∧
      (r.after P (.decrypt fresh h)).consumed = (h.dhPublicKey, h.messageNumber) :: r.consumed := by
  have hafter : r.after P (.decrypt fresh h) = r.receive h (.ok k s') := congrArg (r.receive h) hrun
  rw [hafter]
  exact ⟨rfl, rfl⟩

/-- Every cached key is filed under the key of a chain and a number below its position, which was not consumed. -/
def Filed (r : Receiver β) : Prop :=
  ∀ x ∈ r.session.skipped.keys, ∃ dh n position, x = skipKey dh (n : Nat) ∧ r.position dh = some position ∧
    (n : Int) < position ∧ (dh, n) ∉ r.consumed

/-- What a call keeps. -/
structure Inv (P : Primitives β) (r : Receiver β) : Prop where
  healthy : Healthy P r.session
  filed : r.Filed
  consumed : ∀ e ∈ r.consumed, ∃ position, r.position e.1 = some position ∧ (e.2 : Int) < position

theorem Inv.opened {peerId : String} {initiator : Bool} {sharedSecret : List β} {remote : Bytes} {ours : Option (List β)}
    {fresh : X25519Seed β} (h : DoubleRatchet.initSession P peerId initiator sharedSecret remote ours fresh = .ok s) :
    Inv P ⟨s, [], fun _ => none⟩ := by
  refine ⟨.opened h, ?_, List.forall_mem_nil _⟩
  obtain ⟨priv, -, -, rfl⟩ := DoubleRatchet.initSession_ok h
  exact List.forall_mem_nil _

variable {consumed : List (Bytes × Nat)} {left : Bytes → Option Int}

/-- From its position on, a chain has no key in the cache. -/
theorem Inv.above (hi : Inv P ⟨s, consumed, left⟩) (hr : RecvAt P s start c) : Above s.remotePublicKey c s.skipped.keys := by
  intro i hci hm
  obtain ⟨dh, n, position, hx, hpos, hn, -⟩ := hi.filed _ hm
  obtain ⟨rfl, rfl⟩ := skipKey_inj hx
  simp only [Receiver.position, if_true, Option.some_inj, hr.counter] at hpos
  omega

/-- A key that was never a remote key has none at all. -/
theorem Inv.above_new (hi : Inv P ⟨s, consumed, left⟩) {dh : Bytes}
    (hnew : (⟨s, consumed, left⟩ : Receiver β).position dh = none) : Above dh 0 s.skipped.keys := by
  intro i _ hm
  obtain ⟨dh', n, position, hx, hpos, -, -⟩ := hi.filed _ hm
  obtain ⟨rfl, rfl⟩ := skipKey_inj hx
  rw [hnew] at hpos
  cases hpos

/-- A position does not go back while the session stays on its chain. -/
theorem position_grow {s' : SessionState β} {consumed' : List (Bytes × Nat)} {dh : Bytes} {p : Int}
    (hremote : s'.remotePublicKey = s.remotePublicKey) (hc : s.recvCounter ≤ s'.recvCounter)
    (h : (⟨s, consumed, left⟩ : Receiver β).position dh = some p) :
    ∃ p', (⟨s', consumed', left⟩ : Receiver β).position dh = some p' ∧ p ≤ p' := by
  simp only [position, hremote] at h ⊢
  split at h
  · rename_i hd
    rw [if_pos hd]
    exact ⟨_, rfl, Option.some.inj h ▸ hc⟩
  · rename_i hd
    rw [if_neg hd]
    exact ⟨p, h, le_rfl⟩

/-- Keys are staged. -/
theorem Inv.staged (hi : Inv P ⟨s, consumed, left⟩) (hr : RecvAt P s start c) (hc : c ≤ 2 ^ 32) {k : Nat}
    (hk : ∀ i < k, Roomy s.remotePublicKey c s.skipped.keys i) : Inv P ⟨s.staged P start c k, consumed, left⟩ := by
  have hgrow : ∀ {dh p}, (⟨s, consumed, left⟩ : Receiver β).position dh = some p →
      ∃ p', (⟨s.staged P start c k, consumed, left⟩ : Receiver β).position dh = some p' ∧ p ≤ p' := by
    refine position_grow rfl ?_
    rw [hr.counter]
    exact Int.ofNat_le.mpr (Nat.le_add_right c k)
  refine ⟨hi.healthy.staged hr hc hk, fun x hx => ?_, fun e he => ?_⟩
  · have hkeys : (s.staged P start c k).skipped.keys = fileKeys s.remotePublicKey c k s.skipped.keys :=
      keys_stageKeys P start s.remotePublicKey c s.skipped k
    dsimp only at hx
    rw [hkeys] at hx
    rcases mem_fileKeys hx with hx | ⟨i, hik, rfl⟩
    · obtain ⟨dh, n, p, rfl, hp, hn, hcons⟩ := hi.filed x hx
      obtain ⟨p', hp', hpp⟩ := hgrow hp
      exact ⟨dh, n, p', rfl, hp', by omega, hcons⟩
    · refine ⟨s.remotePublicKey, c + i, _, rfl, if_pos rfl, ?_, fun hm => ?_⟩
      · exact Int.ofNat_lt.mpr (by omega)
      · obtain ⟨p, hp, hn⟩ := hi.consumed _ hm
        simp only [position, if_true, Option.some_inj, hr.counter] at hp
        omega
  · obtain ⟨p, hp, hn⟩ := hi.consumed e he
    obtain ⟨p', hp', hpp⟩ := hgrow hp
    exact ⟨p', hp', by omega⟩

/-- A message is received on the current chain. -/
theorem Inv.received (hi : Inv P ⟨s, consumed, left⟩) (hr : RecvAt P s start c) (hc : c ≤ 2 ^ 32) (hcn : c ≤ n)
    (hgap : n ≤ c + 1000) (hs : Stages s.remotePublicKey c s.skipped.keys n) (hn : n ≤ 0xFFFFFFFF) :
    Inv P ⟨s.received P start c n, (s.remotePublicKey, n) :: consumed, left⟩ := by
  have hst := hi.staged hr hc hs
  have hcount : (s.staged P start c (n - c)).recvCounter = n := by
    show ((c + (n - c) : Nat) : Int) = n
    omega
  have hgrow : ∀ {dh p}, (⟨s.staged P start c (n - c), consumed, left⟩ : Receiver β).position dh = some p →
      ∃ p', (⟨s.received P start c n, (s.remotePublicKey, n) :: consumed, left⟩ : Receiver β).position dh = some p' ∧ p ≤ p' := by
    refine position_grow rfl ?_
    rw [hcount]
    exact (Int.lt_succ n).le
  refine ⟨hi.healthy.onChain hr hc (.received hcn hgap hs hn), fun x hx => ?_, fun e he => ?_⟩
  · obtain ⟨dh, m, p, rfl, hp, hm, hcons⟩ := hst.filed x hx
    obtain ⟨p', hp', hpp⟩ := hgrow hp
    refine ⟨dh, m, p', rfl, hp', by omega, fun hmem => ?_⟩
    rcases List.mem_cons.mp hmem with he | hmem
    · obtain ⟨rfl, rfl⟩ := Prod.mk.inj he
      have hpos : (⟨s.staged P start c (m - c), consumed, left⟩ : Receiver β).position s.remotePublicKey =
        some (s.staged P start c (m - c)).recvCounter := if_pos rfl
      rw [hpos, hcount, Option.some_inj] at hp
      omega
    · exact hcons hmem
  · rcases List.mem_cons.mp he with rfl | he
    · exact ⟨_, if_pos rfl, Int.lt_succ n⟩
    · obtain ⟨p, hp, hm⟩ := hst.consumed e he
      obtain ⟨p', hp', hpp⟩ := hgrow hp
      exact ⟨p', hp', by omega⟩

/-- A cached key is taken. -/
theorem Inv.cached (hi : Inv P ⟨s, consumed, left⟩) {dh : Bytes} (hh : skipKey dh n ∈ s.skipped.keys)
    (hhealthy : Healthy P { s with skipped := s.skipped.erase (skipKey dh n) }) :
    Inv P ⟨{ s with skipped := s.skipped.erase (skipKey dh n) }, (dh, n) :: consumed, left⟩ := by
  refine ⟨hhealthy, fun x hx => ?_, fun e he => ?_⟩
  · dsimp only at hx
    rw [AList.keys_erase, s.skipped.keys_nodup.mem_erase_iff] at hx
    obtain ⟨dh', m, p, rfl, hp, hm, hcons⟩ := hi.filed x hx.2
    refine ⟨dh', m, p, rfl, hp, hm, fun hmem => ?_⟩
    rcases List.mem_cons.mp hmem with he | hmem
    · obtain ⟨rfl, rfl⟩ := Prod.mk.inj he
      exact hx.1 rfl
    · exact hcons hmem
  · rcases List.mem_cons.mp he with rfl | he
    · obtain ⟨dh', m, p, hx, hp, hm, -⟩ := hi.filed _ hh
      obtain ⟨rfl, rfl⟩ := skipKey_inj hx
      exact ⟨p, hp, hm⟩
    · exact hi.consumed e he

/-- A DH ratchet to a key that was never a remote key. -/
theorem Inv.entered (hi : Inv P ⟨s, consumed, left⟩) (hr : RecvAt P s start c) (hc : c ≤ 2 ^ 32) {h : RatchetHeader}
    (hs : Stages s.remotePublicKey c s.skipped.keys h.prevChainLength) (fresh : X25519Seed β)
    (hnew : (⟨s, consumed, left⟩ : Receiver β).position h.dhPublicKey = none) :
    Inv P ⟨s.entered P start c h fresh.1, consumed,
      Function.update left s.remotePublicKey (some (max s.recvCounter h.prevChainLength))⟩ := by
  have hst := hi.staged hr hc hs
  have hne : h.dhPublicKey ≠ s.remotePublicKey := fun he => by
    simp only [position, he, if_true] at hnew
    cases hnew
  have hleft : left h.dhPublicKey = none := by
    simpa only [position, if_neg hne] using hnew
  have hkeep : ∀ {dh p}, (⟨s.staged P start c (h.prevChainLength - c), consumed, left⟩ : Receiver β).position dh = some p →
      (⟨s.entered P start c h fresh.1, consumed, Function.update left s.remotePublicKey
        (some (max s.recvCounter h.prevChainLength))⟩ : Receiver β).position dh = some p := by
    intro dh p hp
    have hremote : (s.staged P start c (h.prevChainLength - c)).remotePublicKey = s.remotePublicKey := rfl
    have hentered : (s.entered P start c h fresh.1).remotePublicKey = h.dhPublicKey := rfl
    have hcount : (s.staged P start c (h.prevChainLength - c)).recvCounter = max s.recvCounter h.prevChainLength := by
      rw [hr.counter]
      show ((c + (h.prevChainLength - c) : Nat) : Int) = max (c : Int) h.prevChainLength
      omega
    simp only [position, hremote, hentered, hcount] at hp ⊢
    by_cases hd : dh = s.remotePublicKey
    · subst hd
      rw [if_neg hne.symm, Function.update_self]
      simpa using hp
    · rw [if_neg hd] at hp
      have hd' : dh ≠ h.dhPublicKey := by
        rintro rfl
        rw [hleft] at hp
        cases hp
      rw [if_neg hd', Function.update_of_ne hd, hp]
  refine ⟨hi.healthy.entered hr hc hs fresh, fun x hx => ?_, fun e he => ?_⟩
  · obtain ⟨dh, n, p, rfl, hp, hn, hcons⟩ := hst.filed x hx
    exact ⟨dh, n, p, rfl, hkeep hp, hn, hcons⟩
  · obtain ⟨p, hp, hn⟩ := hst.consumed e he
    exact ⟨p, hkeep hp, hn⟩

/-- Receiving on the current chain. -/
theorem Inv.onChain (hi : Inv P ⟨s, consumed, left⟩) (hr : RecvAt P s start c) (hc : c ≤ 2 ^ 32) {h : RatchetHeader}
    (hd : h.dhPublicKey = s.remotePublicKey) {result : EStateM.Result DartError (SessionState β) (MessageKeyBundle β)}
    (ho : OnChain P s start c h.messageNumber result) : Inv P ⟨leaves result, takes h consumed result, left⟩ := by
  cases ho with
  | duplicate => exact hi
  | tooMany => exact hi
  | stuck _ _ _ hroom _ => exact hi.staged hr hc hroom
  | overflow _ _ hs _ => exact hi.staged hr hc hs
  | received hcn hgap hs hn =>
    rw [takes, hd]
    exact hi.received hr hc hcn hgap hs hn

theorem remote_onChain {result : EStateM.Result DartError (SessionState β) (MessageKeyBundle β)}
    (ho : OnChain P s start c n result) : (leaves result).remotePublicKey = s.remotePublicKey := by
  cases ho <;> rfl

theorem receive_same {h : RatchetHeader} {result : EStateM.Result DartError (SessionState β) (MessageKeyBundle β)}
    (hd : (leaves result).remotePublicKey = s.remotePublicKey) :
    (⟨s, consumed, left⟩ : Receiver β).receive h result = ⟨leaves result, takes h consumed result, left⟩ := by
  rw [receive, if_pos hd]

/-- A `decrypt` that goes back to no key. -/
theorem Inv.receive (hi : Inv P ⟨s, consumed, left⟩) (fresh : X25519Seed β) {h : RatchetHeader}
    (hnew : Ratchets s h → (⟨s, consumed, left⟩ : Receiver β).position h.dhPublicKey = none) :
    Inv P ((⟨s, consumed, left⟩ : Receiver β).receive h ((DoubleRatchet.decrypt P fresh h).run s)) := by
  have hh : Healthy P s := hi.healthy
  obtain ⟨start, c, hr, hc, ho⟩ := hh.outcome fresh h
  have hhealthy := hh.decrypt fresh h
  have hcount : s.recvCounter.toNat = c := by rw [hr.counter, Int.toNat_natCast]
  generalize (DoubleRatchet.decrypt P fresh h).run s = result at ho hhealthy
  have hsame : (leaves result).remotePublicKey = s.remotePublicKey → _ := @receive_same _ s consumed left h result
  cases ho with
  | cached hl =>
    rw [hsame rfl]
    exact hi.cached (AList.lookup_isSome.mp (by rw [hl]; rfl)) hhealthy
  | current hl hd ho =>
    rw [hsame (remote_onChain ho)]
    exact hi.onChain hr hc hd ho
  | stuck hl hd hj hlim hroom hstuck =>
    rw [hsame rfl]
    exact hi.staged hr hc hroom
  | tooMany hl hd hp hroom =>
    rw [hsame rfl]
    exact hi.staged hr hc hroom
  | ratchet hl hd hp hs ho =>
    have hpos := hnew ⟨notMem_of_lookup_none hl, hd, by rw [hcount]; exact hp, by rw [hcount]; exact hs⟩
    rw [Receiver.receive, if_neg (by rw [remote_onChain ho]; exact hd)]
    exact (hi.entered hr hc hs fresh hpos).onChain (RecvAt.entered P s start c h fresh.1) (Nat.zero_le _) rfl ho

/-- A DH ratchet is to a key that was never the remote key. -/
def Onward (r : Receiver β) (call : SessionCall β) : Prop :=
  ∀ fresh h, call.received = some (fresh, h) → Ratchets r.session h → r.position h.dhPublicKey = none

/-- A send leaves the receiving side alone. -/
theorem after_send (hh : Healthy P s) (fresh : X25519Seed β) {call : SessionCall β}
    (hcall : call = .encrypt fresh ∨ call = .encryptTriple fresh) :
    (call.after P s).remotePublicKey = s.remotePublicKey ∧ (call.after P s).recvCounter = s.recvCounter ∧
      (call.after P s).skipped = s.skipped := by
  have hlive : (s.live P fresh.1).remotePublicKey = s.remotePublicKey ∧ (s.live P fresh.1).recvCounter = s.recvCounter ∧
      (s.live P fresh.1).skipped = s.skipped := by
    unfold SessionState.live
    split <;> exact ⟨rfl, rfl, rfl⟩
  obtain ⟨start, n, p, -, -, -, -, ⟨_, _, h1, h2⟩ | ⟨e, -, h1, h2⟩⟩ := hh.encrypt_outcome fresh
  · rcases hcall with rfl | rfl
    · simp only [SessionCall.after, SessionCall.run, EStateM.run_bind, h1]
      exact hlive
    · simp only [SessionCall.after, SessionCall.run, EStateM.run_bind, h2]
      exact hlive
  · rcases hcall with rfl | rfl
    · simp only [SessionCall.after, SessionCall.run, EStateM.run_bind, h1]
      exact ⟨rfl, rfl, rfl⟩
    · simp only [SessionCall.after, SessionCall.run, EStateM.run_bind, h2]
      exact ⟨rfl, rfl, rfl⟩

theorem Inv.sends {s' : SessionState β} (hi : Inv P ⟨s, consumed, left⟩) (hh : Healthy P s')
    (h : s'.remotePublicKey = s.remotePublicKey ∧ s'.recvCounter = s.recvCounter ∧ s'.skipped = s.skipped) :
    Inv P ⟨s', consumed, left⟩ := by
  obtain ⟨hremote, hcount, hskipped⟩ := h
  have hpos : (⟨s', consumed, left⟩ : Receiver β).position = (⟨s, consumed, left⟩ : Receiver β).position := by
    funext dh
    simp only [position, hremote, hcount]
  refine ⟨hh, ?_, ?_⟩
  · rw [Filed, hpos, hskipped]
    exact hi.filed
  · rw [hpos]
    exact hi.consumed

/-- A call that goes back to no key. -/
theorem Inv.after {r : Receiver β} (hi : Inv P r) {call : SessionCall β} (hok : r.Onward call) : Inv P (r.after P call) := by
  obtain ⟨s, consumed, left⟩ := r
  cases call with
  | encrypt fresh => exact hi.sends (hi.healthy.call _) (after_send hi.healthy fresh (Or.inl rfl))
  | encryptTriple fresh => exact hi.sends (hi.healthy.call _) (after_send hi.healthy fresh (Or.inr rfl))
  | decrypt fresh h => exact hi.receive fresh (hok fresh h rfl)
  | decryptTriple fresh h => exact hi.receive fresh (hok fresh h.dh rfl)

/-! ## Runs -/

/-- What calls lead to that `ok` admits. -/
inductive Reached (P : Primitives β) (ok : Receiver β → SessionCall β → Prop) : Receiver β → Prop
  | opened {peerId : String} {initiator : Bool} {sharedSecret : List β} {remote : Bytes} {ours : Option (List β)}
    {fresh : X25519Seed β} {s : SessionState β}
    (h : DoubleRatchet.initSession P peerId initiator sharedSecret remote ours fresh = .ok s) :
    Reached P ok ⟨s, [], fun _ => none⟩
  | call {r : Receiver β} (h : Reached P ok r) (call : SessionCall β) (hok : ok r call) : Reached P ok (r.after P call)

theorem Reached.inv {r : Receiver β} (h : Reached P Onward r) : Inv P r := by
  induction h with
  | opened h => exact .opened h
  | call _ call hok ih => exact ih.after hok

/-- Any run is one of the session. -/
theorem Reached.reachable {ok : Receiver β → SessionCall β → Prop} {r : Receiver β} (h : Reached P ok r) :
    Reachable P r.session := by
  induction h with
  | opened h => exact .opened h
  | call _ call _ ih =>
    rw [session_after]
    exact .call ih call

end Receiver

/-! ## How many keys one call stages -/

/-- What is staged for the current chain: up to the number, or until there is no room. -/
theorem OnChain.length_newKeys {old : List String} (ha : Above s.remotePublicKey c s.skipped.keys)
    (hold : Above s.remotePublicKey c old) {result : EStateM.Result DartError (SessionState β) (MessageKeyBundle β)}
    (ho : OnChain P s start c n result) : ∃ j, (newKeys old (leaves result).skipped.keys).length =
      j + (newKeys old s.skipped.keys).length ∧ (c + 1000 < n → j = 0) ∧ (n ≤ c + 1000 → (∀ i < j, Roomy s.remotePublicKey c
        s.skipped.keys i) ∧ (j = n - c ∨ j < n - c ∧ ¬Roomy s.remotePublicKey c s.skipped.keys j)) := by
  have hstaged : ∀ j, (newKeys old (s.staged P start c j).skipped.keys).length = j + (newKeys old s.skipped.keys).length := by
    intro j
    rw [show (s.staged P start c j).skipped.keys = _ from keys_stageKeys P start s.remotePublicKey c s.skipped j]
    exact Chhaya.length_newKeys ha hold j
  cases ho with
  | duplicate hn => exact ⟨0, (Nat.zero_add _).symm, fun _ => rfl, fun _ => ⟨fun i hi => absurd hi (Nat.not_lt_zero i), by omega⟩⟩
  | tooMany hn => exact ⟨0, (Nat.zero_add _).symm, fun _ => rfl, fun h => by omega⟩
  | @stuck j hc hn hj hroom hstuck => exact ⟨j, hstaged j, fun h => by omega, fun _ => ⟨hroom, Or.inr ⟨hj, hstuck⟩⟩⟩
  | overflow hc hn hs ho => exact ⟨n - c, hstaged _, fun h => by omega, fun _ => ⟨hs, Or.inl rfl⟩⟩
  | received hc hn hs ho => exact ⟨n - c, hstaged _, fun h => by omega, fun _ => ⟨hs, Or.inl rfl⟩⟩

/-- A `decrypt` of `h` stages at most `maxSkip` keys: it does not ratchet to another chain, or the cache is half full, or the
rest of the old chain and what is skipped of the new one are together at most `maxSkip`. Beyond 32 bits nothing is staged. -/
def Moderate (s : SessionState β) (h : RatchetHeader) : Prop :=
  skipKey h.dhPublicKey h.messageNumber ∈ s.skipped.keys ∨ h.dhPublicKey = s.remotePublicKey ∨
  1000 ≤ s.skipped.keys.length ∨
  (min h.prevChainLength (2 ^ 32) ≤ s.recvCounter.toNat + 1000 ∧ (2 ^ 32 < h.prevChainLength ∨ 1000 < h.messageNumber ∨
    h.prevChainLength - s.recvCounter.toNat + h.messageNumber ≤ 1000))

instance (s : SessionState β) (h : RatchetHeader) : Decidable (Moderate s h) :=
  inferInstanceAs (Decidable (_ ∨ _ ∨ _ ∨ (_ ∧ (_ ∨ _ ∨ _))))

namespace Receiver

variable {consumed : List (Bytes × Nat)} {left : Bytes → Option Int}

/-- Exactly then it stages at most `maxSkip` keys. -/
theorem Inv.moderate_iff (hi : Inv P ⟨s, consumed, left⟩) (fresh : X25519Seed β) {h : RatchetHeader}
    (hnew : Ratchets s h → (⟨s, consumed, left⟩ : Receiver β).position h.dhPublicKey = none) :
    (newKeys s.skipped.keys (leaves ((DoubleRatchet.decrypt P fresh h).run s)).skipped.keys).length ≤ 1000 ↔
      Moderate s h := by
  have hh : Healthy P s := hi.healthy
  obtain ⟨start, c, hr, hc, ho⟩ := hh.outcome fresh h
  have hcount : s.recvCounter.toNat = c := by rw [hr.counter, Int.toNat_natCast]
  have ha : Above s.remotePublicKey c s.skipped.keys := hi.above hr
  have hself : (newKeys s.skipped.keys s.skipped.keys).length = 0 := by rw [newKeys_self, List.length_nil]
  have hstaged : ∀ j, (newKeys s.skipped.keys (s.staged P start c j).skipped.keys).length = j := by
    intro j
    rw [show (s.staged P start c j).skipped.keys = _ from keys_stageKeys P start s.remotePublicKey c s.skipped j,
      length_newKeys ha ha, hself, Nat.add_zero]
  generalize (DoubleRatchet.decrypt P fresh h).run s = result at ho
  rw [Moderate, hcount]
  cases ho with
  | cached hl =>
    have hm : skipKey h.dhPublicKey h.messageNumber ∈ s.skipped.keys := AList.lookup_isSome.mp (by rw [hl]; rfl)
    refine iff_of_true ?_ (Or.inl hm)
    rw [leaves_ok, AList.keys_erase, newKeys_erase]
    exact Nat.zero_le _
  | current hl hd ho =>
    refine iff_of_true ?_ (Or.inr (Or.inl hd))
    obtain ⟨j, hj, h1, h2⟩ := ho.length_newKeys ha ha
    rw [hj, hself]
    rcases Nat.lt_or_ge (c + 1000) h.messageNumber with hn | hn
    · have := h1 hn
      omega
    · obtain ⟨-, hj | hj⟩ := h2 hn <;> omega
  | @stuck j hl hd hj hlim hroom hstuck =>
    rw [leaves_error, hstaged]
    refine iff_of_true hlim ?_
    rw [roomy_iff ha] at hstuck
    omega
  | tooMany hl hd hp hroom =>
    rw [leaves_error, hstaged]
    have hlast := (roomy_iff ha).mp (hroom 1000 (by decide))
    refine iff_of_false (by decide) ?_
    rintro (hm | hm | hm | hm)
    · exact notMem_of_lookup_none hl hm
    · exact hd hm
    · omega
    · omega
  | ratchet hl hd hp hs ho =>
    have hpos := hnew ⟨notMem_of_lookup_none hl, hd, by rw [hcount]; exact hp, by rw [hcount]; exact hs⟩
    have hkeys := SessionState.keys_entered P s start c h fresh.1
    have hlen : (s.entered P start c h fresh.1).skipped.keys.length =
        h.prevChainLength - c + s.skipped.keys.length := by
      rw [hkeys, length_fileKeys ha]
    have hnewKeys : (newKeys s.skipped.keys (s.entered P start c h fresh.1).skipped.keys).length =
        h.prevChainLength - c := by
      rw [hkeys, length_newKeys ha ha, hself, Nat.add_zero]
    have hbase : Above h.dhPublicKey 0 s.skipped.keys := hi.above_new hpos
    have ha' : Above h.dhPublicKey 0 (s.entered P start c h fresh.1).skipped.keys := by
      intro i hi' hm
      rw [hkeys] at hm
      rcases mem_fileKeys hm with hm | ⟨j, -, he⟩
      · exact hbase i hi' hm
      · exact hd (skipKey_inj he).1
    obtain ⟨j, hj, h1, h2⟩ := ho.length_newKeys ha' hbase
    have hcap := hh.capped
    rw [DoubleRatchet.maxSkippedTotal] at hcap
    rw [hj, hnewKeys]
    have hnot : ¬(skipKey h.dhPublicKey h.messageNumber ∈ s.skipped.keys) := notMem_of_lookup_none hl
    simp only [hnot, hd, false_or]
    have hroom : ∀ i, Roomy h.dhPublicKey 0 (s.entered P start c h fresh.1).skipped.keys i ↔
        i + (h.prevChainLength - c + s.skipped.keys.length) < 2000 ∧ 0 + i < 2 ^ 32 := fun i => by
      rw [roomy_iff ha', hlen]
    have hprev : h.prevChainLength ≤ c ∨ h.prevChainLength ≤ 2 ^ 32 ∧
        h.prevChainLength - c + s.skipped.keys.length ≤ 2000 := by
      rcases Nat.lt_or_ge c h.prevChainLength with hlt | hge
      · have := (roomy_iff ha).mp (hs (h.prevChainLength - c - 1) (by omega))
        omega
      · exact Or.inl hge
    rcases Nat.lt_or_ge 1000 h.messageNumber with hn | hn
    · have := h1 (by omega)
      omega
    · obtain ⟨hrooms, hend⟩ := h2 (by omega)
      have hfull : j + (h.prevChainLength - c + s.skipped.keys.length) ≤ 2000 := by
        rcases Nat.eq_zero_or_pos j with h0 | h0
        · omega
        · have := (hroom _).mp (hrooms (j - 1) (by omega))
          omega
      rcases hend with hend | ⟨hlt, hend⟩
      · omega
      · have := mt (hroom j).mpr hend
        omega

/-- In every run in which no ratchet goes back to a key that was the remote one before, the cache holds at most
`maxSkippedTotal` keys, every one is filed under the key of a chain and a number below its position that was not consumed, and
the next such call stages at most `maxSkip` keys exactly where its header is moderate. -/
theorem skipped_cache {r : Receiver β} (h : Reached P Onward r) :
    r.session.skipped.keys.length ≤ DoubleRatchet.maxSkippedTotal ∧ r.Filed ∧
    ∀ call fresh header, call.received = some (fresh, header) → r.Onward call →
      ((newKeys r.session.skipped.keys (r.after P call).session.skipped.keys).length ≤ DoubleRatchet.maxSkip ↔
        Moderate r.session header) := by
  refine ⟨h.inv.healthy.capped, h.inv.filed, fun call fresh header hcall hok => ?_⟩
  have hi := h.inv
  obtain ⟨s, consumed, left⟩ := r
  have hsession : ((⟨s, consumed, left⟩ : Receiver β).after P call).session =
      leaves ((DoubleRatchet.decrypt P fresh header).run s) := by
    rw [after, hcall]
    rfl
  rw [hsession, DoubleRatchet.maxSkip]
  exact_mod_cast hi.moderate_iff fresh (hok fresh header hcall)

/-! ## Two gaps in one call, and a key that returns -/

open Dialogue (octetKey octetKey_injective lossyInitiator)

/-- A session that was just opened. -/
def opened : Receiver SymByte := ⟨lossyInitiator, [], fun _ => none⟩

theorem opened_reached (ok : Receiver SymByte → SessionCall SymByte → Prop) : Reached symbolic ok opened :=
  .opened lossyInitiator_opened

theorem opened_recvAt : RecvAt symbolic lossyInitiator lossyInitiator.recvChainKey 0 := ⟨length_chainB _ _ _, rfl, rfl⟩

/-- Message 1 of the first chain comes first. -/
def gap : RatchetHeader := ⟨octetKey 2, 0, 1, rfl⟩

theorem gap_after : opened.after symbolic (.decrypt (octetSeed 9) gap) =
    ⟨lossyInitiator.received symbolic lossyInitiator.recvChainKey 0 1, [(octetKey 2, 1)], fun _ => none⟩ := by
  have hrun := DoubleRatchet.decrypt_current (octetSeed 9) (h := gap) (AList.lookup_empty _) rfl opened_recvAt (Nat.zero_le _)
    (by decide) (by decide) (by decide)
  show opened.receive gap ((DoubleRatchet.decrypt symbolic (octetSeed 9) gap).run lossyInitiator) = _
  rw [hrun]
  exact receive_same rfl

theorem gap_onward : opened.Onward (.decrypt (octetSeed 9) gap) := by
  rintro _ _ ⟨⟩ h
  exact absurd rfl h.2.1

/-- The first message stays in the cache. -/
theorem skipped_cache_gap : ∃ r : Receiver SymByte, Reached symbolic Onward r ∧ r.session.skipped.keys.length = 1 ∧ r.Filed := by
  have h := (opened_reached Onward).call _ gap_onward
  refine ⟨_, h, ?_, (skipped_cache h).2.1⟩
  rw [gap_after]
  rfl

/-- One call stages 2000 keys. -/
theorem two_gaps : ¬((newKeys opened.session.skipped.keys
    (opened.after symbolic (.decrypt (octetSeed 9) ⟨octetKey 3, 1000, 1000, rfl⟩)).session.skipped.keys).length : Int) ≤
      DoubleRatchet.maxSkip := by
  have hne : octetKey 3 ≠ lossyInitiator.remotePublicKey := octetKey_injective.ne (by decide)
  have hok : opened.Onward (.decrypt (octetSeed 9) ⟨octetKey 3, 1000, 1000, rfl⟩) := by
    rintro _ _ ⟨⟩ -
    exact if_neg hne
  rw [DoubleRatchet.maxSkip]
  have hiff := ((opened_reached Onward).inv).moderate_iff (octetSeed 9) (hok _ _ rfl)
  have hnot : ¬Moderate lossyInitiator ⟨octetKey 3, 1000, 1000, rfl⟩ := by
    rintro (h | h | h | ⟨-, h | h | h⟩)
    · exact List.not_mem_nil h
    · exact hne h
    · exact absurd h (by decide)
    · exact absurd h (by decide)
    · exact absurd h (by decide)
    · exact absurd h (by decide)
  exact_mod_cast mt hiff.mp hnot

/-- The session goes on to the next chain and then back to the first one. -/
theorem returned_runs {s : SessionState SymByte} {start : List SymByte} (hh : Healthy symbolic s) (hr : RecvAt symbolic s start 2)
    (hremote : s.remotePublicKey = octetKey 2) (hlen : s.skipped.keys.length ≤ 1)
    (hl : ∀ A m, ¬(A = octetKey 2 ∧ m < 1) → s.skipped.lookup (skipKey A (m : Nat)) = none) :
    ∃ k s' k' s'', (DoubleRatchet.decrypt symbolic (octetSeed 4) ⟨octetKey 3, 0, 0, rfl⟩).run s = .ok k s' ∧
      (DoubleRatchet.decrypt symbolic (octetSeed 5) ⟨octetKey 2, 1, 2, rfl⟩).run s' = .ok k' s'' ∧
      skipKey (octetKey 2) 1 ∈ s''.skipped.keys := by
  have hne : octetKey 3 ≠ octetKey 2 := octetKey_injective.ne (by decide)
  obtain ⟨s', hs'⟩ : ∃ s', s' = ((s.staged symbolic start 2 (0 - 2)).ratcheted symbolic (octetKey 3) (octetSeed 4).1).received
    symbolic (s.nextStart symbolic (octetKey 3)) 0 0 := ⟨_, rfl⟩
  have hrun := DoubleRatchet.decrypt_ratchet (octetSeed 4) (h := ⟨octetKey 3, 0, 0, rfl⟩) (hl _ _ fun h => hne h.1)
    (by rw [hremote]; exact hne) hh.ok hr (by decide) (by decide) (by decide) (by show _ + 0 + 0 ≤ 2000; omega)
  rw [← hs'] at hrun
  have hh' := hh.decrypt (octetSeed 4) ⟨octetKey 3, 0, 0, rfl⟩
  rw [hrun, leaves_ok] at hh'
  have hr' : RecvAt symbolic s' (s.nextStart symbolic (octetKey 3)) 1 := by
    rw [hs']
    exact (RecvAt.ratcheted symbolic _ (octetKey 3) (octetSeed 4).1).received 0
  have hskipped : s'.skipped = s.skipped := by rw [hs']; rfl
  have hremote' : s'.remotePublicKey = octetKey 3 := by rw [hs']; rfl
  have hrun' := DoubleRatchet.decrypt_ratchet (octetSeed 5) (h := ⟨octetKey 2, 1, 2, rfl⟩)
    (by rw [hskipped]; exact hl _ _ fun h => absurd h.2 (by decide)) (by rw [hremote']; exact hne.symm) hh'.ok hr' (by decide)
    (by decide) (by decide) (by rw [hskipped]; show _ + 0 + 2 ≤ 2000; omega)
  refine ⟨_, _, _, _, hrun, hrun', AList.lookup_isSome.mp ?_⟩
  have hlookup := lookup_stageKeys symbolic (s'.nextStart symbolic (octetKey 2)) (octetKey 2) 0 (octetKey 2) 1 s'.skipped 2
  rw [if_pos ⟨rfl, Nat.zero_le _, by decide⟩] at hlookup
  exact Option.isSome_iff_exists.mpr ⟨_, hlookup⟩

/-- Message 1, which was consumed, is cached again. -/
theorem returned_key : ∃ r : Receiver SymByte, Reached symbolic (fun _ _ => True) r ∧ ¬r.Filed := by
  have h₁ := (opened_reached fun _ _ => True).call (.decrypt (octetSeed 9) gap) trivial
  rw [gap_after] at h₁
  obtain ⟨k, s', k', s'', hrun, hrun', hm⟩ := returned_runs h₁.reachable.healthy (opened_recvAt.received 1) rfl (Nat.le_refl 1)
    fun A m hm => (lookup_stageKeys symbolic _ _ _ _ _ _ _).trans
      ((if_neg fun h => hm ⟨h.1, by omega⟩).trans (AList.lookup_empty _))
  have h₂ := h₁.call (.decrypt (octetSeed 4) ⟨octetKey 3, 0, 0, rfl⟩) trivial
  obtain ⟨hsession₂, hconsumed₂⟩ := after_decrypt hrun
  rw [← hsession₂] at hrun'
  have h₃ := h₂.call (.decrypt (octetSeed 5) ⟨octetKey 2, 1, 2, rfl⟩) trivial
  obtain ⟨hsession₃, hconsumed₃⟩ := after_decrypt hrun'
  refine ⟨_, h₃, fun hfiled => ?_⟩
  obtain ⟨dh, n, position, hx, -, -, hn⟩ := hfiled _ (by rw [hsession₃]; exact hm)
  obtain ⟨rfl, rfl⟩ := skipKey_inj (n := 1) hx.symm
  rw [hconsumed₃, hconsumed₂] at hn
  exact hn (List.mem_cons_of_mem _ (List.mem_cons_of_mem _ List.mem_cons_self))

/-- A run in which a consumed key is cached again, and one in which a call stages more than `maxSkip` keys. -/
theorem skipped_cache_fails : (∃ r : Receiver SymByte, Reached symbolic (fun _ _ => True) r ∧ ¬r.Filed) ∧
    ∃ (r : Receiver SymByte) (call : SessionCall SymByte), Reached symbolic (fun _ _ => True) r ∧
      ¬((newKeys r.session.skipped.keys (r.after symbolic call).session.skipped.keys).length : Int) ≤ DoubleRatchet.maxSkip :=
  ⟨returned_key, opened, _, opened_reached _, two_gaps⟩

end Receiver

end Chhaya
