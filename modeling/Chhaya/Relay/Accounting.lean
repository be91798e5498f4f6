import Chhaya.Relay.Locks

/-!
# The byte counter of the swarm relay

Requests that are served one after the other.

- `Balanced.uploadHandler_iff`, `Balanced.chunkHandler`, `Balanced.gcHandler`: what each handler does to the counter.
- `accounting_iff`: the counter is the number of bytes as long as no upload replaces a chunk by one of another length.
- `accounting_drifts`: it is not when a chunk is replaced by a shorter one.
-/

namespace Chhaya

namespace Swarm

open Async (Runs)

/-- The counter is the number of bytes in the store, and no subtraction has saturated. -/
structure Balanced (s : RelayState) : Prop where
  curBytes : s.curBytes = bytes s.chunks
  saturated : s.saturated = false

/-- Every stored chunk that the request replaces has the length of the new one. -/
def KeepsLength (relay : SwarmRelay) (s : RelayState) : Request → Prop
  | .upload req => ∀ data c, base64_decode req.dataB64 = .ok data → s.curBytes + data.length ≤ relay.maxBytes →
      s.chunks.lookup req.chunkId = some c → c.data.length = data.length
  | _ => True

/-- The states after requests that satisfy `ok`, one after the other. -/
inductive Served (relay : SwarmRelay) (ok : RelayState → Request → Prop) : RelayState → Prop
  | start : Served relay ok {}
  | waits {s s' : RelayState} (h : Served relay ok s) (hw : Waits s s') : Served relay ok s'
  | serve {s s' : RelayState} {req : Request} {r : Except Empty Response} (h : Served relay ok s) (hok : ok s req)
    (hr : Runs Effect (handler relay req) s (some r) s') : Served relay ok s'

/-- What runs alone does what its operations do. -/
theorem exec_of_runs {α : Type} {p : SwarmProg α} {s s' : RelayState} {r : Except Empty α}
    (h : Runs Effect p s (some r) s') : p.run exec s = (r, s') := by
  generalize hx : some r = x at h
  induction h with
  | done a s => cases hx; rfl
  | throw e s => exact e.elim
  | call he _ ih =>
    rw [Async.run, he.2]
    exact ih hx
  | cut p s => cases hx

section

variable {relay : SwarmRelay} {req : UploadReq} {data : Bytes} {id : String} {s s' : RelayState}
  {r : Except Empty Response}

/-- Nothing changes that the counter is about. -/
structure SameStore (s s' : RelayState) : Prop where
  chunks : s'.chunks = s.chunks
  curBytes : s'.curBytes = s.curBytes
  saturated : s'.saturated = s.saturated

theorem SameStore.balanced (h : SameStore s s') (hb : Balanced s) : Balanced s' :=
  ⟨by rw [h.curBytes, h.chunks, hb.curBytes], h.saturated.trans hb.saturated⟩

/-- An upload is refused, or its chunk is inserted. -/
theorem store_run (h : (store relay req data).run exec s = (r, s')) :
    (relay.maxBytes < s.curBytes + data.length ∧ r = .ok .insufficientStorage ∧ SameStore s s') ∨
      (s.curBytes + data.length ≤ relay.maxBytes ∧ r = .ok (.stored req.chunkId (relay.sha256 data)) ∧
        ∃ c, c.data = data ∧ c.sha256 = relay.sha256 data ∧ SameStore (s.insert req.chunkId c) s') := by
  simp only [store, insertChunk, ask, Async.bind_eq, Async.run_bind, Async.run_await, exec] at h
  split at h
  · rename_i hc
    cases h
    exact Or.inl ⟨hc, rfl, rfl, rfl, rfl⟩
  · rename_i hc
    cases h
    exact Or.inr ⟨Nat.le_of_not_lt hc, rfl, _, rfl, rfl, rfl, rfl, rfl⟩

/-- A download finds a chunk or not, and takes the bytes of an expired one from the counter. -/
theorem chunkHandler_run (h : (chunkHandler id).run exec s = (r, s')) :
    (r = .ok .notFound ∧ SameStore s s') ∨
      (∃ c, s.chunks.lookup id = some c ∧
        r = .ok (.chunk id (base64_encode c.data) c.sha256 (c.downloadCount + 1)) ∧ s'.curBytes = s.curBytes ∧
        s'.chunks = s.chunks.insert id { c with downloadCount := c.downloadCount + 1 } ∧ s'.saturated = s.saturated) ∨
      ∃ c, s.chunks.lookup id = some c ∧ r = .ok .gone ∧
        SameStore ({ s with chunks := s.chunks.erase id }.subtract c.data.length) s' := by
  simp only [chunkHandler, ask, Async.bind_eq, Async.run_bind, Async.run_await, exec] at h
  rcases RelayState.fetch_cases { s with locks := Function.update s.locks .chunks ((s.locks .chunks).take .write) } id with
    ⟨-, hf⟩ | ⟨c, hc, hf⟩ | ⟨c, hc, hf⟩
  · rw [hf] at h
    cases h
    exact Or.inl ⟨rfl, rfl, rfl, rfl⟩
  · rw [hf] at h
    cases h
    exact Or.inr (Or.inr ⟨c, hc, rfl, rfl, rfl, rfl⟩)
  · rw [hf] at h
    cases h
    exact Or.inr (Or.inl ⟨c, hc, rfl, rfl, rfl, rfl⟩)

/-- A garbage collection takes the bytes of the expired chunks from the counter. -/
theorem gcHandler_run (h : gcHandler.run exec s = (r, s')) : s'.chunks = retain s.chunks s.now ∧
    s'.curBytes = s.curBytes - expiredBytes s.chunks s.now ∧
    (expiredBytes s.chunks s.now ≤ s.curBytes → s'.saturated = s.saturated) := by
  simp only [gcHandler, ask, Async.bind_eq, Async.run_bind, Async.run_await, exec] at h
  cases h
  exact RelayState.collect_spec { s with
    locks := Function.update (Function.update s.locks .chunks ((s.locks .chunks).take .write)) .curBytes _ }

theorem healthHandler_run (h : (healthHandler relay).run exec s = (r, s')) : SameStore s s' := by
  simp only [healthHandler, ask, Async.bind_eq, Async.run_bind, Async.run_await, exec] at h
  cases h
  exact ⟨rfl, rfl, rfl⟩

/-! ## The counter -/

/-- An expired chunk leaves with its bytes. -/
theorem Balanced.expire {c : EncryptedChunk} (h : Balanced s) (hc : s.chunks.lookup id = some c) :
    Balanced ({ s with chunks := s.chunks.erase id }.subtract c.data.length) := by
  have hb := bytes_erase hc
  have hcur := h.curBytes
  refine ⟨?_, ?_⟩
  · show s.curBytes - c.data.length = bytes (s.chunks.erase id)
    omega
  · show (s.saturated || decide (s.curBytes < c.data.length)) = false
    rw [h.saturated, decide_eq_false (by omega)]
    rfl

/-- A download keeps the counter right. -/
theorem Balanced.chunkHandler (h : Balanced s) (hr : (Swarm.chunkHandler id).run exec s = (r, s')) : Balanced s' := by
  rcases chunkHandler_run hr with ⟨-, hs⟩ | ⟨c, hc, -, h1, h2, h3⟩ | ⟨c, hc, -, hs⟩
  · exact hs.balanced h
  · refine ⟨?_, h3.trans h.saturated⟩
    have hb := bytes_erase hc
    rw [h1, h2, h.curBytes, bytes_insert]
    show bytes s.chunks = c.data.length + _
    omega
  · exact hs.balanced (h.expire hc)

/-- So does a garbage collection. -/
theorem Balanced.gcHandler (h : Balanced s) (hr : Swarm.gcHandler.run exec s = (r, s')) : Balanced s' := by
  obtain ⟨h1, h2, h3⟩ := gcHandler_run hr
  have hb := bytes_retain s.chunks s.now
  have hcur := h.curBytes
  refine ⟨?_, (h3 (by omega)).trans h.saturated⟩
  rw [h1, h2]
  omega

/-- An insertion keeps the counter right exactly if the chunk that it replaces has the same length. -/
theorem Balanced.insert_iff (h : Balanced s) (id : String) (c : EncryptedChunk) : Balanced (s.insert id c) ↔
    ∀ old, s.chunks.lookup id = some old → old.data.length = c.data.length := by
  have hcur := h.curBytes
  have hbytes : bytes (s.insert id c).chunks = c.data.length + bytes (s.chunks.erase id) := bytes_insert _ _ _
  cases hl : s.chunks.lookup id with
  | none =>
    have hb := bytes_erase_of_notMem hl
    have hins : (s.insert id c).curBytes = s.curBytes + c.data.length := by
      show (if (s.chunks.lookup id).isSome then s.curBytes else s.curBytes + c.data.length) = _
      rw [hl]
      rfl
    exact iff_of_true ⟨by omega, h.saturated⟩ (by rintro _ ⟨⟩)
  | some old =>
    have hb := bytes_erase hl
    have hins : (s.insert id c).curBytes = s.curBytes := by
      show (if (s.chunks.lookup id).isSome then s.curBytes else s.curBytes + c.data.length) = _
      rw [hl]
      rfl
    constructor
    · rintro hi _ ⟨⟩
      have := hi.curBytes
      omega
    · intro he
      have := he old rfl
      exact ⟨by omega, h.saturated⟩

/-- An upload keeps the counter right exactly if it replaces no chunk of another length. -/
theorem Balanced.uploadHandler_iff (h : Balanced s) (hr : (uploadHandler relay req).run exec s = (r, s')) :
    Balanced s' ↔ KeepsLength relay s (.upload req) := by
  unfold uploadHandler at hr
  cases hd : base64_decode req.dataB64 with
  | error e =>
    rw [hd] at hr
    cases hr
    refine iff_of_true h fun data c hdata => ?_
    rw [hd] at hdata
    cases hdata
  | ok data =>
    rw [hd] at hr
    have hkeeps : KeepsLength relay s (.upload req) ↔ (s.curBytes + data.length ≤ relay.maxBytes →
        ∀ old, s.chunks.lookup req.chunkId = some old → old.data.length = data.length) := by
      refine ⟨fun hk hle old => hk data old hd hle, fun hk data' c hdata hle hl => ?_⟩
      rw [hd] at hdata
      cases hdata
      exact hk hle c hl
    rw [hkeeps]
    rcases store_run hr with ⟨hlt, -, hs⟩ | ⟨hle, -, c, rfl, -, hs⟩
    · exact iff_of_true (hs.balanced h) fun hle => by omega
    · have hb : Balanced s' ↔ Balanced (s.insert req.chunkId c) :=
        ⟨fun hb => ⟨by rw [← hs.chunks, ← hs.curBytes, hb.curBytes], hs.saturated ▸ hb.saturated⟩, hs.balanced⟩
      rw [hb, h.insert_iff]
      exact ⟨fun hk _ => hk, fun hk => hk hle⟩

/-- Every request keeps the counter right exactly if it replaces no chunk by one of another length. -/
theorem Balanced.handler_iff {req : Request} (h : Balanced s) (hr : Runs Effect (handler relay req) s (some r) s') :
    Balanced s' ↔ KeepsLength relay s req := by
  have hr := exec_of_runs hr
  cases req with
  | upload req => exact h.uploadHandler_iff hr
  | chunk id => exact iff_of_true (h.chunkHandler hr) trivial
  | gc => exact iff_of_true (h.gcHandler hr) trivial
  | health => exact iff_of_true ((healthHandler_run hr).balanced h) trivial

end

/-- In every run whose uploads replace no chunk by one of another length, the counter is the number of bytes, no
subtraction saturates, and an empty store has none; and the next request keeps this exactly if it is such a one. -/
theorem accounting_iff (relay : SwarmRelay) (s : RelayState) (h : Served relay (KeepsLength relay) s) :
    (s.curBytes = bytes s.chunks ∧ s.saturated = false ∧ (s.chunks = ∅ → s.curBytes = 0)) ∧
    ∀ req r s', Runs Effect (handler relay req) s (some r) s' →
      ((s'.curBytes = bytes s'.chunks ∧ s'.saturated = false ∧ (s'.chunks = ∅ → s'.curBytes = 0)) ↔
        KeepsLength relay s req) := by
  have hiff : ∀ {s : RelayState}, Balanced s ↔
      s.curBytes = bytes s.chunks ∧ s.saturated = false ∧ (s.chunks = ∅ → s.curBytes = 0) := by
    intro s
    refine ⟨fun h => ⟨h.curBytes, h.saturated, fun he => ?_⟩, fun h => ⟨h.1, h.2.1⟩⟩
    rw [h.curBytes, he]
    rfl
  have hb : Balanced s := by
    induction h with
    | start => exact ⟨rfl, rfl⟩
    | waits _ hw ih =>
      cases hw
      exact ⟨ih.curBytes, ih.saturated⟩
    | serve _ hok hr ih => exact (ih.handler_iff hr).mpr hok
  exact ⟨hiff.mp hb, fun req r s' hr => hiff.symm.trans (hb.handler_iff hr)⟩

/-! ## A drift -/

/-- Every operation of the run is admitted. -/
def Admits {α : Type} : SwarmProg α → RelayState → Prop
  | .done _, _ => True
  | .throw _, _ => True
  | .call op k, s => Admitted s op ∧ Admits (k (exec op s).1) (exec op s).2

theorem runs_of_admits {α : Type} {p : SwarmProg α} {s : RelayState} (h : Admits p s) :
    Runs Effect p s (some (p.run exec s).1) (p.run exec s).2 := by
  induction p generalizing s with
  | done a => exact .done a s
  | throw e => exact e.elim
  | call op k ih => exact .call ⟨h.1, rfl⟩ (ih _ h.2)

/-- An upload that fits is stored. -/
theorem upload_runs {relay : SwarmRelay} {req : UploadReq} {data : Bytes} {s : RelayState} (hs : Idle s)
    (hd : base64_decode req.dataB64 = .ok data) (hle : s.curBytes + data.length ≤ relay.maxBytes) :
    ∃ c s', c.data = data ∧ Runs Effect (uploadHandler relay req) s
      (some (.ok (.stored req.chunkId (relay.sha256 data)))) s' ∧ SameStore (s.insert req.chunkId c) s' ∧ Idle s' := by
  have hadmits : Admits (store relay req data) s := by
    refine ⟨(hs .curBytes).2, trivial, trivial, ?_⟩
    show Admits (if s.curBytes + data.length > relay.maxBytes then _ else _) _
    rw [if_neg (Nat.not_lt.mpr hle)]
    exact ⟨trivial, hs .chunks, hs .curBytes, trivial, trivial, trivial, trivial⟩
  have hruns := runs_of_admits hadmits
  generalize hx : (store relay req data).run exec s = x at hruns
  have hrun : (store relay req data).run exec s = (x.1, x.2) := hx
  rcases store_run hrun with ⟨hlt, -⟩ | ⟨-, hr, c, hc, hsha, hsame⟩
  · omega
  · have hupload : Runs Effect (uploadHandler relay req) s (some (.ok (.stored req.chunkId (relay.sha256 data)))) x.2 := by
      unfold uploadHandler
      rw [hd, ← hr]
      exact hruns
    have hserve : Runs Effect (handler relay (.upload req)) s _ x.2 := hupload
    exact ⟨c, x.2, hc, hupload, hsame, hs.handler hserve⟩

/-- Two bytes, and one. -/
def twoBytes : UploadReq := { chunkId := "a", dataB64 := "0000" }
def oneByte : UploadReq := { chunkId := "a", dataB64 := "00" }

def demoRelay : SwarmRelay := ⟨"relay_v10_alpha", 10 * 1024 * 1024 * 1024, hexOf⟩

theorem decode_twoBytes : base64_decode twoBytes.dataB64 = .ok [0, 0] := by decide

theorem decode_oneByte : base64_decode oneByte.dataB64 = .ok [0] := by decide

/-- A first upload. -/
theorem served_twoBytes (ok : RelayState → Request → Prop) (hok : ok {} (.upload twoBytes)) :
    ∃ c s, c.data = [0, 0] ∧ Served demoRelay ok s ∧ SameStore (RelayState.insert {} "a" c) s ∧ Idle s := by
  have hidle : Idle {} := fun _ => ⟨rfl, rfl⟩
  obtain ⟨c, s, hc, hr, hs, hi⟩ := upload_runs hidle decode_twoBytes
    (show 0 + [0, 0].length ≤ demoRelay.maxBytes by decide)
  exact ⟨c, s, hc, .serve .start hok hr, hs, hi⟩

/-- After an upload of two bytes the counter is two. -/
theorem accounting_two : ∃ s, Served demoRelay (KeepsLength demoRelay) s ∧ s.curBytes = 2 ∧ bytes s.chunks = 2 := by
  have hkeeps : KeepsLength demoRelay {} (.upload twoBytes) := by
    rintro data c - - hl
    rw [AList.lookup_empty] at hl
    cases hl
  obtain ⟨c, s, hc, hs, hsame, -⟩ := served_twoBytes _ hkeeps
  have hb : bytes s.chunks = 2 := by
    rw [hsame.chunks]
    show bytes (AList.insert "a" c ∅) = 2
    rw [bytes_insert, hc]
    rfl
  exact ⟨s, hs, ((accounting_iff demoRelay s hs).1.1).trans hb, hb⟩

/-- The two bytes are replaced by one, and the counter stays at two. -/
theorem accounting_drifts : ¬ ∀ relay s, Served relay (fun _ _ => True) s → s.curBytes = bytes s.chunks := by
  intro h
  obtain ⟨c, s, hc, hs, hsame, hi⟩ := served_twoBytes (fun _ _ => True) trivial
  have hcur : s.curBytes = 2 := by
    rw [hsame.curBytes]
    show 0 + c.data.length = 2
    rw [hc]
    rfl
  have hfits : s.curBytes + [(0 : UInt8)].length ≤ demoRelay.maxBytes := by rw [hcur]; decide
  obtain ⟨c', s', hc', hr, hsame', -⟩ := upload_runs hi decode_oneByte hfits
  have hlookup : s.chunks.lookup "a" = some c := by
    rw [hsame.chunks]
    exact AList.lookup_insert _
  have hcur' : s'.curBytes = 2 := by
    rw [hsame'.curBytes]
    show (if (s.chunks.lookup "a").isSome then s.curBytes else _) = 2
    rw [hlookup]
    exact hcur
  have hb' : bytes s'.chunks = 1 := by
    have he := bytes_erase hlookup
    have hb : bytes s.chunks = 2 := (h demoRelay s hs).symm.trans hcur
    rw [hc, hb] at he
    rw [hsame'.chunks]
    show bytes (s.chunks.insert "a" c') = 1
    rw [bytes_insert, hc']
    simp only [List.length_cons, List.length_nil] at he ⊢
    omega
  have hserve : Runs Effect (handler demoRelay (.upload oneByte)) s _ s' := hr
  have := h demoRelay s' (.serve hs trivial hserve)
  omega

end Swarm

end Chhaya
