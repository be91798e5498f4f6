import Chhaya.Relay.Accounting

/-!
# What comes back from the swarm relay

The field `data_b64` of an upload is read as hexadecimal or taken as it is, and never as base64; the one of a download is
hexadecimal.

- `decoded_ne`: what the relay makes of a base64 text is not what the text stands for, unless it is empty.
- `Later.holds`: a stored chunk keeps its data until the next upload under its id.
- `fidelity_iff`: an upload is answered and given back rightly only if it is empty or does not fit.
- `fidelity_lost`: a text that is no base64 is stored.
-/

namespace Chhaya

namespace Swarm

open Async (Runs)

/-! ## The two encodings -/

/-- The base64 encoding of a byte string. -/
def base64Text (x : Bytes) : String := String.ofList (Base64.encode x)

theorem length_hexDecode : ∀ l : List Char, (hexDecode l).length = l.length / 2
  | [] => rfl
  | [_] => by simp [hexDecode]
  | _ :: _ :: cs => by
    simp only [hexDecode, List.length_cons, length_hexDecode cs]
    omega

/-- A character takes at least one byte. -/
theorem length_le_utf8Encode (l : List Char) : l.length ≤ (utf8Encode (String.ofList l)).length := by
  induction l with
  | nil => exact Nat.zero_le _
  | cons c l ih =>
    have hc : 0 < (String.utf8EncodeChar c).length := by
      rw [String.length_utf8EncodeChar]
      exact Char.utf8Size_pos c
    rw [utf8Encode_cons, List.length_append, List.length_cons]
    omega

theorem pad_not_hex : isAsciiHexDigit '=' = false := by decide

/-- What the relay makes of a base64 text is longer or shorter than what the text stands for. -/
theorem decoded_ne {x data : Bytes} (h : base64_decode (base64Text x) = .ok data) (hx : x ≠ []) : data ≠ x := by
  have hpos : 0 < x.length := List.length_pos_iff.mpr hx
  have hlen := Base64.length_encode x
  intro heq
  unfold base64_decode base64Text at h
  split at h
  · rename_i hhex
    cases h
    have hall := (Bool.and_eq_true_iff.mp hhex).1
    have hmod : x.length % 3 = 0 := by
      by_contra hne
      have hpad := List.all_eq_true.mp hall '=' (by simpa using Base64.pad_mem_encode hne)
      rw [pad_not_hex] at hpad
      cases hpad
    have hdec := congrArg List.length heq
    rw [length_hexDecode, String.toList_ofList, hlen] at hdec
    omega
  · cases h
    have hle := length_le_utf8Encode (Base64.encode x)
    rw [heq, hlen] at hle
    omega

/-- The decoder refuses nothing. -/
theorem base64_decode_ok (t : String) : ∃ data, base64_decode t = .ok data := by
  unfold base64_decode
  split
  · exact ⟨_, rfl⟩
  · exact ⟨_, rfl⟩

theorem base64Text_eq_empty {x : Bytes} (h : base64Text x = "") : x = [] := by
  have hlen := Base64.length_encode x
  have hnil : Base64.encode x = [] := by
    have := congrArg String.toList h
    rwa [base64Text, String.toList_ofList] at this
  rw [hnil] at hlen
  refine List.length_eq_zero_iff.mp ?_
  simp only [List.length_nil] at hlen
  omega

/-! ## Runs -/

/-- The request replaces the chunk with the id. -/
def Request.Uploads (id : String) : Request → Prop
  | .upload req => req.chunkId = id
  | _ => False

/-- The states after further requests of which none uploads under the id. -/
inductive Later (relay : SwarmRelay) (id : String) (s : RelayState) : RelayState → Prop
  | refl : Later relay id s s
  | waits {s' s'' : RelayState} (h : Later relay id s s') (hw : Waits s' s'') : Later relay id s s''
  | serve {s' s'' : RelayState} {req : Request} {r : Except Empty Response} (h : Later relay id s s')
    (hreq : ¬req.Uploads id) (hr : Runs Effect (handler relay req) s' (some r) s'') : Later relay id s s''

section

variable {relay : SwarmRelay} {id : String} {data : Bytes} {sha : String} {s s' : RelayState}

theorem Served.idle {ok : RelayState → Request → Prop} (h : Served relay ok s) : Idle s := by
  induction h with
  | start => exact fun _ => ⟨rfl, rfl⟩
  | waits _ hw ih =>
    cases hw
    exact ih
  | serve _ _ hr ih => exact ih.handler hr

/-- A chunk that is stored under the id has the data and the hash. -/
def Holds (id : String) (data : Bytes) (sha : String) (s : RelayState) : Prop :=
  ∀ c, s.chunks.lookup id = some c → c.data = data ∧ c.sha256 = sha

/-- What replaces nothing under the id keeps what it holds. -/
theorem Holds.of_lookup (h : Holds id data sha s)
    (hs : ∀ c, s'.chunks.lookup id = some c → ∃ old, s.chunks.lookup id = some old ∧ c.data = old.data ∧ c.sha256 = old.sha256) :
    Holds id data sha s' := by
  intro c hc
  obtain ⟨old, hold, hd, hsha⟩ := hs c hc
  obtain ⟨h1, h2⟩ := h old hold
  exact ⟨hd.trans h1, hsha.trans h2⟩

/-- A request that does not upload under the id keeps what it holds. -/
theorem Holds.handler {req : Request} {r : Except Empty Response} (h : Holds id data sha s) (hreq : ¬req.Uploads id)
    (hr : Runs Effect (handler relay req) s (some r) s') : Holds id data sha s' := by
  have hrun := exec_of_runs hr
  refine h.of_lookup fun c hc => ?_
  cases req with
  | upload req =>
    obtain ⟨data, hd⟩ := base64_decode_ok req.dataB64
    have hrun : (uploadHandler relay req).run exec s = (r, s') := hrun
    unfold uploadHandler at hrun
    rw [hd] at hrun
    rcases store_run hrun with ⟨-, -, hs⟩ | ⟨-, -, new, -, -, hs⟩
    · rw [hs.chunks] at hc
      exact ⟨c, hc, rfl, rfl⟩
    · rw [hs.chunks] at hc
      have hne : id ≠ req.chunkId := fun he => hreq he.symm
      exact ⟨c, (AList.lookup_insert_ne hne).symm.trans hc, rfl, rfl⟩
  | chunk other =>
    rcases chunkHandler_run hrun with ⟨-, hs⟩ | ⟨old, hold, -, -, hs, -⟩ | ⟨old, hold, -, hs⟩
    · rw [hs.chunks] at hc
      exact ⟨c, hc, rfl, rfl⟩
    · rw [hs] at hc
      by_cases hid : id = other
      · subst hid
        rw [AList.lookup_insert] at hc
        cases hc
        exact ⟨old, hold, rfl, rfl⟩
      · exact ⟨c, (AList.lookup_insert_ne hid).symm.trans hc, rfl, rfl⟩
    · rw [hs.chunks] at hc
      have hc : (s.chunks.erase other).lookup id = some c := hc
      by_cases hid : id = other
      · subst hid
        rw [AList.lookup_erase] at hc
        cases hc
      · exact ⟨c, (AList.lookup_erase_ne hid).symm.trans hc, rfl, rfl⟩
  | gc =>
    have hs := (gcHandler_run hrun).1
    have hmem : ⟨id, c⟩ ∈ (retain s.chunks s.now).entries := by
      rw [← hs]
      exact AList.mem_lookup_iff.mp hc
    exact ⟨c, AList.mem_lookup_iff.mpr (List.mem_filter.mp hmem).1, rfl, rfl⟩
  | health =>
    rw [(healthHandler_run hrun).chunks] at hc
    exact ⟨c, hc, rfl, rfl⟩

/-- A stored chunk keeps its data until the next upload under its id. -/
theorem Later.holds (hl : Later relay id s s') (h : Holds id data sha s) : Holds id data sha s' := by
  induction hl with
  | refl => exact h
  | waits _ hw ih =>
    cases hw
    exact ih
  | serve _ hreq hr ih => exact ih.handler hreq hr

/-- What a download returns of it. -/
theorem Holds.download (h : Holds id data sha s) {name b64 sha' : String} {n : Nat}
    (hr : Runs Effect (chunkHandler id) s (some (.ok (.chunk name b64 sha' n))) s') :
    b64 = base64_encode data ∧ sha' = sha := by
  rcases chunkHandler_run (exec_of_runs hr) with ⟨hresp, -⟩ | ⟨c, hc, hresp, -⟩ | ⟨c, -, hresp, -⟩
  · cases hresp
  · cases hresp
    obtain ⟨rfl, rfl⟩ := h c hc
    exact ⟨rfl, rfl⟩
  · cases hresp

end

/-! ## Fidelity -/

/-- An upload of a byte string is answered with its hash, and downloads give it back with its hash until the next upload
under its id; a text that is no base64 is refused. -/
structure Faithful (relay : SwarmRelay) (s : RelayState) (req : UploadReq) : Prop where
  gives : ∀ x, req.dataB64 = base64Text x → ∀ name sha s',
    Runs Effect (uploadHandler relay req) s (some (.ok (.stored name sha))) s' → sha = relay.sha256 x ∧
      ∀ s₁, Later relay req.chunkId s' s₁ → ∀ name b64 sha n s₂,
        Runs Effect (chunkHandler req.chunkId) s₁ (some (.ok (.chunk name b64 sha n))) s₂ →
          Base64.decode b64.toList = some x ∧ sha = relay.sha256 x
  refuses : (∀ x, req.dataB64 ≠ base64Text x) → ∀ r s', Runs Effect (uploadHandler relay req) s (some r) s' →
    (∃ e, r = .ok (.badRequest e)) ∨ r = .ok .insufficientStorage

/-- What the relay makes of the text does not fit. -/
def TooLarge (relay : SwarmRelay) (s : RelayState) (req : UploadReq) : Prop :=
  ∀ data, base64_decode req.dataB64 = .ok data → relay.maxBytes < s.curBytes + data.length

section

variable {relay : SwarmRelay} {s : RelayState} {req : UploadReq}

/-- What does not fit is refused. -/
theorem faithful_of_tooLarge (h : TooLarge relay s req) : Faithful relay s req := by
  have hrefused : ∀ {r s'}, Runs Effect (uploadHandler relay req) s (some r) s' → r = .ok .insufficientStorage := by
    intro r s' hr
    obtain ⟨data, hd⟩ := base64_decode_ok req.dataB64
    have hrun := exec_of_runs hr
    unfold uploadHandler at hrun
    rw [hd] at hrun
    rcases store_run hrun with ⟨-, hresp, -⟩ | ⟨hle, -⟩
    · exact hresp
    · exact absurd hle (Nat.not_le.mpr (h data hd))
  refine ⟨fun x _ name sha s' hr => ?_, fun _ r s' hr => Or.inr (hrefused hr)⟩
  cases hrefused hr

/-- The empty byte string comes back. -/
theorem faithful_of_empty (h : req.dataB64 = "") : Faithful relay s req := by
  refine ⟨fun x hx name sha s' hr => ?_, fun hno => absurd h (hno [])⟩
  obtain rfl : x = [] := base64Text_eq_empty (hx.symm.trans h)
  have hrun := exec_of_runs hr
  unfold uploadHandler at hrun
  rw [h] at hrun
  rcases store_run hrun with ⟨-, hresp, -⟩ | ⟨-, hresp, c, hc, hsha, hs⟩
  · cases hresp
  · cases hresp
    refine ⟨rfl, fun s₁ hl name b64 sha n s₂ hd => ?_⟩
    have hholds : Holds req.chunkId [] (relay.sha256 []) s' := by
      intro c' hc'
      rw [hs.chunks] at hc'
      obtain rfl : c = c' := Option.some.inj ((AList.lookup_insert _).symm.trans hc')
      exact ⟨hc, hsha⟩
    obtain ⟨rfl, rfl⟩ := (hl.holds hholds).download hd
    exact ⟨rfl, rfl⟩

/-- What fits and is not empty is answered with another hash, or should have been refused. -/
theorem Faithful.empty (h : Faithful relay s req) (hs : Idle s) {data : Bytes}
    (hd : base64_decode req.dataB64 = .ok data) (hfits : s.curBytes + data.length ≤ relay.maxBytes)
    (hsha : ∀ x, req.dataB64 = base64Text x → relay.sha256 data = relay.sha256 x → data = x) : req.dataB64 = "" := by
  obtain ⟨c, s', -, hr, -, -⟩ := upload_runs hs hd hfits
  by_cases hx : ∃ x, req.dataB64 = base64Text x
  · obtain ⟨x, hx⟩ := hx
    have heq := hsha x hx (h.gives x hx _ _ _ hr).1
    by_cases hnil : x = []
    · rw [hx, hnil]
      rfl
    · rw [hx] at hd
      exact absurd heq (decoded_ne hd hnil)
  · rcases h.refuses (fun x he => hx ⟨x, he⟩) _ _ hr with ⟨e, he⟩ | he <;> cases he

end

/-- After any requests, where the hash does not collide on the two byte strings of the text, an upload is faithful exactly
if its text is empty or what the relay makes of it does not fit. -/
theorem fidelity_iff (relay : SwarmRelay) (s : RelayState) (h : Served relay (fun _ _ => True) s) (req : UploadReq)
    (hsha : ∀ x data, req.dataB64 = base64Text x → base64_decode req.dataB64 = .ok data →
      relay.sha256 data = relay.sha256 x → data = x) :
    Faithful relay s req ↔ req.dataB64 = "" ∨ TooLarge relay s req := by
  refine ⟨fun hf => ?_, ?_⟩
  · by_cases hl : TooLarge relay s req
    · exact Or.inr hl
    · obtain ⟨data, hd⟩ := not_forall.mp hl
      obtain ⟨hd, hle⟩ := Classical.not_imp.mp hd
      exact Or.inl (hf.empty h.idle hd (Nat.not_lt.mp hle) fun x hx => hsha x data hx hd)
  · rintro (he | hl)
    · exact faithful_of_empty he
    · exact faithful_of_tooLarge hl

/-- An upload of one zero byte. -/
def zeroByte : UploadReq := { chunkId := "a", dataB64 := "AA==" }

/-- The hash of the answer to it is not the one of a zero byte. -/
theorem fidelity_zeroByte : ¬Faithful demoRelay {} zeroByte ∧ ¬(zeroByte.dataB64 = "" ∨ TooLarge demoRelay {} zeroByte) := by
  have hnot : ¬(zeroByte.dataB64 = "" ∨ TooLarge demoRelay {} zeroByte) := by
    rintro (he | hl)
    · revert he
      decide
    · have := hl [65, 65, 61, 61] (by decide)
      revert this
      decide
  refine ⟨fun hf => hnot ((fidelity_iff demoRelay {} .start zeroByte ?_).mp hf), hnot⟩
  exact fun _ _ _ _ heq => hexOf_injective heq

/-- An upload of a text that is no base64. -/
def percent : UploadReq := { chunkId := "a", dataB64 := "%" }

theorem percent_ne (x : Bytes) : percent.dataB64 ≠ base64Text x := by
  intro h
  have hmem : '%' ∈ Base64.encode x := by
    have := congrArg String.toList h
    rw [base64Text, String.toList_ofList] at this
    rw [← this]
    decide
  rcases Base64.mem_encode hmem with h | ⟨n, hn, h⟩
  · revert h
    decide
  · exact (Base64.digit_ne n hn).2 h.symm

/-- It is stored. -/
theorem fidelity_lost : ¬ ∀ relay s, Served relay (fun _ _ => True) s → ∀ req, Faithful relay s req := by
  intro h
  obtain ⟨c, s', -, hr, -, -⟩ := upload_runs (s := {}) (fun _ => ⟨rfl, rfl⟩)
    (show base64_decode percent.dataB64 = .ok [37] by decide) (show 0 + 1 ≤ demoRelay.maxBytes by decide)
  rcases (h demoRelay {} .start percent).refuses percent_ne _ _ hr with ⟨e, he⟩ | he <;> cases he

end Swarm

end Chhaya
