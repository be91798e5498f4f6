import Chhaya.Relay.Accounting

/-!
# The capacity of the swarm relay

Handlers that run beside each other. An upload checks the capacity and inserts its chunk under different locks.

- `handler_checked`: what is inserted has passed the check of the capacity.
- `Within.step`: what a handler does keeps the bytes below the counter, and the counter below the capacity.
- `capacity_holds`: no handlers block each other, and the capacity holds where nothing comes between a check and its
  insertion.
- `capacity_exceeded`: two uploads of which each alone fits.
-/

namespace Chhaya

namespace Swarm

open Async (Pool Stands Runs)

/-- Nothing has come between: where the chunk is new, the counter has not grown since the upload has read it for its check;
and no chunk is replaced by a longer one. -/
def Undisturbed (s : RelayState) : SwarmOp → Prop
  | .insert id c checked => match s.chunks.lookup id with
    | none => s.curBytes ≤ checked
    | some old => c.data.length ≤ old.data.length
  | _ => True

/-- Nothing comes between the check of an upload and its insertion. -/
def UndisturbedEffect (s : RelayState) (op : SwarmOp) (a : Except Empty (SwarmAns op)) (s' : RelayState) : Prop :=
  Undisturbed s op ∧ Effect s op a s'

/-- What is inserted has passed the check of the capacity. -/
def Checked (relay : SwarmRelay) : SwarmOp → Prop
  | .insert _ c checked => checked + c.data.length ≤ relay.maxBytes
  | _ => True

/-- Every handler checks the capacity before it inserts. -/
theorem handler_checked (relay : SwarmRelay) (req : Request) : (handler relay req).Every (Checked relay) := by
  have hask : ∀ {op : SwarmOp} {f : SwarmAns op → SwarmProg Response}, Checked relay op →
      (∀ a, (f a).Every (Checked relay)) → ((ask op).bind f).Every (Checked relay) := fun ho hf => .bind (.await ho) hf
  cases req with
  | upload req =>
    show (uploadHandler relay req).Every _
    unfold uploadHandler
    cases base64_decode req.dataB64 with
    | error e => exact trivial
    | ok data =>
      refine hask trivial fun _ => hask trivial fun cur => hask trivial fun _ => ?_
      split
      · exact trivial
      · rename_i hfits
        refine hask trivial fun _ => hask trivial fun _ => hask trivial fun _ => hask ?_ fun _ => ?_
        · exact not_lt.mp hfits
        · exact hask trivial fun _ => hask trivial fun _ => trivial
  | chunk id =>
    refine hask trivial fun _ => hask trivial fun f => ?_
    cases f with
    | expired len => exact hask trivial fun _ => hask trivial fun _ => hask trivial fun _ => hask trivial fun _ => trivial
    | found c => exact hask trivial fun _ => trivial
    | missing => exact hask trivial fun _ => trivial
  | gc =>
    refine hask trivial fun _ => hask trivial fun _ => hask trivial fun _ => ?_
    exact hask trivial fun _ => hask trivial fun _ => trivial
  | health =>
    refine hask trivial fun _ => hask trivial fun _ => hask trivial fun _ => hask trivial fun _ => ?_
    exact hask trivial fun _ => hask trivial fun _ => hask trivial fun _ => trivial

/-- The handlers on the loop, from an empty relay. -/
def Running (relay : SwarmRelay) (eff : RelayState → (op : SwarmOp) → Except Empty (SwarmAns op) → RelayState → Prop)
    (c : Pool Request SwarmOp SwarmAns Empty Response RelayState) : Prop :=
  Async.Loop.Reachable eff SwarmOp.Sync (handler relay) Waits (fun _ _ => True) {} c

/-- The bytes in the map, and those that handlers have taken out and not yet from the counter, are below the counter. -/
structure Within (relay : SwarmRelay) (s : RelayState) (qs : List Place) : Prop where
  counted : bytes s.chunks + (qs.map Place.owed).sum ≤ s.curBytes
  fits : s.curBytes ≤ relay.maxBytes

section

variable {relay : SwarmRelay} {s s' : RelayState} {qs rs : List Place} {q q' : Place}

theorem sum_owed (qs rs : List Place) (q : Place) :
    ((qs ++ q :: rs).map Place.owed).sum = ((qs ++ rs).map Place.owed).sum + q.owed := by
  simp only [List.map_append, List.map_cons, List.sum_append, List.sum_cons]
  omega

/-- A handler that owes nothing does not matter. -/
theorem within_idle (h : q.owed = 0) : Within relay s (qs ++ q :: rs) ↔ Within relay s (qs ++ rs) := by
  have hsum := sum_owed qs rs q
  rw [h, Nat.add_zero] at hsum
  exact ⟨fun hw => ⟨hsum ▸ hw.counted, hw.fits⟩, fun hw => ⟨hsum ▸ hw.counted, hw.fits⟩⟩

/-- What one handler changes of the bytes, the counter and what it owes. -/
theorem Within.change (h : Within relay s (qs ++ q :: rs))
    (hc : ∀ n, bytes s.chunks + n + q.owed ≤ s.curBytes → bytes s'.chunks + n + q'.owed ≤ s'.curBytes)
    (hm : s'.curBytes ≤ relay.maxBytes) : Within relay s' (qs ++ q' :: rs) := by
  have hcounted := h.counted
  rw [sum_owed] at hcounted
  refine ⟨?_, hm⟩
  rw [sum_owed]
  have := hc _ (by rw [Nat.add_assoc]; exact hcounted)
  omega

theorem Within.insert {id : String} {c : EncryptedChunk} {checked : Nat} (h : Within relay s (qs ++ q :: rs))
    (hc : checked + c.data.length ≤ relay.maxBytes) (hs : Undisturbed s (.insert id c checked)) :
    Within relay (s.insert id c) (qs ++ q :: rs) := by
  have hfits := h.fits
  have hbytes : bytes (s.insert id c).chunks = c.data.length + bytes (s.chunks.erase id) := bytes_insert _ _ _
  cases hl : s.chunks.lookup id with
  | none =>
    have hs : s.curBytes ≤ checked := by simpa only [Undisturbed, hl] using hs
    have hb := bytes_erase_of_notMem hl
    have hins : (s.insert id c).curBytes = s.curBytes + c.data.length := by
      show (if (s.chunks.lookup id).isSome then s.curBytes else s.curBytes + c.data.length) = _
      rw [hl]
      rfl
    exact h.change (fun n hn => by omega) (by omega)
  | some old =>
    have hs : c.data.length ≤ old.data.length := by simpa only [Undisturbed, hl] using hs
    have hb := bytes_erase hl
    have hins : (s.insert id c).curBytes = s.curBytes := by
      show (if (s.chunks.lookup id).isSome then s.curBytes else s.curBytes + c.data.length) = _
      rw [hl]
      rfl
    exact h.change (fun n hn => by omega) (hins ▸ hfits)

theorem Within.fetch {id : String} (h : Within relay s (qs ++ q :: rs)) (ho : q.owed = 0) :
    Within relay (s.fetch id).2 (qs ++ order.next q (.fetch id) (.ok (s.fetch id).1) :: rs) := by
  rcases RelayState.fetch_cases s id with ⟨-, hf⟩ | ⟨c, hc, hf⟩ | ⟨c, hc, hf⟩ <;> rw [hf]
  · exact h
  · have hb := bytes_erase hc
    refine h.change (fun n hn => ?_) h.fits
    show bytes (s.chunks.erase id) + n + c.data.length ≤ s.curBytes
    omega
  · have hb := bytes_erase hc
    refine h.change (fun n hn => ?_) h.fits
    show bytes (s.chunks.insert id _) + n + q.owed ≤ s.curBytes
    rw [bytes_insert]
    show c.data.length + _ + n + q.owed ≤ s.curBytes
    omega

theorem Within.collect (h : Within relay s (qs ++ q :: rs)) : Within relay s.collect.2.2 (qs ++ q :: rs) := by
  obtain ⟨h1, h2, -⟩ := s.collect_spec
  have hb := bytes_retain s.chunks s.now
  have hfits := h.fits
  exact h.change (fun n hn => by rw [h1, h2]; omega) (by rw [h2]; omega)

/-- Every operation that a handler may do keeps the capacity where it was checked and nothing has come between. -/
theorem Within.step {op : SwarmOp} {a : Except Empty (SwarmAns op)} (hm : q.May op) (hc : Checked relay op)
    (he : UndisturbedEffect s op a s') (h : Within relay s (qs ++ q :: rs)) :
    Within relay s' (qs ++ order.next q op a :: rs) := by
  obtain ⟨hs, -, hexec⟩ := he
  cases op with
  | acquire | release | curBytes | count | instant =>
    cases hexec
    exact h.change (fun n hn => hn) h.fits
  | insert id c checked =>
    cases hexec
    exact h.insert hc hs
  | fetch id =>
    cases hexec
    exact h.fetch hm.2
  | subtract len =>
    cases hexec
    have hfits := h.fits
    refine h.change (fun n hn => ?_) (Nat.le_trans (Nat.sub_le _ _) hfits)
    rw [hm.2] at hn
    show bytes s.chunks + n + 0 ≤ s.curBytes - len
    omega
  | collect =>
    cases hexec
    exact h.collect

/-- A handler that starts owes nothing. -/
theorem Within.start (h : Within relay s qs) : Within relay s ({} :: qs) := by
  have hnil : Within relay s ([] ++ ({} : Place) :: qs) ↔ Within relay s ([] ++ qs) := within_idle rfl
  exact hnil.mpr h

/-- The capacity holds in every run in which nothing comes between a check and its insertion. -/
theorem running_within {c : Pool Request SwarmOp SwarmAns Empty Response RelayState}
    (h : Running relay UndisturbedEffect c) :
    ∃ qs, Stands (order.restrict (Checked relay)) Ended c qs ∧ Within relay c.state qs :=
  Async.Loop.reachable_follows (I := Within relay) (R := fun _ _ => True) (G := fun _ _ => True)
    (fun req => (handler_follows req).restrict (handler_checked relay req))
    (fun _ => trivial) (fun _ => trivial) (fun _ _ => trivial) (fun _ _ _ => trivial)
    Within.start
    (fun hp hw => (within_idle hp.2).mp hw) (fun hm he _ _ _ hw => hw.step hm.1 hm.2 he)
    (fun hw _ hi => by cases hw; exact ⟨hi.counted, hi.fits⟩) ⟨le_rfl, Nat.zero_le _⟩ h

end

/-- In every run some handler can go on as long as any runs, and all of them can end; and in every run in which nothing comes
between the check of an upload and its insertion, the map holds no more bytes than the capacity. -/
theorem capacity_holds (relay : SwarmRelay) :
    (∀ c, Running relay Effect c → Unblocked c ∧ Async.Loop.Drains Effect SwarmOp.Sync (handler relay) c) ∧
      ∀ c, Running relay UndisturbedEffect c → bytes c.state.chunks ≤ relay.maxBytes := by
  refine ⟨fun c hc => ?_, fun c hc => ?_⟩
  · obtain ⟨qs, hqs, hl⟩ := reachable_locked (fun he => he) hc
    exact ⟨unblocked hqs hl, drains hqs hl⟩
  · obtain ⟨qs, -, hw⟩ := running_within hc
    have hcounted := hw.counted
    have hfits := hw.fits
    omega

/-! ## Two uploads -/

theorem insertChunk_runs (relay : SwarmRelay) (req : UploadReq) (data : Bytes) (checked uploadedAt : Nat) {s : RelayState}
    (hs : Idle s) : ∃ c s' r, c.data = data ∧ Runs Effect (insertChunk relay req data checked uploadedAt) s (some r) s' ∧
      SameStore (s.insert req.chunkId c) s' := by
  have hadmits : Admits (insertChunk relay req data checked uploadedAt) s :=
    ⟨hs .chunks, hs .curBytes, trivial, trivial, trivial, trivial⟩
  exact ⟨{ data, uploadedAt, ttl := ttlOf req.ttlHours, maxDownloads := req.maxDownloads.getD 5, sha256 := relay.sha256 data },
    _, _, rfl, runs_of_admits hadmits, rfl, rfl, rfl⟩

/-- A relay for one byte. -/
def oneByteRelay : SwarmRelay := ⟨"relay_v10_alpha", 1, hexOf⟩

/-- An upload of one byte under another id. -/
def otherByte : UploadReq := { chunkId := "b", dataB64 := "00" }

theorem decode_otherByte : base64_decode otherByte.dataB64 = .ok [0] := by decide

theorem body_oneByte : handler oneByteRelay (.upload oneByte) = store oneByteRelay oneByte [0] := by
  show uploadHandler oneByteRelay oneByte = _
  unfold uploadHandler
  rw [decode_oneByte]

/-- The state in which an upload reads the counter, and the one in which it has read it. -/
def readingState : RelayState :=
  { locks := Function.update (fun _ => {}) .curBytes (RwLock.take {} .read) }

def checkedState : RelayState :=
  { locks := Function.update readingState.locks .curBytes ((readingState.locks .curBytes).drop .read) }

/-- The check of one byte on an empty relay. -/
theorem turn_check : Async.Turn Effect SwarmOp.Sync (do
      let cur ← ask .curBytes
      ask (.release .curBytes .read)
      if cur + [(0 : UInt8)].length > oneByteRelay.maxBytes then return .insufficientStorage
      else insertChunk oneByteRelay oneByte [0] cur (← ask .instant)) readingState
    (insertChunk oneByteRelay oneByte [0] 0 0) checkedState := by
  refine .sync (show SwarmOp.Sync .curBytes from trivial) ⟨trivial, rfl⟩ ?_
  refine .sync (show SwarmOp.Sync (.release .curBytes .read) from trivial) ⟨trivial, rfl⟩ ?_
  refine .sync (show SwarmOp.Sync .instant from trivial) ⟨trivial, rfl⟩ ?_
  exact .awaits _ _ fun h => h

/-- An upload of one byte waits after its check. -/
theorem running_checked : Running oneByteRelay Effect ⟨checkedState, [⟨0, .upload oneByte,
    insertChunk oneByteRelay oneByte [0] 0 0⟩], 1, [.started 0 (.upload oneByte)]⟩ := by
  have hstart : Async.Turn Effect SwarmOp.Sync (handler oneByteRelay (.upload oneByte)) {}
      (store oneByteRelay oneByte [0]) {} := by
    rw [body_oneByte]
    exact .awaits _ _ fun h => h
  have hread : Effect {} (.acquire .curBytes .read) (.ok ()) readingState := ⟨rfl, rfl⟩
  have h1 : Running oneByteRelay Effect ⟨{}, [⟨0, .upload oneByte, store oneByteRelay oneByte [0]⟩], 1,
      [.started 0 (.upload oneByte)]⟩ := Async.Loop.Reachable.init.step (.start (Request.upload oneByte) hstart) trivial
  have h2 := h1.step (Async.Loop.Step.answerFirst (fun h => h) hread) trivial
  exact h2.step (Async.Loop.Step.first turn_check) trivial

/-- Two uploads check the capacity before either of them inserts its chunk. -/
theorem capacity_exceeded : ¬ ∀ relay c, Running relay Effect c → bytes c.state.chunks ≤ relay.maxBytes := by
  intro h
  have hidle : Idle checkedState := by rintro (_ | _) <;> exact ⟨rfl, rfl⟩
  have hfits : checkedState.curBytes + [(0 : UInt8)].length ≤ oneByteRelay.maxBytes := by decide
  obtain ⟨c, s, hc, hr, hs, hi⟩ := upload_runs hidle decode_otherByte hfits
  have hserved := Async.Loop.Reachable.serve (fun _ _ => trivial) (Request.upload otherByte) hr running_checked
  obtain ⟨c', s', r, hc', hr', hs'⟩ := insertChunk_runs oneByteRelay oneByte [0] 0 0 hi
  have hdone : Running oneByteRelay Effect ⟨s', _, _, _⟩ :=
    Async.Loop.Reachable.finish (fun _ _ => trivial) hr' fun p₁ s₁ ht => hserved.step (Async.Loop.Step.first ht) trivial
  have hb : bytes s.chunks = 1 := by
    rw [hs.chunks]
    show bytes (AList.insert "b" c ∅) = 1
    rw [bytes_insert, hc]
    rfl
  have hnew : s.chunks.lookup "a" = none := by
    rw [hs.chunks]
    show (AList.insert "b" c ∅).lookup "a" = none
    rw [AList.lookup_insert_ne (by decide)]
    rfl
  have hb' : bytes s'.chunks = 2 := by
    rw [hs'.chunks]
    show bytes (s.chunks.insert "a" c') = 2
    rw [bytes_insert, bytes_erase_of_notMem hnew, hb, hc']
    rfl
  have hle : bytes s'.chunks ≤ 1 := h oneByteRelay _ hdone
  omega

end Swarm

end Chhaya
