import Chhaya.Codec.Storage
import Chhaya.Crypto.Ideal
import Chhaya.Ratchet.Reachable

/-!
# Sessions that are saved and loaded

A session that calls lead to is read back as it was written, so a run that saves and loads it at any points, as text or in
either storage, goes on like one that never does.

- `Healthy.fits`: the counters of a session are 64-bit integers.
- `restore_eq`, `reload_database`, `reload_memory`: the three ways to get a session back.
- `resumed_run`: runs with and without reloads.
-/

namespace Chhaya

variable {P : Primitives UInt8} {s : SessionState UInt8}

/-! ## Reloads -/

theorem fits64_of_le {i : Int} (h0 : 0 ≤ i) (h : i ≤ 2 ^ 32) : Json.fits64 i = true :=
  decide_eq_true (by omega)

/-- The counters of a session are 64-bit integers. -/
theorem Healthy.fits {β : Type} {P : Primitives β} {s : SessionState β} (h : Healthy P s) : s.Fits := by
  obtain ⟨start, c, hr, hc⟩ := h.recv
  have hsend : (0 ≤ s.sendCounter ∧ s.sendCounter ≤ 2 ^ 32) ∧ 0 ≤ s.prevSendChainLength ∧ s.prevSendChainLength ≤ 2 ^ 32 := by
    cases hi : s.sendInitialized with
    | true =>
      obtain ⟨start', n, p, hs, hn, hp⟩ := h.send hi
      rw [hs.counter, hs.prev]
      omega
    | false =>
      obtain ⟨h1, h2, -⟩ := h.idle hi
      rw [h1, h2]
      omega
  refine ⟨fits64_of_le hsend.1.1 hsend.1.2, fits64_of_le hsend.2.1 hsend.2.2, ?_, ?_, fits64_of_le h.epoch.1 h.epoch.2⟩
  · rw [hr.counter]
    exact fits64_of_le (by omega) (by omega)
  · rw [← h.generation]
    exact decide_eq_true ⟨le_int64 _, int64_lt _⟩

/-- `SessionState.fromJson(jsonDecode(jsonEncode(state.toJson())))`. -/
def restore (s : SessionState UInt8) : Except DartError (SessionState UInt8) :=
  readMap (writeSession s) >>= SessionState.fromJson

/-- A session is saved beside what else is stored, and loaded. -/
def reload (storage : SessionStorage UInt8) (stored : storage.Sessions) (s : SessionState UInt8) :
    Except DartError (Option (SessionState UInt8)) := do
  storage.loadSession (← storage.saveSession s stored) s.peerId

theorem restore_eq (h : s.Fits) : restore s = .ok s := by
  rw [restore, readMap_writeSession h]
  exact SessionState.fromJson_toJson s

theorem reload_database (h : s.Fits) (stored : LocalDatabaseSessionStorage.Sessions) :
    reload LocalDatabaseSessionStorage stored s = .ok (some s) :=
  LocalDatabaseSessionStorage.load_save h rfl

theorem reload_memory (h : s.Fits) (stored : InMemorySessionStorage.Sessions) :
    reload InMemorySessionStorage stored s = .ok (some s) := by
  have hload : ∀ st : String → Option JsonFields, (saveMap s st >>= fun st => loadMap st s.peerId) = .ok (some s) :=
    fun st => by
      rw [saveMap_eq h]
      exact loadMap_update s st
  exact hload stored

/-! ## Runs -/

/-- A call, or a way to get the session back from what is written of it. -/
inductive Command
  | call (c : SessionCall UInt8)
  | text
  | database (stored : LocalDatabaseSessionStorage.Sessions)
  | memory (stored : InMemorySessionStorage.Sessions)

/-- The call of a command. -/
def Command.call? : Command → Option (SessionCall UInt8)
  | .call c => some c
  | _ => none

/-- What a call returns or throws. -/
def SessionCall.answer {β : Type} (P : Primitives β) (c : SessionCall β) (s : SessionState β) :
    Except DartError (Returned β) :=
  match (c.run P).run s with
  | .ok a _ => .ok a
  | .error e _ => .error e

/-- Calls one after the other: what each returns or throws, and the session at the end. -/
def runCalls {β : Type} (P : Primitives β) :
    List (SessionCall β) → SessionState β → List (Except DartError (Returned β)) × SessionState β
  | [], s => ([], s)
  | c :: cs, s => (c.answer P s :: (runCalls P cs (c.after P s)).1, (runCalls P cs (c.after P s)).2)

/-- The same with reloads; nothing where one of them gives no session. -/
def runCommands (P : Primitives UInt8) :
    List Command → SessionState UInt8 → Option (List (Except DartError (Returned UInt8)) × SessionState UInt8)
  | [], s => some ([], s)
  | .call c :: cs, s => (runCommands P cs (c.after P s)).map fun r => (c.answer P s :: r.1, r.2)
  | .text :: cs, s => (restore s).toOption.bind (runCommands P cs)
  | .database stored :: cs, s => (reload LocalDatabaseSessionStorage stored s).toOption.join.bind (runCommands P cs)
  | .memory stored :: cs, s => (reload InMemorySessionStorage stored s).toOption.join.bind (runCommands P cs)

theorem runCommands_eq (cs : List Command) (hs : Healthy P s) :
    runCommands P cs s = some (runCalls P (cs.filterMap Command.call?) s) := by
  induction cs generalizing s with
  | nil => rfl
  | cons c cs ih =>
    cases c with
    | call c =>
      rw [runCommands, ih (hs.call c)]
      rfl
    | text =>
      rw [runCommands, restore_eq hs.fits]
      exact ih hs
    | database stored =>
      rw [runCommands, reload_database hs.fits]
      exact ih hs
    | memory stored =>
      rw [runCommands, reload_memory hs.fits]
      exact ih hs

/-- A session that calls lead to is read back as it was written, and with reloads at any points the calls return and throw what
they do without, and leave the same session. -/
theorem resumed_run (hs : Reachable P s) : restore s = .ok s ∧
    ∀ cs : List Command, runCommands P cs s = some (runCalls P (cs.filterMap Command.call?) s) :=
  ⟨restore_eq hs.healthy.fits, fun cs => runCommands_eq cs hs.healthy⟩

/-! ## A session with skipped keys -/

/-- A `decrypt` that returns. -/
theorem SessionCall.decrypt_ok {β : Type} {P : Primitives β} {fresh : X25519Seed β} {header : RatchetHeader}
    {s s' : SessionState β} {k : MessageKeyBundle β} (h : (DoubleRatchet.decrypt P fresh header).run s = .ok k s') :
    (SessionCall.decrypt fresh header).answer P s = .ok (.received k) ∧
      (SessionCall.decrypt fresh header).after P s = s' := by
  have hrun : ((SessionCall.decrypt fresh header).run P).run s = .ok (.received k) s' := by
    simp only [run, EStateM.run_map, h]
    rfl
  exact ⟨by rw [answer, hrun], by rw [after, hrun, leaves_ok]⟩

/-- An `encrypt` that returns. -/
theorem SessionCall.encrypt_ok {β : Type} {P : Primitives β} {fresh : X25519Seed β} {s s' : SessionState β}
    {header : RatchetHeader} {k : MessageKeyBundle β} (h : (DoubleRatchet.encrypt P fresh).run s = .ok (header, k) s') :
    (SessionCall.encrypt fresh).answer P s = .ok (.sent header k) ∧ (SessionCall.encrypt fresh).after P s = s' := by
  have hrun : ((SessionCall.encrypt fresh).run P).run s = .ok (.sent header k) s' := by
    simp only [run, EStateM.run_bind, h, EStateM.run_pure]
  exact ⟨by rw [answer, hrun], by rw [after, hrun, leaves_ok]⟩

/-- A session opened with keys of zeros. -/
def zeroSession : SessionState UInt8 :=
  openedSession zeroPrimitives "bob" true (List.replicate 32 0) (List.replicate 32 0) (List.replicate 32 0)

def zeroSeed : X25519Seed UInt8 := ⟨List.replicate 32 0, List.length_replicate⟩

/-- The header of message `n` of the peer's first chain. -/
def zeroHeader (n : Nat) : RatchetHeader := ⟨List.replicate 32 0, 0, n, List.length_replicate⟩

/-- The session that has received message 2 first. -/
def gappedSession : SessionState UInt8 := zeroSession.received zeroPrimitives zeroSession.recvChainKey 0 2

/-- That session once the key of message 0 was used. -/
def takenSession : SessionState UInt8 :=
  let taken := skipKey (zeroHeader 0).dhPublicKey (zeroHeader 0).messageNumber
  { gappedSession with skipped := gappedSession.skipped.erase taken }

theorem zeroSession_reachable : Reachable zeroPrimitives zeroSession :=
  .opened (DoubleRatchet.initSession_run zeroPrimitives "bob" true zeroSeed (Nat.le_of_eq List.length_replicate.symm)
    List.length_replicate List.length_replicate)

theorem gappedSession_reachable : Reachable zeroPrimitives gappedSession := by
  have hrecv : RecvAt zeroPrimitives zeroSession zeroSession.recvChainKey 0 := ⟨length_chainB _ _ _, rfl, rfl⟩
  have hrun := DoubleRatchet.decrypt_current zeroSeed (h := zeroHeader 2) (AList.lookup_empty _) rfl hrecv (Nat.zero_le _)
    (by decide) (by decide) (by decide)
  have hafter : (SessionCall.decrypt zeroSeed (zeroHeader 2)).after zeroPrimitives zeroSession = gappedSession :=
    (SessionCall.decrypt_ok hrun).2
  exact hafter ▸ zeroSession_reachable.call _

/-- A skipped key is in the session until it is used. -/
theorem gappedSession_lookup {n : Nat} (hn : n < 2) : gappedSession.skipped.lookup (skipKey (zeroHeader n).dhPublicKey n) =
    some (chainKeys zeroPrimitives zeroSession.recvChainKey n) := by
  show (stageKeys zeroPrimitives zeroSession.recvChainKey (List.replicate 32 0) 0 2 ∅).lookup _ = _
  rw [show (zeroHeader n).dhPublicKey = List.replicate 32 0 from rfl, lookup_stageKeys,
    if_pos ⟨rfl, Nat.zero_le _, by omega⟩]

/-- The session is restored from its text, takes one skipped key, is loaded from memory, sends, is loaded from the database,
and takes the other skipped key. -/
theorem resumed_run_gap : gappedSession.skipped.keys.length = 2 ∧ restore gappedSession = .ok gappedSession ∧
    ∃ k header keys k' s, runCommands zeroPrimitives [.text, .call (.decrypt zeroSeed (zeroHeader 0)), .memory (fun _ => none),
      .call (.encrypt zeroSeed), .database (fun _ => none), .call (.decrypt zeroSeed (zeroHeader 1))] gappedSession =
      some ([.ok (.received k), .ok (.sent header keys), .ok (.received k')], s) := by
  obtain ⟨hrestore, hruns⟩ := resumed_run gappedSession_reachable
  refine ⟨rfl, hrestore, ?_⟩
  have hrun₁ : (DoubleRatchet.decrypt zeroPrimitives zeroSeed (zeroHeader 0)).run gappedSession = .ok _ takenSession :=
    DoubleRatchet.decrypt_cached zeroPrimitives zeroSeed (gappedSession_lookup (by decide))
  have hsend : SendAt zeroPrimitives takenSession zeroSession.sendChainKey 0 0 := ⟨length_chainA _ _ _, rfl, rfl, rfl⟩
  have hrun₂ := DoubleRatchet.encrypt_run zeroSeed (s := takenSession) rfl hsend List.length_replicate (Nat.zero_le _)
  have hne : skipKey (zeroHeader 1).dhPublicKey ((1 : Nat) : Int) ≠ skipKey (zeroHeader 0).dhPublicKey ((0 : Nat) : Int) :=
    fun h => absurd (skipKey_inj h).2 (by decide)
  have hleft : (takenSession.sent zeroPrimitives zeroSession.sendChainKey 0).skipped.lookup
      (skipKey (zeroHeader 1).dhPublicKey (zeroHeader 1).messageNumber) =
      some (chainKeys zeroPrimitives zeroSession.recvChainKey 1) :=
    (AList.lookup_erase_ne hne).trans (gappedSession_lookup (by decide))
  have hrun₃ := DoubleRatchet.decrypt_cached zeroPrimitives zeroSeed hleft
  have hrun := hruns [.text, .call (.decrypt zeroSeed (zeroHeader 0)), .memory (fun _ => none), .call (.encrypt zeroSeed),
    .database (fun _ => none), .call (.decrypt zeroSeed (zeroHeader 1))]
  simp only [List.filterMap, Command.call?, runCalls] at hrun
  rw [(SessionCall.decrypt_ok hrun₁).1, (SessionCall.decrypt_ok hrun₁).2, (SessionCall.encrypt_ok hrun₂).1,
    (SessionCall.encrypt_ok hrun₂).2, (SessionCall.decrypt_ok hrun₃).1] at hrun
  exact ⟨_, _, _, _, _, hrun⟩

end Chhaya
