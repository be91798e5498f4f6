import Chhaya.Codec.Records
import Chhaya.Lib.Typestate

/-!
# Settings

The settings of `lib/core/database/local_database.dart`: one row with a JSON map, and a cache of it for the getters that
are not asynchronous. Every setter reads the map, changes one key, writes the map back and then replaces the cache; the
setters of one database run beside each other.

- `Setter.field_apply`, `applyAll_field`: a setter changes its own key alone.
- `runSetter_follows`: in which order a setter reads, writes and caches.
- `settings_hold`: where nobody else writes between the read and the write, and between the write and the caching, the
  settings are what all setters have made of them.
- `settings_lost`: two setters of different keys that read before either writes.
-/

namespace Chhaya

namespace Settings

open Async (Pool Event Task)

/-! ## The map -/

/-- `_defaultSettings`. -/
def defaultSettings : JsonFields :=
  [("biometric_lock".toList, .bool true), ("read_receipts".toList, .bool true),
    ("global_disappearing_duration".toList, .int 0), ("onion_routing".toList, .bool true),
    ("blocked_contacts".toList, .arr []), ("linked_devices".toList, .arr [])]

/-- `_getSettings` on the text of the row; it has none when there is no row, or none that can be decrypted. -/
def readSettings : Option String → JsonFields
  | none => defaultSettings
  | some text => match jsonDecode text with
    | .ok (.obj parsed) => parsed
    | _ => defaultSettings

/-- A setter: what it makes of the value of its key. -/
structure Setter where
  key : String
  edit : Json → Except DartError Json
  wf : ∀ j j', edit j = .ok j' → Json.WF j'

namespace Setter

/-- What a setter does with the map between reading and writing it. -/
def apply (x : Setter) (s : JsonFields) : Except DartError JsonFields := do
  let j ← x.edit (field s x.key)
  return Json.setField x.key.toList j s

/-- `s[key] = value`. -/
def assign (key : String) (value : Json) (h : Json.WF value) : Setter where
  key := key
  edit _ := .ok value
  wf _ _ he := by
    cases he
    exact h

/-- `(s['blocked_contacts'] as List<dynamic>? ?? []).cast<String>()` with a change. -/
def editBlocked (change : List String → List String) : Setter where
  key := "blocked_contacts"
  edit j := do
    let list ← asStrings j
    return .arr ((change (list.getD [])).map textJson)
  wf j j' he := by
    obtain ⟨list, -, h⟩ := except_bind_ok he
    cases h
    exact wf_texts _

def setBiometricLockEnabled (v : Bool) : Setter := assign "biometric_lock" (.bool v) trivial
def setReadReceiptsEnabled (v : Bool) : Setter := assign "read_receipts" (.bool v) trivial
def setGlobalDisappearingDuration (v : {n : Int // Json.fits64 n = true}) : Setter :=
  assign "global_disappearing_duration" (.int v) v.2
def setOnionRoutingEnabled (v : Bool) : Setter := assign "onion_routing" (.bool v) trivial
def blockContact (id : String) : Setter := editBlocked fun list => if id ∈ list then list else list ++ [id]
def unblockContact (id : String) : Setter := editBlocked fun list => list.erase id
def setPanicPin (pin : Option String) : Setter := assign "panic_pin" (nullOr textJson pin) (wf_nullOr fun _ _ => trivial)
def setAppPin (pin : String) : Setter := assign "app_pin" (textJson pin) trivial
def setMeshRoutingEnabled (v : Bool) : Setter := assign "mesh_routing" (.bool v) trivial
def setConversationTtl (cid : String) (v : {n : Int // Json.fits64 n = true}) : Setter :=
  assign ("ttl_" ++ cid) (.int v) v.2

end Setter

/-- Setters one after the other. -/
def applyAll (xs : List Setter) (s : JsonFields) : Except DartError JsonFields := xs.foldlM (fun s x => x.apply s) s

section

variable {x : Setter} {s s' : JsonFields} {k : List Char} {j : Json}

theorem field_setField_self (key : String) : field (Json.setField key.toList j s) key = j := by
  unfold field
  induction s with
  | nil => simp [Json.setField]
  | cons kj s ih =>
    unfold Json.setField
    by_cases h : kj.1 = key.toList
    · simp [h]
    · simp only [h, if_false, List.find?_cons, decide_false]
      exact ih

theorem field_setField_ne {key : String} (h : key.toList ≠ k) : field (Json.setField k j s) key = field s key := by
  unfold field
  induction s with
  | nil => simp [Json.setField, h.symm]
  | cons kj s ih =>
    unfold Json.setField
    by_cases hk : kj.1 = k
    · simp [hk, h.symm]
    · simp only [hk, if_false, List.find?_cons]
      by_cases hkey : kj.1 = key.toList
      · simp [hkey]
      · simp only [hkey, decide_false]
        exact ih

/-- A setter changes its own key alone. -/
theorem Setter.field_apply (h : x.apply s = .ok s') :
    x.edit (field s x.key) = .ok (field s' x.key) ∧ ∀ key ≠ x.key, field s' key = field s key := by
  obtain ⟨j, hj, h⟩ := except_bind_ok h
  cases h
  refine ⟨?_, fun key hkey => field_setField_ne fun he => hkey (String.toList_injective he)⟩
  rw [field_setField_self]
  exact hj

theorem wf_setField (h : Json.WF (.obj s)) (hj : Json.WF j) : Json.WF (.obj (Json.setField k j s)) := by
  have hkeys : ∀ (l : JsonFields) k', k' ∈ (Json.setField k j l).map Prod.fst → k' = k ∨ k' ∈ l.map Prod.fst := by
    intro l k' hk'
    induction l with
    | nil => exact .inl (List.mem_singleton.mp hk')
    | cons kj l ih =>
      unfold Json.setField at hk'
      split at hk'
      · rename_i he
        rcases List.mem_cons.mp hk' with rfl | hk'
        · exact .inl rfl
        · exact .inr (List.mem_cons_of_mem _ hk')
      · rcases List.mem_cons.mp hk' with rfl | hk'
        · exact .inr List.mem_cons_self
        · exact (ih hk').imp id (List.mem_cons_of_mem _)
  obtain ⟨hn, hf⟩ := h
  induction s with
  | nil => exact ⟨List.nodup_singleton _, hj, trivial⟩
  | cons kj s ih =>
    obtain ⟨hk, hn⟩ := List.nodup_cons.mp hn
    obtain ⟨hv, hf⟩ := hf
    unfold Json.setField
    split
    · rename_i he
      refine ⟨List.nodup_cons.mpr ⟨?_, hn⟩, hj, hf⟩
      rw [← he]
      exact hk
    · rename_i he
      obtain ⟨hn', hf'⟩ := ih hn hf
      refine ⟨List.nodup_cons.mpr ⟨fun hmem => ?_, hn'⟩, hv, hf'⟩
      rcases hkeys s _ hmem with heq | hmem
      · exact he heq
      · exact hk hmem

theorem Setter.wf_apply (h : x.apply s = .ok s') (hs : Json.WF (.obj s)) : Json.WF (.obj s') := by
  obtain ⟨j, hj, h⟩ := except_bind_ok h
  cases h
  exact wf_setField hs (x.wf _ _ hj)

theorem wf_defaultSettings : Json.WF (.obj defaultSettings) := by
  refine ⟨?_, trivial, trivial, ?_, trivial, trivial, trivial, trivial⟩
  · show ["biometric_lock".toList, "read_receipts".toList, "global_disappearing_duration".toList,
      "onion_routing".toList, "blocked_contacts".toList, "linked_devices".toList].Nodup
    decide
  · show Json.fits64 0 = true
    decide

theorem readSettings_jsonEncode (h : Json.WF (.obj s)) : readSettings (some (jsonEncode (.obj s))) = s := by
  show (match jsonDecode (jsonEncode (.obj s)) with
    | .ok (.obj parsed) => parsed
    | _ => defaultSettings) = s
  rw [jsonDecode_jsonEncode h]

theorem applyAll_concat (xs : List Setter) (x : Setter) (s : JsonFields) :
    applyAll (xs ++ [x]) s = applyAll xs s >>= x.apply := by
  rw [applyAll, List.foldlM_append]
  refine congrArg _ (funext fun s => ?_)
  show x.apply s >>= pure = _
  rw [bind_pure]

/-- Of all setters, those of a key decide its value. -/
theorem applyAll_field {xs : List Setter} (h : applyAll xs s = .ok s') (key : String) :
    (xs.filter fun x => x.key == key).foldlM (fun j x => x.edit j) (field s key) = .ok (field s' key) := by
  induction xs generalizing s with
  | nil =>
    cases h
    rfl
  | cons x xs ih =>
    obtain ⟨s₁, h1, h⟩ := except_bind_ok h
    obtain ⟨hself, hothers⟩ := Setter.field_apply h1
    by_cases hk : x.key = key
    · subst hk
      rw [List.filter_cons_of_pos (by simp), List.foldlM_cons, hself]
      exact ih h
    · rw [List.filter_cons_of_neg (by simpa using hk), ← hothers key (Ne.symm hk)]
      exact ih h

end

/-! ## What the setters do -/

/-- What is awaited, and the cache, which is set at once. What was read comes with the number of writes before it, and
what was written with the number of writes after it; neither is in the code. -/
inductive SettingsOp
  | findSettings
  | upsertSettings (x : Setter) (s : JsonFields) (read : Nat)
  | setCache (s : JsonFields) (seen : Nat)
  | refreshDeviceCache

@[reducible] def SettingsAns : SettingsOp → Type
  | .findSettings => Option String × Nat
  | .upsertSettings _ _ _ => Nat
  | _ => Unit

def SettingsOp.Sync : SettingsOp → Prop
  | .setCache _ _ => True
  | _ => False

abbrev SettingsProg (α : Type) := Async SettingsOp SettingsAns DartError α

def ask (op : SettingsOp) : SettingsProg (SettingsAns op) := Async.await op

/-- A setter that has read the row. -/
def writeBack (x : Setter) (row : Option String × Nat) : SettingsProg Unit := do
  let s ← Async.ofExcept (x.apply (readSettings row.1))
  let seen ← ask (.upsertSettings x s row.2)
  ask (.setCache s seen)

/-- Every setter. -/
def runSetter (x : Setter) : SettingsProg Unit := do
  let row ← ask .findSettings
  writeBack x row

def preloadSettings : SettingsProg Unit := do
  let row ← ask .findSettings
  ask (.setCache (readSettings row.1) row.2)
  ask .refreshDeviceCache

inductive SettingsCall
  | set (x : Setter)
  | preloadSettings

def body : SettingsCall → SettingsProg Unit
  | .set x => runSetter x
  | .preloadSettings => preloadSettings

/-- A write that has been made, with the number of writes before the read and before the write, and what was cached, with
the number of writes when it was read or written and when it was cached. -/
inductive Mark
  | wrote (x : Setter) (read current : Nat)
  | cached (seen current : Nat)

/-- The text of the row, the cache, and, not in the code, how many writes have been made and what has happened, the newest
first. -/
structure SettingsState where
  stored : Option String := none
  cache : Option JsonFields := none
  version : Nat := 0
  history : List Mark := []

/-- What the stored text says. -/
def SettingsState.view (s : SettingsState) : JsonFields := readSettings s.stored

/-- `_getSettingsSync`. -/
def SettingsState.getSettingsSync (s : SettingsState) : JsonFields := s.cache.getD defaultSettings

def SettingsState.upsertSettings (s : SettingsState) (x : Setter) (m : JsonFields) (read : Nat) : SettingsState where
  stored := some (jsonEncode (.obj m))
  cache := s.cache
  version := s.version + 1
  history := .wrote x read s.version :: s.history

def SettingsState.setCache (s : SettingsState) (m : JsonFields) (seen : Nat) : SettingsState :=
  { s with cache := some m, history := .cached seen s.version :: s.history }

/-- The effect of a call. What fails has not happened. -/
inductive Effect : SettingsState → (op : SettingsOp) → Except DartError (SettingsAns op) → SettingsState → Prop
  | findSettings (s : SettingsState) : Effect s .findSettings (.ok (s.stored, s.version)) s
  | upsertSettings (s : SettingsState) (x : Setter) (m : JsonFields) (read : Nat) :
      Effect s (.upsertSettings x m read) (.ok (s.version + 1)) (s.upsertSettings x m read)
  | setCache (s : SettingsState) (m : JsonFields) (seen : Nat) : Effect s (.setCache m seen) (.ok ()) (s.setCache m seen)
  | refreshDeviceCache (s : SettingsState) : Effect s .refreshDeviceCache (.ok ()) s
  | fails (s : SettingsState) {op : SettingsOp} (e : DartError) (h : ¬op.Sync) : Effect s op (.error e) s

/-- Nobody has written since the read, or since the write that is cached. -/
def Mark.Orderly : Mark → Prop
  | .wrote _ read current => read = current
  | .cached seen current => seen = current

/-- What happens is orderly. -/
def OrderlyTo (c : Pool SettingsCall SettingsOp SettingsAns DartError Unit SettingsState) (s : SettingsState) : Prop :=
  ∃ marks, s.history = marks ++ c.state.history ∧ ∀ m ∈ marks, m.Orderly

def Orderly (c c' : Pool SettingsCall SettingsOp SettingsAns DartError Unit SettingsState) : Prop :=
  OrderlyTo c c'.state

/-- The calls that run beside each other. -/
def Running (ok : Pool SettingsCall SettingsOp SettingsAns DartError Unit SettingsState →
    Pool SettingsCall SettingsOp SettingsAns DartError Unit SettingsState → Prop) (s₀ : SettingsState)
    (c : Pool SettingsCall SettingsOp SettingsAns DartError Unit SettingsState) : Prop :=
  Async.Loop.Reachable Effect SettingsOp.Sync body (fun _ _ => False) ok s₀ c

/-- A database that has just been opened: the settings were never written, or written as a map, and are in the cache. -/
structure Opened (s : SettingsState) : Prop where
  stored : s.stored = none ∨ ∃ m, s.stored = some (jsonEncode (.obj m)) ∧ Json.WF (.obj m)
  cached : s.getSettingsSync = s.view
  version : s.version = 0
  history : s.history = []

/-- The setters that have come to their end. -/
def completed (log : List (Event SettingsCall DartError Unit)) : List Setter :=
  log.filterMap fun
    | .ended _ (.set x) (.ok _) => some x
    | _ => none

/-- The setters in the order in which they have written. -/
def writes (s : SettingsState) : List Setter :=
  s.history.reverse.filterMap fun
    | .wrote x _ _ => some x
    | _ => none

/-- The settings are what the completed setters have made of them in this order, and the cache has them. -/
structure Reflects (order : List Setter) (s₀ : SettingsState)
    (c : Pool SettingsCall SettingsOp SettingsAns DartError Unit SettingsState) : Prop where
  all : order.Perm (completed c.log)
  stored : applyAll order s₀.view = .ok c.state.view
  cached : c.state.getSettingsSync = c.state.view

/-! ## The order of reading, writing and caching -/

/-- Where a call stands: what it has read and made of it, or written, and with how many writes before. -/
inductive Place
  | begun (i : SettingsCall)
  | holds (x : Setter) (m : JsonFields) (read : Nat)
  | wrote (x : Setter) (m : JsonFields) (seen : Nat)
  | written (x : Setter)
  | loaded (m : JsonFields) (seen : Nat)
  | rest

/-- The order of what the calls do. -/
def order : Async.Typestate SettingsOp SettingsAns DartError Place where
  may q op := match q with
    | .begun _ => op = .findSettings
    | .holds x m read => op = .upsertSettings x m read
    | .wrote _ m seen | .loaded m seen => op = .setCache m seen
    | .written _ => False
    | .rest => op = .refreshDeviceCache
  next q op a := match q, op, a with
    | .begun (.set x), .findSettings, .ok row => match x.apply (readSettings row.1) with
      | .ok m => .holds x m row.2
      | .error _ => .rest
    | .begun .preloadSettings, .findSettings, .ok row => .loaded (readSettings row.1) row.2
    | .holds x m _, .upsertSettings _ _ _, .ok seen => .wrote x m seen
    | .wrote x _ _, .setCache _ _, .ok _ => .written x
    | _, _, _ => .rest

/-- Where a call ends. -/
def Ends (i : SettingsCall) (r : Except DartError Unit) (q : Place) : Prop :=
  match i, r with
  | .set x, .ok _ => q = .written x
  | _, _ => q = .rest

theorem runSetter_follows (x : Setter) : (runSetter x).Follows order (Ends (.set x)) (.begun (.set x)) := by
  refine Async.Follows.awaits rfl (fun e => rfl) fun row => ?_
  have hnext : order.next (.begun (.set x)) .findSettings (.ok row) = match x.apply (readSettings row.1) with
    | .ok m => .holds x m row.2
    | .error _ => .rest := rfl
  rw [hnext, writeBack]
  cases x.apply (readSettings row.1) with
  | error e => rfl
  | ok m =>
    refine Async.Follows.awaits rfl (fun e => rfl) fun seen => ?_
    exact Async.Follows.await rfl fun a => by cases a <;> rfl

theorem preloadSettings_follows : preloadSettings.Follows order (Ends .preloadSettings) (.begun .preloadSettings) := by
  refine Async.Follows.awaits rfl (fun e => rfl) fun row => ?_
  refine Async.Follows.awaits rfl (fun e => rfl) fun _ => ?_
  exact Async.Follows.await rfl fun a => rfl

theorem body_follows (i : SettingsCall) : (body i).Follows order (Ends i) (.begun i) := by
  cases i with
  | set x => exact runSetter_follows x
  | preloadSettings => exact preloadSettings_follows

/-! ## What the calls keep -/

/-- The setter has written and has not yet come to its end. -/
def Place.pending : Place → List Setter
  | .wrote x _ _ | .written x => [x]
  | _ => []

/-- The cache is not yet what has been written. -/
def Place.Writing : Place → Prop
  | .wrote _ _ _ => True
  | _ => False

/-- What a call holds is what is stored, as long as nobody has written. -/
def Place.Known (s : SettingsState) : Place → Prop
  | .holds x m read => read ≤ s.version ∧ Json.WF (.obj m) ∧ (read = s.version → x.apply s.view = .ok m)
  | .wrote _ m seen | .loaded m seen => seen ≤ s.version ∧ (seen = s.version → m = s.view)
  | _ => True

/-- The settings are what the writes have made of them, and each write is one of a setter that has ended or goes on. -/
structure Knows (s₀ s : SettingsState) (qs : List Place) (log : List (Event SettingsCall DartError Unit)) : Prop where
  all : (writes s).Perm (completed log ++ qs.flatMap Place.pending)
  stored : applyAll (writes s) s₀.view = .ok s.view
  wf : Json.WF (.obj s.view)
  known : ∀ q ∈ qs, q.Known s
  cached : (∀ q ∈ qs, ¬q.Writing) → s.getSettingsSync = s.view

section

variable {s₀ s s' : SettingsState} {q q' : Place} {qs rs : List Place} {log log' : List (Event SettingsCall DartError Unit)}
  {c : Pool SettingsCall SettingsOp SettingsAns DartError Unit SettingsState}

theorem pending_middle (qs rs : List Place) (q : Place) :
    ((qs ++ q :: rs).flatMap Place.pending).Perm (q.pending ++ (qs ++ rs).flatMap Place.pending) := by
  simp only [List.flatMap_append, List.flatMap_cons]
  rw [← List.append_assoc, ← List.append_assoc]
  exact List.perm_append_comm.append_right _

/-- A call has gone on without a write. -/
theorem Knows.move (h : Knows s₀ s (qs ++ q :: rs) log) (hp : q'.pending = q.pending) (hk : q'.Known s)
    (hw : q.Writing → q'.Writing) : Knows s₀ s (qs ++ q' :: rs) log := by
  refine ⟨?_, h.stored, h.wf, fun u hu => ?_, fun hno => h.cached fun u hu => ?_⟩
  · have hperm := ((pending_middle qs rs q).trans (hp ▸ (pending_middle qs rs q').symm)).append_left (completed log)
    exact h.all.trans hperm
  · rcases Async.mem_middle.mp hu with rfl | hu
    · exact hk
    · exact h.known u (Async.mem_middle.mpr (.inr hu))
  · rcases Async.mem_middle.mp hu with rfl | hu
    · exact fun hq => hno q' (Async.mem_middle.mpr (.inl rfl)) (hw hq)
    · exact hno u (Async.mem_middle.mpr (.inr hu))

/-- A call has replaced the cache by what is stored. -/
theorem Knows.setCache {m : JsonFields} {seen : Nat} (h : Knows s₀ s (qs ++ q :: rs) log) (hm : m = s.view)
    (hp : q'.pending = q.pending) (hk : q'.Known s) :
    Knows s₀ (s.setCache m seen) (qs ++ q' :: rs) log := by
  have hwrites : writes (s.setCache m seen) = writes s := by
    unfold writes SettingsState.setCache
    rw [List.reverse_cons, List.filterMap_append]
    exact List.append_nil _
  refine ⟨?_, ?_, h.wf, fun u hu => ?_, fun _ => hm⟩
  · have hperm := ((pending_middle qs rs q).trans (hp ▸ (pending_middle qs rs q').symm)).append_left (completed log)
    rw [hwrites]
    exact h.all.trans hperm
  · rw [hwrites]
    exact h.stored
  · rcases Async.mem_middle.mp hu with rfl | hu
    · exact hk
    · exact h.known u (Async.mem_middle.mpr (.inr hu))

/-- A setter has written what it has made of what is stored. -/
theorem Knows.upsert {x : Setter} {m : JsonFields} {read : Nat} (h : Knows s₀ s (qs ++ .holds x m read :: rs) log)
    (hread : read = s.version) :
    Knows s₀ (s.upsertSettings x m read) (qs ++ .wrote x m (s.version + 1) :: rs) log := by
  obtain ⟨-, hwf, happly⟩ := h.known _ (Async.mem_middle.mpr (.inl rfl))
  have hwrites : writes (s.upsertSettings x m read) = writes s ++ [x] := by
    unfold writes SettingsState.upsertSettings
    rw [List.reverse_cons, List.filterMap_append]
    rfl
  have hview : (s.upsertSettings x m read).view = m := readSettings_jsonEncode hwf
  have hwf' : Json.WF (.obj (s.upsertSettings x m read).view) := by
    rw [hview]
    exact hwf
  refine ⟨?_, ?_, hwf', fun u hu => ?_, fun hno => ?_⟩
  · rw [hwrites]
    have hall : (writes s).Perm (completed log ++ (qs ++ rs).flatMap Place.pending) :=
      h.all.trans ((pending_middle qs rs (.holds x m read)).append_left (completed log))
    have hnew : ((qs ++ .wrote x m (s.version + 1) :: rs).flatMap Place.pending).Perm
        ([x] ++ (qs ++ rs).flatMap Place.pending) := pending_middle qs rs (.wrote x m (s.version + 1))
    have hlast := hall.append_right [x]
    rw [List.append_assoc] at hlast
    exact hlast.trans ((List.perm_append_comm.trans hnew.symm).append_left (completed log))
  · rw [hwrites, applyAll_concat, h.stored, hview]
    exact happly hread
  · rcases Async.mem_middle.mp hu with rfl | hu
    · exact ⟨le_rfl, fun _ => hview.symm⟩
    · have hk := h.known u (Async.mem_middle.mpr (.inr hu))
      cases u with
      | holds y m' read' =>
        refine ⟨Nat.le_succ_of_le hk.1, hk.2.1, fun he => absurd he ?_⟩
        have hle := hk.1
        show read' ≠ s.version + 1
        omega
      | wrote y m' seen =>
        refine ⟨Nat.le_succ_of_le hk.1, fun he => absurd he ?_⟩
        have hle := hk.1
        show seen ≠ s.version + 1
        omega
      | loaded m' seen =>
        refine ⟨Nat.le_succ_of_le hk.1, fun he => absurd he ?_⟩
        have hle := hk.1
        show seen ≠ s.version + 1
        omega
      | begun | written | rest => trivial
  · exact absurd trivial (hno _ (Async.mem_middle.mpr (.inl rfl)))

/-! ## Orderly runs -/

/-- What has happened is kept. -/
def Later (s₀ s : SettingsState) : Prop := ∃ marks, s.history = marks ++ s₀.history

theorem Effect.history {op : SettingsOp} {a : Except DartError (SettingsAns op)} (he : Effect s op a s') :
    s'.history = s.history ∨ ∃ m, s'.history = m :: s.history := by
  cases he <;> first | exact .inl rfl | exact .inr ⟨_, rfl⟩

theorem Effect.later {op : SettingsOp} {a : Except DartError (SettingsAns op)} (he : Effect s op a s')
    (h : Later s₀ s) : Later s₀ s' := by
  obtain ⟨marks, hm⟩ := h
  rcases he.history with h | ⟨m, h⟩
  · exact ⟨marks, h.trans hm⟩
  · exact ⟨m :: marks, by rw [h, hm, List.cons_append]⟩

/-- The last thing that has happened was orderly, and so was what was before. -/
theorem OrderlyTo.last {m : Mark} (hl : Later c.state s) (h : OrderlyTo c s') (hm : s'.history = m :: s.history) :
    m.Orderly ∧ OrderlyTo c s := by
  obtain ⟨marks, hs⟩ := hl
  obtain ⟨marks', hs', horderly⟩ := h
  have heq : marks' = m :: marks := by
    rw [hm, hs, ← List.cons_append] at hs'
    exact (List.append_cancel_right hs').symm
  subst heq
  exact ⟨horderly m List.mem_cons_self, marks, hs, fun x hx => horderly x (List.mem_cons_of_mem _ hx)⟩

theorem OrderlyTo.before {op : SettingsOp} {a : Except DartError (SettingsAns op)} (he : Effect s op a s')
    (hl : Later c.state s) (h : OrderlyTo c s') : OrderlyTo c s := by
  rcases he.history with hs | ⟨m, hs⟩
  · obtain ⟨marks, hm, horderly⟩ := h
    exact ⟨marks, hs ▸ hm, horderly⟩
  · exact (h.last hl hs).2

/-- What fails does not write. -/
theorem Knows.fail {op : SettingsOp} {e : DartError} (h : Knows s₀ s (qs ++ q :: rs) log) (hm : order.may q op)
    (hs : ¬op.Sync) : Knows s₀ s (qs ++ order.next q op (.error e) :: rs) log := by
  cases q with
  | begun i =>
    obtain rfl : op = .findSettings := hm
    cases i <;> exact h.move rfl trivial id
  | holds x m read =>
    obtain rfl : op = .upsertSettings x m read := hm
    exact h.move rfl trivial id
  | wrote x m seen =>
    obtain rfl : op = .setCache m seen := hm
    exact absurd trivial hs
  | loaded m seen =>
    obtain rfl : op = .setCache m seen := hm
    exact absurd trivial hs
  | written x => exact hm.elim
  | rest =>
    obtain rfl : op = .refreshDeviceCache := hm
    exact h

/-- One effect in an orderly run. -/
theorem Knows.step {op : SettingsOp} {a : Except DartError (SettingsAns op)} (hm : order.may q op) (he : Effect s op a s')
    (hl : Later c.state s) (ho : OrderlyTo c s') (h : Knows s₀ s (qs ++ q :: rs) log) :
    Knows s₀ s' (qs ++ order.next q op a :: rs) log := by
  cases he with
  | fails e hs => exact h.fail hm hs
  | findSettings =>
    cases q with
    | begun i =>
      cases i with
      | preloadSettings => exact h.move rfl ⟨le_rfl, fun _ => rfl⟩ id
      | set x =>
        have hnext : order.next (.begun (.set x)) .findSettings (.ok (s.stored, s.version)) =
            match x.apply (readSettings s.stored) with
            | .ok m => .holds x m s.version
            | .error _ => .rest := rfl
        rw [hnext]
        cases happly : x.apply (readSettings s.stored) with
        | ok m => exact h.move rfl ⟨le_rfl, Setter.wf_apply happly h.wf, fun _ => happly⟩ id
        | error e => exact h.move rfl trivial id
    | holds | wrote | loaded | written | rest => cases hm
  | upsertSettings x m read =>
    have horderly : read = s.version := (ho.last hl rfl).1
    cases q with
    | holds y m' read' =>
      cases hm
      exact h.upsert horderly
    | begun | wrote | loaded | written | rest => cases hm
  | setCache m seen =>
    have horderly : seen = s.version := (ho.last hl rfl).1
    cases q with
    | wrote x m' seen' =>
      cases hm
      exact h.setCache ((h.known _ (Async.mem_middle.mpr (.inl rfl))).2 horderly) rfl trivial
    | loaded m' seen' =>
      cases hm
      exact h.setCache ((h.known _ (Async.mem_middle.mpr (.inl rfl))).2 horderly) rfl trivial
    | begun | holds | written | rest => cases hm
  | refreshDeviceCache =>
    cases q with
    | rest => exact h
    | begun | holds | wrote | loaded | written => cases hm

theorem knows_opened (h : Opened s) : Knows s s [] [] := by
  have hwrites : writes s = [] := by
    rw [writes, h.history]
    rfl
  refine ⟨?_, ?_, ?_, List.forall_mem_nil _, fun _ => h.cached⟩
  · rw [hwrites]
    exact List.Perm.refl _
  · rw [hwrites]
    rfl
  · rcases h.stored with hs | ⟨m, hs, hm⟩
    · rw [SettingsState.view, hs]
      exact wf_defaultSettings
    · rw [SettingsState.view, hs, readSettings_jsonEncode hm]
      exact hm

/-- A call begins. -/
theorem Knows.start {i : SettingsCall} {n : Nat} (h : Knows s₀ s qs log) :
    Knows s₀ s (.begun i :: qs) (.started n i :: log) :=
  ⟨h.all, h.stored, h.wf, List.forall_mem_cons.mpr ⟨trivial, h.known⟩,
    fun hno => h.cached fun u hu => hno u (List.mem_cons_of_mem _ hu)⟩

/-- A call ends. -/
theorem Knows.leave {i : SettingsCall} {n : Nat} {r : Except DartError Unit} (he : Ends i r q)
    (h : Knows s₀ s (qs ++ q :: rs) log) : Knows s₀ s (qs ++ rs) (.ended n i r :: log) := by
  have hq : completed (.ended n i r :: log) = q.pending ++ completed log ∧ ¬q.Writing := by
    cases i with
    | preloadSettings =>
      obtain rfl : q = .rest := he
      exact ⟨rfl, id⟩
    | set x =>
      cases r with
      | error e =>
        obtain rfl : q = .rest := he
        exact ⟨rfl, id⟩
      | ok a =>
        obtain rfl : q = .written x := he
        exact ⟨rfl, id⟩
  refine ⟨?_, h.stored, h.wf, fun u hu => h.known u (Async.mem_middle.mpr (.inr hu)),
    fun hno => h.cached fun u hu => ?_⟩
  · rw [hq.1, List.append_assoc]
    refine h.all.trans (((pending_middle qs rs q).append_left (completed log)).trans ?_)
    rw [← List.append_assoc, ← List.append_assoc]
    exact List.perm_append_comm.append_right _
  · rcases Async.mem_middle.mp hu with rfl | hu
    · exact hq.2
    · exact hno u hu

end

/-- Where every setter writes what it has made of what is stored, and caches what is stored, the settings are, as soon as
all have come to their end, what the setters have made of them in the order of their writes. -/
theorem settings_hold (s₀ : SettingsState) (h₀ : Opened s₀)
    (c : Pool SettingsCall SettingsOp SettingsAns DartError Unit SettingsState) (h : Running Orderly s₀ c)
    (hdone : c.running = []) : Reflects (writes c.state) s₀ c := by
  obtain ⟨qs, hqs, hk⟩ := Async.Loop.reachable_logged (I := Knows s₀) (R := Later) (G := OrderlyTo) body_follows
    (fun h => h) (fun s => ⟨[], rfl⟩) (fun he h => he.later h) (fun he hl ho => ho.before he hl) (fun hk => hk.start)
    (fun he hk => hk.leave he) (fun hm he hl ho _ hk => hk.step hm he hl ho) (fun ho => ho.elim) (knows_opened h₀) h
  have hnil : qs = [] := by
    unfold Async.Placed at hqs
    rw [hdone] at hqs
    cases hqs
    rfl
  subst hnil
  refine ⟨?_, hk.stored, hk.cached (List.forall_mem_nil _)⟩
  have hall := hk.all
  rwa [List.flatMap_nil, List.append_nil] at hall

/-! ## Two setters -/

theorem writeBack_runs {x : Setter} {row : Option String × Nat} {m : JsonFields} (s : SettingsState)
    (h : x.apply (readSettings row.1) = .ok m) : Async.Runs Effect (writeBack x row) s (some (.ok ()))
      ((s.upsertSettings x m row.2).setCache m (s.version + 1)) := by
  unfold writeBack
  rw [h]
  exact .call (.upsertSettings s x m row.2) (.call (.setCache _ m _) (.done _ _))

/-- The defaults with one blocked contact. -/
def bobBlocked : JsonFields :=
  Json.setField "blocked_contacts".toList (.arr [textJson "bob"]) defaultSettings

/-- The defaults without read receipts. -/
def noReceipts : JsonFields := Json.setField "read_receipts".toList (.bool false) defaultSettings

theorem apply_blockContact : (Setter.blockContact "bob").apply defaultSettings = .ok bobBlocked := rfl

theorem apply_setReadReceiptsEnabled :
    (Setter.setReadReceiptsEnabled false).apply defaultSettings = .ok noReceipts := rfl

theorem opened_empty : Opened {} := ⟨.inl rfl, rfl, rfl, rfl⟩

theorem writeBack_turn {x : Setter} {row : Option String × Nat} {m : JsonFields} (s : SettingsState)
    (h : x.apply (readSettings row.1) = .ok m) : Async.Turn Effect SettingsOp.Sync (writeBack x row) s
      ((ask (.upsertSettings x m row.2)).bind fun seen => ask (.setCache m seen)) s := by
  unfold writeBack
  rw [h]
  exact .awaits _ _ fun h => h

/-- A setter that waits for the row. -/
theorem set_turn (x : Setter) (s : SettingsState) :
    Async.Turn Effect SettingsOp.Sync (body (.set x)) s (body (.set x)) s := .awaits _ _ fun h => h

/-- The second setter on the loop reads the row. -/
theorem second_reads (x : Setter) {s : SettingsState} {t : Task SettingsCall SettingsOp SettingsAns DartError Unit}
    {us : List (Task SettingsCall SettingsOp SettingsAns DartError Unit)} {m n : Nat}
    {es : List (Event SettingsCall DartError Unit)} :
    Async.Loop.Step Effect SettingsOp.Sync body (fun _ _ => False) ⟨s, t :: ⟨m, .set x, body (.set x)⟩ :: us, n, es⟩
      ⟨s, t :: ⟨m, .set x, writeBack x (s.stored, s.version)⟩ :: us, n, es⟩ := by
  have hop : ¬SettingsOp.Sync .findSettings := fun h => h
  have hread : Effect s .findSettings (.ok (s.stored, s.version)) s := .findSettings s
  exact .answerSecond hop hread

/-- The settings with both changes. -/
def bothChanged : JsonFields := Json.setField "read_receipts".toList (.bool false) bobBlocked

theorem view_encoded {x : Setter} {m m' : JsonFields} (h : x.apply m = .ok m') (hm : Json.WF (.obj m)) :
    readSettings (some (jsonEncode (.obj m'))) = m' := readSettings_jsonEncode (x.wf_apply h hm)

theorem apply_second : (Setter.setReadReceiptsEnabled false).apply bobBlocked = .ok bothChanged := rfl

/-- Two setters of different keys, of which one reads between the write and the caching of the other: both have their
effect. -/
theorem settings_kept : ∃ c : Pool SettingsCall SettingsOp SettingsAns DartError Unit SettingsState,
    completed c.log = [.setReadReceiptsEnabled false, .blockContact "bob"] ∧ c.state.view = bothChanged ∧
    Reflects (writes c.state) {} c := by
  have hblocked := view_encoded apply_blockContact wf_defaultSettings
  have hread : (Setter.setReadReceiptsEnabled false).apply
      (readSettings (SettingsState.upsertSettings {} (.blockContact "bob") bobBlocked 0).stored) = .ok bothChanged := by
    show (Setter.setReadReceiptsEnabled false).apply (readSettings (some (jsonEncode (.obj bobBlocked)))) = _
    rw [hblocked]
    exact apply_second
  have h1 : Running Orderly {} ⟨{}, [⟨1, .set (.blockContact "bob"), body (.set (.blockContact "bob"))⟩,
      ⟨0, .set (.setReadReceiptsEnabled false), body (.set (.setReadReceiptsEnabled false))⟩], 2,
      [.started 1 (.set (.blockContact "bob")), .started 0 (.set (.setReadReceiptsEnabled false))]⟩ :=
    (Async.Loop.Reachable.init.step (.start _ (set_turn _ _)) ⟨[], rfl, List.forall_mem_nil _⟩).step
      (.start _ (set_turn _ _)) ⟨[], rfl, List.forall_mem_nil _⟩
  have h2 := h1.step (Async.Loop.Step.answerFirst (fun h => h) (.findSettings {})) ⟨[], rfl, List.forall_mem_nil _⟩
  have h3 := h2.step (Async.Loop.Step.first (writeBack_turn {} apply_blockContact)) ⟨[], rfl, List.forall_mem_nil _⟩
  have h4 := h3.step (Async.Loop.Step.answerFirst (fun h => h) (.upsertSettings {} _ bobBlocked 0))
    ⟨[.wrote (.blockContact "bob") 0 0], rfl, List.forall_mem_singleton.mpr rfl⟩
  have h5 := h4.step (second_reads (.setReadReceiptsEnabled false)) ⟨[], rfl, List.forall_mem_nil _⟩
  have h6 := h5.step (Async.Loop.Step.first (.sync trivial (.setCache _ bobBlocked 1) (.done () _)))
    ⟨[.cached 1 1], rfl, List.forall_mem_singleton.mpr rfl⟩
  have h7 := h6.step (Async.Loop.Step.first (@writeBack_turn (.setReadReceiptsEnabled false) (_, _) bothChanged _ hread))
    ⟨[], rfl, List.forall_mem_nil _⟩
  have h8 := h7.step (Async.Loop.Step.answerFirst (fun h => h) (.upsertSettings _ _ bothChanged 1))
    ⟨[.wrote (.setReadReceiptsEnabled false) 1 1], rfl, List.forall_mem_singleton.mpr rfl⟩
  have h9 := h8.step (Async.Loop.Step.first (.sync trivial (.setCache _ bothChanged 2) (.done () _)))
    ⟨[.cached 2 2], rfl, List.forall_mem_singleton.mpr rfl⟩
  have hview := view_encoded apply_second (Setter.wf_apply apply_blockContact wf_defaultSettings)
  have hreflects := settings_hold {} opened_empty _ h9 rfl
  refine ⟨_, ?_, ?_, hreflects⟩
  · rfl
  · exact hview

/-- Two setters of different keys: both come to their end, and one of them has no effect. -/
theorem settings_lost : ¬∀ (s₀ : SettingsState), Opened s₀ →
    ∀ c, Running (fun _ _ => True) s₀ c → c.running = [] → ∃ order, Reflects order s₀ c := by
  intro h
  have h1 : Running (fun _ _ => True) {} ⟨{}, [⟨0, .set (.blockContact "bob"), body (.set (.blockContact "bob"))⟩], 1,
      [.started 0 (.set (.blockContact "bob"))]⟩ := Async.Loop.Reachable.init.step (.start _ (set_turn _ _)) trivial
  have h2 := h1.step (Async.Loop.Step.answerFirst (fun h => h) (.findSettings {})) trivial
  have hserved : Async.Runs Effect (body (.set (.setReadReceiptsEnabled false))) {} (some (.ok ())) _ :=
    .call (.findSettings {}) (writeBack_runs {} apply_setReadReceiptsEnabled)
  have h3 := Async.Loop.Reachable.serve (fun _ _ => trivial) (SettingsCall.set (.setReadReceiptsEnabled false)) hserved h2
  have h4 : Running (fun _ _ => True) {} ⟨_, [], _, _⟩ :=
    Async.Loop.Reachable.finish (fun _ _ => trivial) (writeBack_runs _ apply_blockContact) fun p₁ s₁ ht =>
      h3.step (Async.Loop.Step.first ht) trivial
  obtain ⟨order, hall, hstored, -⟩ := h {} opened_empty _ h4 rfl
  have hfilter : (order.filter fun x => x.key == "read_receipts") = [.setReadReceiptsEnabled false] := by
    have hlog := hall.filter fun x => x.key == "read_receipts"
    have hends : ([.blockContact "bob", .setReadReceiptsEnabled false] : List Setter).filter
        (fun x => x.key == "read_receipts") = [.setReadReceiptsEnabled false] := by
      rw [List.filter_cons_of_neg (by decide), List.filter_cons_of_pos (by decide), List.filter_nil]
    exact List.perm_singleton.mp (hlog.trans (List.Perm.of_eq hends))
  have hfield := applyAll_field hstored "read_receipts"
  have hview := view_encoded apply_blockContact wf_defaultSettings
  have hlast : Except.ok (Json.bool false) = Except.ok (ε := DartError) (field bobBlocked "read_receipts") := by
    rw [hfilter] at hfield
    rw [← hview]
    exact hfield
  cases hlast

end Settings

end Chhaya
