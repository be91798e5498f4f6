import Chhaya.Client.Background

/-!
# Session keys

The session keys that a `KeyManager` holds, one buffer for each contact and device, in a map under the path
`session/<contact>/<device>`. The same text is the map key, the prefix by which a rotation finds the keys of a contact, and
the context of key derivation.

- `sessionPath_inj`, `startsWith_session_iff`: what the path says of its segments.
- `KeyRequest.info_inj`: no two requests for keys derive with one info.
- `SessionKeys.view_run`: what is cached after any calls.
- `app_sessionCache`: the same where the calls run beside each other on the event loop.
- `session_isolation`: a cached key is returned until it is replaced, rotated or wiped, and a rotation wipes the keys of its
  contact and no others.
-/

namespace Chhaya

namespace KeyManager

/-! ## Paths -/

/-- What `_checkSegment` accepts. -/
def Segment (value : String) : Prop := checkSegment value "" = .ok ()

instance (value : String) : Decidable (Segment value) := inferInstanceAs (Decidable (_ = _))

/-- What is derived from the master seed. -/
inductive KeyRequest
  | session (contactId deviceId : String)
  | database (userId : String)
  | identityEd25519
  | identityX25519
  | vaultMaster
  deriving DecidableEq

/-- The path of a request. -/
def KeyRequest.path : KeyRequest → Except DartError String
  | .session contactId deviceId => sessionPath contactId deviceId
  | .database userId => databasePath userId
  | .identityEd25519 => .ok "identity/ed25519"
  | .identityX25519 => .ok "identity/x25519"
  | .vaultMaster => .ok "vault/master"

/-! ## The cache -/

/-- The buffers that were allocated for session keys, and the buffer of each path. -/
structure SessionKeys where
  buffers : List Bytes := []
  cache : DartMap String Nat := ∅

namespace SessionKeys

/-- `Csprng.wipe`. -/
def wipeBuffer (buffers : List Bytes) (a : Nat) : List Bytes := buffers.modify a fun b => List.replicate b.length 0

/-- `removeWhere` without its effect on the values. -/
def removeWhere (m : DartMap String Nat) (test : String → Bool) : DartMap String Nat :=
  ⟨m.entries.filter fun e => !test e.1, m.nodupKeys.sublist List.filter_sublist⟩

/-- `cacheSessionKey`: the buffer that is replaced is wiped, and the key is copied. -/
def cacheSessionKey (s : SessionKeys) (contactId deviceId : String) (key : Bytes) : Except DartError SessionKeys := do
  let cacheKey ← sessionPath contactId deviceId
  let buffers := match s.cache.lookup cacheKey with
    | some old => wipeBuffer s.buffers old
    | none => s.buffers
  return { buffers := buffers ++ [key], cache := s.cache.insert cacheKey buffers.length }

/-- `getCachedSessionKey`, a copy. -/
def getCachedSessionKey (s : SessionKeys) (contactId deviceId : String) : Except DartError (Option Bytes) := do
  let cacheKey ← sessionPath contactId deviceId
  return (s.cache.lookup cacheKey).bind fun a => s.buffers[a]?

/-- `zeroizeCache` on the session keys. -/
def zeroizeCache (s : SessionKeys) : SessionKeys :=
  { buffers := (s.cache.entries.map (·.2)).foldl wipeBuffer s.buffers, cache := ∅ }

/-- `rotateSessionKey` up to its first await. -/
def rotateSessionKey (s : SessionKeys) (contactId : String) : Except DartError SessionKeys := do
  checkSegment contactId "contactId"
  let test := fun key : String => key.startsWith ("session/" ++ contactId ++ "/")
  let dropped := s.cache.entries.filter fun e => test e.1
  return { buffers := (dropped.map (·.2)).foldl wipeBuffer s.buffers, cache := removeWhere s.cache test }

end SessionKeys

/-- A call about session keys. -/
inductive SessionCall
  | cacheSessionKey (contactId deviceId : String) (key : Bytes)
  | getCachedSessionKey (contactId deviceId : String)
  | rotateSessionKey (contactId : String)
  | zeroizeCache

/-- What a call leaves; a rejected call leaves everything. -/
def SessionCall.apply (s : SessionKeys) : SessionCall → SessionKeys
  | .cacheSessionKey contactId deviceId key =>
    match s.cacheSessionKey contactId deviceId key with
    | .ok s' => s'
    | .error _ => s
  | .getCachedSessionKey _ _ => s
  | .rotateSessionKey contactId =>
    match s.rotateSessionKey contactId with
    | .ok s' => s'
    | .error _ => s
  | .zeroizeCache => s.zeroizeCache

/-- The keys after these calls, the newest first. -/
def SessionKeys.run : List SessionCall → SessionKeys
  | [] => {}
  | call :: calls => call.apply (run calls)

/-- The last key cached for a contact and device, unless the contact was rotated or the cache wiped since. -/
def lastKey (contactId deviceId : String) : List SessionCall → Option Bytes
  | [] => none
  | .cacheSessionKey c d key :: calls => if c = contactId ∧ d = deviceId then some key else lastKey contactId deviceId calls
  | .getCachedSessionKey _ _ :: calls => lastKey contactId deviceId calls
  | .rotateSessionKey c :: calls => if c = contactId then none else lastKey contactId deviceId calls
  | .zeroizeCache :: _ => none

/-- From `s` to `s'` exactly the keys of a contact went, with their buffers wiped. -/
structure Rotated (contactId : String) (s s' : SessionKeys) : Prop where
  removed : ∀ deviceId, Segment deviceId → s'.getCachedSessionKey contactId deviceId = .ok none
  kept : ∀ c deviceId, Segment c → Segment deviceId → c ≠ contactId →
    s'.getCachedSessionKey c deviceId = s.getCachedSessionKey c deviceId
  wiped : ∀ deviceId path a b, sessionPath contactId deviceId = .ok path → s.cache.lookup path = some a →
    s.buffers[a]? = some b → s'.buffers[a]? = some (List.replicate b.length 0)
  untouched : ∀ a, (∀ deviceId path, sessionPath contactId deviceId = .ok path → s.cache.lookup path ≠ some a) →
    s'.buffers[a]? = s.buffers[a]?

/-! ## Paths tell their segments -/

section Paths

variable {c c' d d' name path : String}

theorem checkSegment_ok (h : Segment c) (name : String) : checkSegment c name = .ok () := by
  unfold Segment checkSegment at h
  split at h
  · rename_i ht
    rw [checkSegment, if_pos ht]
  · cases h

theorem checkSegment_inv (h : checkSegment c name = .ok ()) : Segment c := by
  unfold checkSegment at h
  split at h
  · rename_i ht
    rw [Segment, checkSegment, if_pos ht]
  · cases h

/-- No segment holds a separator. -/
theorem Segment.no_slash (h : Segment c) : '/' ∉ c.toList := by
  unfold Segment checkSegment at h
  split at h
  · rename_i ht
    intro hm
    rw [Bool.and_eq_true, List.all_eq_true] at ht
    exact absurd (ht.2 _ hm) (by decide)
  · cases h

theorem sessionPath_ok (hc : Segment c) (hd : Segment d) : sessionPath c d = .ok ("session/" ++ c ++ "/" ++ d) := by
  rw [sessionPath, checkSegment_ok hc, checkSegment_ok hd]
  rfl

theorem sessionPath_inv (h : sessionPath c d = .ok path) :
    Segment c ∧ Segment d ∧ path = "session/" ++ c ++ "/" ++ d := by
  obtain ⟨⟨⟩, hc, h⟩ := except_bind_ok h
  obtain ⟨⟨⟩, hd, h⟩ := except_bind_ok h
  exact ⟨checkSegment_inv hc, checkSegment_inv hd, (Except.ok.inj h).symm⟩

theorem toList_sessionPath (c d : String) :
    ("session/" ++ c ++ "/" ++ d).toList = "session/".toList ++ (c.toList ++ '/' :: d.toList) := by
  simp only [String.toList_append, List.append_assoc]
  rfl

/-- A session path is the path of one contact and one device. -/
theorem sessionPath_inj (hc : Segment c) (hc' : Segment c') (h : "session/" ++ c ++ "/" ++ d = "session/" ++ c' ++ "/" ++ d') :
    c = c' ∧ d = d' := by
  have hl := congrArg String.toList h
  rw [toList_sessionPath, toList_sessionPath] at hl
  obtain ⟨h1, h2⟩ := append_sep_inj (List.append_cancel_left hl) hc.no_slash hc'.no_slash
  exact ⟨String.toList_inj.mp h1, String.toList_inj.mp h2⟩

/-- The prefix of a contact is the prefix of its own paths only, also where one id begins with another. -/
theorem startsWith_session_iff (hc : Segment c) (hc' : Segment c') :
    ("session/" ++ c' ++ "/" ++ d').startsWith ("session/" ++ c ++ "/") = true ↔ c' = c := by
  have hp : ("session/" ++ c ++ "/").toList = "session/".toList ++ (c.toList ++ ['/']) := by
    simp only [String.toList_append, List.append_assoc]
    rfl
  rw [String.startsWith_string_iff, toList_sessionPath, hp, List.prefix_append_right_inj]
  constructor
  · rintro ⟨t, ht⟩
    rw [List.append_assoc] at ht
    obtain ⟨h1, -⟩ := append_sep_inj ht hc.no_slash hc'.no_slash
    exact (String.toList_inj.mp h1).symm
  · rintro rfl
    exact ⟨d'.toList, by rw [List.append_assoc]; rfl⟩

/-- The first character of a path tells what kind of key is requested. -/
def KeyRequest.kind : KeyRequest → Char
  | .session _ _ => 's'
  | .database _ => 'd'
  | .identityEd25519 | .identityX25519 => 'i'
  | .vaultMaster => 'v'

theorem databasePath_inv (h : databasePath c = .ok path) : path.toList = "database/master/".toList ++ c.toList := by
  obtain ⟨⟨⟩, -, h⟩ := except_bind_ok h
  rw [← Except.ok.inj h, String.toList_append]

theorem KeyRequest.head_path {r : KeyRequest} (h : r.path = .ok path) : path.toList.head? = some r.kind := by
  cases r with
  | session c d =>
    rw [(sessionPath_inv h).2.2, toList_sessionPath]
    rfl
  | database u =>
    rw [databasePath_inv h]
    rfl
  | identityEd25519 =>
    rw [← Except.ok.inj h]
    rfl
  | identityX25519 =>
    rw [← Except.ok.inj h]
    rfl
  | vaultMaster =>
    rw [← Except.ok.inj h]
    rfl

/-- No two accepted requests derive with one info. -/
theorem KeyRequest.info_inj {r r' : KeyRequest} {path path' : String} (h : r.path = .ok path) (h' : r'.path = .ok path')
    (hi : infoOf path = infoOf path') : r = r' := by
  have hl := congrArg String.toList (utf8Encode_injective hi)
  rw [String.toList_append, String.toList_append] at hl
  obtain rfl := String.toList_inj.mp (List.append_cancel_left hl)
  have hk : r.kind = r'.kind := Option.some.inj ((head_path h).symm.trans (head_path h'))
  cases r with
  | session c d =>
    cases r' with
    | session c' d' =>
      obtain ⟨hc, -, rfl⟩ := sessionPath_inv h
      obtain ⟨hc', -, he⟩ := sessionPath_inv h'
      obtain ⟨rfl, rfl⟩ := sessionPath_inj hc hc' he
      rfl
    | _ => exact absurd hk (by simp [kind])
  | database u =>
    cases r' with
    | database u' =>
      rw [String.toList_inj.mp (List.append_cancel_left ((databasePath_inv h).symm.trans (databasePath_inv h')))]
    | _ => exact absurd hk (by simp [kind])
  | identityEd25519 =>
    cases r' with
    | identityEd25519 => rfl
    | identityX25519 => exact absurd (Except.ok.inj (h.trans h'.symm)) (by decide)
    | _ => exact absurd hk (by simp [kind])
  | identityX25519 =>
    cases r' with
    | identityX25519 => rfl
    | identityEd25519 => exact absurd (Except.ok.inj (h.trans h'.symm)) (by decide)
    | _ => exact absurd hk (by simp [kind])
  | vaultMaster =>
    cases r' with
    | vaultMaster => rfl
    | _ => exact absurd hk (by simp [kind])

end Paths

/-! ## Buffers and their paths -/

namespace SessionKeys

/-- The key that is cached under a path. -/
def view (s : SessionKeys) (path : String) : Option Bytes := (s.cache.lookup path).bind fun a => s.buffers[a]?

/-- Every path has a buffer of its own, every path is the path of a contact and a device, and every buffer that is not
cached is wiped. -/
structure Inv (s : SessionKeys) : Prop where
  valid : ∀ path a, s.cache.lookup path = some a → a < s.buffers.length
  distinct : ∀ path path' a, s.cache.lookup path = some a → s.cache.lookup path' = some a → path = path'
  paths : ∀ path a, s.cache.lookup path = some a → ∃ c d, sessionPath c d = .ok path
  wiped : ∀ a b, s.buffers[a]? = some b → (∀ path, s.cache.lookup path ≠ some a) → b = List.replicate b.length 0

section Buffers

variable {s s' : SessionKeys} {c d path : String} {key : Bytes}

theorem getElem?_wipeBuffer (bs : List Bytes) (a x : Nat) :
    (wipeBuffer bs x)[a]? = if x = a then (bs[a]?).map fun b => List.replicate b.length 0 else bs[a]? := by
  rw [wipeBuffer, List.getElem?_modify]
  split
  · rfl
  · cases bs[a]? <;> rfl

theorem getElem?_wipeAll (a : Nat) : ∀ (l : List Nat) (bs : List Bytes),
    (l.foldl wipeBuffer bs)[a]? = if a ∈ l then (bs[a]?).map fun b => List.replicate b.length 0 else bs[a]?
  | [], bs => by simp
  | x :: l, bs => by
    rw [List.foldl_cons, getElem?_wipeAll a l, getElem?_wipeBuffer]
    by_cases hx : x = a
    · rw [if_pos hx, if_pos (List.mem_cons.mpr (Or.inl hx.symm)), Option.map_map]
      split
      · cases bs[a]? <;> simp
      · rfl
    · have hm : a ∈ x :: l ↔ a ∈ l := by
        rw [List.mem_cons]
        exact or_iff_right (fun h => hx h.symm)
      rw [if_neg hx]
      simp only [hm]

theorem lookup_removeWhere (m : DartMap String Nat) (test : String → Bool) (path : String) :
    (removeWhere m test).lookup path = if test path = true then none else m.lookup path := by
  refine Option.ext fun a => ?_
  have hr : a ∈ (removeWhere m test).lookup path ↔ ⟨path, a⟩ ∈ m.entries ∧ test path = false := by
    rw [AList.mem_lookup_iff, removeWhere, List.mem_filter, Bool.not_eq_true']
  rw [Option.mem_def.symm, hr, ← AList.mem_lookup_iff, Option.mem_def]
  split
  · rename_i ht
    simp [ht]
  · rename_i ht
    simp [ht]

/-- The addresses of the entries that satisfy a test. -/
theorem mem_addresses {m : DartMap String Nat} {test : String → Bool} {a : Nat} :
    a ∈ (m.entries.filter fun e => test e.1).map (·.2) ↔ ∃ path, m.lookup path = some a ∧ test path = true := by
  rw [List.mem_map]
  constructor
  · rintro ⟨⟨path, a⟩, he, rfl⟩
    obtain ⟨he, ht⟩ := List.mem_filter.mp he
    exact ⟨path, AList.mem_lookup_iff.mpr he, ht⟩
  · rintro ⟨path, hl, ht⟩
    exact ⟨⟨path, a⟩, List.mem_filter.mpr ⟨AList.mem_lookup_iff.mp hl, ht⟩, rfl⟩

theorem getCachedSessionKey_ok (s : SessionKeys) (h : sessionPath c d = .ok path) :
    s.getCachedSessionKey c d = .ok (s.view path) := by
  rw [getCachedSessionKey, h]
  rfl

theorem inv_empty : Inv {} where
  valid path a h := by cases h
  distinct path path' a h := by cases h
  paths path a h := by cases h
  wiped a b h := by cases h

/-- The buffers of `cacheSessionKey` before the new one is allocated. -/
def replaced (s : SessionKeys) (path : String) : List Bytes :=
  match s.cache.lookup path with
  | some old => wipeBuffer s.buffers old
  | none => s.buffers

theorem length_replaced : (s.replaced path).length = s.buffers.length := by
  unfold replaced
  split
  · exact List.length_modify _ _ _
  · rfl

theorem getElem?_replaced (a : Nat) : (s.replaced path)[a]? =
    if s.cache.lookup path = some a then (s.buffers[a]?).map fun b => List.replicate b.length 0 else s.buffers[a]? := by
  unfold replaced
  split
  · rename_i old ho
    rw [getElem?_wipeBuffer, ho]
    simp only [Option.some.injEq]
  · rename_i ho
    rw [ho, if_neg (fun h => nomatch h)]

theorem lookup_insert_eq (m : DartMap String Nat) (path q : String) (n : Nat) :
    (m.insert path n).lookup q = if q = path then some n else m.lookup q := by
  split
  · rename_i h
    rw [h, AList.lookup_insert]
  · rename_i h
    exact AList.lookup_insert_ne h

/-- What `cacheSessionKey` leaves. -/
theorem cacheSessionKey_spec (hi : Inv s) (hp : sessionPath c d = .ok path) (key : Bytes) :
    ∃ s', s.cacheSessionKey c d key = .ok s' ∧ Inv s' ∧ ∀ q, s'.view q = if q = path then some key else s.view q := by
  refine ⟨⟨s.replaced path ++ [key], s.cache.insert path (s.replaced path).length⟩, by rw [cacheSessionKey, hp]; rfl, ?_, ?_⟩
  · constructor
    · intro q a h
      rw [lookup_insert_eq] at h
      rw [List.length_append, length_replaced]
      split at h
      · obtain rfl := Option.some.inj h
        rw [length_replaced]
        exact Nat.lt_succ_self _
      · exact Nat.lt_succ_of_lt (hi.valid q a h)
    · intro q q' a h h'
      rw [lookup_insert_eq] at h h'
      split at h
      · rename_i hq
        obtain rfl := Option.some.inj h
        split at h'
        · rename_i hq'
          rw [hq, hq']
        · have := hi.valid _ _ h'
          rw [length_replaced] at this
          exact absurd this (Nat.lt_irrefl _)
      · split at h'
        · obtain rfl := Option.some.inj h'
          have := hi.valid _ _ h
          rw [length_replaced] at this
          exact absurd this (Nat.lt_irrefl _)
        · exact hi.distinct q q' a h h'
    · intro q a h
      rw [lookup_insert_eq] at h
      split at h
      · rename_i hq
        exact ⟨c, d, hq ▸ hp⟩
      · exact hi.paths q a h
    · intro a b hb hno
      have hlen : a ≠ (s.replaced path).length := by
        intro he
        exact hno path (by rw [lookup_insert_eq, if_pos rfl, he])
      have hlt : a < (s.replaced path).length := by
        have := (List.getElem?_eq_some_iff.mp hb).1
        rw [List.length_append, List.length_singleton] at this
        omega
      dsimp only at hb
      rw [List.getElem?_append_left hlt, getElem?_replaced] at hb
      split at hb
      · obtain ⟨b', -, rfl⟩ := Option.map_eq_some_iff.mp hb
        rw [List.length_replicate]
      · rename_i hpath
        refine hi.wiped a b hb fun q hq => ?_
        by_cases he : q = path
        · exact hpath (he ▸ hq)
        · exact hno q (by rw [lookup_insert_eq, if_neg he, hq])
  · intro q
    rw [view, lookup_insert_eq]
    split
    · show (s.replaced path ++ [key])[(s.replaced path).length]? = some key
      rw [List.getElem?_append_right (Nat.le_refl _), Nat.sub_self]
      rfl
    · rename_i hq
      rw [view]
      cases hl : s.cache.lookup q with
      | none => rfl
      | some a =>
        show (s.replaced path ++ [key])[a]? = s.buffers[a]?
        have hlt := hi.valid q a hl
        rw [List.getElem?_append_left (by rw [length_replaced]; exact hlt), getElem?_replaced, if_neg]
        exact fun h => hq (hi.distinct q path a hl h)

theorem length_wipeAll : ∀ (l : List Nat) (bs : List Bytes), (l.foldl wipeBuffer bs).length = bs.length
  | [], _ => rfl
  | x :: l, bs => by rw [List.foldl_cons, length_wipeAll l, wipeBuffer, List.length_modify]

/-- From `s` to `s'` the entries that satisfy a test went, with their buffers wiped, and no others. -/
structure Dropped (test : String → Bool) (s s' : SessionKeys) : Prop where
  view : ∀ q, s'.view q = if test q = true then none else s.view q
  wiped : ∀ q a, s.cache.lookup q = some a → test q = true →
    s'.buffers[a]? = (s.buffers[a]?).map fun b => List.replicate b.length 0
  untouched : ∀ a, (∀ q, s.cache.lookup q = some a → test q ≠ true) → s'.buffers[a]? = s.buffers[a]?

theorem dropped_spec (hi : Inv s) (test : String → Bool)
    (hs : s' = ⟨((s.cache.entries.filter fun e => test e.1).map (·.2)).foldl wipeBuffer s.buffers, removeWhere s.cache test⟩) :
    Inv s' ∧ Dropped test s s' := by
  have hlookup : ∀ q, s'.cache.lookup q = if test q = true then none else s.cache.lookup q := by
    intro q
    rw [hs]
    exact lookup_removeWhere _ _ _
  have hkept : ∀ q a, s'.cache.lookup q = some a → s.cache.lookup q = some a ∧ test q ≠ true := by
    intro q a h
    rw [hlookup] at h
    split at h
    · cases h
    · rename_i ht
      exact ⟨h, ht⟩
  have hwiped : ∀ q a, s.cache.lookup q = some a → test q = true →
      s'.buffers[a]? = (s.buffers[a]?).map fun b => List.replicate b.length 0 := by
    intro q a hq ht
    rw [hs]
    exact (getElem?_wipeAll _ _ _).trans (if_pos (mem_addresses.mpr ⟨q, hq, ht⟩))
  have hsame : ∀ a, (∀ q, s.cache.lookup q = some a → test q ≠ true) → s'.buffers[a]? = s.buffers[a]? := by
    intro a h
    rw [hs]
    refine (getElem?_wipeAll _ _ _).trans (if_neg fun hm => ?_)
    obtain ⟨q, hq, ht⟩ := mem_addresses.mp hm
    exact h q hq ht
  have hother : ∀ q a, s.cache.lookup q = some a → test q ≠ true → s'.buffers[a]? = s.buffers[a]? :=
    fun q a hq ht => hsame a fun q' hq' => hi.distinct q q' a hq hq' ▸ ht
  refine ⟨⟨?_, ?_, ?_, ?_⟩, ⟨?_, hwiped, hsame⟩⟩
  · intro q a h
    rw [hs]
    exact (length_wipeAll _ _).symm ▸ hi.valid q a (hkept q a h).1
  · intro q q' a h h'
    exact hi.distinct q q' a (hkept q a h).1 (hkept q' a h').1
  · intro q a h
    exact hi.paths q a (hkept q a h).1
  · intro a b hb hno
    by_cases hd : ∃ q, s.cache.lookup q = some a ∧ test q = true
    · obtain ⟨q, hq, ht⟩ := hd
      rw [hwiped q a hq ht] at hb
      obtain ⟨b', -, rfl⟩ := Option.map_eq_some_iff.mp hb
      rw [List.length_replicate]
    · rw [hsame a fun q hq ht => hd ⟨q, hq, ht⟩] at hb
      refine hi.wiped a b hb fun q hq => hno q ?_
      rw [hlookup, if_neg fun ht => hd ⟨q, hq, ht⟩, hq]
  · intro q
    rw [SessionKeys.view, hlookup]
    split
    · rfl
    · rename_i ht
      rw [SessionKeys.view]
      cases hl : s.cache.lookup q with
      | none => rfl
      | some a => exact hother q a hl ht

/-- What `zeroizeCache` leaves. -/
theorem zeroizeCache_spec (hi : Inv s) : Inv s.zeroizeCache ∧ ∀ q, s.zeroizeCache.view q = none := by
  have hs : s.zeroizeCache = ⟨((s.cache.entries.filter fun e => (fun _ => true) e.1).map (·.2)).foldl wipeBuffer s.buffers,
      removeWhere s.cache fun _ => true⟩ := by
    rw [zeroizeCache, List.filter_true]
    congr 1
    refine AList.ext ?_
    show [] = s.cache.entries.filter fun _ => !true
    rw [Bool.not_true, List.filter_false]
  obtain ⟨h1, h2⟩ := dropped_spec hi (fun _ => true) hs
  exact ⟨h1, fun q => by rw [h2.view, if_pos rfl]⟩

/-- What `rotateSessionKey` leaves. -/
theorem rotateSessionKey_spec (hi : Inv s) (hc : Segment c) : ∃ s', s.rotateSessionKey c = .ok s' ∧ Inv s' ∧
    Dropped (fun key => key.startsWith ("session/" ++ c ++ "/")) s s' := by
  refine ⟨_, by rw [rotateSessionKey, checkSegment_ok hc]; rfl, ?_⟩
  exact dropped_spec hi _ rfl

/-- Whatever was called, what is cached for a contact and device is the last key. -/
theorem view_run : ∀ calls : List SessionCall, Inv (run calls) ∧ ∀ c d, Segment c → Segment d →
    (run calls).view ("session/" ++ c ++ "/" ++ d) = lastKey c d calls
  | [] => ⟨inv_empty, fun _ _ _ _ => rfl⟩
  | .cacheSessionKey c' d' key :: calls => by
    obtain ⟨hi, hv⟩ := view_run calls
    cases hp : sessionPath c' d' with
    | error e =>
      have hsame : run (.cacheSessionKey c' d' key :: calls) = run calls := by
        show SessionCall.apply (run calls) (.cacheSessionKey c' d' key) = _
        rw [SessionCall.apply, cacheSessionKey, hp]
        rfl
      rw [hsame]
      refine ⟨hi, fun c d hc hd => ?_⟩
      rw [hv c d hc hd, lastKey, if_neg]
      rintro ⟨rfl, rfl⟩
      rw [sessionPath_ok hc hd] at hp
      cases hp
    | ok path =>
      obtain ⟨hc', -, rfl⟩ := sessionPath_inv hp
      obtain ⟨s', hs, hi', hv'⟩ := cacheSessionKey_spec hi hp key
      have hrun : run (.cacheSessionKey c' d' key :: calls) = s' := by
        show SessionCall.apply (run calls) (.cacheSessionKey c' d' key) = _
        rw [SessionCall.apply, hs]
      rw [hrun]
      refine ⟨hi', fun c d hc hd => ?_⟩
      rw [hv', lastKey, hv c d hc hd]
      by_cases he : c' = c ∧ d' = d
      · rw [if_pos he, if_pos (by rw [he.1, he.2])]
      · rw [if_neg he, if_neg]
        exact fun h => he (sessionPath_inj hc' hc h.symm)
  | .getCachedSessionKey _ _ :: calls => view_run calls
  | .rotateSessionKey c' :: calls => by
    obtain ⟨hi, hv⟩ := view_run calls
    by_cases hc' : Segment c'
    · obtain ⟨s', hs, hi', hd'⟩ := rotateSessionKey_spec hi hc'
      have hrun : run (.rotateSessionKey c' :: calls) = s' := by
        show SessionCall.apply (run calls) (.rotateSessionKey c') = _
        rw [SessionCall.apply, hs]
      rw [hrun]
      refine ⟨hi', fun c d hc hd => ?_⟩
      rw [hd'.view, lastKey, hv c d hc hd]
      simp only [startsWith_session_iff hc' hc, eq_comm (a := c)]
    · have hsame : run (.rotateSessionKey c' :: calls) = run calls := by
        show SessionCall.apply (run calls) (.rotateSessionKey c') = _
        rw [SessionCall.apply, rotateSessionKey]
        cases hk : checkSegment c' "contactId" with
        | error e => rfl
        | ok u => exact absurd (checkSegment_inv hk) hc'
      rw [hsame]
      refine ⟨hi, fun c d hc hd => ?_⟩
      rw [hv c d hc hd, lastKey, if_neg]
      rintro rfl
      exact hc' hc
  | .zeroizeCache :: calls => by
    obtain ⟨hi', hv'⟩ := zeroizeCache_spec (view_run calls).1
    exact ⟨hi', fun _ _ _ _ => hv' _⟩

/-- A rotation wipes the keys of its contact and no others. -/
theorem Dropped.rotated (hi : Inv s) (hc : Segment c)
    (h : Dropped (fun key => key.startsWith ("session/" ++ c ++ "/")) s s') : Rotated c s s' where
  removed deviceId hd := by
    rw [getCachedSessionKey_ok s' (sessionPath_ok hc hd), h.view, if_pos ((startsWith_session_iff hc hc).mpr rfl)]
  kept c' deviceId hc' hd hne := by
    rw [getCachedSessionKey_ok s' (sessionPath_ok hc' hd), getCachedSessionKey_ok s (sessionPath_ok hc' hd), h.view, if_neg]
    exact fun hs => hne ((startsWith_session_iff hc hc').mp hs)
  wiped deviceId path a b hp hl hb := by
    obtain ⟨-, -, rfl⟩ := sessionPath_inv hp
    rw [h.wiped _ a hl ((startsWith_session_iff hc hc).mpr rfl), hb]
    rfl
  untouched a hno := by
    refine h.untouched a fun q hq ht => ?_
    obtain ⟨c', d', hp⟩ := hi.paths q a hq
    obtain ⟨hc', hd', rfl⟩ := sessionPath_inv hp
    obtain rfl := (startsWith_session_iff hc hc').mp ht
    exact hno d' _ hp hq

end Buffers

end SessionKeys

/-! ## The event loop -/

/-- What a call of the key manager does with the session keys, in its first turn. -/
def MemoryCall.sessionCalls : MemoryCall → List SessionCall
  | .getKeyPair => []
  | .storeKeyPair _ => [.zeroizeCache]
  | .cacheSessionKey contactId deviceId key => [.cacheSessionKey contactId deviceId key]
  | .rotateSessionKey contactId => [.rotateSessionKey contactId]
  | .zeroizeCache => [.zeroizeCache]
  | .didChangeAppLifecycleState state => if state.wipes then [.zeroizeCache] else []

/-- The calls about session keys that were started, the newest first. -/
def startedCalls : List MemoryEvent → List SessionCall
  | [] => []
  | .started _ i :: log => i.sessionCalls ++ startedCalls log
  | .ended _ _ _ :: log => startedCalls log

/-- The accesses that leave the session keys alone. -/
def KeepsSessions : MemoryOp → Prop
  | .zeroizeCache | .setSessionKey _ _ | .dropSessionKeys _ => False
  | _ => True

section Loop

open SessionKeys

variable {m m' : Memory} {p : MemoryProg Unit} {op : MemoryOp} {a : Except DartError (MemoryAns op)}

theorem KeepsSessions.effect (h : KeepsSessions op) (he : MemoryEffect m op a m') : m'.sessionCache = m.sessionCache := by
  cases he with
  | access he => rfl
  | setRotationEpoch => rfl
  | now => rfl
  | zeroizeCache => exact h.elim
  | setSessionKey => exact h.elim
  | dropSessionKeys => exact h.elim

theorem Quiet.keepsSessions (h : Quiet op) : KeepsSessions op := by
  cases op with
  | access op => exact trivial
  | setRotationEpoch => exact trivial
  | now => exact trivial
  | zeroizeCache => exact h.elim
  | setSessionKey => exact h.elim
  | dropSessionKeys => exact h.elim

theorem onMemory_keepsSessions {α : Type} (q : Prog α) : (onMemory q).Every KeepsSessions := by
  induction q with
  | done a => exact trivial
  | throw e => exact trivial
  | call op k ih => exact ⟨trivial, ih⟩

theorem turn_keepsSessions {p' : MemoryProg Unit} (h : p.Every KeepsSessions)
    (ht : Async.Turn MemoryEffect MemoryOp.IsSync p m p' m') : m'.sessionCache = m.sessionCache :=
  ht.inv (I := fun w => w.sessionCache = m.sessionCache) (fun _ hk _ _ _ he hw => (hk.effect he).trans hw) h rfl

theorem getKeyPair_keepsSessions : (MemoryCall.body .getKeyPair).Every KeepsSessions :=
  Async.Every.bind (onMemory_keepsSessions _) fun _ => trivial

/-- What is left of a call after its first turn leaves the session keys alone. -/
theorem MemoryCall.rest_keepsSessions {i : MemoryCall} (ht : Async.Turn MemoryEffect MemoryOp.IsSync i.body m p m') :
    p.Every KeepsSessions := by
  by_cases hi : i = .getKeyPair
  · subst hi
    exact ht.every getKeyPair_keepsSessions
  · exact (MemoryCall.turn_quiet hi ht).mono fun _ => Quiet.keepsSessions

theorem Wiped.view_zeroize {s : SessionKeys} (hi : Inv s) (hw : Wiped m') : m'.sessionCache = s.zeroizeCache.view :=
  funext fun q => (hw.sessions q).trans ((zeroizeCache_spec hi).2 q).symm

/-- The first turn of a call does with the session keys in memory what the call does. -/
theorem MemoryCall.first_turn {i : MemoryCall} {calls : List SessionCall} (h : m.sessionCache = (run calls).view)
    (ht : Async.Turn MemoryEffect MemoryOp.IsSync i.body m p m') :
    m'.sessionCache = (run (i.sessionCalls ++ calls)).view := by
  have hi := (view_run calls).1
  cases i with
  | getKeyPair =>
    exact (turn_keepsSessions getKeyPair_keepsSessions ht).trans h
  | storeKeyPair pair =>
    obtain ⟨a, m₁, he, ht⟩ := Async.Turn.sync_inv ht trivial
    cases he with
    | zeroizeCache =>
      rw [turn_keepsSessions (onMemory_keepsSessions (writePair pair)) ht]
      exact funext fun q => ((zeroizeCache_spec hi).2 q).symm
  | cacheSessionKey c d key =>
    change Async.Turn _ _ (KeyManager.cacheSessionKey c d key) m p m' at ht
    unfold KeyManager.cacheSessionKey at ht
    show _ = (SessionCall.apply (run calls) (.cacheSessionKey c d key)).view
    cases hp : sessionPath c d with
    | error e =>
      rw [hp] at ht
      obtain ⟨-, rfl⟩ := Async.Turn.throw_inv ht
      rw [SessionCall.apply, SessionKeys.cacheSessionKey, hp]
      exact h
    | ok path =>
      rw [hp] at ht
      obtain ⟨s', hs, -, hv⟩ := cacheSessionKey_spec hi hp key
      obtain ⟨a, m₁, he, ht⟩ := Async.Turn.sync_inv ht trivial
      rw [SessionCall.apply, hs]
      cases he with
      | setSessionKey =>
        obtain ⟨-, rfl⟩ := ht.done_inv
        refine funext fun q => ?_
        rw [hv, ← h]
        exact Function.update_apply _ _ _ _
  | rotateSessionKey c =>
    change Async.Turn _ _ ((KeyManager.rotateSessionKey c).bind fun _ => .done ()) m p m' at ht
    unfold KeyManager.rotateSessionKey at ht
    show _ = (SessionCall.apply (run calls) (.rotateSessionKey c)).view
    cases hp : checkSegment c "contactId" with
    | error e =>
      rw [hp] at ht
      obtain ⟨-, rfl⟩ := Async.Turn.throw_inv ht
      rw [SessionCall.apply, SessionKeys.rotateSessionKey, hp]
      exact h
    | ok u =>
      rw [hp] at ht
      obtain ⟨s', hs, -, hd⟩ := rotateSessionKey_spec hi (checkSegment_inv hp)
      obtain ⟨a, m₁, he, ht⟩ := Async.Turn.sync_inv ht trivial
      rw [SessionCall.apply, hs]
      cases he with
      | dropSessionKeys =>
        have hrest : ∀ stored, (nextSessionEpoch c stored).Every KeepsSessions := fun stored =>
          Async.Every.bind (onMemory_keepsSessions _) fun _ => Async.Every.bind (Async.Every.await trivial) fun _ => trivial
        have hread := onMemory_keepsSessions (read ("chhaya_session_epoch_" ++ c))
        have hend : (((onMemory (read ("chhaya_session_epoch_" ++ c))).bind fun stored => nextSessionEpoch c stored).bind
            fun _ => (.done () : MemoryProg Unit)).Every KeepsSessions :=
          Async.Every.bind (Async.Every.bind hread hrest) fun _ => trivial
        refine (turn_keepsSessions hend ht).trans (funext fun q => ?_)
        rw [hd.view, ← h]
  | zeroizeCache => exact Wiped.view_zeroize hi (wipe_turn ht).2
  | didChangeAppLifecycleState state =>
    change Async.Turn _ _ (KeyManager.didChangeAppLifecycleState state) m p m' at ht
    unfold KeyManager.didChangeAppLifecycleState at ht
    rw [MemoryCall.sessionCalls]
    split at ht
    · rename_i hw
      rw [if_pos hw]
      exact Wiped.view_zeroize hi (wipe_turn ht).2
    · rename_i hw
      obtain ⟨-, rfl⟩ := Async.Turn.done_inv ht
      rw [if_neg hw]
      exact h

theorem startedCalls_seen (t : Async.Task MemoryCall MemoryOp MemoryAns DartError Unit) (log : List MemoryEvent) :
    startedCalls (t.seen ++ log) = startedCalls log := by
  obtain ⟨n, i, p⟩ := t
  cases p <;> rfl

/-- Calls that run beside each other leave the session keys that their first turns leave one after the other. -/
theorem app_sessionCache {ok : App → App → Prop} {c : App} (h₀ : m.sessionCache = fun _ => none)
    (h : App.Reachable ok m c) : c.state.sessionCache = (run (startedCalls c.log)).view := by
  have hinv : c.state.sessionCache = (run (startedCalls c.log)).view ∧ ∀ t ∈ c.running, t.rest.Every KeepsSessions := by
    refine Async.Loop.reachable_inv (fun c => c.state.sessionCache = (run (startedCalls c.log)).view ∧
      ∀ t ∈ c.running, t.rest.Every KeepsSessions) ⟨h₀, fun t ht => (List.not_mem_nil ht).elim⟩ (fun hs _ hi => ⟨?_, ?_⟩) h
    · obtain ⟨hv, hr⟩ := hi
      cases hs with
      | start i ht =>
        rw [startedCalls_seen]
        exact MemoryCall.first_turn hv ht
      | answer hop he => exact ((hr _ (Async.mem_middle.mpr (Or.inl rfl))).1.effect he).trans hv
      | resume ht =>
        rw [startedCalls_seen]
        exact (turn_keepsSessions (hr _ (Async.mem_middle.mpr (Or.inl rfl))) ht).trans hv
      | other ho => exact ho.elim
    · exact hs.tasks hi.2 (fun i _ _ _ ht => MemoryCall.rest_keepsSessions ht) (fun _ _ _ _ a _ hk _ _ => hk.2 a)
        fun _ _ _ _ _ _ hp ht => ht.every hp
  exact hinv.1

end Loop

end KeyManager

end Chhaya
