import Chhaya.Relay.Swarm

/-!
# The locks of the swarm relay

Handlers run beside each other and wait for locks.

- `handler_follows`: a handler has the locks that it needs, takes the one of the map first, and gives back what it took.
- `Locked.step`: how many have a lock is what the lock says.
- `unblocked`: as long as handlers run, one of them does not wait, or waits for a lock that nobody has.
- `drains`: all handlers can end.
-/

namespace Chhaya

namespace Swarm

open Async (Pool Task Stands Runs)

/-! ## The order of the locks -/

/-- What a handler holds, what it has taken from the map and not from the counter, and how many locks it may still take. -/
structure Place where
  held : LockName → Option Mode := fun _ => none
  owed : Nat := 0
  left : Nat := 3

/-- What a handler may do with what it holds. -/
def Place.May (q : Place) : SwarmOp → Prop
  | .acquire .chunks _ => q.held .chunks = none ∧ q.held .curBytes = none ∧ 0 < q.left
  | .acquire .curBytes _ => q.held .curBytes = none ∧ 0 < q.left
  | .release l m => q.held l = some m
  | .curBytes => q.held .curBytes ≠ none
  | .count => q.held .chunks ≠ none
  | .instant => True
  | .insert _ _ _ | .collect => q.held .chunks = some .write ∧ q.held .curBytes = some .write
  | .fetch _ => q.held .chunks = some .write ∧ q.owed = 0
  | .subtract len => q.held .curBytes = some .write ∧ q.owed = len

/-- The order of what the handlers do. -/
def order : Async.Typestate SwarmOp SwarmAns Empty Place where
  may := Place.May
  next q op a := match op, a with
    | .acquire l m, .ok _ => { q with held := Function.update q.held l (some m), left := q.left - 1 }
    | .release l _, .ok _ => { q with held := Function.update q.held l none }
    | .fetch _, .ok (.expired len) => { q with owed := len }
    | .subtract _, .ok _ => { q with owed := 0 }
    | _, _ => q

/-- A handler that has ended has given everything back. -/
def Ended (_ : Except Empty Response) (q : Place) : Prop := (∀ l, q.held l = none) ∧ q.owed = 0

section

variable {q : Place} {o : SwarmOp} {relay : SwarmRelay} {req : UploadReq} {data : Bytes} {id : String}

theorem ask_follows {f : SwarmAns o → SwarmProg Response} (hm : q.May o)
    (hok : ∀ a, (f a).Follows order Ended (order.next q o (.ok a))) : ((ask o).bind f).Follows order Ended q :=
  Async.Follows.awaits hm (fun e => e.elim) hok

theorem ended {r : Except Empty Response} (h : ∀ l, q.held l = none) (ho : q.owed = 0) : Ended r q := ⟨h, ho⟩

theorem store_follows : (store relay req data).Follows order Ended {} := by
  refine ask_follows ⟨rfl, Nat.succ_pos _⟩ fun _ => ?_
  refine ask_follows (by rintro ⟨⟩) fun cur => ?_
  refine ask_follows rfl fun _ => ?_
  split
  · exact ended (by rintro (_ | _) <;> rfl) rfl
  · refine ask_follows trivial fun _ => ?_
    refine ask_follows ⟨rfl, rfl, Nat.succ_pos _⟩ fun _ => ?_
    refine ask_follows ⟨rfl, Nat.succ_pos _⟩ fun _ => ?_
    refine ask_follows ⟨rfl, rfl⟩ fun _ => ?_
    refine ask_follows rfl fun _ => ?_
    refine ask_follows rfl fun _ => ?_
    exact ended (by rintro (_ | _) <;> rfl) rfl

theorem chunkHandler_follows : (chunkHandler id).Follows order Ended {} := by
  refine ask_follows ⟨rfl, rfl, Nat.succ_pos _⟩ fun _ => ?_
  refine ask_follows ⟨rfl, rfl⟩ fun f => ?_
  cases f with
  | expired len =>
    refine ask_follows ⟨rfl, Nat.succ_pos _⟩ fun _ => ?_
    refine ask_follows ⟨rfl, rfl⟩ fun _ => ?_
    refine ask_follows rfl fun _ => ?_
    refine ask_follows rfl fun _ => ?_
    exact ended (by rintro (_ | _) <;> rfl) rfl
  | found c =>
    refine ask_follows rfl fun _ => ?_
    exact ended (by rintro (_ | _) <;> rfl) rfl
  | missing =>
    refine ask_follows rfl fun _ => ?_
    exact ended (by rintro (_ | _) <;> rfl) rfl

theorem gcHandler_follows : gcHandler.Follows order Ended {} := by
  refine ask_follows ⟨rfl, rfl, Nat.succ_pos _⟩ fun _ => ?_
  refine ask_follows ⟨rfl, Nat.succ_pos _⟩ fun _ => ?_
  refine ask_follows ⟨rfl, rfl⟩ fun _ => ?_
  refine ask_follows rfl fun _ => ?_
  refine ask_follows rfl fun _ => ?_
  exact ended (by rintro (_ | _) <;> rfl) rfl

theorem healthHandler_follows : (healthHandler relay).Follows order Ended {} := by
  refine ask_follows ⟨rfl, rfl, Nat.succ_pos _⟩ fun _ => ?_
  refine ask_follows (by rintro ⟨⟩) fun _ => ?_
  refine ask_follows rfl fun _ => ?_
  refine ask_follows ⟨rfl, Nat.succ_pos _⟩ fun _ => ?_
  refine ask_follows (by rintro ⟨⟩) fun _ => ?_
  refine ask_follows rfl fun _ => ?_
  refine ask_follows trivial fun _ => ?_
  exact ended (by rintro (_ | _) <;> rfl) rfl

/-- Every handler keeps to the order. -/
theorem handler_follows (req : Request) : (handler relay req).Follows order Ended {} := by
  cases req with
  | upload req =>
    show (uploadHandler relay req).Follows order Ended {}
    unfold uploadHandler
    split
    · exact store_follows
    · exact ended (fun _ => rfl) rfl
  | chunk id => exact chunkHandler_follows
  | gc => exact gcHandler_follows
  | health => exact healthHandler_follows

end

/-! ## Who has a lock -/

/-- So many have the lock in the mode. -/
def holders (qs : List Place) (l : LockName) (m : Mode) : Nat := qs.countP fun q => q.held l = some m

/-- The locks know who has them. -/
structure Locked (s : RelayState) (qs : List Place) : Prop where
  readers : ∀ l, (s.locks l).readers = holders qs l .read
  writer : ∀ l, (s.locks l).writer.toNat = holders qs l .write
  exclusive : ∀ l, (s.locks l).writer = true → (s.locks l).readers = 0

section

variable {s s' : RelayState} {qs rs : List Place} {q q' : Place} {l : LockName} {m : Mode}

theorem holders_middle (qs rs : List Place) (q : Place) (l : LockName) (m : Mode) :
    holders (qs ++ q :: rs) l m = holders (qs ++ rs) l m + if q.held l = some m then 1 else 0 := by
  simp only [holders, List.countP_append, List.countP_cons, decide_eq_true_eq]
  omega

theorem holders_of_none (h : q.held l = none) : holders (qs ++ q :: rs) l m = holders (qs ++ rs) l m := by
  rw [holders_middle, h]
  rfl

/-- A handler that holds nothing does not matter. -/
theorem locked_idle (h : ∀ l, q.held l = none) : Locked s (qs ++ q :: rs) ↔ Locked s (qs ++ rs) := by
  have hh : ∀ l m, holders (qs ++ q :: rs) l m = holders (qs ++ rs) l m := fun l m => holders_of_none (h l)
  constructor
  · intro hl
    exact ⟨fun l => (hl.readers l).trans (hh l _), fun l => (hl.writer l).trans (hh l _), hl.exclusive⟩
  · intro hl
    exact ⟨fun l => (hl.readers l).trans (hh l _).symm, fun l => (hl.writer l).trans (hh l _).symm, hl.exclusive⟩

/-- What is not about locks leaves them alone. -/
theorem Locked.same (h : Locked s (qs ++ q :: rs)) (hs : s'.locks = s.locks) (hq : q'.held = q.held) :
    Locked s' (qs ++ q' :: rs) := by
  have hh : ∀ l m, holders (qs ++ q' :: rs) l m = holders (qs ++ q :: rs) l m := by
    intro l m
    rw [holders_middle, holders_middle, hq]
  refine ⟨fun l => ?_, fun l => ?_, fun l => ?_⟩
  · rw [hs, hh, h.readers]
  · rw [hs, hh, h.writer]
  · rw [hs]
    exact h.exclusive l

/-- A lock that nobody has is free. -/
theorem Locked.free (h : Locked s qs) (hq : ∀ q ∈ qs, q.held l = none) : (s.locks l).Free := by
  have hzero : ∀ m, holders qs l m = 0 := by
    intro m
    refine List.countP_eq_zero.mpr fun q hm => ?_
    rw [hq q hm]
    simp
  have hw := h.writer l
  rw [hzero] at hw
  refine ⟨(h.readers l).trans (hzero _), ?_⟩
  cases hb : (s.locks l).writer with
  | false => rfl
  | true =>
    rw [hb] at hw
    cases hw

/-! ## What a handler does to the locks -/

theorem RelayState.foldl_subtract_locks (l : List Nat) (s : RelayState) : (l.foldl subtract s).locks = s.locks := by
  induction l generalizing s with
  | nil => rfl
  | cons n l ih => exact ih (s.subtract n)

/-- What is not about locks. -/
theorem exec_locks {op : SwarmOp} {a : Except Empty (SwarmAns op)} (he : exec op s = (a, s'))
    (ha : ∀ l m, op ≠ .acquire l m) (hr : ∀ l m, op ≠ .release l m) :
    s'.locks = s.locks ∧ (order.next q op a).held = q.held := by
  cases op with
  | acquire l m => exact absurd rfl (ha l m)
  | release l m => exact absurd rfl (hr l m)
  | curBytes | count | instant | insert | subtract =>
    cases he
    exact ⟨rfl, rfl⟩
  | fetch id =>
    rcases RelayState.fetch_cases s id with ⟨-, hf⟩ | ⟨c, -, hf⟩ | ⟨c, -, hf⟩ <;> rw [exec, hf] at he <;> cases he <;>
      exact ⟨rfl, rfl⟩
  | collect =>
    cases he
    exact ⟨RelayState.foldl_subtract_locks _ s, rfl⟩

/-- A handler changes what it holds of one lock, and the lock changes with it. -/
theorem Locked.change (h : Locked s (qs ++ q :: rs)) {o : Option Mode} {v : RwLock}
    (hq : q'.held = Function.update q.held l o)
    (hv : ∀ n w, (s.locks l).readers = n + (if q.held l = some .read then 1 else 0) →
      (s.locks l).writer.toNat = w + (if q.held l = some .write then 1 else 0) →
      v.readers = n + (if o = some .read then 1 else 0) ∧ v.writer.toNat = w + (if o = some .write then 1 else 0) ∧
        (v.writer = true → v.readers = 0)) :
    Locked { s with locks := Function.update s.locks l v } (qs ++ q' :: rs) := by
  have hreaders := h.readers l
  have hwriter := h.writer l
  rw [holders_middle] at hreaders hwriter
  obtain ⟨h1, h2, h3⟩ := hv _ _ hreaders hwriter
  have hthis : ∀ j, holders (qs ++ q' :: rs) l j = holders (qs ++ rs) l j + if o = some j then 1 else 0 := by
    intro j
    rw [holders_middle, hq, Function.update_self]
  have hsame : ∀ k, k ≠ l → ∀ j, holders (qs ++ q' :: rs) k j = holders (qs ++ q :: rs) k j := by
    intro k hk j
    rw [holders_middle, holders_middle, hq, Function.update_of_ne hk]
  refine ⟨fun k => ?_, fun k => ?_, fun k => ?_⟩ <;> by_cases hk : k = l
  all_goals dsimp only
  · subst hk
    rw [Function.update_self, hthis, h1]
  · rw [Function.update_of_ne hk, hsame k hk, h.readers]
  · subst hk
    rw [Function.update_self, hthis, h2]
  · rw [Function.update_of_ne hk, hsame k hk, h.writer]
  · subst hk
    rw [Function.update_self]
    exact h3
  · rw [Function.update_of_ne hk]
    exact h.exclusive k

/-- A lock that is granted. -/
theorem Locked.take (h : Locked s (qs ++ q :: rs)) (hq : q.held l = none) (ha : (s.locks l).Admits m)
    (hq' : q'.held = Function.update q.held l (some m)) :
    Locked { s with locks := Function.update s.locks l ((s.locks l).take m) } (qs ++ q' :: rs) := by
  refine h.change hq' fun n w hn hw => ?_
  rw [hq] at hn hw
  cases m with
  | read =>
    have hwriter : (s.locks l).writer = false := ha
    refine ⟨congrArg (· + 1) hn, hw, fun hb => ?_⟩
    rw [show ((s.locks l).take .read).writer = false from hwriter] at hb
    cases hb
  | write =>
    rw [ha.2] at hw
    exact ⟨hn, congrArg (· + 1) hw, fun _ => ha.1⟩

/-- A lock that is given back. -/
theorem Locked.drop (h : Locked s (qs ++ q :: rs)) (hq : q.held l = some m)
    (hq' : q'.held = Function.update q.held l none) :
    Locked { s with locks := Function.update s.locks l ((s.locks l).drop m) } (qs ++ q' :: rs) := by
  have hexclusive := h.exclusive l
  refine h.change hq' fun n w hn hw => ?_
  rw [hq] at hn hw
  cases m with
  | read =>
    have hn : (s.locks l).readers = n + 1 := hn
    refine ⟨?_, hw, fun hb => ?_⟩
    · show (s.locks l).readers - 1 = n
      omega
    · show (s.locks l).readers - 1 = 0
      rw [hexclusive hb]
  | write =>
    have hw : (s.locks l).writer.toNat = w + 1 := hw
    have hle := Bool.toNat_le (s.locks l).writer
    refine ⟨hn, ?_, by rintro ⟨⟩⟩
    show 0 = w
    omega

/-- Every operation that a handler may do keeps the locks right. -/
theorem Locked.step {op : SwarmOp} {a : Except Empty (SwarmAns op)} (hm : q.May op) (he : Effect s op a s')
    (h : Locked s (qs ++ q :: rs)) : Locked s' (qs ++ order.next q op a :: rs) := by
  by_cases ha : ∃ l m, op = .acquire l m
  · obtain ⟨l, m, rfl⟩ := ha
    obtain ⟨hadmitted, hexec⟩ := he
    cases hexec
    have hq : q.held l = none := by
      cases l with
      | chunks => exact hm.1
      | curBytes => exact hm.1
    exact h.take hq hadmitted rfl
  · by_cases hr : ∃ l m, op = .release l m
    · obtain ⟨l, m, rfl⟩ := hr
      cases he.2
      exact h.drop hm rfl
    · obtain ⟨hs, hq⟩ := exec_locks (q := q) he.2 (fun l m hop => ha ⟨l, m, hop⟩) (fun l m hop => hr ⟨l, m, hop⟩)
      exact h.same hs hq

/-- Time does not matter. -/
theorem Locked.waits (h : Locked s qs) (hw : Waits s s') : Locked s' qs := by
  cases hw
  exact ⟨h.readers, h.writer, h.exclusive⟩

/-! ## Handlers that run alone -/

/-- Nobody holds a lock. -/
def Idle (s : RelayState) : Prop := ∀ l, (s.locks l).Free

theorem idle_iff : Idle s ↔ Locked s [] := by
  constructor
  · intro h
    refine ⟨fun l => (h l).1, fun l => ?_, fun l _ => (h l).1⟩
    rw [(h l).2]
    rfl
  · exact fun h l => h.free fun q hq => (List.not_mem_nil hq).elim

/-- A handler that has run alone leaves no lock behind. -/
theorem Idle.handler {relay : SwarmRelay} {req : Request} {r : Except Empty Response} (h : Idle s)
    (hr : Runs Effect (handler relay req) s (some r) s') : Idle s' := by
  have hstart : Locked s ([] ++ ({} : Place) :: []) := (locked_idle fun _ => rfl).mpr (idle_iff.mp h)
  obtain ⟨q, hq, hl⟩ := hr.follows (J := fun q s => Locked s ([] ++ q :: [])) Locked.step (handler_follows req) hstart
  exact idle_iff.mpr ((locked_idle hq.1).mp hl)

end

/-! ## Handlers that run beside each other -/

section

variable {relay : SwarmRelay} {eff : RelayState → (op : SwarmOp) → Except Empty (SwarmAns op) → RelayState → Prop}
  {ok : Pool Request SwarmOp SwarmAns Empty Response RelayState → Pool Request SwarmOp SwarmAns Empty Response RelayState → Prop}
  {c : Pool Request SwarmOp SwarmAns Empty Response RelayState} {qs : List Place}

/-- A handler that starts holds nothing. -/
theorem Locked.start {s : RelayState} (h : Locked s qs) : Locked s ({} :: qs) := by
  have hnil : Locked s ([] ++ ({} : Place) :: qs) ↔ Locked s ([] ++ qs) := locked_idle fun _ => rfl
  exact hnil.mpr h

/-- The locks are right in every run. -/
theorem reachable_locked (heff : ∀ {s op a s'}, eff s op a s' → Effect s op a s')
    (h : Async.Loop.Reachable eff SwarmOp.Sync (handler relay) Waits ok {} c) :
    ∃ qs, Stands order Ended c qs ∧ Locked c.state qs :=
  Async.Loop.reachable_follows (I := Locked) (R := fun _ _ => True) (G := fun _ _ => True) handler_follows
    (fun _ => trivial) (fun _ => trivial) (fun _ _ => trivial) (fun _ _ _ => trivial)
    Locked.start
    (fun hp hl => (locked_idle hp.1).mp hl) (fun hm he _ _ _ hl => hl.step hm (heff he))
    (fun hw _ hl => hl.waits hw) (idle_iff.mp fun _ => ⟨rfl, rfl⟩) h

/-- No handler runs, or one of them does not wait, or waits for a lock that nobody has: whichever of those that wait for
the lock comes first, one of them gets it. -/
def Unblocked (c : Pool Request SwarmOp SwarmAns Empty Response RelayState) : Prop :=
  c.running = [] ∨ ∃ t ∈ c.running, ∀ l m k, t.rest = .call (.acquire l m) k → (c.state.locks l).Free

/-- What waits for a lock does not have the counter, and what waits for the map has nothing. -/
theorem may_acquire {q : Place} {l : LockName} {m : Mode} (h : q.May (.acquire l m)) :
    q.held .curBytes = none ∧ q.held l = none := by
  cases l with
  | chunks => exact ⟨h.2.1, h.1⟩
  | curBytes => exact ⟨h.1, h.1⟩

/-- Handlers do not block each other. -/
theorem unblocked (hqs : Stands order Ended c qs) (hl : Locked c.state qs) : Unblocked c := by
  rcases hc : c.running with _ | ⟨t₀, ts⟩
  · exact Or.inl hc
  · by_cases hwait : ∀ t ∈ c.running, ∃ l m k, t.rest = .call (.acquire l m) k
    · have hcounter : ∀ q ∈ qs, q.held .curBytes = none := by
        intro q hq
        obtain ⟨t, ht, hf⟩ := Async.forall₂_mem_right hqs q hq
        obtain ⟨l, m, k, hk⟩ := hwait t ht
        rw [hk] at hf
        exact (may_acquire hf.1).1
      by_cases hmap : ∃ t ∈ c.running, ∃ m k, t.rest = .call (.acquire .curBytes m) k
      · obtain ⟨t, ht, m, k, hk⟩ := hmap
        refine Or.inr ⟨t, ht, fun l m' k' hk' => ?_⟩
        rw [hk] at hk'
        cases hk'
        exact hl.free hcounter
      · have hchunks : ∀ q ∈ qs, q.held .chunks = none := by
          intro q hq
          obtain ⟨t, ht, hf⟩ := Async.forall₂_mem_right hqs q hq
          obtain ⟨l, m, k, hk⟩ := hwait t ht
          cases l with
          | chunks =>
            rw [hk] at hf
            have hm : q.May (.acquire .chunks m) := hf.1
            exact (may_acquire hm).2
          | curBytes => exact absurd ⟨t, ht, m, k, hk⟩ hmap
        refine Or.inr ⟨t₀, by rw [hc]; exact List.mem_cons_self, fun l m k hk => ?_⟩
        cases l with
        | chunks => exact hl.free hchunks
        | curBytes => exact hl.free hcounter
    · obtain ⟨t, ht⟩ := not_forall.mp hwait
      obtain ⟨htm, hno⟩ := Classical.not_imp.mp ht
      exact Or.inr ⟨t, htm, fun l m k hk => absurd ⟨l, m, k, hk⟩ hno⟩

theorem RwLock.Free.admits {l : RwLock} (h : l.Free) (m : Mode) : l.Admits m := by
  cases m with
  | read => exact h.2
  | write => exact h

theorem left_next {q : Place} {op : SwarmOp} (a : Except Empty (SwarmAns op)) (hm : q.May op) :
    (order.next q op a).left ≤ q.left ∧ (¬op.Sync → (order.next q op a).left < q.left) := by
  rcases a with e | a
  · exact e.elim
  · cases op with
    | acquire l m =>
      have hpos : 0 < q.left := by
        cases l with
        | chunks => exact hm.2.2
        | curBytes => exact hm.2
      exact ⟨Nat.sub_le _ _, fun _ => Nat.sub_lt hpos Nat.one_pos⟩
    | fetch id => cases a <;> exact ⟨le_rfl, fun h => absurd trivial h⟩
    | release | curBytes | count | instant | insert | subtract | collect => exact ⟨le_rfl, fun h => absurd trivial h⟩

/-- All handlers can end. -/
theorem drains (hqs : Stands order Ended c qs) (hl : Locked c.state qs) :
    Async.Loop.Drains Effect SwarmOp.Sync (handler relay) c := by
  refine Async.Loop.drains (I := Locked) Place.left (fun s op hop => ?_) (fun a hm => (left_next a hm).1)
    (fun a hm hop => (left_next a hm).2 hop) (fun hm he hl => hl.step hm he) (fun hp hl => (locked_idle hp.1).mp hl)
    (fun hqs hl hw hne => ?_) hqs hl
  · refine ⟨_, _, ?_, rfl⟩
    cases op with
    | acquire l m => exact hop.elim
    | release | curBytes | count | instant | insert | fetch | subtract | collect => trivial
  · rcases unblocked hqs hl with hnil | ⟨t, ht, hfree⟩
    · exact absurd hnil hne
    · obtain ⟨op, k, hk, hop⟩ := hw t ht
      cases op with
      | acquire l m => exact ⟨t, ht, _, k, _, _, hk, (hfree l m k hk).admits m, rfl⟩
      | release | curBytes | count | instant | insert | fetch | subtract | collect => exact absurd trivial hop

end

end Swarm

end Chhaya
