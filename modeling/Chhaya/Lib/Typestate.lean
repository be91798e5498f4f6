import Chhaya.Lib.EventLoop

/-!
# Typestates of programs

A typestate says which calls a program may make next, and where a call with its answer leads. It is the part of a program
that others have to know of: while programs run beside each other, each of them stands somewhere in its typestate, and an
invariant relates the state to where they stand.

- `Follows.bind`, `Follows.attempt`, `Follows.awaits`: the rules of sequences, of `try` and of one call.
- `Follows.restrict`: what is known of every call is added to the typestate.
- `Turn.follows`, `Runs.follows`: what a turn and a run keep of the program and of the invariant.
- `Loop.reachable_logged`, `Loop.reachable_follows`: what every single call keeps, programs that follow their typestate
  keep in every run.
- `Loop.drains`: programs of which one can always go on can all end, where each waits only a bounded number of times.
-/

namespace Async

variable {Op : Type} {Ans : Op → Type} {ε α γ σ ι Q : Type}

/-- What may be called next, and where a call and its answer lead. -/
structure Typestate (Op : Type) (Ans : Op → Type) (ε Q : Type) where
  may : Q → Op → Prop
  next : Q → (op : Op) → Except ε (Ans op) → Q

variable (T : Typestate Op Ans ε Q)

/-- The program makes only calls that it may make, and what it returns or throws satisfies `post` where it ends. -/
def Follows (post : Except ε α → Q → Prop) : Async Op Ans ε α → Q → Prop
  | done a, q => post (.ok a) q
  | throw e, q => post (.error e) q
  | call op k, q => T.may q op ∧ ∀ a, (k a).Follows post (T.next q op a)

section Rules

variable {T} {post post' : Except ε α → Q → Prop} {p : Async Op Ans ε α} {q : Q}

theorem Follows.mono (h : p.Follows T post q) (hpost : ∀ r q, post r q → post' r q) : p.Follows T post' q := by
  induction p generalizing q with
  | done a => exact hpost _ _ h
  | throw e => exact hpost _ _ h
  | call op k ih => exact ⟨h.1, fun a => ih a (h.2 a)⟩

/-- The rule of sequences. -/
theorem Follows.bind {f : α → Async Op Ans ε γ} {post : Except ε γ → Q → Prop}
    (h : p.Follows T (fun r q => match r with
      | .ok a => (f a).Follows T post q
      | .error e => post (.error e) q) q) : (p.bind f).Follows T post q := by
  induction p generalizing q with
  | done a => exact h
  | throw e => exact h
  | call op k ih => exact ⟨h.1, fun a => ih a (h.2 a)⟩

/-- The rule of `try`. -/
theorem Follows.attempt {post : Except ε (Except ε α) → Q → Prop} (h : p.Follows T (fun r q => post (.ok r) q) q) :
    p.attempt.Follows T post q := by
  induction p generalizing q with
  | done a => exact h
  | throw e => exact h
  | call op k ih => exact ⟨h.1, fun a => ih a (h.2 a)⟩

/-- The rule of one call. -/
theorem Follows.await {op : Op} {post : Except ε (Ans op) → Q → Prop} (hm : T.may q op)
    (h : ∀ a, post a (T.next q op a)) : (await op : Async Op Ans ε (Ans op)).Follows T post q := by
  refine ⟨hm, fun a => ?_⟩
  cases a <;> exact h _

/-- The rule of one call and what follows it. -/
theorem Follows.awaits {op : Op} {f : Ans op → Async Op Ans ε α} (hm : T.may q op)
    (he : ∀ e, post (.error e) (T.next q op (.error e))) (hok : ∀ a, (f a).Follows T post (T.next q op (.ok a))) :
    ((Async.await op).bind f).Follows T post q := by
  refine Follows.bind (Follows.await hm fun a => ?_)
  cases a with
  | error e => exact he e
  | ok a => exact hok a

/-- A typestate whose calls satisfy `φ` besides. -/
def Typestate.restrict (T : Typestate Op Ans ε Q) (φ : Op → Prop) : Typestate Op Ans ε Q :=
  { T with may := fun q op => T.may q op ∧ φ op }

/-- Where every call satisfies `φ`, a program keeps to what is restricted to such calls. -/
theorem Follows.restrict {φ : Op → Prop} (h : p.Follows T post q) (hp : p.Every φ) : p.Follows (T.restrict φ) post q := by
  induction p generalizing q with
  | done a => exact h
  | throw e => exact h
  | call op k ih => exact ⟨⟨h.1, hp.1⟩, fun a => ih a (h.2 a) (hp.2 a)⟩

/-- What is already there. -/
theorem Follows.ofExcept {r : Except ε α} (h : post r q) : (ofExcept r : Async Op Ans ε α).Follows T post q := by
  cases r <;> exact h

end Rules

/-! ## Programs on the loop -/

section Loop

variable {T} {eff : σ → (op : Op) → Except ε (Ans op) → σ → Prop} {sync : Op → Prop} {body : ι → Async Op Ans ε α}
  {other : σ → σ → Prop} {ok : Pool ι Op Ans ε α σ → Pool ι Op Ans ε α σ → Prop} {post : Except ε α → Q → Prop}

/-- What every call keeps, a turn keeps, and the program goes on from where it has come. -/
theorem Turn.follows {J : Q → σ → Prop} {p p' : Async Op Ans ε α} {s s' : σ} {q : Q}
    (hstep : ∀ {q op a s s'}, T.may q op → eff s op a s' → J q s → J (T.next q op a) s')
    (ht : Turn eff sync p s p' s') (hf : p.Follows T post q) (hj : J q s) : ∃ q', p'.Follows T post q' ∧ J q' s' := by
  induction ht generalizing q with
  | done a s => exact ⟨q, hf, hj⟩
  | throw e s => exact ⟨q, hf, hj⟩
  | awaits k s h => exact ⟨q, hf, hj⟩
  | sync _ he _ ih => exact ih (hf.2 _) (hstep hf.1 he hj)

/-- What every call keeps, a program that runs alone keeps. -/
theorem Runs.follows {J : Q → σ → Prop} {p : Async Op Ans ε α} {s s' : σ} {r : Except ε α} {q : Q}
    (hstep : ∀ {q op a s s'}, T.may q op → eff s op a s' → J q s → J (T.next q op a) s')
    (hr : Runs eff p s (some r) s') (hf : p.Follows T post q) (hj : J q s) : ∃ q', post r q' ∧ J q' s' := by
  generalize hx : some r = x at hr
  induction hr generalizing q with
  | done a s =>
    cases hx
    exact ⟨q, hf, hj⟩
  | throw e s =>
    cases hx
    exact ⟨q, hf, hj⟩
  | call he _ ih => exact ih (hf.2 _) (hstep hf.1 he hj) hx
  | cut p s => cases hx

/-- Where the programs on the loop stand. -/
def Stands (T : Typestate Op Ans ε Q) (post : Except ε α → Q → Prop) (c : Pool ι Op Ans ε α σ) (qs : List Q) : Prop :=
  List.Forall₂ (fun t q => t.rest.Follows T post q) c.running qs

/-- Somewhere in the list stands what its counterpart stands for. -/
theorem forall₂_middle {τ υ : Type} {r : τ → υ → Prop} {x : τ} {xs ys : List τ} {l : List υ}
    (h : List.Forall₂ r (xs ++ x :: ys) l) :
    ∃ us u vs, l = us ++ u :: vs ∧ List.Forall₂ r xs us ∧ r x u ∧ List.Forall₂ r ys vs := by
  induction xs generalizing l with
  | nil =>
    obtain ⟨u, vs, h1, h2, rfl⟩ := List.forall₂_cons_left_iff.mp h
    exact ⟨[], u, vs, rfl, .nil, h1, h2⟩
  | cons y xs ih =>
    obtain ⟨w, l, h1, h2, rfl⟩ := List.forall₂_cons_left_iff.mp h
    obtain ⟨us, u, vs, rfl, h3, h4, h5⟩ := ih h2
    exact ⟨w :: us, u, vs, rfl, .cons h1 h3, h4, h5⟩

/-- Every place in the one list has its counterpart in the other. -/
theorem forall₂_mem_right {τ υ : Type} {r : τ → υ → Prop} {xs : List τ} {us : List υ} (h : List.Forall₂ r xs us) :
    ∀ u ∈ us, ∃ x ∈ xs, r x u := by
  induction h with
  | nil => exact fun u hu => (List.not_mem_nil hu).elim
  | @cons x w _ _ h _ ih =>
    intro u hu
    rcases List.mem_cons.mp hu with rfl | hu
    · exact ⟨x, List.mem_cons_self, h⟩
    · obtain ⟨y, hy, hr⟩ := ih u hu
      exact ⟨y, List.mem_cons_of_mem _ hy, hr⟩

/-- A program that goes on keeps its place, and one that has ended leaves it. -/
theorem Stands.turned {I : List Q → Prop} {s : σ} {ts us : List (Task ι Op Ans ε α)} {t : Task ι Op Ans ε α} {n : Nat}
    {es : List (Event ι ε α)} {qs rs : List Q} {q : Q} (hend : ∀ {r q qs rs}, post r q → I (qs ++ q :: rs) → I (qs ++ rs))
    (hts : Stands T post ⟨s, ts, n, es⟩ qs) (hus : Stands T post ⟨s, us, n, es⟩ rs) (ht : t.rest.Follows T post q)
    (hi : I (qs ++ q :: rs)) : ∃ qs', Stands T post ⟨s, ts ++ (t.kept ++ us), n, es⟩ qs' ∧ I qs' := by
  obtain ⟨m, i, p⟩ := t
  cases p with
  | done a => exact ⟨qs ++ rs, List.rel_append hts hus, hend ht hi⟩
  | throw e => exact ⟨qs ++ rs, List.rel_append hts hus, hend ht hi⟩
  | call op k => exact ⟨qs ++ q :: rs, List.rel_append hts (.cons ht hus), hi⟩

/-- Where the programs on the loop stand, when what holds of a program at its end depends on what was called. -/
def Placed (T : Typestate Op Ans ε Q) (ends : ι → Except ε α → Q → Prop) (c : Pool ι Op Ans ε α σ) (qs : List Q) : Prop :=
  List.Forall₂ (fun t q => t.rest.Follows T (ends t.call) q) c.running qs

/-- A program that goes on keeps its place, and one that has ended leaves it and is seen to end. -/
theorem Placed.turned {ends : ι → Except ε α → Q → Prop} {I : List Q → List (Event ι ε α) → Prop} {s : σ}
    {ts us : List (Task ι Op Ans ε α)} {t : Task ι Op Ans ε α} {n : Nat} {es es' : List (Event ι ε α)} {qs rs : List Q}
    {q : Q} (hend : ∀ {n i r q qs rs es}, ends i r q → I (qs ++ q :: rs) es → I (qs ++ rs) (.ended n i r :: es))
    (hts : Placed T ends ⟨s, ts, n, es'⟩ qs) (hus : Placed T ends ⟨s, us, n, es'⟩ rs)
    (ht : t.rest.Follows T (ends t.call) q) (hi : I (qs ++ q :: rs) es) :
    ∃ qs', Placed T ends ⟨s, ts ++ (t.kept ++ us), n, es'⟩ qs' ∧ I qs' (t.seen ++ es) := by
  obtain ⟨m, i, p⟩ := t
  cases p with
  | done a => exact ⟨qs ++ rs, List.rel_append hts hus, hend ht hi⟩
  | throw e => exact ⟨qs ++ rs, List.rel_append hts hus, hend ht hi⟩
  | call op k => exact ⟨qs ++ q :: rs, List.rel_append hts (.cons ht hus), hi⟩

/-- What every single call keeps, programs that follow their typestate keep in every run, also when it is about what is
seen of them. `R` is what may become of a state, and `G` what is known of the states in one step. -/
theorem Loop.reachable_logged {ends : ι → Except ε α → Q → Prop} {I : σ → List Q → List (Event ι ε α) → Prop}
    {R : σ → σ → Prop} {G : Pool ι Op Ans ε α σ → σ → Prop} {start : ι → Q}
    (hbody : ∀ i, (body i).Follows T (ends i) (start i)) (hok : ∀ {c c'}, ok c c' → G c c'.state) (hrefl : ∀ s, R s s)
    (heff : ∀ {s₀ s op a s'}, eff s op a s' → R s₀ s → R s₀ s')
    (hG : ∀ {c s op a s'}, eff s op a s' → R c.state s → G c s' → G c s)
    (hstart : ∀ {s qs es n i}, I s qs es → I s (start i :: qs) (.started n i :: es))
    (hend : ∀ {s n i r q qs rs es}, ends i r q → I s (qs ++ q :: rs) es → I s (qs ++ rs) (.ended n i r :: es))
    (hstep : ∀ {c q op a s s' qs rs es}, T.may q op → eff s op a s' → R c.state s → G c s' →
      (∀ u ∈ qs ++ rs, ∃ t ∈ c.running, t.rest.Follows T (ends t.call) u) → I s (qs ++ q :: rs) es →
      I s' (qs ++ T.next q op a :: rs) es)
    (hother : ∀ {c s s' qs es}, other s s' → G c s' → I s qs es → I s' qs es) {s₀ : σ} (h₀ : I s₀ [] [])
    {c : Pool ι Op Ans ε α σ} (h : Loop.Reachable eff sync body other ok s₀ c) :
    ∃ qs, Placed T ends c qs ∧ I c.state qs c.log := by
  have hcall : ∀ (c : Pool ι Op Ans ε α σ) {qs rs : List Q} {q op a s s' es},
      (∀ u ∈ qs ++ rs, ∃ t ∈ c.running, t.rest.Follows T (ends t.call) u) → T.may q op → eff s op a s' →
      R c.state s ∧ (G c s → I s (qs ++ q :: rs) es) → R c.state s' ∧ (G c s' → I s' (qs ++ T.next q op a :: rs) es) :=
    fun c _ _ _ _ _ _ _ _ hu hm he hj => ⟨heff he hj.1, fun hg => hstep hm he hj.1 hg hu (hj.2 (hG he hj.1 hg))⟩
  refine Loop.reachable_inv (fun c => ∃ qs, Placed T ends c qs ∧ I c.state qs c.log) ⟨[], .nil, h₀⟩
    (fun hs hk hi => ?_) h
  cases hs with
  | @start s s' ts n es p i ht =>
    obtain ⟨qs, hqs, hi⟩ := hi
    have hothers : ∀ u ∈ [] ++ qs, ∃ t ∈ ts, t.rest.Follows T (ends t.call) u := forall₂_mem_right hqs
    obtain ⟨q', hq', -, hj⟩ := ht.follows
      (J := fun q s' => R s s' ∧ (G ⟨s, ts, n, es⟩ s' → I s' ([] ++ q :: qs) (.started n i :: es)))
      (hcall ⟨s, ts, n, es⟩ hothers) (hbody i) ⟨hrefl s, fun _ => hstart hi⟩
    have hnil : Placed T ends (⟨s', [], n, es⟩ : Pool ι Op Ans ε α σ) [] := .nil
    exact Placed.turned (t := ⟨n, i, p⟩) (I := I s') hend hnil hqs hq' (hj (hok hk))
  | @answer s s' m i op k a ts us n es hop he =>
    obtain ⟨qs, hqs, hi⟩ := hi
    obtain ⟨rs, q, ws, rfl, h1, h2, h3⟩ := forall₂_middle hqs
    have hothers := fun u hu => forall₂_mem_right hqs u (mem_middle.mpr (Or.inr hu))
    exact ⟨rs ++ T.next q op a :: ws, List.rel_append h1 (.cons (h2.2 a) h3),
      (hcall ⟨s, ts ++ ⟨m, i, .call op k⟩ :: us, n, es⟩ hothers h2.1 he ⟨hrefl s, fun _ => hi⟩).2 (hok hk)⟩
  | @resume s s' m i p p' ts us n es ht =>
    obtain ⟨qs, hqs, hi⟩ := hi
    obtain ⟨rs, q, ws, rfl, h1, h2, h3⟩ := forall₂_middle hqs
    have hothers := fun u hu => forall₂_mem_right hqs u (mem_middle.mpr (Or.inr hu))
    obtain ⟨q', hq', -, hj⟩ := ht.follows
      (J := fun q s' => R s s' ∧ (G ⟨s, ts ++ ⟨m, i, p⟩ :: us, n, es⟩ s' → I s' (rs ++ q :: ws) es))
      (hcall ⟨s, ts ++ ⟨m, i, p⟩ :: us, n, es⟩ hothers) h2 ⟨hrefl s, fun _ => hi⟩
    exact Placed.turned (t := ⟨m, i, p'⟩) (I := I s') hend h1 h3 hq' (hj (hok hk))
  | other ho =>
    obtain ⟨qs, hqs, hi⟩ := hi
    exact ⟨qs, hqs, hother ho (hok hk) hi⟩

/-- The same of a state and the places alone. -/
theorem Loop.reachable_follows {I : σ → List Q → Prop} {R : σ → σ → Prop} {G : Pool ι Op Ans ε α σ → σ → Prop} {start : Q}
    (hbody : ∀ i, (body i).Follows T post start) (hok : ∀ {c c'}, ok c c' → G c c'.state) (hrefl : ∀ s, R s s)
    (heff : ∀ {s₀ s op a s'}, eff s op a s' → R s₀ s → R s₀ s')
    (hG : ∀ {c s op a s'}, eff s op a s' → R c.state s → G c s' → G c s) (hstart : ∀ {s qs}, I s qs → I s (start :: qs))
    (hend : ∀ {s r q qs rs}, post r q → I s (qs ++ q :: rs) → I s (qs ++ rs))
    (hstep : ∀ {c q op a s s' qs rs}, T.may q op → eff s op a s' → R c.state s → G c s' →
      (∀ u ∈ qs ++ rs, ∃ t ∈ c.running, t.rest.Follows T post u) → I s (qs ++ q :: rs) → I s' (qs ++ T.next q op a :: rs))
    (hother : ∀ {c s s' qs}, other s s' → G c s' → I s qs → I s' qs) {s₀ : σ} (h₀ : I s₀ [])
    {c : Pool ι Op Ans ε α σ} (h : Loop.Reachable eff sync body other ok s₀ c) :
    ∃ qs, Stands T post c qs ∧ I c.state qs :=
  Loop.reachable_logged (I := fun s qs _ => I s qs) (R := R) (G := G) hbody hok hrefl heff hG hstart hend hstep hother
    h₀ h

/-! ## Running empty -/

/-- A step of a program that is on the loop. -/
def Loop.Moves (eff : σ → (op : Op) → Except ε (Ans op) → σ → Prop) (sync : Op → Prop) (body : ι → Async Op Ans ε α)
    (c c' : Pool ι Op Ans ε α σ) : Prop := Loop.Step eff sync body (fun _ _ => False) c c' ∧ c'.next = c.next

/-- All programs on the loop can end, while none starts and nothing else changes the state. -/
def Loop.Drains (eff : σ → (op : Op) → Except ε (Ans op) → σ → Prop) (sync : Op → Prop) (body : ι → Async Op Ans ε α)
    (c : Pool ι Op Ans ε α σ) : Prop := ∃ c', Relation.ReflTransGen (Moves eff sync body) c c' ∧ c'.running = []

/-- The program waits for a call. -/
def Waiting (sync : Op → Prop) (t : Task ι Op Ans ε α) : Prop := ∃ op k, t.rest = .call op k ∧ ¬sync op

/-- Where calls of a turn have an effect, there is a turn. -/
theorem Turn.exists (hsync : ∀ s op, sync op → ∃ a s', eff s op a s') (p : Async Op Ans ε α) (s : σ) :
    ∃ p' s', Turn eff sync p s p' s' := by
  induction p generalizing s with
  | done a => exact ⟨_, _, .done a s⟩
  | throw e => exact ⟨_, _, .throw e s⟩
  | call op k ih =>
    by_cases hop : sync op
    · obtain ⟨a, s', he⟩ := hsync s op hop
      obtain ⟨p', s'', ht⟩ := ih a s'
      exact ⟨p', s'', .sync hop he ht⟩
    · exact ⟨_, _, .awaits k s hop⟩

/-- A program that stays on the loop after its turn waits. -/
theorem Turn.waiting {p p' : Async Op Ans ε α} {s s' : σ} (ht : Turn eff sync p s p' s') {m : Nat} {i : ι}
    {t : Task ι Op Ans ε α} (h : t ∈ Task.kept ⟨m, i, p'⟩) : Waiting sync t := by
  obtain ⟨rfl, op, k, hk⟩ := Task.mem_kept h
  refine ⟨op, k, hk, ?_⟩
  induction ht with
  | done a s => cases hk
  | throw e s => cases hk
  | awaits k s hop =>
    cases hk
    exact hop
  | sync _ _ _ ih => exact ih h hk

variable {I : σ → List Q → Prop}

/-- Where one of the programs can always go on, and waits only as often as its place says, all of them can end. -/
theorem Loop.drains (left : Q → Nat) (hsync : ∀ s op, sync op → ∃ a s', eff s op a s')
    (hleft : ∀ {q op} a, T.may q op → left (T.next q op a) ≤ left q)
    (hawait : ∀ {q op} a, T.may q op → ¬sync op → left (T.next q op a) < left q)
    (hstep : ∀ {q op a s s' qs rs}, T.may q op → eff s op a s' → I s (qs ++ q :: rs) → I s' (qs ++ T.next q op a :: rs))
    (hend : ∀ {s r q qs rs}, post r q → I s (qs ++ q :: rs) → I s (qs ++ rs))
    (hgo : ∀ {c : Pool ι Op Ans ε α σ} {qs}, Stands T post c qs → I c.state qs → (∀ t ∈ c.running, Waiting sync t) →
      c.running ≠ [] → ∃ t ∈ c.running, ∃ op k a s', t.rest = .call op k ∧ eff c.state op a s')
    {c : Pool ι Op Ans ε α σ} {qs : List Q} (hqs : Stands T post c qs) (hi : I c.state qs) :
    Loop.Drains eff sync body c := by
  -- Strong induction on the waits that are left; in between, the programs that do not wait have their turns.
  suffices h : ∀ N (us ts : List (Task ι Op Ans ε α)) s n es qs, (∀ t ∈ ts, Waiting sync t) →
      Stands T post ⟨s, ts ++ us, n, es⟩ qs → I s qs ∧ (qs.map left).sum < N →
      Loop.Drains eff sync body (⟨s, ts ++ us, n, es⟩ : Pool ι Op Ans ε α σ) by
    exact h ((qs.map left).sum + 1) c.running [] c.state c.next c.log qs (fun t ht => (List.not_mem_nil ht).elim) hqs
      ⟨hi, Nat.lt_succ_self _⟩
  clear hqs hi c qs
  intro N
  induction N with
  | zero => exact fun _ _ _ _ _ _ _ _ h => absurd h.2 (Nat.not_lt_zero _)
  | succ N ihN =>
    intro us
    induction us with
    | nil =>
      intro ts s n es qs hw hqs hi
      by_cases hts : ts = []
      · exact ⟨_, .refl, by rw [hts]; rfl⟩
      · rw [List.append_nil] at hqs ⊢
        obtain ⟨t, ht, op, k, a, s', hk, he⟩ := hgo hqs hi.1 hw hts
        obtain ⟨m, i, p⟩ := t
        obtain rfl : p = .call op k := hk
        have hop : ¬sync op := by
          obtain ⟨_, _, hcall, hop⟩ := hw _ ht
          cases hcall
          exact hop
        obtain ⟨ts, us, rfl⟩ := List.append_of_mem ht
        obtain ⟨rs, q, ws, rfl, h1, h2, h3⟩ := forall₂_middle hqs
        have hlt := hawait a h2.1 hop
        have hanswer : Stands T post ⟨s', ts ++ ⟨m, i, k a⟩ :: us, n, es⟩ (rs ++ T.next q op a :: ws) :=
          List.rel_append h1 (.cons (h2.2 a) h3)
        obtain ⟨c', hc', hnil⟩ := ihN (ts ++ ⟨m, i, k a⟩ :: us) [] s' n es _ (fun t ht => (List.not_mem_nil ht).elim)
          hanswer ⟨hstep h2.1 he hi.1, by
            simp only [List.map_append, List.map_cons, List.sum_append, List.sum_cons] at hi ⊢
            omega⟩
        exact ⟨c', .head ⟨.answer hop he, rfl⟩ hc', hnil⟩
    | cons t us ihus =>
      intro ts s n es qs hw hqs hi
      obtain ⟨m, i, p⟩ := t
      obtain ⟨rs, q, ws, rfl, h1, h2, h3⟩ := forall₂_middle hqs
      obtain ⟨p', s', ht⟩ := Turn.exists hsync p s
      have hcall : ∀ {q op a s s'}, T.may q op → eff s op a s' →
          I s (rs ++ q :: ws) ∧ ((rs ++ q :: ws).map left).sum < N + 1 →
          I s' (rs ++ T.next q op a :: ws) ∧ ((rs ++ T.next q op a :: ws).map left).sum < N + 1 := by
        intro q op a s s' hm he hj
        have hle := hleft a hm
        refine ⟨hstep hm he hj.1, ?_⟩
        have hsum := hj.2
        simp only [List.map_append, List.map_cons, List.sum_append, List.sum_cons] at hsum ⊢
        omega
      have hleave : ∀ {r q qs rs}, post r q → I s' (qs ++ q :: rs) ∧ ((qs ++ q :: rs).map left).sum < N + 1 →
          I s' (qs ++ rs) ∧ ((qs ++ rs).map left).sum < N + 1 := by
        intro r q qs rs hp hj
        refine ⟨hend hp hj.1, ?_⟩
        have hsum := hj.2
        simp only [List.map_append, List.map_cons, List.sum_append, List.sum_cons] at hsum ⊢
        omega
      obtain ⟨q', hq', hj⟩ := ht.follows (J := fun q s => I s (rs ++ q :: ws) ∧ ((rs ++ q :: ws).map left).sum < N + 1)
        hcall h2 hi
      obtain ⟨qs', hqs', hj'⟩ := Stands.turned (t := ⟨m, i, p'⟩) (n := n)
        (I := fun qs => I s' qs ∧ (qs.map left).sum < N + 1) hleave h1 h3 hq' hj
      have hw' : ∀ t ∈ ts ++ Task.kept ⟨m, i, p'⟩, Waiting sync t := by
        intro t htm
        rcases List.mem_append.mp htm with htm | htm
        · exact hw t htm
        · exact ht.waiting htm
      rw [← List.append_assoc] at hqs'
      obtain ⟨c', hc', hnil⟩ := ihus _ s' n (Task.seen ⟨m, i, p'⟩ ++ es) qs' hw' hqs' hj'
      rw [List.append_assoc] at hc'
      exact ⟨c', .head ⟨.resume ht, rfl⟩ hc', hnil⟩

end Loop

end Async
