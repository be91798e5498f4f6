import Chhaya.Lib.Async

/-!
# Programs on an event loop

Programs that run beside each other on one thread. A program that is resumed runs to its next await without another one
in between: the calls that satisfy `sync` are answered in the same turn, and the others are awaited. What an awaited call
does happens at some point while its program waits, and the program is resumed at some later point.

- `Turn.every`, `Turn.inv`: what a turn leaves of a program, and what it keeps of the state.
- `Loop.reachable_inv`: what one step keeps, a run keeps.
- `Loop.Step.tasks`: what every turn and every answer keep of single programs.
- `Loop.reachable_numbers`: no two programs on the loop have one number.
- `Loop.Reachable.finish`: a program whose calls have effects one after the other may run to its end.
-/

namespace Async

variable {Op : Type} {Ans : Op → Type} {ε α σ ι : Type}

section Turns

variable (eff : σ → (op : Op) → Except ε (Ans op) → σ → Prop) (sync : Op → Prop)

/-- One turn: the program runs until it awaits a call, returns or throws. -/
inductive Turn : Async Op Ans ε α → σ → Async Op Ans ε α → σ → Prop
  | done (a : α) (s : σ) : Turn (.done a) s (.done a) s
  | throw (e : ε) (s : σ) : Turn (.throw e) s (.throw e) s
  | awaits {op : Op} (k : Except ε (Ans op) → Async Op Ans ε α) (s : σ) (h : ¬sync op) :
    Turn (.call op k) s (.call op k) s
  | sync {op : Op} {k : Except ε (Ans op) → Async Op Ans ε α} {a : Except ε (Ans op)} {s s' s'' : σ}
    {p : Async Op Ans ε α} (h : sync op) (he : eff s op a s') (ht : Turn (k a) s' p s'') : Turn (.call op k) s p s''

variable {eff sync} {p p' : Async Op Ans ε α} {s s' : σ}

/-- What a turn leaves of a program makes no other calls. -/
theorem Turn.every {φ : Op → Prop} (h : Turn eff sync p s p' s') (hp : p.Every φ) : p'.Every φ := by
  induction h with
  | done a s => exact hp
  | throw e s => exact hp
  | awaits k s h => exact hp
  | sync h he ht ih => exact ih (hp.2 _)

/-- What every call of the program keeps, a turn keeps. -/
theorem Turn.inv {φ : Op → Prop} {I : σ → Prop}
    (hφ : ∀ op, φ op → ∀ s a s', eff s op a s' → I s → I s') (h : Turn eff sync p s p' s') (hp : p.Every φ)
    (hi : I s) : I s' := by
  induction h with
  | done a s => exact hi
  | throw e s => exact hi
  | awaits k s h => exact hi
  | sync h he ht ih => exact ih (hp.2 _) (hφ _ hp.1 _ _ _ he hi)

/-- A program that has to wait at once. -/
theorem Turn.awaits_inv {op : Op} {k : Except ε (Ans op) → Async Op Ans ε α} (h : Turn eff sync (.call op k) s p' s')
    (hop : ¬sync op) : p' = .call op k ∧ s' = s := by
  cases h with
  | awaits k s h => exact ⟨rfl, rfl⟩
  | sync h he ht => exact absurd h hop

/-- A call that is answered at once. -/
theorem Turn.sync_inv {op : Op} {k : Except ε (Ans op) → Async Op Ans ε α} (h : Turn eff sync (.call op k) s p' s')
    (hop : sync op) : ∃ a s₁, eff s op a s₁ ∧ Turn eff sync (k a) s₁ p' s' := by
  cases h with
  | awaits k s h => exact absurd hop h
  | sync h he ht => exact ⟨_, _, he, ht⟩

theorem Turn.done_inv {a : α} (h : Turn eff sync (.done a) s p' s') : p' = .done a ∧ s' = s := by
  cases h with
  | done a s => exact ⟨rfl, rfl⟩

theorem Turn.throw_inv {e : ε} (h : Turn eff sync (.throw e : Async Op Ans ε α) s p' s') : p' = .throw e ∧ s' = s := by
  cases h with
  | throw e s => exact ⟨rfl, rfl⟩

end Turns

/-! ## The loop -/

/-- A program that has not ended stays on the loop. -/
def Task.kept (t : Task ι Op Ans ε α) : List (Task ι Op Ans ε α) :=
  match t.rest with
  | .done _ => []
  | .throw _ => []
  | .call _ _ => [t]

/-- What is seen of a program at the end of its turn. -/
def Task.seen (t : Task ι Op Ans ε α) : List (Event ι ε α) :=
  match t.rest with
  | .done a => [.ended t.number t.call (.ok a)]
  | .throw e => [.ended t.number t.call (.error e)]
  | .call _ _ => []

theorem Task.mem_kept {t u : Task ι Op Ans ε α} (h : u ∈ t.kept) : u = t ∧ ∃ op k, t.rest = .call op k := by
  obtain ⟨n, i, p⟩ := t
  cases p with
  | done a => cases h
  | throw e => cases h
  | call op k => exact ⟨List.mem_singleton.mp h, op, k, rfl⟩

section Loop

variable (eff : σ → (op : Op) → Except ε (Ans op) → σ → Prop) (sync : Op → Prop) (body : ι → Async Op Ans ε α)
  (other : σ → σ → Prop)

/-- One step: a program starts and runs its first turn, an awaited call takes effect, a program runs its next turn, or
something else changes the state. -/
inductive Loop.Step : Pool ι Op Ans ε α σ → Pool ι Op Ans ε α σ → Prop
  | start {s s' : σ} {ts : List (Task ι Op Ans ε α)} {n : Nat} {es : List (Event ι ε α)} {p : Async Op Ans ε α} (i : ι)
    (h : Turn eff sync (body i) s p s') : Step ⟨s, ts, n, es⟩
      ⟨s', Task.kept ⟨n, i, p⟩ ++ ts, n + 1, Task.seen ⟨n, i, p⟩ ++ .started n i :: es⟩
  | answer {s s' : σ} {m : Nat} {i : ι} {op : Op} {k : Except ε (Ans op) → Async Op Ans ε α} {a : Except ε (Ans op)}
    {ts us : List (Task ι Op Ans ε α)} {n : Nat} {es : List (Event ι ε α)} (hop : ¬sync op) (h : eff s op a s') :
    Step ⟨s, ts ++ ⟨m, i, .call op k⟩ :: us, n, es⟩ ⟨s', ts ++ ⟨m, i, k a⟩ :: us, n, es⟩
  | resume {s s' : σ} {m : Nat} {i : ι} {p p' : Async Op Ans ε α} {ts us : List (Task ι Op Ans ε α)} {n : Nat}
    {es : List (Event ι ε α)} (h : Turn eff sync p s p' s') : Step ⟨s, ts ++ ⟨m, i, p⟩ :: us, n, es⟩
      ⟨s', ts ++ (Task.kept ⟨m, i, p'⟩ ++ us), n, Task.seen ⟨m, i, p'⟩ ++ es⟩
  | other {s s' : σ} {ts : List (Task ι Op Ans ε α)} {n : Nat} {es : List (Event ι ε α)} (h : other s s') :
    Step ⟨s, ts, n, es⟩ ⟨s', ts, n, es⟩

/-- The loops that steps which satisfy `ok` lead to from the state `s₀`. -/
inductive Loop.Reachable (ok : Pool ι Op Ans ε α σ → Pool ι Op Ans ε α σ → Prop) (s₀ : σ) :
    Pool ι Op Ans ε α σ → Prop
  | init : Reachable ok s₀ ⟨s₀, [], 0, []⟩
  | step {c c' : Pool ι Op Ans ε α σ} (h : Reachable ok s₀ c) (hs : Loop.Step eff sync body other c c') (hok : ok c c') :
    Reachable ok s₀ c'

variable {eff sync body other} {ok : Pool ι Op Ans ε α σ → Pool ι Op Ans ε α σ → Prop} {s₀ : σ}
  {c : Pool ι Op Ans ε α σ}

/-- What one step keeps, a run keeps. -/
theorem Loop.reachable_inv (inv : Pool ι Op Ans ε α σ → Prop) (h₀ : inv ⟨s₀, [], 0, []⟩)
    (hstep : ∀ {c c'}, Loop.Step eff sync body other c c' → ok c c' → inv c → inv c')
    (h : Loop.Reachable eff sync body other ok s₀ c) : inv c := by
  induction h with
  | init => exact h₀
  | step _ hs hok ih => exact hstep hs hok ih

/-- What every turn and every answer keep of single programs, a step keeps. -/
theorem Loop.Step.tasks {φ : Task ι Op Ans ε α → Prop} {c' : Pool ι Op Ans ε α σ}
    (hs : Loop.Step eff sync body other c c') (h : ∀ t ∈ c.running, φ t)
    (hstart : ∀ i op k s', Turn eff sync (body i) c.state (.call op k) s' → φ ⟨c.next, i, .call op k⟩)
    (hanswer : ∀ m i op k a s', φ ⟨m, i, .call op k⟩ → ¬sync op → eff c.state op a s' → φ ⟨m, i, k a⟩)
    (hresume : ∀ m i p op k s', φ ⟨m, i, p⟩ → Turn eff sync p c.state (.call op k) s' → φ ⟨m, i, .call op k⟩) :
    ∀ t ∈ c'.running, φ t := by
  cases hs with
  | start i ht =>
    intro t htm
    rcases List.mem_append.mp htm with htm | htm
    · obtain ⟨rfl, op, k, hk⟩ := Task.mem_kept htm
      obtain rfl : _ = Async.call op k := hk
      exact hstart i op k _ ht
    · exact h t htm
  | @answer s s' m i op k a ts us n es hop he =>
    intro t htm
    rcases mem_middle.mp htm with rfl | htm
    · exact hanswer m i op k a s' (h _ (mem_middle.mpr (Or.inl rfl))) hop he
    · exact h t (mem_middle.mpr (Or.inr htm))
  | @resume s s' m i p p' ts us n es ht =>
    intro t htm
    rcases List.mem_append.mp htm with htm | htm
    · exact h t (List.mem_append_left _ htm)
    · rcases List.mem_append.mp htm with htm | htm
      · obtain ⟨rfl, op, k, hk⟩ := Task.mem_kept htm
        obtain rfl : p' = Async.call op k := hk
        exact hresume m i p op k s' (h _ (mem_middle.mpr (Or.inl rfl))) ht
      · exact h t (List.mem_append_right _ (List.mem_cons_of_mem _ htm))
  | other ho => exact h

/-- The programs on the loop have different numbers, below the next one. -/
def Numbered (c : Pool ι Op Ans ε α σ) : Prop :=
  c.running.Pairwise (fun t u => t.number ≠ u.number) ∧ ∀ t ∈ c.running, t.number < c.next

theorem Numbered.notMem {s : σ} {ts us : List (Task ι Op Ans ε α)} {t : Task ι Op Ans ε α} {n : Nat}
    {es : List (Event ι ε α)} (h : Numbered ⟨s, ts ++ t :: us, n, es⟩) : t ∉ ts ++ us := by
  have hsymm : ∀ {v w : Task ι Op Ans ε α}, v.number ≠ w.number → w.number ≠ v.number := fun h => h.symm
  exact fun hm => (List.pairwise_cons.mp ((List.pairwise_middle hsymm).mp h.1)).1 t hm rfl

/-- A program is replaced by one of its number, or goes. -/
theorem Numbered.replace {s s' : σ} {ts us vs : List (Task ι Op Ans ε α)} {t : Task ι Op Ans ε α} {n : Nat}
    {es es' : List (Event ι ε α)} (h : Numbered ⟨s, ts ++ t :: us, n, es⟩)
    (hv : vs = [] ∨ ∃ u, vs = [u] ∧ u.number = t.number) : Numbered ⟨s', ts ++ (vs ++ us), n, es'⟩ := by
  obtain ⟨hp, hn⟩ := h
  rcases hv with rfl | ⟨u, rfl, hu⟩
  · have hsub : (ts ++ us).Sublist (ts ++ t :: us) := (List.Sublist.refl ts).append (List.sublist_cons_self t us)
    exact ⟨hp.sublist hsub, fun v hv => hn v (hsub.subset hv)⟩
  · have hsymm : ∀ {v w : Task ι Op Ans ε α}, v.number ≠ w.number → w.number ≠ v.number := fun h => h.symm
    obtain ⟨h1, h2⟩ := List.pairwise_cons.mp ((List.pairwise_middle hsymm).mp hp)
    refine ⟨(List.pairwise_middle hsymm).mpr (List.pairwise_cons.mpr ⟨fun v hv => hu ▸ h1 v hv, h2⟩), fun v hv => ?_⟩
    rcases mem_middle.mp hv with rfl | hv
    · exact hu ▸ hn t (mem_middle.mpr (Or.inl rfl))
    · exact hn v (mem_middle.mpr (Or.inr hv))

theorem Task.kept_number (t : Task ι Op Ans ε α) : t.kept = [] ∨ ∃ u, t.kept = [u] ∧ u.number = t.number := by
  obtain ⟨n, i, p⟩ := t
  cases p with
  | done a => exact Or.inl rfl
  | throw e => exact Or.inl rfl
  | call op k => exact Or.inr ⟨_, rfl, rfl⟩

/-- No two programs on the loop have one number. -/
theorem Loop.reachable_numbers (h : Loop.Reachable eff sync body other ok s₀ c) : Numbered c := by
  refine Loop.reachable_inv Numbered ⟨List.Pairwise.nil, fun t ht => (List.not_mem_nil ht).elim⟩ (fun hs _ hi => ?_) h
  cases hs with
  | @start s s' ts n es p i ht =>
    obtain ⟨hp, hn⟩ := hi
    rcases Task.kept_number (⟨n, i, p⟩ : Task ι Op Ans ε α) with h0 | ⟨u, h1, hu⟩
    · rw [h0]
      exact ⟨hp, fun t ht => Nat.lt_succ_of_lt (hn t ht)⟩
    · rw [h1]
      refine ⟨List.pairwise_cons.mpr ⟨fun t ht he => ?_, hp⟩, fun t ht => ?_⟩
      · exact absurd (hn t ht) (by rw [← he, hu]; exact Nat.lt_irrefl n)
      · rcases List.mem_cons.mp ht with rfl | ht
        · rw [hu]
          exact Nat.lt_succ_self n
        · exact Nat.lt_succ_of_lt (hn t ht)
  | @answer s s' m i op k a ts us n es hop he =>
    show Numbered ⟨s', ts ++ ([⟨m, i, k a⟩] ++ us), n, es⟩
    exact hi.replace (Or.inr ⟨_, rfl, rfl⟩)
  | resume ht => exact hi.replace (Task.kept_number _)
  | other ho => exact hi

/-- A turn of the first program of the loop. -/
theorem Loop.Step.first {s s' : σ} {m n : Nat} {i : ι} {p p' : Async Op Ans ε α} {us : List (Task ι Op Ans ε α)}
    {es : List (Event ι ε α)} (h : Turn eff sync p s p' s') : Loop.Step eff sync body other ⟨s, ⟨m, i, p⟩ :: us, n, es⟩
      ⟨s', Task.kept ⟨m, i, p'⟩ ++ us, n, Task.seen ⟨m, i, p'⟩ ++ es⟩ :=
  @Step.resume _ _ _ _ _ _ eff sync body other s s' m i p p' [] us n es h

/-- The first program of the loop has its call answered. -/
theorem Loop.Step.answerFirst {s s' : σ} {m n : Nat} {i : ι} {op : Op} {k : Except ε (Ans op) → Async Op Ans ε α}
    {a : Except ε (Ans op)} {us : List (Task ι Op Ans ε α)} {es : List (Event ι ε α)} (hop : ¬sync op)
    (h : eff s op a s') : Loop.Step eff sync body other ⟨s, ⟨m, i, .call op k⟩ :: us, n, es⟩
      ⟨s', ⟨m, i, k a⟩ :: us, n, es⟩ :=
  @Step.answer _ _ _ _ _ _ eff sync body other s s' m i op k a [] us n es hop h

/-- The second one has its call answered. -/
theorem Loop.Step.answerSecond {s s' : σ} {m n : Nat} {i : ι} {op : Op} {k : Except ε (Ans op) → Async Op Ans ε α}
    {a : Except ε (Ans op)} {t : Task ι Op Ans ε α} {us : List (Task ι Op Ans ε α)} {es : List (Event ι ε α)}
    (hop : ¬sync op) (h : eff s op a s') : Loop.Step eff sync body other ⟨s, t :: ⟨m, i, .call op k⟩ :: us, n, es⟩
      ⟨s', t :: ⟨m, i, k a⟩ :: us, n, es⟩ :=
  @Step.answer _ _ _ _ _ _ eff sync body other s s' m i op k a [t] us n es hop h

/-- Once every turn leads to a reachable loop, the calls of the first program may have their effects one after the
other. -/
theorem Loop.Reachable.finish (hok : ∀ c c', ok c c') {p : Async Op Ans ε α} {s s' : σ} {r : Except ε α} {m n : Nat}
    {i : ι} {us : List (Task ι Op Ans ε α)} {es : List (Event ι ε α)} (hr : Runs eff p s (some r) s')
    (h : ∀ p₁ s₁, Turn eff sync p s p₁ s₁ → Loop.Reachable eff sync body other ok s₀
      ⟨s₁, Task.kept ⟨m, i, p₁⟩ ++ us, n, Task.seen ⟨m, i, p₁⟩ ++ es⟩) :
    Loop.Reachable eff sync body other ok s₀ ⟨s', us, n, .ended m i r :: es⟩ := by
  generalize hx : some r = x at hr
  induction hr with
  | done a s =>
    cases hx
    exact h _ _ (.done a s)
  | throw e s =>
    cases hx
    exact h _ _ (.throw e s)
  | @call op k s s₁ s₂ a x he _ ih =>
    refine ih (fun p₁ s₂ ht => ?_) hx
    by_cases hop : sync op
    · exact h _ _ (.sync hop he ht)
    · have hwaits := h _ _ (.awaits k s hop)
      exact (hwaits.step (Loop.Step.answerFirst hop he) (hok _ _)).step (Loop.Step.first ht) (hok _ _)
  | cut p s => cases hx

/-- A program may start and run to its end. -/
theorem Loop.Reachable.serve (hok : ∀ c c', ok c c') {s s' : σ} {r : Except ε α} {n : Nat} (i : ι)
    {us : List (Task ι Op Ans ε α)} {es : List (Event ι ε α)} (hr : Runs eff (body i) s (some r) s')
    (h : Loop.Reachable eff sync body other ok s₀ ⟨s, us, n, es⟩) :
    Loop.Reachable eff sync body other ok s₀ ⟨s', us, n + 1, .ended n i r :: .started n i :: es⟩ :=
  Loop.Reachable.finish hok hr fun _ _ ht => h.step (.start i ht) (hok _ _)

end Loop

end Async
