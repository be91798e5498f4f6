import Chhaya.Lib.Async

/-!
# Programs one after the other

A pool in which a program starts only when none runs. While it waits, only foreign steps change the state, so that a program
relies on these alone: what it has read of what they leave is still so when it goes on.

- `Pool.Reachable.serial`: what safe programs and foreign steps keep holds in every serial run.
- `Pool.Reachable.turn`: a program may run from its start to its end.
- `Safe.ask`: the rule of a call that is followed by the rest.
-/

namespace Async

variable {Op : Type} {Ans : Op → Type} {ε α γ σ ι : Type}

/-- At most one program runs, and it has started where `starts` allows it. -/
structure Serial (starts : σ → ι → Prop) (c c' : Pool ι Op Ans ε α σ) : Prop where
  one : c'.running.length ≤ 1
  allowed : ∀ t, c'.running = t :: c.running → starts c.state t.call

/-- One program after the other: what safe programs and foreign steps keep holds in every run. -/
theorem Pool.Reachable.serial {R : Rules Op Ans ε σ} {body : ι → Async Op Ans ε α} {other : σ → σ → Prop}
    {starts : σ → ι → Prop} {s₀ : σ} {c : Pool ι Op Ans ε α σ} (hrefl : ∀ s, R.rely s s)
    (htrans : ∀ {s₁ s₂ s₃}, R.rely s₁ s₂ → R.rely s₂ s₃ → R.rely s₁ s₃) (hother : ∀ {s s'}, other s s' → R.rely s s')
    (hinv : ∀ {s s'}, other s s' → R.inv s → R.inv s')
    (hbody : ∀ i s, starts s i → R.inv s → (body i).Safe R (fun _ _ => True) s) (h₀ : R.inv s₀)
    (h : Pool.Reachable R.eff body other (Serial starts) s₀ c) :
    R.inv c.state ∧ ∀ t ∈ c.running, t.rest.Safe R (fun _ _ => True) c.state := by
  induction h with
  | init => exact ⟨h₀, fun t ht => (List.not_mem_nil ht).elim⟩
  | step _ hs hone ih =>
    obtain ⟨hi, hsafe⟩ := ih
    cases hs with
    | start i =>
      refine ⟨hi, fun t ht => ?_⟩
      rcases List.mem_cons.mp ht with rfl | ht
      · exact hbody i _ (hone.allowed _ rfl) hi
      · exact hsafe t ht
    | @call s s' m i op k a ts us n es he =>
      obtain ⟨hi', -, hk⟩ := hsafe ⟨m, i, .call op k⟩ (mem_middle.mpr (Or.inl rfl)) s (hrefl s) hi a s' he
      refine ⟨hi', fun t ht => ?_⟩
      -- the program whose call was answered is the only one
      have hlen : (ts ++ ⟨m, i, k a⟩ :: us).length ≤ 1 := hone.one
      rw [List.length_append, List.length_cons] at hlen
      have hts : ts = [] := List.length_eq_zero_iff.mp (by omega)
      have hus : us = [] := List.length_eq_zero_iff.mp (by omega)
      subst hts hus
      obtain rfl := List.mem_singleton.mp ht
      exact hk
    | done => exact ⟨hi, fun t ht => hsafe t (mem_middle.mpr (Or.inr ht))⟩
    | thrown => exact ⟨hi, fun t ht => hsafe t (mem_middle.mpr (Or.inr ht))⟩
    | other ho =>
      refine ⟨hinv ho hi, fun t ht => ?_⟩
      exact (hsafe t ht).rely htrans (fun _ _ _ _ h => h) (hother ho)
    | drop hd => exact ⟨hi, fun t ht => hsafe t (hd.subset ht)⟩

/-- A program that may start runs from its start to its end. -/
theorem Pool.Reachable.turn {eff : σ → (op : Op) → Except ε (Ans op) → σ → Prop} {body : ι → Async Op Ans ε α}
    {other : σ → σ → Prop} {starts : σ → ι → Prop} {s₀ s s' : σ} {n : Nat} {es : List (Event ι ε α)} {i : ι} {r : Except ε α}
    (h : Pool.Reachable eff body other (Serial starts) s₀ ⟨s, [], n, es⟩) (hi : starts s i)
    (hr : Runs eff (body i) s (some r) s') :
    Pool.Reachable eff body other (Serial starts) s₀ ⟨s', [], n + 1, .ended n i r :: .started n i :: es⟩ := by
  have hstart := h.step (.start i) ⟨Nat.le_refl 1, fun t ht => by
    obtain rfl := (List.cons.inj ht).1
    exact hi⟩
  clear h hi
  generalize body i = p at hr hstart
  generalize hx : some r = x at hr
  induction hr with
  | done a s =>
    cases hx
    exact hstart.step .firstDone ⟨Nat.zero_le 1, fun _ ht => nomatch ht⟩
  | throw e s =>
    cases hx
    exact hstart.step (@Pool.Step.thrown _ _ _ _ _ _ eff body other s n i e [] [] (n + 1) _)
      ⟨Nat.zero_le 1, fun _ ht => nomatch ht⟩
  | call he _ ih =>
    exact ih (hstart.step (.first he) ⟨Nat.le_refl 1, fun _ ht => nomatch (List.cons.inj ht).2⟩) hx
  | cut p s => cases hx

/-- One call, and then the rest. -/
theorem Safe.ask {R : Rules Op Ans ε σ} {op : Op} {f : Ans op → Async Op Ans ε γ} {Q : Except ε γ → σ → Prop} {s : σ}
    (h : ∀ s₁, R.rely s s₁ → R.inv s₁ → ∀ a s₂, R.eff s₁ op a s₂ → R.inv s₂ ∧ R.guar s₁ s₂ ∧ match a with
      | .ok v => (f v).Safe R Q s₂
      | .error e => Q (.error e) s₂) : (Async.bind (Async.await op) f).Safe R Q s := by
  intro s₁ hr hi a s₂ he
  obtain ⟨h1, h2, h3⟩ := h s₁ hr hi a s₂ he
  refine ⟨h1, h2, ?_⟩
  cases a with
  | ok v => exact h3
  | error e => exact h3

end Async
