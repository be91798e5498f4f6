import Chhaya.Lib.Trace

/-!
# Where facts of a run come from

What one call and one foreign step do to the state, carried over a run with its calls.

- `Pool.Traced.kept`, `Pool.Traced.always`: what every step keeps holds of every state.
- `Pool.Traced.source`: what is there was there at the start, or a call made it.
- `Pool.Traced.between`: what a call left true stays true, or a later call undid it.
-/

namespace Async

variable {Op : Type} {Ans : Op → Type} {ε α σ ι : Type} {eff : σ → (op : Op) → Except ε (Ans op) → σ → Prop}
  {body : ι → Async Op Ans ε α} {other : σ → σ → Prop} {s₀ : σ} {l : List (Made ι Op Ans ε σ)} {c c' : Pool ι Op Ans ε α σ}

/-- A step in which no call is answered leaves the state, or is one of the others. -/
theorem Pool.Step.quiet_state (hs : Pool.Step (fun _ _ _ _ => False) body other c c') :
    c'.state = c.state ∨ other c.state c'.state := by
  cases hs with
  | call he => exact he.elim
  | other ho => exact Or.inr ho
  | _ => exact Or.inl rfl

/-- What every call of the run and every foreign step keeps holds of every state. -/
theorem Pool.Traced.kept {K : σ → Prop} (h₀ : K s₀) (h : Pool.Traced eff body other s₀ l c)
    (hcall : ∀ e ∈ l, eff e.before e.answered.op e.answered.answer e.after → K e.before → K e.after)
    (hother : ∀ {s s'}, other s s' → K s → K s') : K c.state := by
  induction h with
  | init => exact h₀
  | @call l s s' m i op k a ts us n es _ he ih =>
    exact hcall _ List.mem_cons_self he (ih fun e he => hcall e (List.mem_cons_of_mem _ he))
  | quiet _ hs ih =>
    rcases hs.quiet_state with hsame | ho
    · rw [hsame]
      exact ih hcall
    · exact hother ho (ih hcall)

/-- What every step keeps holds of every state. -/
theorem Pool.Traced.always {K : σ → Prop} (h₀ : K s₀) (hcall : ∀ {s op a s'}, eff s op a s' → K s → K s')
    (hother : ∀ {s s'}, other s s' → K s → K s') (h : Pool.Traced eff body other s₀ l c) : K c.state :=
  h.kept h₀ (fun _ _ he hK => hcall he hK) hother

/-- What is there was there at the start, or a call made it. -/
theorem Pool.Traced.source {K : σ → Prop} {M : Made ι Op Ans ε σ → Prop}
    (hcall : ∀ e : Made ι Op Ans ε σ, eff e.before e.answered.op e.answered.answer e.after → K e.after → K e.before ∨ M e)
    (hother : ∀ {s s'}, other s s' → K s' → K s) (h : Pool.Traced eff body other s₀ l c) (hK : K c.state) :
    K s₀ ∨ ∃ l₁ e l₀, l = l₁ ++ e :: l₀ ∧ M e := by
  induction h with
  | init => exact Or.inl hK
  | @call l s s' m i op k a ts us n es _ he ih =>
    rcases hcall ⟨m, i, ⟨op, a⟩, s, s'⟩ he hK with hK | hm
    · rcases ih hK with hK | ⟨l₁, e, l₀, rfl, hm⟩
      · exact Or.inl hK
      · exact Or.inr ⟨_ :: l₁, e, l₀, rfl, hm⟩
    · exact Or.inr ⟨[], _, l, rfl, hm⟩
  | quiet _ hs ih =>
    rcases hs.quiet_state with hsame | ho
    · exact ih (hsame ▸ hK)
    · exact ih (hother ho hK)

/-- What a call left true stays true, or a later call undid it. -/
theorem Pool.Traced.between {K : σ → Prop} {U : Made ι Op Ans ε σ → Prop}
    (hcall : ∀ e : Made ι Op Ans ε σ, eff e.before e.answered.op e.answered.answer e.after → K e.before → K e.after ∨ U e)
    (hother : ∀ {s s'}, other s s' → K s → K s') (h : Pool.Traced eff body other s₀ l c)
    {l₁ l₀ : List (Made ι Op Ans ε σ)} {e : Made ι Op Ans ε σ} (hl : l = l₁ ++ e :: l₀) (hK : K e.after) :
    K c.state ∨ ∃ e' ∈ l₁, U e' := by
  induction h generalizing l₁ with
  | init => exact absurd hl.symm (List.append_ne_nil_of_right_ne_nil _ (List.cons_ne_nil _ _))
  | @call l s s' m i op k a ts us n es _ he ih =>
    cases l₁ with
    | nil =>
      obtain ⟨rfl, rfl⟩ := List.cons.inj hl
      exact Or.inl hK
    | cons x l₁ =>
      obtain ⟨rfl, htail⟩ := List.cons.inj hl
      rcases ih htail with hK | ⟨e', he', hu⟩
      · exact (hcall ⟨m, i, ⟨op, a⟩, s, s'⟩ he hK).imp_right fun hu => ⟨_, List.mem_cons_self, hu⟩
      · exact Or.inr ⟨e', List.mem_cons_of_mem _ he', hu⟩
  | quiet _ hs ih =>
    refine (ih hl).imp_left fun hK => ?_
    rcases hs.quiet_state with hsame | ho
    · rw [hsame]
      exact hK
    · exact hother ho hK

/-- What a call left true, and every step keeps, is true. -/
theorem Pool.Traced.lasting {K : σ → Prop} (hcall : ∀ {s op a s'}, eff s op a s' → K s → K s')
    (hother : ∀ {s s'}, other s s' → K s → K s') (h : Pool.Traced eff body other s₀ l c)
    {l₁ l₀ : List (Made ι Op Ans ε σ)} {e : Made ι Op Ans ε σ} (hl : l = l₁ ++ e :: l₀) (hK : K e.after) : K c.state := by
  rcases h.between (U := fun _ => False) (fun e he hK => Or.inl (hcall he hK)) hother hl hK with hK | ⟨_, -, hf⟩
  · exact hK
  · exact hf.elim

end Async
