import Chhaya.Lib.EventLoop

/-!
# What a program has called before

`Along φ Q p h` holds of a program that has made the calls `h`, the newest first, when every call it makes from then on
stands to the calls before it as `φ` says, whatever the answers are, and what it returns or throws as `Q` says. `Traced` is
a run of a pool with the calls that were made.

- `Along.bind`, `Along.attempt`, `Along.await`, `Along.ofExcept`: the rules of sequences, of `try`, of one call and of
  what is already there.
- `Every.along`: a program all of whose calls may be made at any time.
- `Every.along_grown`: what a program of some calls adds to the calls before it.
- `Pool.Traced.reachable`, `Pool.Reachable.traced`: runs with their calls are the runs.
- `Pool.Traced.before`: the run up to a call.
- `Pool.Traced.path`, `Pool.Traced.ran`: a program that goes on while the others wait.
- `Pool.Traced.same`: calls of one number are of one program.
- `Pool.Traced.called`: every call in a run stands to the calls of its program before it as `φ` says.
-/

namespace Async

variable {Op : Type} {Ans : Op → Type} {ε α γ σ : Type}

/-- A call with its answer. -/
structure Answered (Op : Type) (Ans : Op → Type) (ε : Type) where
  op : Op
  answer : Except ε (Ans op)

/-! ## One program -/

/-- Every call stands to the calls before it as `φ` says, and the end as `Q` says. -/
def Along (φ : List (Answered Op Ans ε) → Op → Prop) (Q : Except ε α → List (Answered Op Ans ε) → Prop) :
    Async Op Ans ε α → List (Answered Op Ans ε) → Prop
  | done a, h => Q (.ok a) h
  | throw e, h => Q (.error e) h
  | call op k, h => φ h op ∧ ∀ a, (k a).Along φ Q (⟨op, a⟩ :: h)

section Along

variable {φ : List (Answered Op Ans ε) → Op → Prop} {Q Q' : Except ε α → List (Answered Op Ans ε) → Prop}
  {h : List (Answered Op Ans ε)}

theorem Along.mono {p : Async Op Ans ε α} (hp : p.Along φ Q h) (hq : ∀ r h, Q r h → Q' r h) : p.Along φ Q' h := by
  induction p generalizing h with
  | done a => exact hq _ _ hp
  | throw e => exact hq _ _ hp
  | call op k ih => exact ⟨hp.1, fun a => ih a (hp.2 a)⟩

/-- The rule of sequences. -/
theorem Along.bind {p : Async Op Ans ε α} {f : α → Async Op Ans ε γ} {Q' : Except ε γ → List (Answered Op Ans ε) → Prop}
    (hp : p.Along φ (fun r h => match r with
      | .ok a => (f a).Along φ Q' h
      | .error e => Q' (.error e) h) h) : (p.bind f).Along φ Q' h := by
  induction p generalizing h with
  | done a => exact hp
  | throw e => exact hp
  | call op k ih => exact ⟨hp.1, fun a => ih a (hp.2 a)⟩

/-- The rule of `try`. -/
theorem Along.attempt {p : Async Op Ans ε α} {Q : Except ε (Except ε α) → List (Answered Op Ans ε) → Prop}
    (hp : p.Along φ (fun r h => Q (.ok r) h) h) : p.attempt.Along φ Q h := by
  induction p generalizing h with
  | done a => exact hp
  | throw e => exact hp
  | call op k ih => exact ⟨hp.1, fun a => ih a (hp.2 a)⟩

/-- The rule of one call. -/
theorem Along.await {op : Op} {Q : Except ε (Ans op) → List (Answered Op Ans ε) → Prop} (hφ : φ h op)
    (hQ : ∀ a, Q a (⟨op, a⟩ :: h)) : (await op : Async Op Ans ε (Ans op)).Along φ Q h :=
  ⟨hφ, fun a => by cases a <;> exact hQ _⟩

/-- The rule of what is already there. -/
theorem Along.ofExcept {r : Except ε α} {f : α → Async Op Ans ε γ} {Q : Except ε γ → List (Answered Op Ans ε) → Prop}
    (he : ∀ e, r = .error e → Q (.error e) h) (hok : ∀ a, r = .ok a → (f a).Along φ Q h) :
    (Async.bind (Async.ofExcept r) f).Along φ Q h := by
  cases r with
  | ok a => exact hok a rfl
  | error e => exact he e rfl

/-- One call, and then the rest. -/
theorem Along.await_bind {op : Op} {f : Ans op → Async Op Ans ε γ} {Q : Except ε γ → List (Answered Op Ans ε) → Prop}
    (hφ : φ h op) (he : ∀ e, Q (.error e) (⟨op, .error e⟩ :: h)) (hok : ∀ a, (f a).Along φ Q (⟨op, .ok a⟩ :: h)) :
    (Async.bind (Async.await op) f).Along φ Q h :=
  .bind (.await hφ fun
    | .ok a => hok a
    | .error e => he e)

/-- A program all of whose calls may be made at any time. -/
theorem Every.along {ψ : Op → Prop} {p : Async Op Ans ε α} (hp : p.Every ψ) (hψ : ∀ op h, ψ op → φ h op) :
    p.Along φ (fun _ _ => True) h := by
  induction p generalizing h with
  | done a => exact trivial
  | throw e => exact trivial
  | call op k ih => exact ⟨hψ op h hp.1, fun a => ih a (hp.2 a)⟩

/-- The calls before a program, and calls that satisfy `ψ`. -/
def Grown (ψ : Op → Prop) (h h' : List (Answered Op Ans ε)) : Prop := ∃ g, h' = g ++ h ∧ ∀ x ∈ g, ψ x.op

variable {ψ : Op → Prop} {h' h'' : List (Answered Op Ans ε)}

theorem Grown.refl (h : List (Answered Op Ans ε)) : Grown ψ h h := ⟨[], rfl, fun _ hx => (List.not_mem_nil hx).elim⟩

theorem Grown.cons (hg : Grown ψ h h') {x : Answered Op Ans ε} (hx : ψ x.op) : Grown ψ h (x :: h') := by
  obtain ⟨g, rfl, hg⟩ := hg
  exact ⟨x :: g, rfl, List.forall_mem_cons.mpr ⟨hx, hg⟩⟩

theorem Grown.trans (hg : Grown ψ h h') (hg' : Grown ψ h' h'') : Grown ψ h h'' := by
  obtain ⟨g, rfl, hg⟩ := hg
  obtain ⟨g', rfl, hg'⟩ := hg'
  exact ⟨g' ++ g, (List.append_assoc _ _ _).symm, fun x hx => (List.mem_append.mp hx).elim (hg' x) (hg x)⟩

theorem Grown.subset (hg : Grown ψ h h') : h ⊆ h' := by
  obtain ⟨g, rfl, -⟩ := hg
  exact List.subset_append_right _ _

/-- What satisfies `χ` before, and is kept by calls that satisfy `ψ`, holds after. -/
theorem Grown.forall {χ : Answered Op Ans ε → Prop} (hg : Grown ψ h h') (hχ : ∀ x, ψ x.op → χ x) (hh : ∀ x ∈ h, χ x) :
    ∀ x ∈ h', χ x := by
  obtain ⟨g, rfl, hg⟩ := hg
  exact fun x hx => (List.mem_append.mp hx).elim (fun hx => hχ x (hg x hx)) (hh x)

/-- What a program of some calls adds to the calls before it. -/
theorem Every.along_grown {p : Async Op Ans ε α} (hp : p.Every ψ) (hφ : ∀ op h', Grown ψ h h' → ψ op → φ h' op) :
    p.Along φ (fun _ h' => Grown ψ h h') h := by
  have main : ∀ {h'}, Grown ψ h h' → p.Along φ (fun _ h' => Grown ψ h h') h' := by
    induction p with
    | done a => exact fun hg => hg
    | throw e => exact fun hg => hg
    | call op k ih => exact fun {h'} hg => ⟨hφ op h' hg hp.1, fun a => ih a (hp.2 a) (hg.cons hp.1)⟩
  exact main (.refl h)

/-- Two facts about the end of a program. -/
theorem Along.and {p : Async Op Ans ε α} (hp : p.Along φ Q h) (hp' : p.Along φ Q' h) :
    p.Along φ (fun r h => Q r h ∧ Q' r h) h := by
  induction p generalizing h with
  | done a => exact ⟨hp, hp'⟩
  | throw e => exact ⟨hp, hp'⟩
  | call op k ih => exact ⟨hp.1, fun a => ih a (hp.2 a) (hp'.2 a)⟩

end Along

/-! ## Runs of a pool -/

/-- A call that was made: by which program, and between which states. -/
structure Made (ι Op : Type) (Ans : Op → Type) (ε σ : Type) where
  number : Nat
  call : ι
  answered : Answered Op Ans ε
  before : σ
  after : σ

section Pool

variable {ι : Type} (eff : σ → (op : Op) → Except ε (Ans op) → σ → Prop) (body : ι → Async Op Ans ε α)
  (other : σ → σ → Prop)

/-- A run from the state `s₀` with the calls that were made, the newest first. -/
inductive Pool.Traced (s₀ : σ) : List (Made ι Op Ans ε σ) → Pool ι Op Ans ε α σ → Prop
  | init : Traced s₀ [] ⟨s₀, [], 0, []⟩
  | call {l : List (Made ι Op Ans ε σ)} {s s' : σ} {m : Nat} {i : ι} {op : Op}
    {k : Except ε (Ans op) → Async Op Ans ε α} {a : Except ε (Ans op)} {ts us : List (Task ι Op Ans ε α)} {n : Nat}
    {es : List (Event ι ε α)} (h : Traced s₀ l ⟨s, ts ++ ⟨m, i, .call op k⟩ :: us, n, es⟩) (he : eff s op a s') :
    Traced s₀ (⟨m, i, ⟨op, a⟩, s, s'⟩ :: l) ⟨s', ts ++ ⟨m, i, k a⟩ :: us, n, es⟩
  /-- A step in which no call is answered. -/
  | quiet {l : List (Made ι Op Ans ε σ)} {c c' : Pool ι Op Ans ε α σ} (h : Traced s₀ l c)
    (hs : Pool.Step (fun _ _ _ _ => False) body other c c') : Traced s₀ l c'

variable {eff body other} {s₀ : σ} {l : List (Made ι Op Ans ε σ)} {c c' : Pool ι Op Ans ε α σ}

theorem Pool.Step.mono {eff' : σ → (op : Op) → Except ε (Ans op) → σ → Prop}
    (h : ∀ s op a s', eff s op a s' → eff' s op a s') (hs : Pool.Step eff body other c c') :
    Pool.Step eff' body other c c' := by
  cases hs with
  | start i => exact .start i
  | call he => exact .call (h _ _ _ _ he)
  | done => exact .done
  | thrown => exact .thrown
  | other ho => exact .other ho
  | drop hd => exact .drop hd

/-- A run with its calls is a run. -/
theorem Pool.Traced.reachable (h : Pool.Traced eff body other s₀ l c) :
    Pool.Reachable eff body other (fun _ _ => True) s₀ c := by
  induction h with
  | init => exact .init
  | call _ he ih => exact .step ih (.call he) trivial
  | quiet _ hs ih => exact .step ih (hs.mono fun _ _ _ _ h => h.elim) trivial

/-- Every run has its calls. -/
theorem Pool.Reachable.traced {ok : Pool ι Op Ans ε α σ → Pool ι Op Ans ε α σ → Prop}
    (h : Pool.Reachable eff body other ok s₀ c) : ∃ l, Pool.Traced eff body other s₀ l c := by
  induction h with
  | init => exact ⟨[], .init⟩
  | step _ hs _ ih =>
    obtain ⟨l, hl⟩ := ih
    cases hs with
    | start i => exact ⟨l, .quiet hl (.start i)⟩
    | call he => exact ⟨_, .call hl he⟩
    | done => exact ⟨l, .quiet hl .done⟩
    | thrown => exact ⟨l, .quiet hl .thrown⟩
    | other ho => exact ⟨l, .quiet hl (.other ho)⟩
    | drop hd => exact ⟨l, .quiet hl (.drop hd)⟩

/-- The run up to a call. -/
theorem Pool.Traced.before (h : Pool.Traced eff body other s₀ l c) {l₁ l₀ : List (Made ι Op Ans ε σ)}
    {e : Made ι Op Ans ε σ} (hl : l = l₁ ++ e :: l₀) : ∃ c₀, Pool.Traced eff body other s₀ l₀ c₀ ∧ c₀.state = e.before := by
  induction h generalizing l₁ with
  | init => exact absurd hl.symm (List.append_ne_nil_of_right_ne_nil _ (List.cons_ne_nil _ _))
  | call h _ ih =>
    cases l₁ with
    | nil =>
      obtain ⟨rfl, rfl⟩ := List.cons.inj hl
      exact ⟨_, h, rfl⟩
    | cons x l₁ => exact ih (List.cons.inj hl).2
  | quiet _ _ ih => exact ih hl

/-- The program `m` of the call `i` goes on alone, with the calls it makes, the newest first. -/
inductive Path (eff : σ → (op : Op) → Except ε (Ans op) → σ → Prop) (m : Nat) (i : ι) :
    Async Op Ans ε α → σ → List (Made ι Op Ans ε σ) → Async Op Ans ε α → σ → Prop
  | refl (p : Async Op Ans ε α) (s : σ) : Path eff m i p s [] p s
  | call {op : Op} {k : Except ε (Ans op) → Async Op Ans ε α} {s s' s'' : σ} {a : Except ε (Ans op)}
    {p : Async Op Ans ε α} {l : List (Made ι Op Ans ε σ)} (he : eff s op a s') (hp : Path eff m i (k a) s' l p s'') :
    Path eff m i (.call op k) s (l ++ [⟨m, i, ⟨op, a⟩, s, s'⟩]) p s''

/-- A program goes on while the others wait. -/
theorem Pool.Traced.path {p p' : Async Op Ans ε α} {s s' : σ} {l' : List (Made ι Op Ans ε σ)}
    {ts us : List (Task ι Op Ans ε α)} {m n : Nat} {i : ι} {es : List (Event ι ε α)} (hp : Path eff m i p s l' p' s')
    (ht : Pool.Traced eff body other s₀ l ⟨s, ts ++ ⟨m, i, p⟩ :: us, n, es⟩) :
    Pool.Traced eff body other s₀ (l' ++ l) ⟨s', ts ++ ⟨m, i, p'⟩ :: us, n, es⟩ := by
  induction hp generalizing l with
  | refl p s => exact ht
  | call he hp ih =>
    rw [List.append_assoc]
    exact ih (.call ht he)

section Path

variable {m : Nat} {i : ι} {p p' p'' : Async Op Ans ε α} {s s' s'' : σ} {l₁ l₂ : List (Made ι Op Ans ε σ)}

theorem Path.trans (h₁ : Path eff m i p s l₁ p' s') (h₂ : Path eff m i p' s' l₂ p'' s'') :
    Path eff m i p s (l₂ ++ l₁) p'' s'' := by
  induction h₁ with
  | refl p s => simpa using h₂
  | call he hp ih =>
    rw [← List.append_assoc]
    exact .call he (ih h₂)

/-- The first part of a sequence goes on. -/
theorem Path.bind {f : α → Async Op Ans ε γ} (h : Path eff m i p s l₁ p' s') :
    Path eff m i (p.bind f) s l₁ (p'.bind f) s' := by
  induction h with
  | refl p s => exact .refl _ _
  | call he hp ih => exact .call he ih

/-- One call is answered. -/
theorem Path.await {op : Op} {a : Ans op} (he : eff s op (.ok a) s') (f : Ans op → Async Op Ans ε γ) :
    Path eff m i (Async.bind (Async.await op) f) s [⟨m, i, ⟨op, .ok a⟩, s, s'⟩] (f a) s' :=
  .call (l := []) he (.refl _ _)

/-- One call is answered, and the program goes on. -/
theorem Path.await_bind {op : Op} {a : Ans op} {f : Ans op → Async Op Ans ε γ} {p : Async Op Ans ε γ}
    (he : eff s op (.ok a) s') (h : Path eff m i (f a) s' l₁ p s'') :
    Path eff m i (Async.bind (Async.await op) f) s (l₁ ++ [⟨m, i, ⟨op, .ok a⟩, s, s'⟩]) p s'' :=
  (Path.await he f).trans h

end Path

section Leads

variable {eff' : σ → (op : Op) → Except ε (Ans op) → σ → Prop} {m : Nat} {i : ι} {p p' p'' : Async Op Ans ε α}
  {s s' s'' : σ}

/-- A run in which more may happen. -/
theorem Pool.Traced.mono (he : ∀ s op a s', eff s op a s' → eff' s op a s') (h : Pool.Traced eff body other s₀ l c) :
    Pool.Traced eff' body other s₀ l c := by
  induction h with
  | init => exact .init
  | call _ h ih => exact .call ih (he _ _ _ _ h)
  | quiet _ hs ih => exact .quiet ih hs

/-- A program runs from its start to its end while the others wait. -/
theorem Pool.Traced.ran {l' : List (Made ι Op Ans ε σ)} {ts : List (Task ι Op Ans ε α)} {n : Nat}
    {es : List (Event ι ε α)} {b : α} (ht : Pool.Traced eff body other s₀ l ⟨s, ts, n, es⟩)
    (hp : Path eff n i (body i) s l' (.done b) s') :
    Pool.Traced eff body other s₀ (l' ++ l) ⟨s', ts, n + 1, .ended n i (.ok b) :: .started n i :: es⟩ :=
  .quiet (@Pool.Traced.path _ _ _ _ _ _ eff body other s₀ _ _ _ _ _ _ [] ts n (n + 1) i _ hp (.quiet ht (.start i)))
    (@Pool.Step.done _ _ _ _ _ _ _ body other s' n i b [] ts (n + 1) _)

/-- The program goes on alone from there to there. -/
def Leads (eff : σ → (op : Op) → Except ε (Ans op) → σ → Prop) (m : Nat) (i : ι) (p : Async Op Ans ε α) (s : σ)
    (p' : Async Op Ans ε α) (s' : σ) : Prop := ∃ l : List (Made ι Op Ans ε σ), Path eff m i p s l p' s'

theorem Leads.refl (p : Async Op Ans ε α) (s : σ) : Leads eff m i p s p s := ⟨[], .refl p s⟩

theorem Leads.await {op : Op} {a : Ans op} {f : Ans op → Async Op Ans ε γ} {p : Async Op Ans ε γ}
    (he : eff s op (.ok a) s') (h : Leads eff m i (f a) s' p s'') :
    Leads eff m i (Async.bind (Async.await op) f) s p s'' :=
  ⟨_, .await_bind he h.choose_spec⟩

/-- The first part of a sequence comes to its end, and the program goes on. -/
theorem Leads.bind {p : Async Op Ans ε γ} {b : γ} {f : γ → Async Op Ans ε α} (h₁ : Leads eff m i p s (.done b) s')
    (h₂ : Leads eff m i (f b) s' p' s'') : Leads eff m i (p.bind f) s p' s'' :=
  ⟨_, h₁.choose_spec.bind.trans h₂.choose_spec⟩

/-- The first part of a sequence comes to its end, and the program makes a call last. -/
theorem Leads.bind_path {p : Async Op Ans ε γ} {b : γ} {f : γ → Async Op Ans ε α} {e : Made ι Op Ans ε σ}
    (h₁ : Leads eff m i p s (.done b) s') (h₂ : ∃ l, Path eff m i (f b) s' (e :: l) p' s'') :
    ∃ l, Path eff m i (p.bind f) s (e :: l) p' s'' :=
  ⟨_, h₁.choose_spec.bind.trans h₂.choose_spec⟩

/-- The same for a program that makes a call next. -/
theorem Path.bind_call {p : Async Op Ans ε γ} {b : γ} {f : γ → Async Op Ans ε α} {op : Op} {r : Except ε (Ans op)}
    {k : Except ε (Ans op) → Async Op Ans ε α} (h : Path eff m i p s l (.done b) s') (hf : f b = .call op k)
    (he : eff s' op r s'') : ∃ p', Path eff m i (p.bind f) s (⟨m, i, ⟨op, r⟩, s', s''⟩ :: l) p' s'' := by
  have hnext : Path eff m i (f b) s' [⟨m, i, ⟨op, r⟩, s', s''⟩] (k r) s'' := by
    rw [hf]
    exact .call he (.refl _ _)
  exact ⟨k r, h.bind.trans hnext⟩

/-- The calls of a program have its number. -/
theorem Path.made (h : Path eff m i p s l p' s') : ∀ e ∈ l, e.number = m ∧ e.call = i := by
  induction h with
  | refl p s => exact fun e he => (List.not_mem_nil he).elim
  | call he hp ih =>
    intro e he
    rcases List.mem_append.mp he with he | he
    · exact ih e he
    · obtain rfl := List.mem_singleton.mp he
      exact ⟨rfl, rfl⟩

/-- A program goes on while the others wait. -/
theorem Pool.Traced.leads {ts us : List (Task ι Op Ans ε α)} {n : Nat} {es : List (Event ι ε α)}
    (ht : Pool.Traced eff body other s₀ l ⟨s, ts ++ ⟨m, i, p⟩ :: us, n, es⟩) (h : Leads eff m i p s p' s') :
    ∃ l', (∀ e ∈ l', e.number = m ∧ e.call = i) ∧
      Pool.Traced eff body other s₀ (l' ++ l) ⟨s', ts ++ ⟨m, i, p'⟩ :: us, n, es⟩ :=
  ⟨_, h.choose_spec.made, ht.path h.choose_spec⟩

/-- The first program goes on. -/
theorem Pool.Traced.first {us : List (Task ι Op Ans ε α)} {n : Nat} {es : List (Event ι ε α)}
    (ht : Pool.Traced eff body other s₀ l ⟨s, ⟨m, i, p⟩ :: us, n, es⟩) (h : Leads eff m i p s p' s') :
    ∃ l', (∀ e ∈ l', e.number = m ∧ e.call = i) ∧ Pool.Traced eff body other s₀ (l' ++ l) ⟨s', ⟨m, i, p'⟩ :: us, n, es⟩ :=
  @Pool.Traced.leads _ _ _ _ _ _ eff body other s₀ l m i p p' s s' [] us n es ht h

/-- The second program goes on. -/
theorem Pool.Traced.second {t : Task ι Op Ans ε α} {us : List (Task ι Op Ans ε α)} {n : Nat}
    {es : List (Event ι ε α)} (ht : Pool.Traced eff body other s₀ l ⟨s, t :: ⟨m, i, p⟩ :: us, n, es⟩)
    (h : Leads eff m i p s p' s') : ∃ l', (∀ e ∈ l', e.number = m ∧ e.call = i) ∧
      Pool.Traced eff body other s₀ (l' ++ l) ⟨s', t :: ⟨m, i, p'⟩ :: us, n, es⟩ :=
  @Pool.Traced.leads _ _ _ _ _ _ eff body other s₀ l m i p p' s s' [t] us n es ht h

end Leads

/-- What holds between a call and those before it, holds pairwise. -/
theorem pairwise_of_split {τ : Type} {r : τ → τ → Prop} {l : List τ}
    (h : ∀ l₁ e l₀, l = l₁ ++ e :: l₀ → ∀ x ∈ l₀, r e x) : l.Pairwise r := by
  induction l with
  | nil => exact .nil
  | cons x l ih => exact .cons (h [] x l rfl) (ih fun l₁ e l₀ hl => h (x :: l₁) e l₀ (congrArg (x :: ·) hl))

/-- Calls are made as `eff` says. -/
theorem Pool.Traced.made (h : Pool.Traced eff body other s₀ l c) {e : Made ι Op Ans ε σ} (he : e ∈ l) :
    eff e.before e.answered.op e.answered.answer e.after := by
  induction h with
  | init => exact (List.not_mem_nil he).elim
  | call _ heff ih =>
    rcases List.mem_cons.mp he with rfl | he
    · exact heff
    · exact ih he
  | quiet _ _ ih => exact ih he

/-- The calls that one program made. -/
def callsOf (n : Nat) (l : List (Made ι Op Ans ε σ)) : List (Answered Op Ans ε) :=
  (l.filter fun e => e.number == n).map Made.answered

theorem mem_callsOf {n : Nat} {x : Answered Op Ans ε} :
    x ∈ callsOf n l ↔ ∃ e ∈ l, e.number = n ∧ e.answered = x := by
  simp [callsOf, and_assoc]

theorem callsOf_cons_ne {n : Nat} {e : Made ι Op Ans ε σ} (h : e.number ≠ n) : callsOf n (e :: l) = callsOf n l := by
  rw [callsOf, List.filter_cons_of_neg (by simpa using h), callsOf]

theorem callsOf_cons_self (m : Nat) (i : ι) (x : Answered Op Ans ε) (s s' : σ) :
    callsOf m (⟨m, i, x, s, s'⟩ :: l) = x :: callsOf m l := by
  rw [callsOf, List.filter_cons_of_pos (by simp), List.map_cons, callsOf]

/-- The programs are numbered, and have made the calls of their numbers. -/
structure Accounted (φ : ι → List (Answered Op Ans ε) → Op → Prop) (l : List (Made ι Op Ans ε σ))
    (c : Pool ι Op Ans ε α σ) : Prop where
  numbered : Numbered c
  made : ∀ e ∈ l, e.number < c.next
  running : ∀ t ∈ c.running, t.rest.Along (φ t.call) (fun _ _ => True) (callsOf t.number l)

variable {φ : ι → List (Answered Op Ans ε) → Op → Prop}

/-- A program ends. -/
theorem Accounted.ended {s : σ} {t : Task ι Op Ans ε α} {ts us : List (Task ι Op Ans ε α)} {n : Nat}
    {es es' : List (Event ι ε α)} (h : Accounted φ l ⟨s, ts ++ t :: us, n, es⟩) : Accounted φ l ⟨s, ts ++ us, n, es'⟩ := by
  have hnumbered : Numbered ⟨s, ts ++ ([] ++ us), n, es'⟩ := h.numbered.replace (Or.inl rfl)
  exact ⟨hnumbered, h.made, fun t ht => h.running t (mem_middle.mpr (Or.inr ht))⟩

/-- A step in which no call is answered keeps the accounts. -/
theorem Accounted.quiet (hbody : ∀ i, (body i).Along (φ i) (fun _ _ => True) []) (h : Accounted φ l c)
    (hs : Pool.Step (fun _ _ _ _ => False) body other c c') : Accounted φ l c' := by
  cases hs with
  | @start s ts n es i =>
    obtain ⟨⟨hp, hn⟩, hm, hr⟩ := h
    refine ⟨⟨List.pairwise_cons.mpr ⟨fun t ht => (hn t ht).ne', hp⟩, fun t ht => ?_⟩, fun e he => ?_, fun t ht => ?_⟩
    · rcases List.mem_cons.mp ht with rfl | ht
      · exact Nat.lt_succ_self n
      · exact Nat.lt_succ_of_lt (hn t ht)
    · exact Nat.lt_succ_of_lt (hm e he)
    · rcases List.mem_cons.mp ht with rfl | ht
      · have hnil : callsOf n l = [] := by
          rw [callsOf, List.map_eq_nil_iff, List.filter_eq_nil_iff]
          exact fun e he hn => (hm e he).ne (beq_iff_eq.mp hn)
        show (body i).Along _ _ (callsOf n l)
        rw [hnil]
        exact hbody i
      · exact hr t ht
  | call he => exact he.elim
  | done => exact h.ended
  | thrown => exact h.ended
  | other ho => exact ⟨h.numbered, h.made, h.running⟩
  | drop hd =>
    exact ⟨⟨h.numbered.1.sublist hd, fun t ht => h.numbered.2 t (hd.subset ht)⟩, h.made,
      fun t ht => h.running t (hd.subset ht)⟩

/-- A call that is answered is added to the account of its program. -/
theorem Accounted.call {s s' : σ} {m : Nat} {i : ι} {op : Op} {k : Except ε (Ans op) → Async Op Ans ε α}
    {a : Except ε (Ans op)} {ts us : List (Task ι Op Ans ε α)} {n : Nat} {es : List (Event ι ε α)}
    (h : Accounted φ l ⟨s, ts ++ ⟨m, i, .call op k⟩ :: us, n, es⟩) :
    φ i (callsOf m l) op ∧ Accounted φ (⟨m, i, ⟨op, a⟩, s, s'⟩ :: l) ⟨s', ts ++ ⟨m, i, k a⟩ :: us, n, es⟩ := by
  have hself : ⟨m, i, .call op k⟩ ∈ ts ++ (⟨m, i, .call op k⟩ : Task ι Op Ans ε α) :: us := mem_middle.mpr (Or.inl rfl)
  have hnumbered : Numbered ⟨s', ts ++ ([⟨m, i, k a⟩] ++ us), n, es⟩ := h.numbered.replace (Or.inr ⟨_, rfl, rfl⟩)
  obtain ⟨hcall, hrest⟩ := h.running ⟨m, i, .call op k⟩ hself
  have hothers : ∀ t ∈ ts ++ us, m ≠ t.number :=
    pairwise_others (r := fun t u : Task ι Op Ans ε α => t.number ≠ u.number) (fun h => h.symm) h.numbered.1
  refine ⟨hcall, hnumbered, fun e he => ?_, fun t ht => ?_⟩
  · rcases List.mem_cons.mp he with rfl | he
    · exact h.numbered.2 _ hself
    · exact h.made e he
  · rcases mem_middle.mp ht with rfl | ht
    · show (k a).Along _ _ (callsOf m _)
      rw [callsOf_cons_self]
      exact hrest a
    · rw [callsOf_cons_ne (hothers t ht)]
      exact h.running t (mem_middle.mpr (Or.inr ht))

/-- Every call in a run stands to the calls of its program before it as `φ` says. -/
theorem Pool.Traced.called (hbody : ∀ i, (body i).Along (φ i) (fun _ _ => True) [])
    (h : Pool.Traced eff body other s₀ l c) {l₁ l₀ : List (Made ι Op Ans ε σ)} {e : Made ι Op Ans ε σ}
    (hl : l = l₁ ++ e :: l₀) : φ e.call (callsOf e.number l₀) e.answered.op := by
  have haccounted : Accounted φ l c ∧ ∀ l₁ e l₀, l = l₁ ++ e :: l₀ → φ e.call (callsOf e.number l₀) e.answered.op := by
    clear hl
    induction h with
    | init =>
      refine ⟨⟨⟨List.Pairwise.nil, fun t ht => (List.not_mem_nil ht).elim⟩, fun e he => (List.not_mem_nil he).elim,
        fun t ht => (List.not_mem_nil ht).elim⟩, fun l₁ e l₀ hl => ?_⟩
      exact (List.append_ne_nil_of_right_ne_nil l₁ (List.cons_ne_nil e l₀) hl.symm).elim
    | call _ he ih =>
      obtain ⟨hcall, hacc⟩ := ih.1.call
      refine ⟨hacc, fun l₁ e l₀ hl => ?_⟩
      cases l₁ with
      | nil =>
        obtain ⟨rfl, rfl⟩ := List.cons.inj hl
        exact hcall
      | cons x l₁ => exact ih.2 l₁ e l₀ (List.cons.inj hl).2
    | quiet _ hs ih => exact ⟨ih.1.quiet hbody hs, ih.2⟩
  exact haccounted.2 l₁ e l₀ hl

/-- The programs are numbered, and have made the calls of their numbers, whatever these are. -/
theorem Pool.Traced.accounted (h : Pool.Traced eff body other s₀ l c) : Accounted (fun _ _ _ => True) l c := by
  have htrue : ∀ (p : Async Op Ans ε α) (h : List (Answered Op Ans ε)), p.Along (fun _ _ => True) (fun _ _ => True) h := by
    intro p
    induction p with
    | done a => exact fun _ => trivial
    | throw e => exact fun _ => trivial
    | call op k ih => exact fun _ => ⟨trivial, fun a => ih a _⟩
  induction h with
  | init =>
    exact ⟨⟨List.Pairwise.nil, fun t ht => (List.not_mem_nil ht).elim⟩, fun e he => (List.not_mem_nil he).elim,
      fun t ht => (List.not_mem_nil ht).elim⟩
  | call _ he ih => exact ih.call.2
  | quiet _ hs ih => exact ih.quiet (fun i => htrue _ _) hs

/-- Calls of one number are of one program, also of one that is running. -/
theorem Pool.Traced.same (h : Pool.Traced eff body other s₀ l c) :
    (∀ e ∈ l, ∀ e' ∈ l, e.number = e'.number → e.call = e'.call) ∧
      ∀ t ∈ c.running, ∀ e ∈ l, e.number = t.number → e.call = t.call := by
  induction h with
  | init => exact ⟨fun e he => (List.not_mem_nil he).elim, fun t ht => (List.not_mem_nil ht).elim⟩
  | @call l s s' m i op k a ts us n es h he ih =>
    obtain ⟨hsame, hrun⟩ := ih
    have hself : ∀ e ∈ l, e.number = m → e.call = i := hrun ⟨m, i, .call op k⟩ (mem_middle.mpr (Or.inl rfl))
    have hothers : ∀ t ∈ ts ++ us, m ≠ t.number :=
      pairwise_others (r := fun t u : Task ι Op Ans ε α => t.number ≠ u.number) (fun h => h.symm) h.accounted.numbered.1
    refine ⟨fun e he e' he' hn => ?_, fun t ht e he hn => ?_⟩
    · rcases List.mem_cons.mp he with rfl | he <;> rcases List.mem_cons.mp he' with rfl | he'
      · rfl
      · exact (hself e' he' hn.symm).symm
      · exact hself e he hn
      · exact hsame e he e' he' hn
    · rcases mem_middle.mp ht with rfl | ht
      · rcases List.mem_cons.mp he with rfl | he
        · rfl
        · exact hself e he hn
      · rcases List.mem_cons.mp he with rfl | he
        · exact absurd hn (hothers t ht)
        · exact hrun t (mem_middle.mpr (Or.inr ht)) e he hn
  | @quiet l c c' h hs ih =>
    obtain ⟨hsame, hrun⟩ := ih
    refine ⟨hsame, ?_⟩
    cases hs with
    | start i =>
      intro t ht e he hn
      rcases List.mem_cons.mp ht with rfl | ht
      · exact absurd (h.accounted.made e he) (by rw [hn]; exact Nat.lt_irrefl _)
      · exact hrun t ht e he hn
    | call he => exact he.elim
    | done => exact fun t ht => hrun t (mem_middle.mpr (Or.inr ht))
    | thrown => exact fun t ht => hrun t (mem_middle.mpr (Or.inr ht))
    | other ho => exact hrun
    | drop hd => exact fun t ht => hrun t (hd.subset ht)

end Pool

end Async
