import Mathlib

/-!
# Programs that await calls

`Async Op Ans ε α` is a program that awaits calls one after the other: it returns, it throws, or it awaits the call `op`
and goes on with the answer, which may be an exception. Between two calls others may run, and the program may never be
resumed.

Four ways to run it. `run` answers each call by a function on the state: nobody else runs. In `Runs` nobody else runs
either, but calls have any effect that a relation allows, and the program may be cut off. In `Amid` others take steps
between the calls. `Pool` is any number of programs that run in any interleaving. `Safe` is the rely-guarantee condition:
whatever the others do between the calls as far as `rely` says, every call keeps the invariant and changes the state as
`guar` says.

- `run_bind`: a sequence runs its first part and then the rest.
- `Safe.bind`: the rule of sequences.
- `Every.safe`: a program is safe when every call that it may make is.
- `Safe.runs`: a safe program that runs alone ends as it should, and keeps the invariant where it is cut off.
- `Safe.amid`: a safe program ends as it should whatever the others do.
- `Pool.reachable_inv`: safe programs keep the invariant in every run.
- `Pool.reachable_ended`: what safe programs have returned satisfies their postcondition in every later state.
-/

/-- A program that awaits calls. -/
inductive Async (Op : Type) (Ans : Op → Type) (ε α : Type) : Type
  | done (a : α)
  | throw (e : ε)
  | call (op : Op) (k : Except ε (Ans op) → Async Op Ans ε α)

namespace Async

variable {Op : Type} {Ans : Op → Type} {ε α γ σ : Type}

/-! ## Sequences -/

/-- The first program, then what is made of its value. -/
def bind : Async Op Ans ε α → (α → Async Op Ans ε γ) → Async Op Ans ε γ
  | done a, f => f a
  | throw e, _ => throw e
  | call op k, f => call op fun r => (k r).bind f

instance : Monad (Async Op Ans ε) where
  pure := done
  bind := bind

/-- One call. -/
def await (op : Op) : Async Op Ans ε (Ans op) :=
  call op fun
    | .ok a => done a
    | .error e => throw e

/-- `try`: what the program returned or threw. -/
def attempt : Async Op Ans ε α → Async Op Ans ε (Except ε α)
  | done a => done (.ok a)
  | throw e => done (.error e)
  | call op k => call op fun r => (k r).attempt

/-- A result that is already there. -/
def ofExcept : Except ε α → Async Op Ans ε α
  | .ok a => done a
  | .error e => throw e

@[simp] theorem pure_eq (a : α) : (pure a : Async Op Ans ε α) = done a := rfl

@[simp] theorem bind_eq (p : Async Op Ans ε α) (f : α → Async Op Ans ε γ) : (p >>= f) = p.bind f := rfl

@[simp] theorem done_bind (a : α) (f : α → Async Op Ans ε γ) : (done a : Async Op Ans ε α).bind f = f a := rfl

@[simp] theorem throw_bind (e : ε) (f : α → Async Op Ans ε γ) : (throw e : Async Op Ans ε α).bind f = throw e := rfl

@[simp] theorem call_bind (op : Op) (k : Except ε (Ans op) → Async Op Ans ε α) (f : α → Async Op Ans ε γ) :
    (call op k).bind f = call op fun r => (k r).bind f := rfl

theorem bind_assoc {δ : Type} (p : Async Op Ans ε α) (f : α → Async Op Ans ε γ) (g : γ → Async Op Ans ε δ) :
    (p.bind f).bind g = p.bind fun a => (f a).bind g := by
  induction p with
  | done a => rfl
  | throw e => rfl
  | call op k ih => exact congrArg (call op) (funext ih)

/-! ## Nobody else runs -/

section Run

variable (h : (op : Op) → σ → Except ε (Ans op) × σ)

/-- Each call is answered by the handler `h`. -/
def run : Async Op Ans ε α → σ → Except ε α × σ
  | done a, s => (.ok a, s)
  | throw e, s => (.error e, s)
  | call op k, s => (k (h op s).1).run (h op s).2

@[simp] theorem run_done (a : α) (s : σ) : (done a : Async Op Ans ε α).run h s = (.ok a, s) := rfl

@[simp] theorem run_throw (e : ε) (s : σ) : (throw e : Async Op Ans ε α).run h s = (.error e, s) := rfl

theorem run_await (op : Op) (s : σ) : (await op : Async Op Ans ε (Ans op)).run h s = h op s := by
  rw [await, run]
  cases he : (h op s).1 <;> simp [run, Prod.ext_iff, he]

/-- A sequence runs its first part and then the rest. -/
theorem run_bind (p : Async Op Ans ε α) (f : α → Async Op Ans ε γ) (s : σ) :
    (p.bind f).run h s = match p.run h s with
      | (.ok a, s') => (f a).run h s'
      | (.error e, s') => (.error e, s') := by
  induction p generalizing s with
  | done a => rfl
  | throw e => rfl
  | call op k ih => exact ih _ _

/-- A sequence that returns. -/
theorem run_bind_ok {p : Async Op Ans ε α} {f : α → Async Op Ans ε γ} {s s'' : σ} {c : γ} :
    (p.bind f).run h s = (.ok c, s'') ↔ ∃ a s', p.run h s = (.ok a, s') ∧ (f a).run h s' = (.ok c, s'') := by
  rw [run_bind]
  constructor
  · intro hr
    rcases hp : p.run h s with ⟨_ | a, s'⟩
    · rw [hp] at hr
      cases hr
    · rw [hp] at hr
      exact ⟨a, s', rfl, hr⟩
  · rintro ⟨a, s', hp, hf⟩
    rw [hp]
    exact hf

end Run

/-! ## Rely and guarantee -/

/-- What the steps of a program and of the others are taken from: the effect of a call with its answer, the steps of the
others, the steps that others rely on, and the invariant. -/
structure Rules (Op : Type) (Ans : Op → Type) (ε σ : Type) where
  eff : σ → (op : Op) → Except ε (Ans op) → σ → Prop
  rely : σ → σ → Prop
  guar : σ → σ → Prop
  inv : σ → Prop

/-- Between any two calls the others take steps that `rely` allows. Every call of the program keeps the invariant and is
a step that `guar` allows, and what it returns or throws satisfies `Q` where it ends. -/
def Safe (R : Rules Op Ans ε σ) (Q : Except ε α → σ → Prop) : Async Op Ans ε α → σ → Prop
  | done a, s => Q (.ok a) s
  | throw e, s => Q (.error e) s
  | call op k, s => ∀ s₁, R.rely s s₁ → R.inv s₁ → ∀ a s₂, R.eff s₁ op a s₂ →
      R.inv s₂ ∧ R.guar s₁ s₂ ∧ (k a).Safe R Q s₂

section Safe

variable {R : Rules Op Ans ε σ} {Q Q' : Except ε α → σ → Prop} {s s' : σ}

theorem Safe.mono {p : Async Op Ans ε α} (h : p.Safe R Q s) (hq : ∀ r s, Q r s → Q' r s) : p.Safe R Q' s := by
  induction p generalizing s with
  | done a => exact hq _ _ h
  | throw e => exact hq _ _ h
  | call op k ih =>
    intro s₁ hs₁ hi a s₂ he
    obtain ⟨h1, h2, h3⟩ := h s₁ hs₁ hi a s₂ he
    exact ⟨h1, h2, ih a h3⟩

/-- The rule of sequences. -/
theorem Safe.bind {p : Async Op Ans ε α} {f : α → Async Op Ans ε γ} {Q' : Except ε γ → σ → Prop}
    (h : p.Safe R (fun r s => match r with
      | .ok a => (f a).Safe R Q' s
      | .error e => Q' (.error e) s) s) : (p.bind f).Safe R Q' s := by
  induction p generalizing s with
  | done a => exact h
  | throw e => exact h
  | call op k ih =>
    intro s₁ hs₁ hi a s₂ he
    obtain ⟨h1, h2, h3⟩ := h s₁ hs₁ hi a s₂ he
    exact ⟨h1, h2, ih a h3⟩

/-- The rule of `try`. -/
theorem Safe.attempt {p : Async Op Ans ε α} {Q : Except ε (Except ε α) → σ → Prop}
    (h : p.Safe R (fun r s => Q (.ok r) s) s) : p.attempt.Safe R Q s := by
  induction p generalizing s with
  | done a => exact h
  | throw e => exact h
  | call op k ih =>
    intro s₁ hs₁ hi a s₂ he
    obtain ⟨h1, h2, h3⟩ := h s₁ hs₁ hi a s₂ he
    exact ⟨h1, h2, ih a h3⟩

/-- The rule of one call. -/
theorem Safe.await {op : Op} {Q : Except ε (Ans op) → σ → Prop}
    (h : ∀ s₁, R.rely s s₁ → R.inv s₁ → ∀ a s₂, R.eff s₁ op a s₂ → R.inv s₂ ∧ R.guar s₁ s₂ ∧ Q a s₂) :
    (await op : Async Op Ans ε (Ans op)).Safe R Q s := by
  intro s₁ hs₁ hi a s₂ he
  obtain ⟨h1, h2, h3⟩ := h s₁ hs₁ hi a s₂ he
  refine ⟨h1, h2, ?_⟩
  cases a <;> exact h3

/-- What is already there. -/
theorem Safe.ofExcept {r : Except ε α} (h : Q r s) : (ofExcept r : Async Op Ans ε α).Safe R Q s := by
  cases r <;> exact h

/-- A program that has not started waits. -/
theorem Safe.rely {p : Async Op Ans ε α} (ht : ∀ {s₁ s₂ s₃}, R.rely s₁ s₂ → R.rely s₂ s₃ → R.rely s₁ s₃)
    (hq : ∀ r {s s'}, R.rely s s' → Q r s → Q r s') (h : p.Safe R Q s) (hr : R.rely s s') : p.Safe R Q s' := by
  cases p with
  | done a => exact hq _ hr h
  | throw e => exact hq _ hr h
  | call op k => exact fun s₁ hs₁ => h s₁ (ht hr hs₁)

end Safe

/-! ## What a program calls -/

/-- Every call that the program may make satisfies `φ`. -/
def Every (φ : Op → Prop) : Async Op Ans ε α → Prop
  | done _ => True
  | throw _ => True
  | call op k => φ op ∧ ∀ a, (k a).Every φ

section Every

variable {φ : Op → Prop}

theorem Every.mono {ψ : Op → Prop} (h : ∀ op, φ op → ψ op) {p : Async Op Ans ε α} (hp : p.Every φ) : p.Every ψ := by
  induction p with
  | done a => exact trivial
  | throw e => exact trivial
  | call op k ih => exact ⟨h op hp.1, fun a => ih a (hp.2 a)⟩

theorem Every.bind {p : Async Op Ans ε α} {f : α → Async Op Ans ε γ} (hp : p.Every φ) (hf : ∀ a, (f a).Every φ) :
    (p.bind f).Every φ := by
  induction p with
  | done a => exact hf a
  | throw e => exact trivial
  | call op k ih => exact ⟨hp.1, fun a => ih a (hp.2 a)⟩

theorem Every.attempt {p : Async Op Ans ε α} (hp : p.Every φ) : p.attempt.Every φ := by
  induction p with
  | done a => exact trivial
  | throw e => exact trivial
  | call op k ih => exact ⟨hp.1, fun a => ih a (hp.2 a)⟩

theorem Every.await {op : Op} (h : φ op) : (await op : Async Op Ans ε (Ans op)).Every φ :=
  ⟨h, fun a => by cases a <;> exact trivial⟩

/-- Where every call that satisfies `φ` keeps the invariant and the guarantee, so does a program of such calls. -/
theorem Every.safe {R : Rules Op Ans ε σ}
    (hφ : ∀ op, φ op → ∀ s a s', R.inv s → R.eff s op a s' → R.inv s' ∧ R.guar s s') {p : Async Op Ans ε α} {s : σ}
    (hp : p.Every φ) : p.Safe R (fun _ _ => True) s := by
  induction p generalizing s with
  | done a => exact trivial
  | throw e => exact trivial
  | call op k ih =>
    intro s₁ _ hi a s₂ he
    obtain ⟨h1, h2⟩ := hφ op hp.1 s₁ a s₂ hi he
    exact ⟨h1, h2, ih a (hp.2 a)⟩

end Every

/-! ## One program alone -/

/-- A run of one program: what it returns or throws, or `none` where it is cut off. -/
inductive Runs (eff : σ → (op : Op) → Except ε (Ans op) → σ → Prop) :
    Async Op Ans ε α → σ → Option (Except ε α) → σ → Prop
  | done (a : α) (s : σ) : Runs eff (.done a) s (some (.ok a)) s
  | throw (e : ε) (s : σ) : Runs eff (.throw e) s (some (.error e)) s
  | call {op : Op} {k : Except ε (Ans op) → Async Op Ans ε α} {s s' s'' : σ} {a : Except ε (Ans op)}
    {r : Option (Except ε α)} (he : eff s op a s') (hr : Runs eff (k a) s' r s'') : Runs eff (.call op k) s r s''
  | cut (p : Async Op Ans ε α) (s : σ) : Runs eff p s none s

/-- A sequence runs its first part and then the rest. -/
theorem Runs.bind {eff : σ → (op : Op) → Except ε (Ans op) → σ → Prop} {p : Async Op Ans ε α} {f : α → Async Op Ans ε γ}
    {s s' s'' : σ} {a : α} {r : Option (Except ε γ)} (hp : Runs eff p s (some (.ok a)) s')
    (hf : Runs eff (f a) s' r s'') : Runs eff (p.bind f) s r s'' := by
  generalize hx : (some (.ok a) : Option (Except ε α)) = x at hp
  induction hp with
  | done b s =>
    cases hx
    exact hf
  | throw e s => cases hx
  | call he _ ih => exact .call he (ih hf hx)
  | cut p s => cases hx

/-- A sequence throws what its first part throws. -/
theorem Runs.bind_error {eff : σ → (op : Op) → Except ε (Ans op) → σ → Prop} {p : Async Op Ans ε α}
    {f : α → Async Op Ans ε γ} {s s' : σ} {e : ε} (hp : Runs eff p s (some (.error e)) s') :
    Runs eff (p.bind f) s (some (.error e)) s' := by
  generalize hx : (some (.error e) : Option (Except ε α)) = x at hp
  induction hp with
  | done b s => cases hx
  | throw e' s =>
    cases hx
    exact .throw _ _
  | call he _ ih => exact .call he (ih hx)
  | cut p s => cases hx

/-- `try` runs its program. -/
theorem Runs.attempt {eff : σ → (op : Op) → Except ε (Ans op) → σ → Prop} {p : Async Op Ans ε α} {s s' : σ}
    {r : Except ε α} (hp : Runs eff p s (some r) s') : Runs eff p.attempt s (some (.ok r)) s' := by
  generalize hx : some r = x at hp
  induction hp with
  | done b s =>
    cases hx
    exact .done _ _
  | throw e s =>
    cases hx
    exact .done _ _
  | call he _ ih => exact .call he (ih hx)
  | cut p s => cases hx

/-- A sequence is cut off in its first part. -/
theorem Runs.bind_cut {eff : σ → (op : Op) → Except ε (Ans op) → σ → Prop} {p : Async Op Ans ε α}
    {f : α → Async Op Ans ε γ} {s s' : σ} (hp : Runs eff p s none s') : Runs eff (p.bind f) s none s' := by
  generalize hx : (none : Option (Except ε α)) = x at hp
  induction hp with
  | done b s => cases hx
  | throw e s => cases hx
  | call he _ ih => exact .call he (ih hx)
  | cut p s => exact .cut _ _

/-- `try` is cut off with its program. -/
theorem Runs.attempt_cut {eff : σ → (op : Op) → Except ε (Ans op) → σ → Prop} {p : Async Op Ans ε α} {s s' : σ}
    (hp : Runs eff p s none s') : Runs eff p.attempt s none s' := by
  generalize hx : (none : Option (Except ε α)) = x at hp
  induction hp with
  | done b s => cases hx
  | throw e s => cases hx
  | call he _ ih => exact .call he (ih hx)
  | cut p s => exact .cut _ _

/-- What every call keeps, a run keeps. -/
theorem Runs.inv {eff : σ → (op : Op) → Except ε (Ans op) → σ → Prop} {inv : σ → Prop}
    (hstep : ∀ {s op a s'}, eff s op a s' → inv s → inv s') {p : Async Op Ans ε α} {s s' : σ} {r : Option (Except ε α)}
    (hr : Runs eff p s r s') (hi : inv s) : inv s' := by
  induction hr with
  | done a s => exact hi
  | throw e s => exact hi
  | call he _ ih => exact ih (hstep he hi)
  | cut p s => exact hi

/-- A sequence that returns has run its first part and then the rest. -/
theorem Runs.bind_inv {eff : σ → (op : Op) → Except ε (Ans op) → σ → Prop} {p : Async Op Ans ε α}
    {f : α → Async Op Ans ε γ} {c : γ} {s s'' : σ} (h : Runs eff (p.bind f) s (some (.ok c)) s'') :
    ∃ a s', Runs eff p s (some (.ok a)) s' ∧ Runs eff (f a) s' (some (.ok c)) s'' := by
  induction p generalizing s with
  | done a => exact ⟨a, s, .done a s, h⟩
  | throw e => cases h
  | call op k ih =>
    cases h with
    | call he hr =>
      obtain ⟨a, s', h1, h2⟩ := ih _ hr
      exact ⟨a, s', .call he h1, h2⟩

/-- What every call of the program keeps, a run of it keeps. -/
theorem Every.runs {eff : σ → (op : Op) → Except ε (Ans op) → σ → Prop} {φ : Op → Prop} {I : σ → Prop}
    (hφ : ∀ op, φ op → ∀ s a s', eff s op a s' → I s → I s') {p : Async Op Ans ε α} {s s' : σ}
    {r : Option (Except ε α)} (hp : p.Every φ) (hr : Runs eff p s r s') (hi : I s) : I s' := by
  induction hr with
  | done a s => exact hi
  | throw e s => exact hi
  | call he _ ih => exact ih (hp.2 _) (hφ _ hp.1 _ _ _ he hi)
  | cut p s => exact hi

/-- A safe program that runs alone ends as it should, and keeps the invariant where it is cut off. -/
theorem Safe.runs {R : Rules Op Ans ε σ} {Q : Except ε α → σ → Prop} (hR : ∀ s, R.rely s s) {p : Async Op Ans ε α}
    {s s' : σ} {r : Option (Except ε α)} (hr : Runs R.eff p s r s') (hi : R.inv s) (h : p.Safe R Q s) :
    R.inv s' ∧ ∀ x, r = some x → Q x s' := by
  induction hr with
  | done a s => exact ⟨hi, fun x hx => Option.some.inj hx ▸ h⟩
  | throw e s => exact ⟨hi, fun x hx => Option.some.inj hx ▸ h⟩
  | call he _ ih =>
    obtain ⟨h1, -, h2⟩ := h _ (hR _) hi _ _ he
    exact ih h1 h2
  | cut p s => exact ⟨hi, fun x hx => nomatch hx⟩

/-- Where every call may have the same effect, a run is one of those. -/
theorem Runs.mono {eff eff' : σ → (op : Op) → Except ε (Ans op) → σ → Prop}
    (he : ∀ {s op a s'}, eff s op a s' → eff' s op a s') {p : Async Op Ans ε α} {s s' : σ} {r : Option (Except ε α)}
    (h : Runs eff p s r s') : Runs eff' p s r s' := by
  induction h with
  | done a s => exact .done a s
  | throw e s => exact .throw e s
  | call hes _ ih => exact .call (he hes) ih
  | cut p s => exact .cut p s

/-! ## One program among others -/

/-- A run of one program to its end, with steps of the others before each call. -/
inductive Amid (eff : σ → (op : Op) → Except ε (Ans op) → σ → Prop) (other : σ → σ → Prop) :
    Async Op Ans ε α → σ → Except ε α → σ → Prop
  | done (a : α) (s : σ) : Amid eff other (.done a) s (.ok a) s
  | throw (e : ε) (s : σ) : Amid eff other (.throw e) s (.error e) s
  | call {op : Op} {k : Except ε (Ans op) → Async Op Ans ε α} {s s₁ s₂ s' : σ} {a : Except ε (Ans op)} {r : Except ε α}
    (ho : other s s₁) (he : eff s₁ op a s₂) (hr : Amid eff other (k a) s₂ r s') : Amid eff other (.call op k) s r s'

/-- A safe program ends as it should whatever the others do. -/
theorem Safe.amid {R : Rules Op Ans ε σ} {Q : Except ε α → σ → Prop} {other : σ → σ → Prop}
    (ho : ∀ {s s'}, other s s' → R.rely s s') (hi : ∀ {s s'}, other s s' → R.inv s → R.inv s') {p : Async Op Ans ε α}
    {s s' : σ} {r : Except ε α} (hr : Amid R.eff other p s r s') (hs : R.inv s) (h : p.Safe R Q s) :
    R.inv s' ∧ Q r s' := by
  induction hr with
  | done a s => exact ⟨hs, h⟩
  | throw e s => exact ⟨hs, h⟩
  | call hos he _ ih =>
    obtain ⟨h1, -, h2⟩ := h _ (ho hos) (hi hos hs) _ _ he
    exact ih h1 h2

/-- A run alone is a run among others that do nothing. -/
theorem Runs.amid {eff : σ → (op : Op) → Except ε (Ans op) → σ → Prop} {other : σ → σ → Prop} (ho : ∀ s, other s s)
    {p : Async Op Ans ε α} {s s' : σ} {r : Except ε α} (h : Runs eff p s (some r) s') : Amid eff other p s r s' := by
  generalize hx : some r = x at h
  induction h with
  | done a s =>
    cases hx
    exact .done _ _
  | throw e s =>
    cases hx
    exact .throw _ _
  | call he _ ih => exact .call (ho _) he (ih hx)
  | cut p s => cases hx

/-- Others take a step before a program that makes a call. -/
theorem Amid.later {eff : σ → (op : Op) → Except ε (Ans op) → σ → Prop} {other : σ → σ → Prop} {op : Op}
    {k : Except ε (Ans op) → Async Op Ans ε α} {s s₁ s' : σ} {r : Except ε α}
    (ht : ∀ {s₁ s₂ s₃}, other s₁ s₂ → other s₂ s₃ → other s₁ s₃) (ho : other s s₁)
    (h : Amid eff other (.call op k) s₁ r s') : Amid eff other (.call op k) s r s' := by
  cases h with
  | call hos he hr => exact .call (ht ho hos) he hr

/-! ## Programs in any interleaving -/

/-- What the rely condition has to be when programs run beside each other. -/
structure Rules.Stable (R : Rules Op Ans ε σ) : Prop where
  refl : ∀ s, R.rely s s
  trans : ∀ {s₁ s₂ s₃}, R.rely s₁ s₂ → R.rely s₂ s₃ → R.rely s₁ s₃
  guar : ∀ {s s'}, R.guar s s' → R.rely s s'
  inv : ∀ {s s'}, R.rely s s' → R.inv s → R.inv s'

/-- What is seen from outside: the program number `n` for the call `i` has started, or has returned or thrown `r`. -/
inductive Event (ι ε α : Type)
  | started (n : Nat) (i : ι)
  | ended (n : Nat) (i : ι) (r : Except ε α)

/-- A program with its number and the call it is for. -/
structure Task (ι Op : Type) (Ans : Op → Type) (ε α : Type) where
  number : Nat
  call : ι
  rest : Async Op Ans ε α

/-- Programs that run beside each other on one state, how many have started, and what was seen, the newest first. -/
structure Pool (ι Op : Type) (Ans : Op → Type) (ε α σ : Type) where
  state : σ
  running : List (Task ι Op Ans ε α)
  next : Nat
  log : List (Event ι ε α)

section Pool

theorem mem_middle {τ : Type} {t u : τ} {ts us : List τ} : t ∈ ts ++ u :: us ↔ t = u ∨ t ∈ ts ++ us := by
  rw [List.perm_middle.mem_iff, List.mem_cons]

/-- A symmetric relation that holds pairwise holds between one element and the others. -/
theorem pairwise_others {τ : Type} {r : τ → τ → Prop} (hr : ∀ {t u}, r t u → r u t) {u : τ} {ts us : List τ}
    (h : (ts ++ u :: us).Pairwise r) : ∀ t ∈ ts ++ us, r u t :=
  (List.pairwise_cons.mp ((List.pairwise_middle hr).mp h)).1

variable {ι : Type} (eff : σ → (op : Op) → Except ε (Ans op) → σ → Prop) (body : ι → Async Op Ans ε α)
  (other : σ → σ → Prop)

/-- One step: a call is made, a program has its next call answered or ends, something else changes the state, or programs
are dropped, as in a crash. -/
inductive Pool.Step : Pool ι Op Ans ε α σ → Pool ι Op Ans ε α σ → Prop
  | start {s : σ} {ts : List (Task ι Op Ans ε α)} {n : Nat} {es : List (Event ι ε α)} (i : ι) :
    Step ⟨s, ts, n, es⟩ ⟨s, ⟨n, i, body i⟩ :: ts, n + 1, .started n i :: es⟩
  | call {s s' : σ} {m : Nat} {i : ι} {op : Op} {k : Except ε (Ans op) → Async Op Ans ε α} {a : Except ε (Ans op)}
    {ts us : List (Task ι Op Ans ε α)} {n : Nat} {es : List (Event ι ε α)} (h : eff s op a s') :
    Step ⟨s, ts ++ ⟨m, i, .call op k⟩ :: us, n, es⟩ ⟨s', ts ++ ⟨m, i, k a⟩ :: us, n, es⟩
  | done {s : σ} {m : Nat} {i : ι} {a : α} {ts us : List (Task ι Op Ans ε α)} {n : Nat} {es : List (Event ι ε α)} :
    Step ⟨s, ts ++ ⟨m, i, .done a⟩ :: us, n, es⟩ ⟨s, ts ++ us, n, .ended m i (.ok a) :: es⟩
  | thrown {s : σ} {m : Nat} {i : ι} {e : ε} {ts us : List (Task ι Op Ans ε α)} {n : Nat} {es : List (Event ι ε α)} :
    Step ⟨s, ts ++ ⟨m, i, .throw e⟩ :: us, n, es⟩ ⟨s, ts ++ us, n, .ended m i (.error e) :: es⟩
  | other {s s' : σ} {ts : List (Task ι Op Ans ε α)} {n : Nat} {es : List (Event ι ε α)} (h : other s s') :
    Step ⟨s, ts, n, es⟩ ⟨s', ts, n, es⟩
  | drop {s : σ} {ts us : List (Task ι Op Ans ε α)} {n : Nat} {es : List (Event ι ε α)} (h : ts.Sublist us) :
    Step ⟨s, us, n, es⟩ ⟨s, ts, n, es⟩

/-- The pools that steps which satisfy `ok` lead to from the state `s₀`. -/
inductive Pool.Reachable (ok : Pool ι Op Ans ε α σ → Pool ι Op Ans ε α σ → Prop) (s₀ : σ) :
    Pool ι Op Ans ε α σ → Prop
  | init : Reachable ok s₀ ⟨s₀, [], 0, []⟩
  | step {c c' : Pool ι Op Ans ε α σ} (h : Reachable ok s₀ c) (hs : Pool.Step eff body other c c') (hok : ok c c') :
    Reachable ok s₀ c'

variable {eff body other} {s s' : σ} {t : Task ι Op Ans ε α} {us : List (Task ι Op Ans ε α)} {m n : Nat} {i : ι} {op : Op}
  {k : Except ε (Ans op) → Async Op Ans ε α} {a : Except ε (Ans op)} {es : List (Event ι ε α)}

/-- The first program has its call answered. -/
theorem Pool.Step.first (h : eff s op a s') :
    Pool.Step eff body other ⟨s, ⟨m, i, .call op k⟩ :: us, n, es⟩ ⟨s', ⟨m, i, k a⟩ :: us, n, es⟩ :=
  @Step.call _ _ _ _ _ _ eff body other s s' m i op k a [] us n es h

/-- The second program has its call answered. -/
theorem Pool.Step.second (h : eff s op a s') :
    Pool.Step eff body other ⟨s, t :: ⟨m, i, .call op k⟩ :: us, n, es⟩ ⟨s', t :: ⟨m, i, k a⟩ :: us, n, es⟩ :=
  @Step.call _ _ _ _ _ _ eff body other s s' m i op k a [t] us n es h

/-- The first program returns. -/
theorem Pool.Step.firstDone {b : α} : Pool.Step eff body other ⟨s, ⟨m, i, .done b⟩ :: us, n, es⟩
    ⟨s, us, n, .ended m i (.ok b) :: es⟩ :=
  @Step.done _ _ _ _ _ _ eff body other s m i b [] us n es

/-- The first program runs to its end while the others wait. -/
theorem Pool.Reachable.finish {s₀ : σ} {p : Async Op Ans ε α} {r : Except ε α} (hr : Runs eff p s (some r) s')
    (h : Pool.Reachable eff body other (fun _ _ => True) s₀ ⟨s, ⟨m, i, p⟩ :: us, n, es⟩) :
    Pool.Reachable eff body other (fun _ _ => True) s₀ ⟨s', us, n, .ended m i r :: es⟩ := by
  generalize hx : some r = x at hr
  induction hr with
  | done b s =>
    cases hx
    exact .step h .firstDone trivial
  | throw e s =>
    cases hx
    exact .step h (@Step.thrown _ _ _ _ _ _ eff body other s m i e [] us n es) trivial
  | call he _ ih => exact ih (.step h (.first he) trivial) hx
  | cut p s => cases hx

/-- The first program runs as far as it is cut off, and is dropped. -/
theorem Pool.Reachable.drop {s₀ : σ} {p : Async Op Ans ε α} (hr : Runs eff p s none s')
    (h : Pool.Reachable eff body other (fun _ _ => True) s₀ ⟨s, ⟨m, i, p⟩ :: us, n, es⟩) :
    Pool.Reachable eff body other (fun _ _ => True) s₀ ⟨s', us, n, es⟩ := by
  generalize hx : (none : Option (Except ε α)) = x at hr
  induction hr with
  | done b s => cases hx
  | throw e s => cases hx
  | call he _ ih => exact ih (.step h (.first he) trivial) hx
  | cut p s => exact .step h (.drop (List.sublist_cons_self _ _)) trivial

end Pool

/-- A pool of safe programs keeps the invariant in every run, its programs stay safe, and what has ended satisfies the
postcondition of its call for good. -/
theorem Pool.reachable_ended {ι : Type} {R : Rules Op Ans ε σ} (hR : R.Stable) {body : ι → Async Op Ans ε α}
    {other : σ → σ → Prop} (hother : ∀ {s s'}, other s s' → R.rely s s')
    {ok : Pool ι Op Ans ε α σ → Pool ι Op Ans ε α σ → Prop} {Q : ι → Except ε α → σ → Prop}
    (hQ : ∀ i r {s s'}, R.rely s s' → Q i r s → Q i r s') (hbody : ∀ i s, R.inv s → (body i).Safe R (Q i) s)
    {s₀ : σ} (h₀ : R.inv s₀) {c : Pool ι Op Ans ε α σ} (h : Pool.Reachable R.eff body other ok s₀ c) :
    R.inv c.state ∧ (∀ t ∈ c.running, t.rest.Safe R (Q t.call) c.state) ∧
      ∀ n i r, .ended n i r ∈ c.log → Q i r c.state := by
  induction h with
  | init => exact ⟨h₀, fun p hp => (List.not_mem_nil hp).elim, fun n i r hm => (List.not_mem_nil hm).elim⟩
  | step _ hs _ ih =>
    obtain ⟨hinv, hsafe, hended⟩ := ih
    have hwait : ∀ {i : ι} {p : Async Op Ans ε α} {s s'}, p.Safe R (Q i) s → R.rely s s' → p.Safe R (Q i) s' :=
      fun {i} _ _ _ hp hr => hp.rely hR.trans (hQ i) hr
    cases hs with
    | start i =>
      refine ⟨hinv, fun t ht => ?_, fun n j r hm => hended n j r ?_⟩
      · rcases List.mem_cons.mp ht with rfl | ht
        · exact hbody i _ hinv
        · exact hsafe t ht
      · exact (List.mem_cons.mp hm).resolve_left fun h => by cases h
    | @call s s' m i op k a ts us n es he =>
      obtain ⟨hi, hg, hk⟩ := hsafe ⟨m, i, .call op k⟩ (mem_middle.mpr (Or.inl rfl)) s (hR.refl s) hinv a s' he
      refine ⟨hi, fun t ht => ?_, fun n j r hm => hQ j r (hR.guar hg) (hended n j r hm)⟩
      rcases mem_middle.mp ht with rfl | ht
      · exact hk
      · exact hwait (hsafe t (mem_middle.mpr (Or.inr ht))) (hR.guar hg)
    | @done s m i a ts us n es =>
      refine ⟨hinv, fun t ht => hsafe t (mem_middle.mpr (Or.inr ht)), fun n j r hm => ?_⟩
      rcases List.mem_cons.mp hm with he | hm
      · cases he
        exact hsafe ⟨m, i, .done a⟩ (mem_middle.mpr (Or.inl rfl))
      · exact hended n j r hm
    | @thrown s m i e ts us n es =>
      refine ⟨hinv, fun t ht => hsafe t (mem_middle.mpr (Or.inr ht)), fun n j r hm => ?_⟩
      rcases List.mem_cons.mp hm with he | hm
      · cases he
        exact hsafe ⟨m, i, .throw e⟩ (mem_middle.mpr (Or.inl rfl))
      · exact hended n j r hm
    | other hr =>
      exact ⟨hR.inv (hother hr) hinv, fun t ht => hwait (hsafe t ht) (hother hr),
        fun n j r hm => hQ j r (hother hr) (hended n j r hm)⟩
    | drop hd => exact ⟨hinv, fun t ht => hsafe t (hd.subset ht), hended⟩

/-- A pool of safe programs keeps the invariant in every run. -/
theorem Pool.reachable_inv {ι : Type} {R : Rules Op Ans ε σ} (hR : R.Stable) {body : ι → Async Op Ans ε α}
    {other : σ → σ → Prop} (hother : ∀ {s s'}, other s s' → R.rely s s')
    {ok : Pool ι Op Ans ε α σ → Pool ι Op Ans ε α σ → Prop}
    (hbody : ∀ i s, R.inv s → (body i).Safe R (fun _ _ => True) s) {s₀ : σ} (h₀ : R.inv s₀) {c : Pool ι Op Ans ε α σ}
    (h : Pool.Reachable R.eff body other ok s₀ c) : R.inv c.state :=
  (Pool.reachable_ended hR hother (Q := fun _ _ _ => True) (fun _ _ _ _ _ => id) hbody h₀ h).1

end Async
