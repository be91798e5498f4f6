import Mathlib

/-!
# Writes that are interrupted

A change gives some keys of a store a new value or none. Changes are made one after the other until one of them fails, with
or without its effect; `Fault` says which.

- `applyAll_apply`, `applyAll_eq_iff`: what is stored under a key is what was written there last, and a sequence of changes
  is without effect exactly if the last value it writes under each key is the one that was there.
- `applyAll_untouched`, `applyAll_agreed`: a key that no change is of, and one whose changes agree.
- `interrupted_append`: a sequence is interrupted in its first part or, if that goes through, in the rest.
-/

namespace Interrupt

variable {K V : Type}

/-- The new value of every key that is changed. -/
abbrev Change (K V : Type) := K → Option (Option V)

/-- A store after a change. -/
def Change.apply (store : K → Option V) (c : Change K V) (key : K) : Option V := (c key).getD (store key)

/-- A store after changes one after the other. -/
def applyAll (cs : List (Change K V)) (store : K → Option V) : K → Option V := cs.foldl Change.apply store

/-- The value that is written last under a key. -/
def lastValue (key : K) : List (Change K V) → Option (Option V)
  | [] => none
  | c :: cs => (lastValue key cs).or (c key)

theorem applyAll_append (cs ds : List (Change K V)) (store : K → Option V) :
    applyAll (cs ++ ds) store = applyAll ds (applyAll cs store) := List.foldl_append

/-- What is stored under a key is what was written there last. -/
theorem applyAll_apply (cs : List (Change K V)) (store : K → Option V) (key : K) :
    applyAll cs store key = (lastValue key cs).getD (store key) := by
  induction cs generalizing store with
  | nil => rfl
  | cons c cs ih =>
    show applyAll cs (Change.apply store c) key = _
    rw [ih, lastValue]
    cases lastValue key cs with
    | none => rfl
    | some v => rfl

/-- Changes are without effect exactly if the last value under each key is the one that was there. -/
theorem applyAll_eq_iff {cs : List (Change K V)} {store : K → Option V} :
    applyAll cs store = store ↔ ∀ key v, lastValue key cs = some v → store key = v := by
  constructor
  · intro h key v hv
    rw [← h, applyAll_apply, hv]
    rfl
  · intro h
    funext key
    rw [applyAll_apply]
    cases hl : lastValue key cs with
    | none => rfl
    | some v => exact (h key v hl).symm

/-- A key that no change is of. -/
theorem lastValue_eq_none {cs : List (Change K V)} {key : K} (h : ∀ c ∈ cs, c key = none) : lastValue key cs = none := by
  induction cs with
  | nil => rfl
  | cons c cs ih =>
    rw [lastValue, ih fun c' hc => h c' (List.mem_cons_of_mem _ hc), h c List.mem_cons_self]
    rfl

/-- Some change gives the key this value. -/
def Writes (cs : List (Change K V)) (key : K) (v : Option V) : Prop := ∃ c ∈ cs, c key = some v

@[simp] theorem writes_nil {key : K} {v : Option V} : Writes [] key v ↔ False := by simp [Writes]

@[simp] theorem writes_cons {c : Change K V} {cs : List (Change K V)} {key : K} {v : Option V} :
    Writes (c :: cs) key v ↔ c key = some v ∨ Writes cs key v := by simp [Writes]

@[simp] theorem writes_append {cs ds : List (Change K V)} {key : K} {v : Option V} :
    Writes (cs ++ ds) key v ↔ Writes cs key v ∨ Writes ds key v := by simp [Writes, or_and_right, exists_or]

@[simp] theorem writes_flatMap {α : Type} {l : List α} {f : α → List (Change K V)} {key : K} {v : Option V} :
    Writes (l.flatMap f) key v ↔ ∃ x ∈ l, Writes (f x) key v := by
  simp only [Writes, List.mem_flatMap]
  constructor
  · rintro ⟨c, ⟨x, hx, hc⟩, hv⟩
    exact ⟨x, hx, c, hc, hv⟩
  · rintro ⟨x, hx, c, hc, hv⟩
    exact ⟨c, ⟨x, hx, hc⟩, hv⟩

/-- The last value is one that is written. -/
theorem writes_of_lastValue {cs : List (Change K V)} {key : K} {v : Option V} (h : lastValue key cs = some v) :
    Writes cs key v := by
  induction cs with
  | nil => cases h
  | cons c cs ih =>
    rw [lastValue] at h
    rw [writes_cons]
    cases hl : lastValue key cs with
    | some w =>
      rw [hl] at h
      cases h
      exact Or.inr (ih hl)
    | none =>
      rw [hl] at h
      exact Or.inl h

/-- A key whose changes agree. -/
theorem lastValue_eq_some {cs : List (Change K V)} {key : K} {v : Option V} (hv : Writes cs key v)
    (hu : ∀ w, Writes cs key w → w = v) : lastValue key cs = some v := by
  induction cs with
  | nil => exact (writes_nil.mp hv).elim
  | cons c cs ih =>
    rw [lastValue]
    cases hl : lastValue key cs with
    | some w =>
      rw [hu w (writes_cons.mpr (Or.inr (writes_of_lastValue hl)))]
      rfl
    | none =>
      rcases writes_cons.mp hv with hc | hw
      · rw [hc]
        rfl
      · rw [ih hw fun w h => hu w (writes_cons.mpr (Or.inr h))] at hl
        cases hl

/-- A key that no change is of has what it had. -/
theorem applyAll_untouched {cs : List (Change K V)} {key : K} (h : ∀ w, ¬Writes cs key w) (store : K → Option V) :
    applyAll cs store key = store key := by
  rw [applyAll_apply, lastValue_eq_none fun c hc => ?_]
  · rfl
  · cases hw : c key with
    | none => rfl
    | some w => exact absurd ⟨c, hc, hw⟩ (h w)

/-- A key whose changes agree has what they give it. -/
theorem applyAll_agreed {cs : List (Change K V)} {key : K} {v : Option V} (hv : Writes cs key v)
    (hu : ∀ w, Writes cs key w → w = v) (store : K → Option V) : applyAll cs store key = v := by
  rw [applyAll_apply, lastValue_eq_some hv hu]
  rfl

/-- After `after` changes one fails, and takes effect all the same if `took` says so. -/
structure Fault where
  after : Nat
  took : Bool
  deriving DecidableEq

/-- The fault that is left after `n` changes. -/
def Fault.later (f : Fault) (n : Nat) : Fault := { f with after := f.after - n }

/-- The changes that take effect, if one fails. -/
def interrupted (fault : Option Fault) (cs : List (Change K V)) : Option (List (Change K V)) :=
  match fault with
  | some f => if f.after < cs.length then some (cs.take (f.after + f.took.toNat)) else none
  | none => none

/-- A sequence is interrupted in its first part or, if that goes through, in the rest. -/
theorem interrupted_append (fault : Option Fault) (cs ds : List (Change K V)) :
    interrupted fault (cs ++ ds) = match interrupted fault cs with
      | some done => some done
      | none => (interrupted (fault.map fun f => f.later cs.length) ds).map (cs ++ ·) := by
  cases fault with
  | none => rfl
  | some f =>
    have ht : f.took.toNat ≤ 1 := Bool.toNat_le f.took
    simp only [interrupted, List.length_append, Option.map_some, Fault.later]
    by_cases h : f.after < cs.length
    · rw [if_pos h, if_pos (by omega)]
      simp only [Option.some.injEq]
      exact List.take_append_of_le_length (by omega)
    · rw [if_neg h]
      simp only []
      by_cases h' : f.after - cs.length < ds.length
      · rw [if_pos (by omega), if_pos h', Option.map_some, List.take_append, List.take_of_length_le (by omega),
          show f.after + f.took.toNat - cs.length = f.after - cs.length + f.took.toNat by omega]
      · rw [if_neg (by omega), if_neg h', Option.map_none]

end Interrupt
