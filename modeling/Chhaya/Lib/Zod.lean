import Chhaya.Lib.Json

/-!
# Schemas that parse JSON

A schema reads a JSON value, or a missing one, and returns what it stands for or the issues it found. Objects read all
their fields and report the issues of every one; fields they do not name are dropped.

- `Checked.seq_ok`: a record parses where all its fields do.
- `property_missing`: a required field that is missing fails the record.
-/

namespace Zod

/-- What is wrong, and where. -/
structure Issue where
  path : List String
  code : String
  deriving DecidableEq, Repr

/-- A value, or the issues. -/
inductive Checked (α : Type)
  | ok (a : α)
  | error (issues : List Issue)
  deriving DecidableEq, Repr

namespace Checked

variable {α γ : Type}

def map (f : α → γ) : Checked α → Checked γ
  | ok a => ok (f a)
  | error issues => error issues

/-- Both sides are read, and the issues of both are kept. -/
def seq : Checked (α → γ) → Checked α → Checked γ
  | ok f, ok a => ok (f a)
  | ok _, error issues => error issues
  | error issues, ok _ => error issues
  | error issues, error issues' => error (issues ++ issues')

instance : Applicative Checked where
  pure := ok
  map := map
  seq f x := seq f (x ())

/-- The path of the issues starts at the field `key`. -/
def under (key : String) : Checked α → Checked α
  | ok a => ok a
  | error issues => error (issues.map fun i => { i with path := key :: i.path })

theorem map_ok {f : α → γ} {x : Checked α} {b : γ} : f <$> x = ok b ↔ ∃ a, x = ok a ∧ f a = b := by
  show map f x = ok b ↔ _
  cases x with
  | ok a => simp [map]
  | error issues => simp [map]

/-- A record parses where all its fields do. -/
theorem seq_ok {f : Checked (α → γ)} {x : Checked α} {b : γ} :
    f <*> x = ok b ↔ ∃ g a, f = ok g ∧ x = ok a ∧ g a = b := by
  show seq f x = ok b ↔ _
  cases f <;> cases x <;> simp [seq]

theorem seq_ne_ok {f : Checked (α → γ)} {x : Checked α} (h : (∀ g, f ≠ ok g) ∨ ∀ a, x ≠ ok a) (b : γ) :
    f <*> x ≠ ok b := by
  rintro hb
  obtain ⟨g, a, hg, ha, -⟩ := seq_ok.mp hb
  rcases h with h | h
  · exact h g hg
  · exact h a ha

theorem under_ok {key : String} {x : Checked α} {a : α} : x.under key = ok a ↔ x = ok a := by
  cases x <;> simp [under]

end Checked

/-- Reads a value; `none` is a missing one. -/
abbrev Schema (α : Type) := Option Json → Checked α

/-! ## Strings -/

/-- The number of UTF-16 units. -/
def utf16Length (s : String) : Nat := (s.toList.map fun c => if c.toNat < 0x10000 then 1 else 2).sum

/-- A condition on a string and the code of its issue. -/
abbrev StringCheck := (String → Bool) × String

/-- `z.string()` with its checks, of which every one that fails is reported. -/
def string (checks : List StringCheck) : Schema String
  | some (.str s) =>
    match checks.filter fun c => !c.1 (String.ofList s) with
    | [] => .ok (String.ofList s)
    | failed => .error (failed.map fun c => ⟨[], c.2⟩)
  | _ => .error [⟨[], "invalid_type"⟩]

def minLength (n : Nat) : StringCheck := (fun s => decide (n ≤ utf16Length s), "too_small")

def maxLength (n : Nat) : StringCheck := (fun s => decide (utf16Length s ≤ n), "too_big")

/-- `.length(n)` reports what is too short apart from what is too long. -/
def exactLength (n : Nat) : List StringCheck := [minLength n, maxLength n]

def isHexDigit (c : Char) : Bool := ('0' ≤ c && c ≤ '9') || ('a' ≤ c && c ≤ 'f') || ('A' ≤ c && c ≤ 'F')

def isLowerHexDigit (c : Char) : Bool := ('0' ≤ c && c ≤ '9') || ('a' ≤ c && c ≤ 'f')

/-- Five groups of hexadecimal digits, of 8, 4, 4, 4 and 12. -/
def isUuid (s : String) : Bool :=
  let cs := s.toList
  cs.length == 36 && (List.range 36).all fun i =>
    match cs[i]? with
    | some c => if i == 8 || i == 13 || i == 18 || i == 23 then c == '-' else isHexDigit c
    | none => false

def uuid : StringCheck := (isUuid, "invalid_string")

def regex (accepts : String → Bool) : StringCheck := (accepts, "invalid_string")

/-- `^[0-9a-f]{64}$`. -/
def isHex64 (s : String) : Bool := s.toList.length == 64 && s.toList.all isLowerHexDigit

/-- `z.enum(values)`. -/
def enum (values : List String) : Schema String
  | some (.str s) => if String.ofList s ∈ values then .ok (String.ofList s) else .error [⟨[], "invalid_enum_value"⟩]
  | _ => .error [⟨[], "invalid_type"⟩]

theorem string_ok {checks : List StringCheck} {j : Option Json} {s : String} (h : string checks j = .ok s) :
    j = some (.str s.toList) ∧ ∀ c ∈ checks, c.1 s = true := by
  unfold string at h
  split at h
  · split at h
    · rename_i hf
      cases h
      refine ⟨by simp, fun c hc => ?_⟩
      have := List.filter_eq_nil_iff.mp hf c hc
      simpa using this
    · cases h
  · cases h

/-- A string that passes its checks. -/
theorem string_of {checks : List StringCheck} {s : String} (h : ∀ c ∈ checks, c.1 s = true) :
    string checks (some (.str s.toList)) = .ok s := by
  have hf : checks.filter (fun c => !c.1 s) = [] := List.filter_eq_nil_iff.mpr fun c hc => by rw [h c hc]; decide
  simp only [string, String.ofList_toList, hf]

theorem string_uuid {s : String} (h : isUuid s = true) : string [uuid] (some (.str s.toList)) = .ok s :=
  string_of fun c hc => by rw [List.mem_singleton.mp hc]; exact h

theorem string_regex {accepts : String → Bool} {s : String} (h : accepts s = true) :
    string [regex accepts] (some (.str s.toList)) = .ok s :=
  string_of fun c hc => by rw [List.mem_singleton.mp hc]; exact h

theorem string_exactLength {n : Nat} {s : String} (h : utf16Length s = n) :
    string (exactLength n) (some (.str s.toList)) = .ok s := by
  refine string_of fun c hc => ?_
  simp only [exactLength, List.mem_cons, List.not_mem_nil, or_false] at hc
  rcases hc with rfl | rfl
  · exact decide_eq_true h.ge
  · exact decide_eq_true h.le

/-! ## Other values -/

/-- `.optional()`. -/
def optional {α : Type} (s : Schema α) : Schema (Option α)
  | none => .ok none
  | some j => some <$> s (some j)

/-- `.default(a)`. -/
def withDefault {α : Type} (a : α) (s : Schema α) : Schema α
  | none => .ok a
  | some j => s (some j)

/-- `z.record(z.unknown())`. -/
def record : Schema (List (List Char × Json))
  | some (.obj fields) => .ok fields
  | _ => .error [⟨[], "invalid_type"⟩]

/-- The elements, with the issues of all of them. -/
def elements {α : Type} (s : Schema α) : Nat → List Json → Checked (List α)
  | _, [] => .ok []
  | n, j :: l => List.cons <$> (s (some j)).under (toString n) <*> elements s (n + 1) l

/-- `z.array(s).min(lo).max(hi)`. -/
def array {α : Type} (s : Schema α) (lo hi : Nat) : Schema (List α)
  | some (.arr l) =>
    let size : Checked (List α → List α) :=
      if l.length < lo then .error [⟨[], "too_small"⟩] else if hi < l.length then .error [⟨[], "too_big"⟩] else .ok id
    size <*> elements s 0 l
  | _ => .error [⟨[], "invalid_type"⟩]

/-- The value of a field. -/
def lookup (fields : List (List Char × Json)) (key : String) : Option Json :=
  (fields.find? fun f => f.1 == key.toList).map Prod.snd

/-- One field of an object. -/
def property {α : Type} (fields : List (List Char × Json)) (key : String) (s : Schema α) : Checked α :=
  (s (lookup fields key)).under key

/-- `z.object`, with what is made of its fields. -/
def object {α : Type} (read : List (List Char × Json) → Checked α) : Schema α
  | some (.obj fields) => read fields
  | _ => .error [⟨[], "invalid_type"⟩]

theorem property_ok {α : Type} {fields : List (List Char × Json)} {key : String} {s : Schema α} {a : α} :
    property fields key s = .ok a ↔ s (lookup fields key) = .ok a := Checked.under_ok

/-- A required string that is missing fails. -/
theorem property_missing {fields : List (List Char × Json)} {key : String} {checks : List StringCheck}
    (h : lookup fields key = none) (s : String) : property fields key (string checks) ≠ .ok s := by
  intro hf
  have := (string_ok (property_ok.mp hf)).1
  rw [h] at this
  cases this

end Zod
