import Mathlib

/-!
# JSON texts

JSON values, their compact text and a parser for the whole grammar: white space, escapes, surrogate pairs, nesting and
repeated keys. Strings are sequences of Unicode scalar values, so an unpaired surrogate escape reads as U+FFFD. A number
without fraction and exponent that fits 64 bits is an integer; every other number is kept as its literal.

- `Json.value_encode`: the parser reads a well-formed value back from its text, and stops where the text ends.
- `Json.decode_encode`: `decode (encode j) = some j`.
- `Json.encode_injective`: different well-formed values have different texts.
-/

namespace Json

/-! ## Numbers -/

/-- The digits at the front, and the rest. -/
def spanDigits : List Char → List Char × List Char
  | [] => ([], [])
  | c :: cs => if c.isDigit then let (d, r) := spanDigits cs; (c :: d, r) else ([], c :: cs)

/-- Whether `cs` is empty or an exponent. -/
def isExponent : List Char → Bool
  | [] => true
  | e :: cs =>
    let cs := match cs with
      | '+' :: r | '-' :: r => r
      | r => r
    let (d, r) := spanDigits cs
    (e == 'e' || e == 'E') && !d.isEmpty && r.isEmpty

/-- The unsigned part of a number: the sign given, the integer digits, and whether there is neither fraction nor
exponent. -/
def unsignedShape (neg : Bool) (cs : List Char) : Option (Bool × List Char × Bool) :=
  let (d, cs) := spanDigits cs
  if d.isEmpty || (d.head? == some '0' && d.length != 1) then none
  else
    match cs with
    | [] => some (neg, d, true)
    | '.' :: r =>
      let (f, r) := spanDigits r
      if !f.isEmpty && isExponent r then some (neg, d, false) else none
    | r => if isExponent r then some (neg, d, false) else none

/-- The shape of a number: its sign, its integer digits, and whether it has neither fraction nor exponent. -/
def numberShape : List Char → Option (Bool × List Char × Bool)
  | '-' :: r => unsignedShape true r
  | r => unsignedShape false r

/-- Whether an integer fits 64 bits. -/
def fits64 (i : Int) : Bool := decide (-2 ^ 63 ≤ i ∧ i < 2 ^ 63)

/-- The integer with these digits. -/
def intOf (neg : Bool) (digits : List Char) : Int :=
  let n := Nat.ofDigitChars 10 digits 0
  if neg then -(n : Int) else n

/-- Whether a number literal reads as a floating-point number. -/
def isDouble (cs : List Char) : Bool :=
  match numberShape cs with
  | none => false
  | some (_, _, false) => true
  | some (neg, d, true) => !fits64 (intOf neg d)

end Json

/-- A floating-point number, by its literal. -/
structure DoubleLiteral where
  text : List Char
  isDouble : Json.isDouble text = true
  deriving DecidableEq

/-- The exponent at the front: `e`, a sign and digits; 0 when there is none. -/
def Json.exponentValue : List Char → Int
  | [] => 0
  | _ :: '-' :: r => -(Nat.ofDigitChars 10 r 0 : Int)
  | _ :: '+' :: r => Nat.ofDigitChars 10 r 0
  | _ :: r => Nat.ofDigitChars 10 r 0

/-- The number that an unsigned literal denotes. -/
def Json.unsignedValue (cs : List Char) : ℚ :=
  let (d, cs) := Json.spanDigits cs
  match cs with
  | '.' :: r =>
    let (f, r) := Json.spanDigits r
    (Nat.ofDigitChars 10 (d ++ f) 0 : ℚ) * 10 ^ (Json.exponentValue r - f.length)
  | r => (Nat.ofDigitChars 10 d 0 : ℚ) * 10 ^ Json.exponentValue r

/-- The number that the literal denotes, before rounding. -/
def DoubleLiteral.value (d : DoubleLiteral) : ℚ :=
  match d.text with
  | '-' :: r => -Json.unsignedValue r
  | r => Json.unsignedValue r

/-- Whether the literal reads as the double 1.0: its value rounds to 1, ties to even. -/
def DoubleLiteral.isOne (d : DoubleLiteral) : Bool :=
  decide (1 - 1 / 2 ^ 54 ≤ d.value ∧ d.value ≤ 1 + 1 / 2 ^ 53)

/-- A JSON value. -/
inductive Json
  | null
  | bool (b : Bool)
  | int (i : Int)
  | double (d : DoubleLiteral)
  | str (s : List Char)
  | arr (elements : List Json)
  | obj (fields : List (List Char × Json))

namespace Json

/-! ## Writing -/

/-- A character inside a string literal. -/
def escape (c : Char) : List Char :=
  if c = '"' then ['\\', '"']
  else if c = '\\' then ['\\', '\\']
  else if c = '\x08' then ['\\', 'b']
  else if c = '\x0c' then ['\\', 'f']
  else if c = '\n' then ['\\', 'n']
  else if c = '\r' then ['\\', 'r']
  else if c = '\t' then ['\\', 't']
  else if c.toNat < 32 then
    ['\\', 'u', '0', '0', Nat.digitChar (c.toNat / 16), Nat.digitChar (c.toNat % 16)]
  else [c]

/-- A string literal after its opening quote. -/
def quoted (s : List Char) : List Char := s.flatMap escape ++ ['"']

/-- The decimal text of an integer. -/
def intText (i : Int) : List Char :=
  if i < 0 then '-' :: Nat.toDigits 10 i.natAbs else Nat.toDigits 10 i.natAbs

mutual
/-- The compact text of a value. -/
def encode : Json → List Char
  | null => ['n', 'u', 'l', 'l']
  | bool true => ['t', 'r', 'u', 'e']
  | bool false => ['f', 'a', 'l', 's', 'e']
  | int i => intText i
  | double d => d.text
  | str s => '"' :: quoted s
  | arr l => '[' :: encodeElements l
  | obj l => '\x7b' :: encodeFields l

/-- Elements and the closing bracket. -/
def encodeElements : List Json → List Char
  | [] => [']']
  | [j] => encode j ++ [']']
  | j :: l => encode j ++ ',' :: encodeElements l

/-- Fields and the closing brace. -/
def encodeFields : List (List Char × Json) → List Char
  | [] => ['\x7d']
  | [(k, j)] => '"' :: quoted k ++ ':' :: encode j ++ ['\x7d']
  | (k, j) :: l => '"' :: quoted k ++ ':' :: encode j ++ ',' :: encodeFields l
end

/-! ## Reading -/

/-- White space. -/
def isSpace (c : Char) : Bool := c == ' ' || c == '\t' || c == '\n' || c == '\r'

/-- The text without leading white space. -/
def skipSpace : List Char → List Char
  | [] => []
  | c :: cs => if isSpace c then skipSpace cs else c :: cs

/-- A hexadecimal digit. -/
def hexValue (c : Char) : Option Nat :=
  if '0' ≤ c ∧ c ≤ '9' then some (c.toNat - '0'.toNat)
  else if 'a' ≤ c ∧ c ≤ 'f' then some (c.toNat - 'a'.toNat + 10)
  else if 'A' ≤ c ∧ c ≤ 'F' then some (c.toNat - 'A'.toNat + 10)
  else none

/-- What a one-letter escape stands for. -/
def simpleEscape : Char → Option Nat
  | '"' => some 34
  | '\\' => some 92
  | '/' => some 47
  | 'b' => some 8
  | 'f' => some 12
  | 'n' => some 10
  | 'r' => some 13
  | 't' => some 9
  | _ => none

/-- The scalar values and surrogates of a string literal, and the text after its closing quote. -/
def units : List Char → Option (List Nat × List Char)
  | [] => none
  | '"' :: r => some ([], r)
  | '\\' :: 'u' :: a :: b :: c :: d :: r => do
    let u := (← hexValue a) * 4096 + (← hexValue b) * 256 + (← hexValue c) * 16 + (← hexValue d)
    let (us, rest) ← units r
    return (u :: us, rest)
  | '\\' :: x :: r => do
    let u ← simpleEscape x
    let (us, rest) ← units r
    return (u :: us, rest)
  | c :: r => do
    if c = '\\' ∨ c.toNat < 32 then none
    let (us, rest) ← units r
    return (c.toNat :: us, rest)

/-- The characters of a sequence of units: surrogate pairs are joined. -/
def ofUnits : List Nat → List Char
  | [] => []
  | [u] => if 0xD800 ≤ u ∧ u < 0xE000 then ['\uFFFD'] else [Char.ofNat u]
  | u :: v :: us =>
    if 0xD800 ≤ u ∧ u < 0xDC00 ∧ 0xDC00 ≤ v ∧ v < 0xE000 then
      Char.ofNat (0x10000 + (u - 0xD800) * 0x400 + (v - 0xDC00)) :: ofUnits us
    else if 0xD800 ≤ u ∧ u < 0xE000 then '\uFFFD' :: ofUnits (v :: us)
    else Char.ofNat u :: ofUnits (v :: us)

/-- A string literal after its opening quote. -/
def string (cs : List Char) : Option (List Char × List Char) := do
  let (us, r) ← units cs
  return (ofUnits us, r)

/-- The characters a number may contain. -/
def isNumberChar (c : Char) : Bool := c.isDigit || c == '-' || c == '+' || c == '.' || c == 'e' || c == 'E'

/-- The number characters at the front, and the rest. -/
def spanNumber : List Char → List Char × List Char
  | [] => ([], [])
  | c :: cs => if isNumberChar c then let (d, r) := spanNumber cs; (c :: d, r) else ([], c :: cs)

/-- A number. -/
def number (cs : List Char) : Option (Json × List Char) :=
  let (token, r) := spanNumber cs
  if h : isDouble token = true then some (double ⟨token, h⟩, r)
  else
    match numberShape token with
    | some (neg, d, true) => some (int (intOf neg d), r)
    | _ => none

/-- A field set in a map that keeps insertion order: a repeated key keeps its place and takes the new value. -/
def setField (k : List Char) (j : Json) : List (List Char × Json) → List (List Char × Json)
  | [] => [(k, j)]
  | (k', j') :: l => if k' = k then (k, j) :: l else (k', j') :: setField k j l

/-- The map that the fields of a text give. -/
def setFields (l : List (List Char × Json)) : List (List Char × Json) :=
  l.foldl (fun m kj => setField kj.1 kj.2 m) []

mutual
/-- One value, white space before it skipped. -/
def value : Nat → List Char → Option (Json × List Char)
  | 0, _ => none
  | fuel + 1, cs =>
    match skipSpace cs with
    | 'n' :: 'u' :: 'l' :: 'l' :: r => some (null, r)
    | 't' :: 'r' :: 'u' :: 'e' :: r => some (bool true, r)
    | 'f' :: 'a' :: 'l' :: 's' :: 'e' :: r => some (bool false, r)
    | '"' :: r => do
      let (s, r) ← string r
      return (str s, r)
    | '[' :: r =>
      match skipSpace r with
      | ']' :: r => some (arr [], r)
      | r => do
        let (l, r) ← elements fuel r
        return (arr l, r)
    | '\x7b' :: r =>
      match skipSpace r with
      | '\x7d' :: r => some (obj [], r)
      | r => do
        let (l, r) ← fields fuel r
        return (obj (setFields l), r)
    | r => number r

/-- At least one element, and the closing bracket. -/
def elements : Nat → List Char → Option (List Json × List Char)
  | 0, _ => none
  | fuel + 1, cs => do
    let (j, r) ← value fuel cs
    match skipSpace r with
    | ']' :: r => return ([j], r)
    | ',' :: r =>
      let (l, r) ← elements fuel r
      return (j :: l, r)
    | _ => none

/-- At least one field, and the closing brace. -/
def fields : Nat → List Char → Option (List (List Char × Json) × List Char)
  | 0, _ => none
  | fuel + 1, cs =>
    match skipSpace cs with
    | '"' :: r => do
      let (k, r) ← string r
      match skipSpace r with
      | ':' :: r =>
        let (j, r) ← value fuel r
        match skipSpace r with
        | '\x7d' :: r => return ([(k, j)], r)
        | ',' :: r =>
          let (l, r) ← fields fuel r
          return ((k, j) :: l, r)
        | _ => none
      | _ => none
    | _ => none
end

/-- The value of a text. Every call of the parser is paid for by a character, twice at most. -/
def decode (cs : List Char) : Option Json :=
  match value (2 * cs.length + 2) cs with
  | some (j, r) => if skipSpace r = [] then some j else none
  | none => none

/-! ## Scanning -/

theorem spanDigits_append : ∀ {d r : List Char}, (∀ c ∈ d, c.isDigit = true) → (∀ c ∈ r.head?, c.isDigit = false) →
    spanDigits (d ++ r) = (d, r)
  | [], [], _, _ => rfl
  | [], c :: r, _, hr => by simp [spanDigits, hr c rfl]
  | c :: d, r, hd, hr => by
    have h1 := hd c List.mem_cons_self
    have h2 := spanDigits_append (fun x hx => hd x (List.mem_cons_of_mem _ hx)) hr
    simp [spanDigits, h1, h2]

/-- The digits and the rest make up the text. -/
theorem spanDigits_spec : ∀ cs : List Char, (spanDigits cs).1 ++ (spanDigits cs).2 = cs ∧
    ∀ c ∈ (spanDigits cs).1, c.isDigit = true
  | [] => by simp [spanDigits]
  | c :: cs => by
    obtain ⟨h1, h2⟩ := spanDigits_spec cs
    by_cases hc : c.isDigit = true
    · simp only [spanDigits, hc, if_true, List.cons_append, h1, true_and, List.mem_cons, forall_eq_or_imp]
      exact h2
    · simp [spanDigits, hc]

theorem isNumberChar_of_isDigit {c : Char} (h : c.isDigit = true) : isNumberChar c = true := by simp [isNumberChar, h]

theorem isExponent_numberChar {cs : List Char} (h : isExponent cs = true) : ∀ c ∈ cs, isNumberChar c = true := by
  cases cs with
  | nil => simp
  | cons e cs =>
    have key : ∀ r : List Char, (spanDigits r).2.isEmpty = true → ∀ c ∈ r, isNumberChar c = true := fun r hr c hc => by
      obtain ⟨h1, h2⟩ := spanDigits_spec r
      rw [List.isEmpty_iff.mp hr, List.append_nil] at h1
      exact isNumberChar_of_isDigit (h2 c (by rw [h1]; exact hc))
    simp only [isExponent, Bool.and_eq_true, Bool.or_eq_true, beq_iff_eq] at h
    obtain ⟨⟨he, -⟩, hr⟩ := h
    have hE : isNumberChar e = true := by rcases he with rfl | rfl <;> decide
    intro c hc
    rcases List.mem_cons.mp hc with rfl | hc
    · exact hE
    · split at hr
      · rcases List.mem_cons.mp hc with rfl | hc
        · decide
        · exact key _ hr c hc
      · rcases List.mem_cons.mp hc with rfl | hc
        · decide
        · exact key _ hr c hc
      · exact key _ hr c hc

/-- The unsigned part of a number. -/
theorem numberBody_chars {cs d r : List Char} (hs : spanDigits cs = (d, r)) (hd : d ≠ [])
    (hr : ∀ c ∈ r, isNumberChar c = true) :
    (∀ c ∈ cs, isNumberChar c = true) ∧ ∃ c t, cs = c :: t ∧ c.isDigit = true := by
  obtain ⟨h1, h2⟩ := spanDigits_spec cs
  rw [hs] at h1 h2
  obtain ⟨c, d, rfl⟩ := List.exists_cons_of_ne_nil hd
  refine ⟨fun x hx => ?_, c, d ++ r, by rw [← h1]; rfl, h2 c List.mem_cons_self⟩
  rw [← h1] at hx
  rcases List.mem_append.mp hx with hx | hx
  · exact isNumberChar_of_isDigit (h2 x hx)
  · exact hr x hx

theorem unsignedShape_chars {neg : Bool} {cs : List Char} {s : Bool × List Char × Bool}
    (h : unsignedShape neg cs = some s) :
    (∀ c ∈ cs, isNumberChar c = true) ∧ ∃ c t, cs = c :: t ∧ c.isDigit = true := by
  unfold unsignedShape at h
  cases hsd : spanDigits cs with
  | mk d r =>
    simp only [hsd] at h
    split at h
    · cases h
    · rename_i hd
      have hd : d ≠ [] := fun e => hd (by simp [e])
      refine numberBody_chars hsd hd fun c hc => ?_
      split at h
      · cases hc
      · rename_i r'
        cases hfd : spanDigits r' with
        | mk f t =>
          simp only [hfd] at h
          split at h
          · rename_i hx
            rw [Bool.and_eq_true] at hx
            obtain ⟨h1, h2⟩ := spanDigits_spec r'
            rw [hfd] at h1 h2
            rcases List.mem_cons.mp hc with rfl | hc
            · decide
            · rw [← h1] at hc
              rcases List.mem_append.mp hc with hc | hc
              · exact isNumberChar_of_isDigit (h2 c hc)
              · exact isExponent_numberChar hx.2 c hc
          · cases h
      · split at h
        · rename_i hx
          exact isExponent_numberChar hx c hc
        · cases h

/-- A text with the shape of a number has number characters only, and starts with a sign or a digit. -/
theorem numberShape_chars {cs : List Char} {s : Bool × List Char × Bool} (h : numberShape cs = some s) :
    (∀ c ∈ cs, isNumberChar c = true) ∧ ∃ c r, cs = c :: r ∧ (c = '-' ∨ c.isDigit = true) := by
  unfold numberShape at h
  split at h
  · obtain ⟨h1, -⟩ := unsignedShape_chars h
    refine ⟨fun c hc => ?_, _, _, rfl, Or.inl rfl⟩
    rcases List.mem_cons.mp hc with rfl | hc
    · decide
    · exact h1 c hc
  · obtain ⟨h1, c, t, h2, h3⟩ := unsignedShape_chars h
    exact ⟨h1, c, t, h2, Or.inr h3⟩

theorem spanNumber_append : ∀ {t r : List Char}, (∀ c ∈ t, isNumberChar c = true) →
    (∀ c ∈ r.head?, isNumberChar c = false) → spanNumber (t ++ r) = (t, r)
  | [], [], _, _ => rfl
  | [], c :: r, _, hr => by simp [spanNumber, hr c rfl]
  | c :: t, r, ht, hr => by
    have h1 := ht c List.mem_cons_self
    have h2 := spanNumber_append (fun x hx => ht x (List.mem_cons_of_mem _ hx)) hr
    simp [spanNumber, h1, h2]

/-! ## Numbers -/

/-- Decimal text has no leading zero. -/
theorem toDigits_head (n : Nat) : Nat.toDigits 10 n = ['0'] ∨ (Nat.toDigits 10 n).head? ≠ some '0' := by
  induction n using Nat.strongRecOn with
  | _ n ih =>
    by_cases hn : n < 10
    · rw [Nat.toDigits_of_lt_base hn]
      interval_cases n <;> simp [Nat.digitChar]
    · rw [Nat.toDigits_of_base_le (by decide) (Nat.not_lt.mp hn)]
      have hne : Nat.toDigits 10 (n / 10) ≠ [] := Nat.toDigits_ne_nil
      rcases ih (n / 10) (by omega) with h | h
      · have h0 := congrArg (fun d => Nat.ofDigitChars 10 d 0) h
        simp only [Nat.ofDigitChars_ten_toDigits] at h0
        have : n / 10 = 0 := h0
        omega
      · obtain ⟨c, d, hc⟩ := List.exists_cons_of_ne_nil hne
        rw [hc] at h ⊢
        exact Or.inr h

theorem unsignedShape_toDigits (neg : Bool) (n : Nat) :
    unsignedShape neg (Nat.toDigits 10 n) = some (neg, Nat.toDigits 10 n, true) := by
  have hspan := spanDigits_append (d := Nat.toDigits 10 n) (r := [])
    (fun c hc => Nat.isDigit_of_mem_toDigits (by decide) (by decide) hc) (by simp)
  rw [List.append_nil] at hspan
  have hne : Nat.toDigits 10 n ≠ [] := Nat.toDigits_ne_nil
  have hhead : ((Nat.toDigits 10 n).isEmpty || ((Nat.toDigits 10 n).head? == some '0' &&
      (Nat.toDigits 10 n).length != 1)) = false := by
    rcases toDigits_head n with h | h
    · simp [h]
    · simp [hne, h]
  simp only [unsignedShape, hspan, hhead, Bool.false_eq_true, if_false]

/-- The text of an integer has the shape of one. -/
theorem numberShape_intText (i : Int) :
    numberShape (intText i) = some (decide (i < 0), Nat.toDigits 10 i.natAbs, true) := by
  by_cases hi : i < 0
  · simp [intText, numberShape, hi, unsignedShape_toDigits]
  · obtain ⟨c, d, hc⟩ := List.exists_cons_of_ne_nil (Nat.toDigits_ne_nil (n := i.natAbs) (b := 10))
    have hd : c.isDigit = true :=
      Nat.isDigit_of_mem_toDigits (by decide) (by decide) (hc ▸ List.mem_cons_self : c ∈ Nat.toDigits 10 i.natAbs)
    have hu := unsignedShape_toDigits false i.natAbs
    have hc' : c ≠ '-' := by rintro rfl; simp at hd
    rw [intText, if_neg hi, decide_eq_false hi, ← hu, hc, numberShape]
    intro r hr
    exact hc' (List.cons.inj hr).1

theorem intOf_toDigits (i : Int) : intOf (decide (i < 0)) (Nat.toDigits 10 i.natAbs) = i := by
  simp only [intOf, Nat.ofDigitChars_ten_toDigits]
  split <;> rename_i h <;> simp at h <;> omega

/-- A number is read back where no number character follows. -/
theorem number_intText {i : Int} (hi : fits64 i = true) {r : List Char} (hr : ∀ c ∈ r.head?, isNumberChar c = false) :
    number (intText i ++ r) = some (int i, r) := by
  have hshape := numberShape_intText i
  have hd : isDouble (intText i) = false := by simp [isDouble, hshape, intOf_toDigits, hi]
  simp only [number, spanNumber_append (numberShape_chars hshape).1 hr, hd, Bool.false_eq_true, dite_false, hshape,
    intOf_toDigits]

theorem DoubleLiteral.shape (d : DoubleLiteral) : ∃ s, numberShape d.text = some s := by
  have h := d.isDouble
  unfold Json.isDouble at h
  split at h
  · cases h
  · exact ⟨_, by assumption⟩
  · exact ⟨_, by assumption⟩

theorem number_double (d : DoubleLiteral) {r : List Char} (hr : ∀ c ∈ r.head?, isNumberChar c = false) :
    number (d.text ++ r) = some (double d, r) := by
  obtain ⟨s, hs⟩ := DoubleLiteral.shape d
  simp only [number, spanNumber_append (numberShape_chars hs).1 hr, d.isDouble, dite_true]

/-! ## Strings -/

theorem units_plain {c : Char} (r : List Char) (h1 : c ≠ '"') (h2 : c ≠ '\\') (h3 : ¬c.toNat < 32) :
    units (c :: r) = (units r).map fun p => (c.toNat :: p.1, p.2) := by
  rw [units]
  · simp only [h2, h3, or_self, if_false]
    cases units r <;> rfl
  · exact h1
  · exact fun _ _ _ _ _ h => absurd h h2
  · exact fun _ _ h => absurd h h2

theorem units_simple {x : Char} {u : Nat} (r : List Char) (hx : x ≠ 'u') (hu : simpleEscape x = some u) :
    units ('\\' :: x :: r) = (units r).map fun p => (u :: p.1, p.2) := by
  rw [units]
  · simp only [hu]
    cases units r <;> rfl
  · exact fun _ _ _ _ _ h => absurd h hx

theorem hexValue_digitChar : ∀ n, n < 16 → hexValue (Nat.digitChar n) = some n := by decide

theorem units_hex (n : Nat) (r : List Char) (hn : n < 32) :
    units ('\\' :: 'u' :: '0' :: '0' :: Nat.digitChar (n / 16) :: Nat.digitChar (n % 16) :: r) =
      (units r).map fun p => (n :: p.1, p.2) := by
  have h0 : hexValue '0' = some 0 := by decide
  have h1 := hexValue_digitChar (n / 16) (by omega)
  have h2 := hexValue_digitChar (n % 16) (by omega)
  have hsum : 0 * 4096 + 0 * 256 + n / 16 * 16 + n % 16 = n := by omega
  rw [units]
  simp only [h0, h1, h2, hsum, Option.bind_eq_bind, Option.bind_some]
  cases units r <;> rfl

/-- An escaped character is read as its unit. -/
theorem units_escape (c : Char) (r : List Char) :
    units (escape c ++ r) = (units r).map fun p => (c.toNat :: p.1, p.2) := by
  unfold escape
  split
  · subst_vars; exact units_simple r (by decide) rfl
  split
  · subst_vars; exact units_simple r (by decide) rfl
  split
  · subst_vars; exact units_simple r (by decide) rfl
  split
  · subst_vars; exact units_simple r (by decide) rfl
  split
  · subst_vars; exact units_simple r (by decide) rfl
  split
  · subst_vars; exact units_simple r (by decide) rfl
  split
  · subst_vars; exact units_simple r (by decide) rfl
  split
  · exact units_hex _ r (by assumption)
  · exact units_plain r (by assumption) (by assumption) (by assumption)

theorem units_quoted (s r : List Char) : units (quoted s ++ r) = some (s.map Char.toNat, r) := by
  induction s with
  | nil => simp [quoted, units]
  | cons c s ih =>
    have h : quoted (c :: s) ++ r = escape c ++ (quoted s ++ r) := by simp [quoted]
    rw [h, units_escape, ih]
    rfl

/-- No character is a surrogate. -/
theorem ofUnits_map : ∀ s : List Char, ofUnits (s.map Char.toNat) = s
  | [] => rfl
  | [c] => by
    have hc := c.valid
    have h : ¬(0xD800 ≤ c.toNat ∧ c.toNat < 0xE000) := by
      simp only [UInt32.isValidChar, Nat.isValidChar] at hc
      have : c.toNat = c.val.toNat := rfl
      omega
    simp [ofUnits, h]
  | c :: d :: s => by
    have hc := c.valid
    have h : ¬(0xD800 ≤ c.toNat ∧ c.toNat < 0xE000) := by
      simp only [UInt32.isValidChar, Nat.isValidChar] at hc
      have : c.toNat = c.val.toNat := rfl
      omega
    have h' : ¬(0xD800 ≤ c.toNat ∧ c.toNat < 0xDC00 ∧ 0xDC00 ≤ d.toNat ∧ d.toNat < 0xE000) := by omega
    have ih := ofUnits_map (d :: s)
    simp only [List.map_cons] at ih ⊢
    rw [ofUnits, if_neg h', if_neg h, ih, Char.ofNat_toNat]

theorem string_quoted (s r : List Char) : string (quoted s ++ r) = some (s, r) := by
  simp [string, units_quoted, ofUnits_map]

/-! ## Maps -/

theorem setField_notMem {k : List Char} {j : Json} : ∀ {l : List (List Char × Json)}, k ∉ l.map Prod.fst →
    setField k j l = l ++ [(k, j)]
  | [], _ => rfl
  | (k', j') :: l, h => by
    simp only [List.map_cons, List.mem_cons, not_or] at h
    rw [setField, if_neg (fun e => h.1 e.symm), setField_notMem h.2]
    rfl

/-- Fields with different keys are a map already. -/
theorem setFields_nodup {l : List (List Char × Json)} (h : (l.map Prod.fst).Nodup) : setFields l = l := by
  have main : ∀ (l m : List (List Char × Json)), ((m ++ l).map Prod.fst).Nodup →
      l.foldl (fun m kj => setField kj.1 kj.2 m) m = m ++ l := by
    intro l
    induction l with
    | nil => intro m _; simp
    | cons kj l ih =>
      intro m hm
      have hk : kj.1 ∉ m.map Prod.fst := fun hk => by
        rw [List.map_append, List.map_cons, List.nodup_append] at hm
        exact hm.2.2 _ hk _ List.mem_cons_self rfl
      rw [List.foldl_cons, setField_notMem hk, ih _ (by simpa using hm)]
      simp
  exact main l [] (by simpa using h)

/-! ## Reading back -/

mutual
/-- Integers fit 64 bits, and the keys of a map are different. -/
def WF : Json → Prop
  | int i => fits64 i = true
  | arr l => WFElements l
  | obj l => (l.map Prod.fst).Nodup ∧ WFFields l
  | _ => True

def WFElements : List Json → Prop
  | [] => True
  | j :: l => WF j ∧ WFElements l

def WFFields : List (List Char × Json) → Prop
  | [] => True
  | (_, j) :: l => WF j ∧ WFFields l
end

/-- The text ends here, or goes on with a comma, a bracket or a brace. -/
def Stops (r : List Char) : Prop := ∀ c ∈ r.head?, c = ',' ∨ c = ']' ∨ c = '\x7d'

theorem Stops.number {r : List Char} (h : Stops r) : ∀ c ∈ r.head?, isNumberChar c = false := fun c hc => by
  rcases h c hc with rfl | rfl | rfl <;> decide

theorem skipSpace_cons {c : Char} (h : isSpace c = false) (r : List Char) : skipSpace (c :: r) = c :: r := by
  simp [skipSpace, h]

/-- A value that starts with a sign or a digit is a number. -/
theorem value_number (fuel : Nat) {c : Char} (r : List Char) (h : c = '-' ∨ c.isDigit = true) :
    value (fuel + 1) (c :: r) = number (c :: r) := by
  have hs : isSpace c = false := by
    by_contra hs
    simp only [isSpace, Bool.not_eq_false, Bool.or_eq_true, beq_iff_eq] at hs
    rcases hs with ((rfl | rfl) | rfl) | rfl <;> revert h <;> decide
  rw [value, skipSpace_cons hs]
  split <;> rename_i heq
  case h_7 => rfl
  all_goals
    simp only [List.cons.injEq] at heq
    obtain ⟨rfl, -⟩ := heq
    exact absurd h (by decide)

/-- The first character of a value is no white space and closes nothing. -/
theorem encode_head (j : Json) : ∃ c r, encode j = c :: r ∧ isSpace c = false ∧ c ≠ ']' ∧ c ≠ '\x7d' := by
  have digit : ∀ c : Char, c = '-' ∨ c.isDigit = true → isSpace c = false ∧ c ≠ ']' ∧ c ≠ '\x7d' := by
    intro c h
    refine ⟨?_, ?_, ?_⟩
    · by_contra hs
      simp only [isSpace, Bool.not_eq_false, Bool.or_eq_true, beq_iff_eq] at hs
      rcases hs with ((rfl | rfl) | rfl) | rfl <;> revert h <;> decide
    · rintro rfl; revert h; decide
    · rintro rfl; revert h; decide
  cases j with
  | null => exact ⟨_, _, rfl, by decide, by decide, by decide⟩
  | bool b => cases b <;> exact ⟨_, _, rfl, by decide, by decide, by decide⟩
  | int i =>
    obtain ⟨-, c, r, h1, h2⟩ := numberShape_chars (numberShape_intText i)
    exact ⟨c, r, h1, digit c h2⟩
  | double d =>
    obtain ⟨s, hs⟩ := DoubleLiteral.shape d
    obtain ⟨-, c, r, h1, h2⟩ := numberShape_chars hs
    exact ⟨c, r, h1, digit c h2⟩
  | str s => exact ⟨_, _, rfl, by decide, by decide, by decide⟩
  | arr l => exact ⟨_, _, rfl, by decide, by decide, by decide⟩
  | obj l => exact ⟨_, _, rfl, by decide, by decide, by decide⟩

mutual
/-- The fuel that reading a value back takes. -/
def depth : Json → Nat
  | arr l => depthElements l + 1
  | obj l => depthFields l + 1
  | _ => 1

def depthElements : List Json → Nat
  | [] => 0
  | j :: l => max (depth j) (depthElements l) + 1

def depthFields : List (List Char × Json) → Nat
  | [] => 0
  | (_, j) :: l => max (depth j) (depthFields l) + 1
end

theorem encodeElements_head (j : Json) (l : List Json) :
    ∃ c r, encodeElements (j :: l) = c :: r ∧ isSpace c = false ∧ c ≠ ']' := by
  obtain ⟨c, r, h1, h2, h3, -⟩ := encode_head j
  cases l with
  | nil => exact ⟨c, r ++ [']'], by rw [encodeElements, h1]; rfl, h2, h3⟩
  | cons j' l => exact ⟨c, r ++ ',' :: encodeElements (j' :: l), by rw [encodeElements, h1]; rfl; simp, h2, h3⟩

theorem encodeFields_head (k : List Char) (j : Json) (l : List (List Char × Json)) :
    ∃ r, encodeFields ((k, j) :: l) = '"' :: r := by
  cases l with
  | nil => exact ⟨_, rfl⟩
  | cons kj l => exact ⟨_, by rw [encodeFields]; rfl; simp⟩

/-- A non-empty array goes through `elements`. -/
theorem value_arr {fuel : Nat} {l : List Json} {c : Char} {t r : List Char} (hs : isSpace c = false) (hc : c ≠ ']')
    (h : elements fuel (c :: t) = some (l, r)) : value (fuel + 1) ('[' :: c :: t) = some (arr l, r) := by
  rw [value, skipSpace_cons (by decide)]
  simp only [skipSpace_cons hs]
  split
  · rename_i heq
    exact absurd (List.cons.inj heq).1 hc
  · simp [h]

/-- A non-empty object goes through `fields`. -/
theorem value_obj {fuel : Nat} {l : List (List Char × Json)} {t r : List Char}
    (h : fields fuel ('"' :: t) = some (l, r)) :
    value (fuel + 1) ('\x7b' :: '"' :: t) = some (obj (setFields l), r) := by
  rw [value, skipSpace_cons (by decide)]
  simp [skipSpace_cons (show isSpace '"' = false by decide), h]

mutual
/-- The parser reads a well-formed value back from its text. -/
theorem value_encode : ∀ (j : Json), WF j → ∀ (fuel : Nat) (r : List Char), depth j ≤ fuel → Stops r →
    value fuel (encode j ++ r) = some (j, r)
  | null, _, fuel + 1, r, _, _ => rfl
  | bool true, _, fuel + 1, r, _, _ => rfl
  | bool false, _, fuel + 1, r, _, _ => rfl
  | int i, hw, fuel + 1, r, _, hr => by
    obtain ⟨-, c, t, h1, h2⟩ := numberShape_chars (numberShape_intText i)
    have h := number_intText hw hr.number
    rw [encode]
    rw [h1, List.cons_append] at h ⊢
    rw [value_number fuel _ h2, h]
  | double d, _, fuel + 1, r, _, hr => by
    obtain ⟨s, hs⟩ := DoubleLiteral.shape d
    obtain ⟨-, c, t, h1, h2⟩ := numberShape_chars hs
    have h := number_double d hr.number
    rw [encode]
    rw [h1, List.cons_append] at h ⊢
    rw [value_number fuel _ h2, h]
  | str s, _, fuel + 1, r, _, _ => by
    rw [encode, List.cons_append, value, skipSpace_cons (by decide)]
    simp [string_quoted]
  | arr [], _, fuel + 1, r, _, _ => rfl
  | arr (j :: l), hw, fuel + 1, r, hf, _ => by
    have h := elements_encode j l hw fuel r (by simp only [depth] at hf; omega)
    obtain ⟨c, t, h1, h2, h3⟩ := encodeElements_head j l
    rw [encode, List.cons_append]
    rw [h1, List.cons_append] at h ⊢
    exact value_arr h2 h3 h
  | obj [], _, fuel + 1, r, _, _ => rfl
  | obj ((k, j) :: l), hw, fuel + 1, r, hf, _ => by
    have h := fields_encode k j l hw.2 fuel r (by simp only [depth] at hf; omega)
    obtain ⟨t, h1⟩ := encodeFields_head k j l
    rw [encode, List.cons_append]
    rw [h1, List.cons_append] at h ⊢
    rw [value_obj h, setFields_nodup hw.1]
  | null, _, 0, _, h, _ | bool _, _, 0, _, h, _ | int _, _, 0, _, h, _ | double _, _, 0, _, h, _ | str _, _, 0, _, h, _
  | arr _, _, 0, _, h, _ | obj _, _, 0, _, h, _ => by simp [depth] at h

theorem elements_encode : ∀ (j : Json) (l : List Json), WFElements (j :: l) → ∀ (fuel : Nat) (r : List Char),
    depthElements (j :: l) ≤ fuel → elements fuel (encodeElements (j :: l) ++ r) = some (j :: l, r)
  | _, _, _, 0, _, hf => by simp [depthElements] at hf
  | j, [], hw, fuel + 1, r, hf => by
    have hf' : depth j ≤ fuel := by simp only [depthElements] at hf; omega
    have h := value_encode j hw.1 fuel (']' :: r) hf' (by simp [Stops])
    rw [encodeElements, List.append_assoc, List.singleton_append, elements, h]
    simp [skipSpace_cons (show isSpace ']' = false by decide)]
  | j, j' :: l, hw, fuel + 1, r, hf => by
    have hf' : depth j ≤ fuel ∧ depthElements (j' :: l) ≤ fuel := by
      rw [depthElements] at hf; omega
    have h := value_encode j hw.1 fuel (',' :: (encodeElements (j' :: l) ++ r)) hf'.1 (by simp [Stops])
    have h2 := elements_encode j' l hw.2 fuel r hf'.2
    rw [encodeElements, List.append_assoc, List.cons_append, elements, h]
    · simp [skipSpace_cons (show isSpace ',' = false by decide), h2]
    · simp

theorem fields_encode : ∀ (k : List Char) (j : Json) (l : List (List Char × Json)), WFFields ((k, j) :: l) →
    ∀ (fuel : Nat) (r : List Char), depthFields ((k, j) :: l) ≤ fuel →
      fields fuel (encodeFields ((k, j) :: l) ++ r) = some ((k, j) :: l, r)
  | _, _, _, _, 0, _, hf => by simp [depthFields] at hf
  | k, j, [], hw, fuel + 1, r, hf => by
    have hf' : depth j ≤ fuel := by simp only [depthFields] at hf; omega
    have h := value_encode j hw.1 fuel ('\x7d' :: r) hf' (by simp [Stops])
    have ht : encodeFields [(k, j)] ++ r = '"' :: (quoted k ++ ':' :: (encode j ++ '\x7d' :: r)) := by
      simp [encodeFields]
    rw [ht, fields, skipSpace_cons (by decide)]
    simp [string_quoted, skipSpace_cons (show isSpace ':' = false by decide),
      skipSpace_cons (show isSpace '\x7d' = false by decide), h]
  | k, j, (k', j') :: l, hw, fuel + 1, r, hf => by
    have hf' : depth j ≤ fuel ∧ depthFields ((k', j') :: l) ≤ fuel := by
      rw [depthFields] at hf; omega
    have h := value_encode j hw.1 fuel (',' :: (encodeFields ((k', j') :: l) ++ r)) hf'.1
      (by simp [Stops])
    have h2 := fields_encode k' j' l hw.2 fuel r hf'.2
    have ht : encodeFields ((k, j) :: (k', j') :: l) ++ r
        = '"' :: (quoted k ++ ':' :: (encode j ++ ',' :: (encodeFields ((k', j') :: l) ++ r))) := by
      rw [encodeFields]
      · simp
      · simp
    rw [ht, fields, skipSpace_cons (by decide)]
    simp [string_quoted, skipSpace_cons (show isSpace ':' = false by decide),
      skipSpace_cons (show isSpace ',' = false by decide), h, h2]
end

theorem length_encode_pos (j : Json) : 0 < (encode j).length := by
  obtain ⟨c, r, h, -⟩ := encode_head j
  rw [h]; exact Nat.succ_pos _

mutual
/-- The text pays for the fuel. -/
theorem depth_le : ∀ j : Json, depth j ≤ 2 * (encode j).length
  | null | bool true | bool false => by decide
  | int i => by have := length_encode_pos (int i); simp only [depth]; omega
  | double d => by have := length_encode_pos (double d); simp only [depth]; omega
  | str s => by have := length_encode_pos (str s); simp only [depth]; omega
  | arr l => by
    have := depthElements_le l
    simp only [depth, encode, List.length_cons]; omega
  | obj l => by
    have := depthFields_le l
    simp only [depth, encode, List.length_cons]; omega

theorem depthElements_le : ∀ l : List Json, depthElements l ≤ 2 * (encodeElements l).length
  | [] => by simp [depthElements]
  | [j] => by
    have := depth_le j
    simp only [depthElements, encodeElements, List.length_append, List.length_singleton]; omega
  | j :: j' :: l => by
    have h1 := depth_le j
    have h2 := depthElements_le (j' :: l)
    rw [depthElements, encodeElements]
    · simp only [List.length_append, List.length_cons]; omega
    · simp

theorem depthFields_le : ∀ l : List (List Char × Json), depthFields l ≤ 2 * (encodeFields l).length
  | [] => by simp [depthFields]
  | [(k, j)] => by
    have := depth_le j
    simp only [depthFields, encodeFields, List.length_append, List.length_cons]; omega
  | (k, j) :: (k', j') :: l => by
    have h1 := depth_le j
    have h2 := depthFields_le ((k', j') :: l)
    rw [depthFields, encodeFields]
    · simp only [List.length_append, List.length_cons]; omega
    · simp
end

/-- A well-formed value is read back from its text. -/
theorem decode_encode {j : Json} (h : WF j) : decode (encode j) = some j := by
  have hd := depth_le j
  have := value_encode j h (2 * (encode j).length + 2) [] (by omega) (by simp [Stops])
  rw [List.append_nil] at this
  simp [decode, this, skipSpace]

/-- Different well-formed values have different texts. -/
theorem encode_injective {j j' : Json} (h : WF j) (h' : WF j') (he : encode j = encode j') : j = j' := by
  have hd := decode_encode h
  rw [he, decode_encode h'] at hd
  exact (Option.some.inj hd).symm

end Json
