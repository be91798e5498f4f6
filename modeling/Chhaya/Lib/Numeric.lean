import Chhaya.Lib.Binary64

/-!
# Decimal columns read by a script

A `NUMERIC` value of two decimals is a number of hundredths or `NaN`. The driver hands it to a script as a text, and an
SQL `NULL` as `null`.

- `Numeric.Shows`: a value of a script is the value of a column;
- `Numeric.ofText_text`: the text converts to the double nearest to the decimal;
- `Numeric.ofText_text_append`: with another decimal joined to it, it converts to `NaN`.
-/

namespace Chhaya

/-- A `NUMERIC` value with two decimals. -/
inductive Numeric
  | nan
  | hundredths (k : Int)
  deriving DecidableEq

namespace Numeric

/-! ## SQL -/

/-- `a + k / 100`. -/
def add (a : Numeric) (k : Int) : Numeric :=
  match a with
  | .nan => .nan
  | .hundredths j => .hundredths (j + k)

/-- The order of the database, with `NaN` above all numbers. -/
def lt : Numeric → Numeric → Bool
  | .hundredths j, .hundredths k => j < k
  | .hundredths _, .nan => true
  | .nan, _ => false

/-- `LEAST(a, b)`: a `NULL` is passed over. -/
def least (a : Option Numeric) (b : Numeric) : Numeric :=
  match a with
  | none => b
  | some a => if b.lt a then b else a

/-- `GREATEST(a, b)`: a `NULL` is passed over. -/
def greatest (a : Option Numeric) (b : Numeric) : Numeric :=
  match a with
  | none => b
  | some a => if a.lt b then b else a

/-- `a < b` as the condition of a `CASE`: not met by a `NULL`. -/
def below (a : Option Numeric) (b : Numeric) : Bool :=
  match a with
  | none => false
  | some a => a.lt b

@[simp] theorem least_hundredths (j k : Int) :
    least (some (.hundredths j)) (.hundredths k) = .hundredths (min j k) := by
  simp only [least, lt, decide_eq_true_eq]
  split
  · rw [min_eq_right (by omega)]
  · rw [min_eq_left (by omega)]

@[simp] theorem greatest_hundredths (j k : Int) :
    greatest (some (.hundredths j)) (.hundredths k) = .hundredths (max j k) := by
  simp only [greatest, lt, decide_eq_true_eq]
  split
  · rw [max_eq_right (by omega)]
  · rw [max_eq_left (by omega)]

/-- The values of a column `DECIMAL(3,2)`. -/
def Fits : Numeric → Prop
  | .nan => True
  | .hundredths k => -1000 < k ∧ k < 1000

instance : DecidablePred Fits
  | .nan => isTrue trivial
  | .hundredths k => inferInstanceAs (Decidable (-1000 < k ∧ k < 1000))

/-! ## The text of a value -/

/-- The digits of `k / 100`, with two decimals. -/
def digits (k : Int) : List Char :=
  (if k < 0 then ['-'] else []) ++
    (Nat.toDigits 10 (k.natAbs / 100) ++ ['.', Nat.digitChar (k.natAbs / 10 % 10), Nat.digitChar (k.natAbs % 10)])

def text : Numeric → String
  | .nan => "NaN"
  | .hundredths k => String.ofList (digits k)

/-- A column as the driver gives it to a script. -/
def read : Option Numeric → JsValue
  | none => .null
  | some a => .text a.text

/-- The number that a script has for the value. -/
def double : Numeric → JsNumber
  | .nan => .nan
  | .hundredths k => .decimal k 2

/-- A script has the value of the column, as the driver read it or as a number. -/
def Shows (column : Option Numeric) (v : JsValue) : Prop :=
  match column with
  | none => v = .null
  | some a => v = .text a.text ∨ v = .number a.double

theorem shows_read (column : Option Numeric) : Shows column (read column) := by
  cases column with
  | none => rfl
  | some a => exact .inl rfl

/-! ## The number of a text -/

/-- The digits of a column and what is joined to them. -/
theorem signed_digits {k : Int} (hk : Fits (.hundredths k)) (cs : List Char) :
    JsNumber.signed (digits k ++ cs) =
      (JsNumber.toEnd (JsNumber.readDigits cs k.natAbs 2)).map fun (m, n) => (if k < 0 then -(m : Int) else m, n) := by
  obtain ⟨hlo, hhi⟩ : -1000 < k ∧ k < 1000 := hk
  have ha : k.natAbs / 100 < 10 := by omega
  have hs : 100 * (k.natAbs / 100) + 10 * (k.natAbs / 10 % 10) + k.natAbs % 10 = k.natAbs := by omega
  have hl := JsNumber.literal_digits ha (b := k.natAbs / 10 % 10) (c := k.natAbs % 10) (by omega) (by omega) cs
  rw [hs] at hl
  have hd : ∀ d < 10, Nat.digitChar d ≠ '-' ∧ Nat.digitChar d ≠ '+' := by decide
  rw [digits, Nat.toDigits_of_lt_base ha]
  by_cases h : k < 0
  · simp only [if_pos h, List.cons_append, List.nil_append, JsNumber.signed, if_true, hl]
  · simp only [if_neg h, List.cons_append, List.nil_append, JsNumber.signed, if_neg (hd _ ha).1, if_neg (hd _ ha).2, hl]

/-- The text of a column converts to the number of its value. -/
theorem ofText_text {a : Numeric} (ha : a.Fits) : JsNumber.ofText a.text = a.double := by
  cases a with
  | nan => decide +kernel
  | hundredths k =>
    have h := signed_digits ha []
    have hs : (if k < 0 then -(k.natAbs : Int) else k.natAbs) = k := by omega
    simp only [List.append_nil, JsNumber.readDigits, JsNumber.toEnd, Option.map_some, hs] at h
    rw [JsNumber.ofText, text, String.toList_ofList, h]
    rfl

/-- Two decimals joined are no number. -/
theorem ofText_text_append {a : Numeric} (ha : a.Fits) : JsNumber.ofText (a.text ++ "0.01") = .nan := by
  cases a with
  | nan => decide +kernel
  | hundredths k =>
    have h := signed_digits ha ['0', '.', '0', '1']
    have hr : JsNumber.readDigits ['0', '.', '0', '1'] k.natAbs 2 = (10 * k.natAbs, 3, ['.', '0', '1']) := rfl
    have ht : "0.01".toList = ['0', '.', '0', '1'] := rfl
    rw [hr] at h
    rw [JsNumber.ofText, text, String.toList_append, String.toList_ofList, ht, h]
    rfl

end Numeric

end Chhaya
