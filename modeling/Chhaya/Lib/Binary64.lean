import Mathlib.Algebra.Order.Field.Power
import Mathlib.Algebra.Order.Field.Rat
import Mathlib.Tactic.FieldSimp
import Mathlib.Tactic.Linarith
import Mathlib.Tactic.Positivity
import Mathlib.Tactic.Ring

/-!
# Numbers of JavaScript

A number is a double or `NaN`. Every result is rounded to 53 significant bits: to the nearest such value, and to an even
last bit where two are as near. There is no overflow, no underflow and no second zero: the library is for calculations
that stay away from them.

- `JsNumber`: `+`, `-`, `<`, `Math.min`, `Math.max` and decimal literals, each rounded once (`JsNumber.round`);
- `JsNumber.round_error`: the relative error of a rounding is `2 ^ -53` at most, and so is that of a sum (`add_error`);
- `JsNumber.ofText`: the number of a text, with `literal_digits` for a literal of two decimals;
- `JsValue`: what a property may hold that is used as a number, with its conversion.
-/

namespace Chhaya

/-- A double, `m / 2 ^ s` with `m` of 53 bits or zero, or `NaN`. -/
inductive JsNumber
  | nan
  | finite (m s : Int)
  deriving DecidableEq

namespace JsNumber

/-! ## Rounding -/

/-- The integer nearest to `n / d`, the even one of two. -/
def nearest (n d : Nat) : Nat :=
  let m := n / d
  let r := n % d
  if 2 * r < d ∨ (2 * r = d ∧ m % 2 = 0) then m else m + 1

/-- The power of two that brings `n / d` to 53 bits before the point. -/
def scale (n d : Nat) : Int :=
  let s : Int := 52 + d.log2 - n.log2
  if n * 2 ^ s.toNat < 2 ^ 52 * (d * 2 ^ (-s).toNat) then s + 1 else s

/-- The double nearest to `n / d`. -/
def round (n : Int) (d : Nat) : JsNumber :=
  if n = 0 then .finite 0 0
  else
    let s := scale n.natAbs d
    let m := nearest (n.natAbs * 2 ^ s.toNat) (d * 2 ^ (-s).toNat)
    -- rounding up may need one bit more
    if m = 2 ^ 53 then .finite (n.sign * (2 ^ 52 : Nat)) (s - 1) else .finite (n.sign * m) s

/-- The literal `m / 10 ^ digits`. -/
def decimal (m : Int) (digits : Nat) : JsNumber := round m (10 ^ digits)

example : decimal 1 1 = .finite 7205759403792794 56 := by decide

/-! ## Rounding errors -/

/-- The value of a double. -/
def value : JsNumber → ℚ
  | .nan => 0
  | .finite m s => m / 2 ^ s

/-- `nearest n d` is off by half at most. -/
theorem nearest_bounds (n : Nat) {d : Nat} (hd : 0 < d) :
    2 * (d * nearest n d) ≤ 2 * n + d ∧ 2 * n ≤ 2 * (d * nearest n d) + d := by
  have hn := Nat.div_add_mod n d
  have hr := Nat.mod_lt n hd
  unfold nearest
  dsimp only
  split
  · constructor <;> omega
  · rw [Nat.mul_add]
    constructor <;> omega

/-- At its scale a quotient has 53 bits before the point. -/
theorem scale_le {n : Nat} (hn : 0 < n) (d : Nat) :
    2 ^ 52 * (d * 2 ^ (-scale n d).toNat) ≤ n * 2 ^ (scale n d).toNat := by
  have ha := Nat.log2_self_le hn.ne'
  have hb := Nat.lt_log2_self (n := d)
  unfold scale
  dsimp only
  generalize n.log2 = a at *
  generalize d.log2 = b at *
  split
  · obtain ⟨s, hs⟩ : ∃ s : Nat, (52 : Int) + b - a = s ∨ (52 : Int) + b - a = -(s + 1) := by
      rcases Int.le_total 0 (52 + b - a) with h | h
      · exact ⟨(52 + b - a : Int).toNat, by omega⟩
      · exact ⟨(-(52 + b - a : Int) - 1).toNat, by omega⟩
    rcases hs with hs | hs
    · have e1 : (-((52 : Int) + b - a + 1)).toNat = 0 := by omega
      have e2 : ((52 : Int) + b - a + 1).toNat = s + 1 := by omega
      rw [e1, e2]
      calc 2 ^ 52 * (d * 2 ^ 0) ≤ 2 ^ 52 * (2 ^ (b + 1) * 2 ^ 0) := by gcongr
        _ = 2 ^ a * 2 ^ (s + 1) := by rw [Nat.pow_zero, Nat.mul_one, ← Nat.pow_add, ← Nat.pow_add]; congr 1; omega
        _ ≤ n * 2 ^ (s + 1) := by gcongr
    · have e1 : (-((52 : Int) + b - a + 1)).toNat = s := by omega
      have e2 : ((52 : Int) + b - a + 1).toNat = 0 := by omega
      rw [e1, e2]
      calc 2 ^ 52 * (d * 2 ^ s) ≤ 2 ^ 52 * (2 ^ (b + 1) * 2 ^ s) := by gcongr
        _ = 2 ^ a * 2 ^ 0 := by rw [Nat.pow_zero, Nat.mul_one, ← Nat.pow_add, ← Nat.pow_add]; congr 1; omega
        _ ≤ n * 2 ^ 0 := by gcongr
  · rename_i h
    exact Nat.not_lt.mp h

/-- A power of two with any exponent, by powers of naturals. -/
theorem zpow_eq (s : Int) : (2 : ℚ) ^ s = 2 ^ s.toNat / 2 ^ (-s).toNat := by
  obtain ⟨k, rfl | rfl⟩ := s.eq_nat_or_neg
  · simp
  · simp

/-- A numerator off by half, on a quotient of 53 bits. -/
theorem quotient_error {n d p r m : ℚ} (hd : 0 < d) (hp : 0 < p) (hr : 0 < r) (hle : 2 ^ 52 * (d * r) ≤ n * p)
    (hup : 2 * (d * r * m) ≤ 2 * (n * p) + d * r) (hlo : 2 * (n * p) ≤ 2 * (d * r * m) + d * r) :
    |m / (p / r) - n / d| ≤ n / d / 2 ^ 53 := by
  have he : m / (p / r) - n / d = (d * r * m - n * p) / (d * p) := by field_simp
  have hb : n / d / 2 ^ 53 = n * p / 2 ^ 53 / (d * p) := by field_simp
  rw [he, hb, abs_div, abs_of_pos (mul_pos hd hp)]
  gcongr
  rw [abs_le]
  constructor <;> linarith

/-- The standard model of rounding: the relative error is `2 ^ -53` at most. -/
theorem round_error (n : Int) {d : Nat} (hd : 0 < d) :
    |(round n d).value - n / d| ≤ |(n : ℚ) / d| / 2 ^ 53 := by
  by_cases hn : n = 0
  · subst hn
    simp [round, value]
  have hN : 0 < n.natAbs := by omega
  have hv : (round n d).value = n.sign * (nearest (n.natAbs * 2 ^ (scale n.natAbs d).toNat)
      (d * 2 ^ (-scale n.natAbs d).toNat) / 2 ^ scale n.natAbs d) := by
    rw [round, if_neg hn]
    dsimp only
    split
    · rename_i h
      rw [value, h, zpow_sub_one₀ (by norm_num)]
      push_cast
      field_simp
      ring
    · simp [value, mul_div_assoc]
  have hle := scale_le hN d
  obtain ⟨hup, hlo⟩ := nearest_bounds (n.natAbs * 2 ^ (scale n.natAbs d).toNat)
    (show 0 < d * 2 ^ (-scale n.natAbs d).toNat by positivity)
  have herr : |(nearest (n.natAbs * 2 ^ (scale n.natAbs d).toNat) (d * 2 ^ (-scale n.natAbs d).toNat) : ℚ) /
      (2 ^ (scale n.natAbs d).toNat / 2 ^ (-scale n.natAbs d).toNat) - n.natAbs / d| ≤ n.natAbs / d / 2 ^ 53 :=
    quotient_error (by exact_mod_cast hd) (by positivity) (by positivity) (by exact_mod_cast hle)
      (by exact_mod_cast hup) (by exact_mod_cast hlo)
  rw [← zpow_eq] at herr
  have hsign : (n : ℚ) / d = n.sign * ((n.natAbs : Nat) / d) := by
    rw [← Int.cast_natCast (R := ℚ) n.natAbs, ← mul_div_assoc, ← Int.cast_mul, Int.sign_mul_natAbs]
  have habs : |(n.sign : ℚ)| = 1 := by
    rcases lt_or_gt_of_ne hn with h | h
    · simp [Int.sign_eq_neg_one_of_neg h]
    · simp [Int.sign_eq_one_of_pos h]
  rw [hv, hsign, ← mul_sub, abs_mul, abs_mul, habs, one_mul, one_mul,
    abs_of_nonneg (show (0 : ℚ) ≤ (n.natAbs : Nat) / d by positivity)]
  exact herr

/-! ## Arithmetic -/

/-- `m / 2 ^ s` as an integer over `2 ^ t`. -/
def scaledTo (t m s : Int) : Int := m * (2 ^ (t - s).toNat : Nat)

/-- `x + y`. -/
def add : JsNumber → JsNumber → JsNumber
  | .finite m s, .finite m' s' =>
    let t := Max.max (Max.max s s') 0
    round (scaledTo t m s + scaledTo t m' s') (2 ^ t.toNat)
  | _, _ => .nan

/-- `x - y`. -/
def sub : JsNumber → JsNumber → JsNumber
  | x, .finite m s => x.add (.finite (-m) s)
  | _, .nan => .nan

/-- `x < y`: false with `NaN` on either side. -/
def lt : JsNumber → JsNumber → Bool
  | .finite m s, .finite m' s' => scaledTo (Max.max s s') m s < scaledTo (Max.max s s') m' s'
  | _, _ => false

/-- `Math.min(x, y)`. -/
def min : JsNumber → JsNumber → JsNumber
  | .finite m s, .finite m' s' => if lt (.finite m s) (.finite m' s') then .finite m s else .finite m' s'
  | _, _ => .nan

/-- `Math.max(x, y)`. -/
def max : JsNumber → JsNumber → JsNumber
  | .finite m s, .finite m' s' => if lt (.finite m s) (.finite m' s') then .finite m' s' else .finite m s
  | _, _ => .nan

@[simp] theorem nan_add (y : JsNumber) : nan.add y = nan := rfl

@[simp] theorem nan_sub (y : JsNumber) : nan.sub y = nan := by
  cases y with
  | nan => rfl
  | finite m s => rfl

@[simp] theorem nan_lt (y : JsNumber) : nan.lt y = false := rfl

@[simp] theorem nan_min (y : JsNumber) : nan.min y = nan := rfl

@[simp] theorem nan_max (y : JsNumber) : nan.max y = nan := rfl

/-! ## Errors of arithmetic -/

/-- Over a large enough power of two, an integer stands for the double. -/
theorem scaledTo_div {t s : Int} (m : Int) (h : s ≤ t) : (scaledTo t m s : ℚ) / 2 ^ t = m / 2 ^ s := by
  obtain ⟨k, hk⟩ := Int.eq_ofNat_of_zero_le (Int.sub_nonneg.mpr h)
  have ht : (2 : ℚ) ^ t = 2 ^ s * 2 ^ k := by
    rw [show t = s + k by omega, zpow_add₀ (by norm_num), zpow_natCast]
  rw [scaledTo, hk, Int.toNat_natCast, ht]
  push_cast
  field_simp

/-- `<` compares the values. -/
theorem lt_finite (m s m' s' : Int) :
    (finite m s).lt (finite m' s') = decide ((finite m s).value < (finite m' s').value) := by
  have h := scaledTo_div m (le_max_left s s')
  have h' := scaledTo_div m' (le_max_right s s')
  have hp : (0 : ℚ) < 2 ^ Max.max s s' := by positivity
  rw [lt, value, value, ← h, ← h']
  simp only [div_lt_div_iff_of_pos_right hp, Int.cast_lt]

/-- The rounding is a double. -/
theorem round_finite (n : Int) (d : Nat) : ∃ m s, round n d = finite m s := by
  unfold round
  dsimp only
  split
  · exact ⟨_, _, rfl⟩
  · split
    · exact ⟨_, _, rfl⟩
    · exact ⟨_, _, rfl⟩

theorem lt_of_value {x y : JsNumber} (hx : x ≠ nan) (hy : y ≠ nan) : x.lt y = decide (x.value < y.value) := by
  cases x with
  | nan => exact absurd rfl hx
  | finite m s =>
    cases y with
    | nan => exact absurd rfl hy
    | finite m' s' => exact lt_finite m s m' s'

/-- `Math.min` compares the values. -/
theorem min_of_value {x y : JsNumber} (hx : x ≠ nan) (hy : y ≠ nan) :
    x.min y = if x.value < y.value then x else y := by
  have h := lt_of_value hx hy
  cases x with
  | nan => exact absurd rfl hx
  | finite m s =>
    cases y with
    | nan => exact absurd rfl hy
    | finite m' s' => simp only [min, h, decide_eq_true_eq]

/-- `Math.max` compares the values. -/
theorem max_of_value {x y : JsNumber} (hx : x ≠ nan) (hy : y ≠ nan) :
    x.max y = if x.value < y.value then y else x := by
  have h := lt_of_value hx hy
  cases x with
  | nan => exact absurd rfl hx
  | finite m s =>
    cases y with
    | nan => exact absurd rfl hy
    | finite m' s' => simp only [max, h, decide_eq_true_eq]

theorem round_ne_nan (n : Int) (d : Nat) : round n d ≠ nan := by
  obtain ⟨m, s, h⟩ := round_finite n d
  rw [h]
  exact JsNumber.noConfusion

theorem decimal_ne_nan (m : Int) (digits : Nat) : decimal m digits ≠ nan := round_ne_nan _ _

theorem add_ne_nan {x y : JsNumber} (hx : x ≠ nan) (hy : y ≠ nan) : x.add y ≠ nan := by
  cases x with
  | nan => exact absurd rfl hx
  | finite m s =>
    cases y with
    | nan => exact absurd rfl hy
    | finite m' s' => exact round_ne_nan _ _

theorem sub_ne_nan {x y : JsNumber} (hx : x ≠ nan) (hy : y ≠ nan) : x.sub y ≠ nan := by
  cases y with
  | nan => exact absurd rfl hy
  | finite m s =>
    cases x with
    | nan => exact absurd rfl hx
    | finite m' s' => exact round_ne_nan _ _

/-- A sum is off by its rounding alone. -/
theorem add_error {x y : JsNumber} (hx : x ≠ nan) (hy : y ≠ nan) :
    |(x.add y).value - (x.value + y.value)| ≤ |x.value + y.value| / 2 ^ 53 := by
  cases x with
  | nan => exact absurd rfl hx
  | finite m s =>
    cases y with
    | nan => exact absurd rfl hy
    | finite m' s' =>
      have h0 : 0 ≤ Max.max (Max.max s s') 0 := le_max_right _ _
      have hs := scaledTo_div m ((le_max_left s s').trans (le_max_left _ 0))
      have hs' := scaledTo_div m' ((le_max_right s s').trans (le_max_left _ 0))
      have herr := round_error (scaledTo (Max.max (Max.max s s') 0) m s + scaledTo (Max.max (Max.max s s') 0) m' s')
        (show 0 < 2 ^ (Max.max (Max.max s s') 0).toNat by positivity)
      have hp : ((2 ^ (Max.max (Max.max s s') 0).toNat : Nat) : ℚ) = 2 ^ Max.max (Max.max s s') 0 := by
        rw [Nat.cast_pow, ← zpow_natCast, Int.toNat_of_nonneg h0]
        rfl
      rw [hp, Int.cast_add, add_div, hs, hs'] at herr
      exact herr
theorem sub_error {x y : JsNumber} (hx : x ≠ nan) (hy : y ≠ nan) :
    |(x.sub y).value - (x.value - y.value)| ≤ |x.value - y.value| / 2 ^ 53 := by
  cases y with
  | nan => exact absurd rfl hy
  | finite m s =>
    have h := add_error hx (y := finite (-m) s) (by simp)
    have hv : (finite (-m) s).value = -(finite m s).value := by simp [value, neg_div]
    rw [hv, ← sub_eq_add_neg] at h
    cases x with
    | nan => exact absurd rfl hx
    | finite => exact h

/-! ## Texts -/

/-- The digits in front, after the number `acc` of `n` digits: the number, how many digits it has now, and the rest. -/
def readDigits : List Char → Nat → Nat → Nat × Nat × List Char
  | [], acc, n => (acc, n, [])
  | c :: cs, acc, n => if c.isDigit then readDigits cs (10 * acc + (c.toNat - '0'.toNat)) (n + 1) else (acc, n, c :: cs)

/-- The digits, when nothing follows them. -/
def toEnd : Nat × Nat × List Char → Option (Nat × Nat)
  | (m, n, []) => some (m, n)
  | (_, _, _ :: _) => none

/-- Digits with at most one point: their number without the point, and how many digits follow it. -/
def literal (cs : List Char) : Option (Nat × Nat) :=
  match readDigits cs 0 0 with
  | (m, n, []) => if n = 0 then none else some (m, 0)
  | (m, n, c :: rest) =>
    if c = '.' then (toEnd (readDigits rest m 0)).filter fun (_, digits) => n + digits != 0 else none

/-- A literal with an optional sign; the empty text is zero. -/
def signed : List Char → Option (Int × Nat)
  | [] => some (0, 0)
  | c :: cs =>
    if c = '-' then (literal cs).map fun (m, digits) => (-(m : Int), digits)
    else if c = '+' then (literal cs).map fun (m, digits) => ((m : Int), digits)
    else (literal (c :: cs)).map fun (m, digits) => ((m : Int), digits)

theorem digitChar_digit {d : Nat} (h : d < 10) :
    (Nat.digitChar d).isDigit = true ∧ (Nat.digitChar d).toNat - '0'.toNat = d := by
  revert d
  decide

theorem readDigits_digit {d acc n : Nat} (h : d < 10) (cs : List Char) :
    readDigits (Nat.digitChar d :: cs) acc n = readDigits cs (10 * acc + d) (n + 1) := by
  obtain ⟨hd, hv⟩ := digitChar_digit h
  rw [readDigits, if_pos hd, hv]

/-- A literal with one digit before the point and two behind it, and whatever follows. -/
theorem literal_digits {a b c : Nat} (ha : a < 10) (hb : b < 10) (hc : c < 10) (cs : List Char) :
    literal (Nat.digitChar a :: '.' :: Nat.digitChar b :: Nat.digitChar c :: cs) =
      toEnd (readDigits cs (100 * a + 10 * b + c) 2) := by
  have hwhole : readDigits (Nat.digitChar a :: '.' :: Nat.digitChar b :: Nat.digitChar c :: cs) 0 0 =
      (a, 1, '.' :: Nat.digitChar b :: Nat.digitChar c :: cs) := by
    rw [readDigits_digit ha, readDigits, if_neg (by decide)]
    simp
  have hpart : readDigits (Nat.digitChar b :: Nat.digitChar c :: cs) a 0 = readDigits cs (100 * a + 10 * b + c) 2 := by
    rw [readDigits_digit hb, readDigits_digit hc]
    congr 1
    omega
  simp only [literal, hwhole, hpart, if_true]
  cases toEnd (readDigits cs (100 * a + 10 * b + c) 2) with
  | none => rfl
  | some x => simp [Option.filter]

/-- The number of a literal. -/
def ofLiteral : Option (Int × Nat) → JsNumber
  | some (m, digits) => decimal m digits
  | none => .nan

/-- `Number(s)` of a text without white space, exponent, radix or `Infinity`. -/
def ofText (s : String) : JsNumber := ofLiteral (signed s.toList)

end JsNumber

/-- What a property holds. -/
inductive JsValue
  | null
  | text (s : String)
  | number (x : JsNumber)
  deriving DecidableEq

namespace JsValue

/-- The conversion that arithmetic makes. -/
def toNumber : JsValue → JsNumber
  | .null => .finite 0 0
  | .text s => .ofText s
  | .number x => x

/-- `v + x`, where `printed` is the text of `x`: with a text on one side, the texts are joined. -/
def plus (v : JsValue) (x : JsNumber) (printed : String) : JsValue :=
  match v with
  | .text s => .text (s ++ printed)
  | v => .number (v.toNumber.add x)

end JsValue

end Chhaya
