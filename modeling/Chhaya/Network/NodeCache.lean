import Chhaya.Lib.Numeric
import Chhaya.Network.Relay

/-!
# The node cache of a relay

`loadNodes` and `healthCheckNodes` of `backend/server/src/onion-relay.ts`, on the table `onion_nodes` and on the cache
beside it. The driver reads the column `reliability` as a text, which the cache keeps until the first check. A check is
taken as one step: its `UPDATE` and then the same change of the cache. The time of the check, which nothing reads, is
left out.

- `after_row`, `after_node`: over any rounds, a loaded row and its entry are changed by their own checks alone;
- `opened_agrees`, `failed_agrees`: when one check keeps the row and the entry together;
- `together_of_keeps`: the checks that do so keep them together in every run;
- `cache_iff`: the cache shows the row after each round exactly when every check of the row is one of them;
- `handleRelay_row`: where it does, a relay refuses the node exactly when its row is not active.
-/

namespace Chhaya

namespace OnionRelay

open Numeric

/-- A row of `onion_nodes`. -/
structure OnionNodeRow where
  id : String
  address : String
  publicKey : Bytes
  region : String
  latencyMs : Option Int
  reliability : Option Numeric
  isActive : Option Bool
  fits : ∀ a ∈ reliability, a.Fits

/-- An `OnionNode` of `nodeCache`. -/
structure OnionNode where
  id : String
  address : String
  publicKey : Bytes
  region : String
  latencyMs : Option Int
  reliability : JsValue
  isActive : Option Bool

/-- How a check ends: the connection opened after so many milliseconds and the `UPDATE` went through, or not. -/
inductive HealthCheck
  | opened (latency : Int)
  | failed

/-! ## One check -/

theorem fits_least {a : Option Numeric} (ha : ∀ x ∈ a, x.Fits) : (least (a.map (·.add 1)) (.hundredths 99)).Fits := by
  rcases a with _ | ⟨_ | k⟩
  · decide
  · decide
  · obtain ⟨hlo, _⟩ : -1000 < k ∧ k < 1000 := ha _ rfl
    simp only [Option.map_some, Numeric.add, least_hundredths]
    exact ⟨by omega, by omega⟩

theorem fits_greatest {a : Option Numeric} (ha : ∀ x ∈ a, x.Fits) :
    (greatest (a.map (·.add (-5))) (.hundredths 50)).Fits := by
  rcases a with _ | ⟨_ | k⟩
  · decide
  · trivial
  · obtain ⟨_, hhi⟩ : -1000 < k ∧ k < 1000 := ha _ rfl
    simp only [Option.map_some, Numeric.add, greatest_hundredths]
    exact ⟨by omega, by omega⟩

namespace OnionNodeRow

/-- `UPDATE onion_nodes SET latency_ms = $1, …, reliability = LEAST(reliability + 0.01, 0.99)`. -/
def opened (row : OnionNodeRow) (latency : Int) : OnionNodeRow :=
  { row with
    latencyMs := some latency
    reliability := some (least (row.reliability.map (·.add 1)) (.hundredths 99))
    fits := by
      rintro a ⟨⟩
      exact fits_least row.fits }

/-- `UPDATE onion_nodes SET reliability = GREATEST(reliability - 0.05, 0.5), is_active = CASE WHEN reliability < 0.6 …`:
the right-hand sides see the old row. -/
def failed (row : OnionNodeRow) : OnionNodeRow :=
  { row with
    reliability := some (greatest (row.reliability.map (·.add (-5))) (.hundredths 50))
    isActive := if below row.reliability (.hundredths 60) then some false else row.isActive
    fits := by
      rintro a ⟨⟩
      exact fits_greatest row.fits }

def check (row : OnionNodeRow) : HealthCheck → OnionNodeRow
  | .opened latency => row.opened latency
  | .failed => row.failed

end OnionNodeRow

namespace OnionNode

/-- The entry of a row, as `loadNodes` sets it. -/
def ofRow (row : OnionNodeRow) : OnionNode where
  id := row.id
  address := row.address
  publicKey := row.publicKey
  region := row.region
  latencyMs := row.latencyMs
  reliability := read row.reliability
  isActive := row.isActive

/-- `reliability = Math.min(reliability + 0.01, 0.99)`. -/
def opened (node : OnionNode) (latency : Int) : OnionNode :=
  { node with
    latencyMs := some latency
    reliability := .number ((node.reliability.plus (.decimal 1 2) "0.01").toNumber.min (.decimal 99 2)) }

/-- `reliability = Math.max(reliability - 0.05, 0.5)`, and then `if (reliability < 0.6) isActive = false`. -/
def failed (node : OnionNode) : OnionNode :=
  let reliability := (node.reliability.toNumber.sub (.decimal 5 2)).max (.decimal 5 1)
  { node with
    reliability := .number reliability
    isActive := if reliability.lt (.decimal 6 1) then some false else node.isActive }

def check (node : OnionNode) : HealthCheck → OnionNode
  | .opened latency => node.opened latency
  | .failed => node.failed

end OnionNode

/-- An entry without a number keeps none, and its node stays as it is. -/
theorem OnionNode.check_nan {node : OnionNode} (h : node.reliability = .number .nan) (c : HealthCheck) :
    (node.check c).reliability = .number .nan ∧ (node.check c).isActive = node.isActive := by
  cases c with
  | opened latency => exact ⟨by simp [OnionNode.check, OnionNode.opened, h, JsValue.plus, JsValue.toNumber], rfl⟩
  | failed => simp [OnionNode.check, OnionNode.failed, h, JsValue.toNumber]

/-! ## Hundredths in doubles -/

/-- The remainders by 25 of the hundredths whose double less that of `0.05` is not the double of the difference. Between
two powers of two the doubles are evenly spaced, and what is lost repeats after a quarter. -/
def driftingRemainders (k : Int) : List Int :=
  if k < 56 then []
  else if k < 100 then [7, 8, 9, 10, 11, 19, 20, 21, 22, 23]
  else if k < 200 then [13, 14, 15, 16, 17]
  else if k < 400 then [6, 8, 10, 12, 14, 16, 18, 20, 22, 24]
  else if k < 800 then [7, 11, 15, 19, 23]
  else if k < 803 then []
  else [1, 2, 3, 4, 10, 11, 12, 18, 19, 20]

/-- A failed check at `k / 100` takes the double off the decimal: besides the remainders, also at a few hundredths above
a power of two. -/
def Drifts (k : Int) : Prop := k % 25 ∈ driftingRemainders k ∨ k ∈ [201, 203, 205, 402, 403]

instance (k : Int) : Decidable (Drifts k) := inferInstanceAs (Decidable (_ ∨ _))

section

variable {k : Int}

/-- The double of a value of the column is next to its decimal. -/
theorem decimal_near (hk : Fits (.hundredths k)) : |(JsNumber.decimal k 2).value - k / 100| ≤ 1 / 10 ^ 14 := by
  obtain ⟨hlo, hhi⟩ : -1000 < k ∧ k < 1000 := hk
  have hd : ((10 ^ 2 : Nat) : ℚ) = 100 := by norm_num
  have h := JsNumber.round_error k (d := 10 ^ 2) (by decide)
  rw [hd] at h
  have hb : |(k : ℚ) / 100| ≤ 10 := by
    rw [abs_le]
    have h1 : (-1000 : ℚ) < k := by exact_mod_cast hlo
    have h2 : (k : ℚ) < 1000 := by exact_mod_cast hhi
    constructor <;> linarith
  calc |(JsNumber.decimal k 2).value - k / 100| ≤ |(k : ℚ) / 100| / 2 ^ 53 := h
    _ ≤ 10 / 2 ^ 53 := by gcongr
    _ ≤ 1 / 10 ^ 14 := by norm_num

/-- What the column can hold, between the decimals and in doubles. -/
theorem decimal_bounds (hk : Fits (.hundredths k)) : |(k : ℚ) / 100| ≤ 10 ∧ |(JsNumber.decimal k 2).value| ≤ 11 := by
  have hn := abs_le.mp (decimal_near hk)
  obtain ⟨hlo, hhi⟩ : -1000 < k ∧ k < 1000 := hk
  have h1 : (-1000 : ℚ) < k := by exact_mod_cast hlo
  have h2 : (k : ℚ) < 1000 := by exact_mod_cast hhi
  norm_num at hn
  rw [abs_le, abs_le]
  refine ⟨⟨?_, ?_⟩, ?_, ?_⟩ <;> linarith

/-- The difference of two is next to the difference of their decimals. -/
theorem sub_near {j : Int} (hk : Fits (.hundredths k)) (hj : Fits (.hundredths j)) :
    |((JsNumber.decimal k 2).sub (.decimal j 2)).value - (k / 100 - j / 100)| ≤ 1 / 10 ^ 13 := by
  have hx := abs_le.mp (decimal_near hk)
  have hy := abs_le.mp (decimal_near hj)
  have h := JsNumber.sub_error (JsNumber.decimal_ne_nan k 2) (JsNumber.decimal_ne_nan j 2)
  have hb := (abs_sub (JsNumber.decimal k 2).value (JsNumber.decimal j 2).value).trans
    (add_le_add (decimal_bounds hk).2 (decimal_bounds hj).2)
  have he := abs_le.mp (h.trans (div_le_div_of_nonneg_right hb (by norm_num)))
  rw [abs_le]
  norm_num at hx hy he ⊢
  constructor <;> linarith

/-- So is the sum of two. -/
theorem add_near {j : Int} (hk : Fits (.hundredths k)) (hj : Fits (.hundredths j)) :
    |((JsNumber.decimal k 2).add (.decimal j 2)).value - (k / 100 + j / 100)| ≤ 1 / 10 ^ 13 := by
  have hx := abs_le.mp (decimal_near hk)
  have hy := abs_le.mp (decimal_near hj)
  have h := JsNumber.add_error (JsNumber.decimal_ne_nan k 2) (JsNumber.decimal_ne_nan j 2)
  have hb := (abs_add_le (JsNumber.decimal k 2).value (JsNumber.decimal j 2).value).trans
    (add_le_add (decimal_bounds hk).2 (decimal_bounds hj).2)
  have he := abs_le.mp (h.trans (div_le_div_of_nonneg_right hb (by norm_num)))
  rw [abs_le]
  norm_num at hx hy he ⊢
  constructor <;> linarith

theorem half : JsNumber.decimal 5 1 = .decimal 50 2 := by decide +kernel

theorem sixty : JsNumber.decimal 6 1 = .decimal 60 2 := by decide +kernel

/-- Doubles of different hundredths are in the order of these. -/
theorem decimal_lt {j : Int} (hj : Fits (.hundredths j)) (hk : Fits (.hundredths k)) (h : j < k) :
    (JsNumber.decimal j 2).value < (JsNumber.decimal k 2).value := by
  have hx := abs_le.mp (decimal_near hj)
  have hy := abs_le.mp (decimal_near hk)
  have h1 : (j : ℚ) + 1 ≤ k := by exact_mod_cast h
  norm_num at hx hy
  linarith

/-- The threshold is the same for decimals and for doubles. -/
theorem lt_sixty (hk : Fits (.hundredths k)) : (JsNumber.decimal k 2).lt (.decimal 6 1) = decide (k < 60) := by
  have h60 : Fits (.hundredths 60) := by decide
  rw [sixty, JsNumber.lt_of_value (JsNumber.decimal_ne_nan _ _) (JsNumber.decimal_ne_nan _ _), decide_eq_decide]
  rcases lt_trichotomy k 60 with h | rfl | h
  · exact iff_of_true (decimal_lt hk h60 h) h
  · exact iff_of_false (lt_irrefl _) (by decide)
  · exact iff_of_false (decimal_lt h60 hk h).asymm (by omega)

/-- A failed check takes the double to the decimal exactly where the hundredths do not drift. -/
theorem max_sub_five (hk : Fits (.hundredths k)) :
    ((JsNumber.decimal k 2).sub (.decimal 5 2)).max (.decimal 5 1) = .decimal (max (k - 5) 50) 2 ↔ ¬Drifts k := by
  have hs := JsNumber.sub_ne_nan (JsNumber.decimal_ne_nan k 2) (JsNumber.decimal_ne_nan 5 2)
  have hn := abs_le.mp (sub_near hk (j := 5) (by decide))
  have hh := abs_le.mp (decimal_near (k := 50) (by decide))
  have hhi : k < 1000 := hk.2
  norm_num at hn hh
  rw [half, JsNumber.max_of_value hs (JsNumber.decimal_ne_nan _ _)]
  rcases lt_trichotomy k 55 with h | rfl | h
  · have hd : ¬Drifts k := by
      have hr : driftingRemainders k = [] := if_pos (by omega)
      simp only [Drifts, hr, List.not_mem_nil, false_or, List.mem_cons, or_false]
      omega
    have h1 : (k : ℚ) + 1 ≤ 55 := by exact_mod_cast h
    rw [if_pos (by linarith), max_eq_right (by omega)]
    exact iff_of_true rfl hd
  · decide +kernel
  · have h1 : (56 : ℚ) ≤ k := by exact_mod_cast h
    have hall : ∀ n < 944, (JsNumber.decimal ((n : Nat) + 56) 2).sub (.decimal 5 2) = .decimal ((n : Nat) + 51) 2 ↔
        ¬Drifts (n + 56) := by decide +kernel
    rw [if_neg (by linarith), max_eq_left (by omega)]
    obtain ⟨n, rfl⟩ : ∃ n : Nat, k = n + 56 := ⟨(k - 56).toNat, by omega⟩
    rw [show (n : Int) + 56 - 5 = n + 51 by omega]
    exact hall n (by omega)

/-- From `0.50` on, a good check takes the double to the decimal but in four places. -/
theorem min_add_one (hk : Fits (.hundredths k)) (h50 : 50 ≤ k) :
    ((JsNumber.decimal k 2).add (.decimal 1 2)).min (.decimal 99 2) = .decimal (min (k + 1) 99) 2 ↔
      k ∉ [56, 68, 81, 93] := by
  have hs := JsNumber.add_ne_nan (JsNumber.decimal_ne_nan k 2) (JsNumber.decimal_ne_nan 1 2)
  have hn := abs_le.mp (add_near hk (j := 1) (by decide))
  have hh := abs_le.mp (decimal_near (k := 99) (by decide))
  norm_num at hn hh
  by_cases h : k < 100
  · have hall : ∀ n < 50, ((JsNumber.decimal ((n : Nat) + 50) 2).add (.decimal 1 2)).min (.decimal 99 2) =
        .decimal (min ((n : Nat) + 51) 99) 2 ↔ (n : Int) + 50 ∉ [56, 68, 81, 93] := by decide +kernel
    obtain ⟨n, rfl⟩ : ∃ n : Nat, k = n + 50 := ⟨(k - 50).toNat, by omega⟩
    exact hall n (by omega)
  · have h1 : (100 : ℚ) ≤ k := by exact_mod_cast not_lt.mp h
    rw [JsNumber.min_of_value hs (JsNumber.decimal_ne_nan _ _), if_neg (by linarith), min_eq_right (by omega)]
    refine iff_of_true rfl ?_
    simp only [List.mem_cons, List.not_mem_nil, or_false]
    omega

end

/-! ## A row and its entry -/

/-- The entry shows the row. -/
def Agrees (row : OnionNodeRow) (node : OnionNode) : Prop :=
  Shows row.reliability node.reliability ∧ node.isActive = row.isActive

/-- What a check must find for the entry to go on showing the row. -/
def OnionNodeRow.Keeps (row : OnionNodeRow) (checked : Bool) : HealthCheck → Prop
  | .opened _ => checked = true ∧ ∃ k, row.reliability = some (.hundredths k) ∧ k ∉ [56, 68, 81, 93]
  | .failed =>
    match row.reliability with
    | none => row.isActive = some false
    | some .nan => True
    | some (.hundredths k) => ¬Drifts k ∧ (60 ≤ k → k < 65 → row.isActive = some false)

/-- A row and its entry that shows it: as loaded, or as doubles once they are checked. -/
structure Together (checked : Bool) (row : OnionNodeRow) (node : OnionNode) : Prop where
  loaded : checked = false → node.reliability = read row.reliability
  number : checked = true → ∃ a, row.reliability = some a ∧ node.reliability = .number a.double ∧
    ∀ k, a = .hundredths k → 50 ≤ k
  isActive : node.isActive = row.isActive

theorem Together.agrees {checked : Bool} {row : OnionNodeRow} {node : OnionNode} (h : Together checked row node) :
    Agrees row node := by
  refine ⟨?_, h.isActive⟩
  cases checked with
  | false =>
    rw [h.loaded rfl]
    exact shows_read _
  | true =>
    obtain ⟨a, ha, hn, _⟩ := h.number rfl
    rw [ha, hn]
    exact .inr rfl

/-- A double shows the value that it is next to. -/
theorem shows_number {a : Numeric} {x : JsNumber} : Shows (some a) (.number x) ↔ x = a.double := by
  simp [Shows]

section

variable {checked : Bool} {row : OnionNodeRow} {node : OnionNode}

/-- The number of an entry that shows its row. -/
theorem Together.toNumber {a : Numeric} (h : Together checked row node) (ha : row.reliability = some a) :
    node.reliability.toNumber = a.double := by
  cases checked with
  | false =>
    rw [h.loaded rfl, ha]
    exact ofText_text (row.fits a ha)
  | true =>
    obtain ⟨b, hb, hn, _⟩ := h.number rfl
    rw [ha] at hb
    cases hb
    rw [hn]
    rfl

/-- Which failed checks keep the two together. -/
theorem failed_agrees (h : Together checked row node) : Agrees row.failed node.failed ↔ row.Keeps checked .failed := by
  show Shows (some (greatest (row.reliability.map (·.add (-5))) (.hundredths 50)))
      (.number ((node.reliability.toNumber.sub (.decimal 5 2)).max (.decimal 5 1))) ∧
    (if ((node.reliability.toNumber.sub (.decimal 5 2)).max (.decimal 5 1)).lt (.decimal 6 1) then some false
      else node.isActive) = (if below row.reliability (.hundredths 60) then some false else row.isActive) ↔ _
  rw [shows_number, h.isActive]
  unfold OnionNodeRow.Keeps
  cases hr : row.reliability with
  | none =>
    have hc : checked = false := by
      cases checked with
      | false => rfl
      | true =>
        obtain ⟨a, ha, _⟩ := h.number rfl
        rw [hr] at ha
        cases ha
    have hv : node.reliability.toNumber = .finite 0 0 := by rw [h.loaded hc, hr]; rfl
    have hm : ((JsNumber.finite 0 0).sub (.decimal 5 2)).max (.decimal 5 1) = .decimal 50 2 := by decide +kernel
    rw [hv, hm, lt_sixty (by decide)]
    simp [greatest, double, below, eq_comm]
  | some a =>
    cases a with
    | nan =>
      rw [h.toNumber hr]
      simp [Numeric.add, greatest, Numeric.lt, double, below]
    | hundredths k =>
      have hv : node.reliability.toNumber = .decimal k 2 := h.toNumber hr
      have hk : Fits (.hundredths k) := row.fits _ hr
      have hf : Fits (.hundredths (max (k - 5) 50)) := by
        obtain ⟨hlo, hhi⟩ : -1000 < k ∧ k < 1000 := hk
        exact ⟨by omega, by omega⟩
      simp only [hv, Option.map_some, Numeric.add, greatest_hundredths, ← sub_eq_add_neg, double, max_sub_five hk]
      refine and_congr_right fun hd => ?_
      rw [(max_sub_five hk).mpr hd, lt_sixty hf]
      simp only [below, Numeric.lt, decide_eq_true_eq]
      by_cases h60 : k < 60
      · rw [if_pos (by omega), if_pos h60]
        exact iff_of_true rfl (by omega)
      · rw [if_neg h60]
        by_cases h65 : k < 65
        · rw [if_pos (by omega)]
          exact ⟨fun he _ _ => he.symm, fun hi => (hi (by omega) h65).symm⟩
        · rw [if_neg (by omega)]
          exact iff_of_true rfl (by omega)

/-- Which good checks do. -/
theorem opened_agrees (h : Together checked row node) (latency : Int) :
    Agrees (row.opened latency) (node.opened latency) ↔ row.Keeps checked (.opened latency) := by
  show Shows (some (least (row.reliability.map (·.add 1)) (.hundredths 99)))
      (.number ((node.reliability.plus (.decimal 1 2) "0.01").toNumber.min (.decimal 99 2))) ∧
    node.isActive = row.isActive ↔ _
  rw [shows_number, and_iff_left h.isActive]
  unfold OnionNodeRow.Keeps
  cases checked with
  | false =>
    -- a text joined to a number, or a number that `NULL` does not give
    refine iff_of_false (fun he => ?_) (fun hk => absurd hk.1 (by decide))
    rw [h.loaded rfl] at he
    cases hr : row.reliability with
    | none =>
      rw [hr] at he
      exact absurd he (by decide +kernel)
    | some a =>
      rw [hr] at he
      simp only [Numeric.read, JsValue.plus, JsValue.toNumber, ofText_text_append (row.fits a hr), JsNumber.nan_min] at he
      cases a with
      | nan => exact absurd he (by decide +kernel)
      | hundredths k =>
        simp only [Option.map_some, Numeric.add, least_hundredths] at he
        exact JsNumber.decimal_ne_nan _ _ he.symm
  | true =>
    obtain ⟨a, ha, hn, h50⟩ := h.number rfl
    rw [hn, ha]
    cases a with
    | nan =>
      refine iff_of_false (fun he => ?_) (by simp)
      exact absurd he (by decide +kernel)
    | hundredths k =>
      simp only [Option.map_some, Numeric.add, least_hundredths, JsValue.plus, JsValue.toNumber, double,
        min_add_one (row.fits _ ha) (h50 k rfl)]
      simp

theorem check_agrees (h : Together checked row node) (c : HealthCheck) :
    Agrees (row.check c) (node.check c) ↔ row.Keeps checked c := by
  cases c with
  | opened latency => exact opened_agrees h latency
  | failed => exact failed_agrees h

/-- A check that keeps them together leaves a double in the entry. -/
theorem Together.check (h : Together checked row node) {c : HealthCheck} (hk : row.Keeps checked c) :
    Together true (row.check c) (node.check c) := by
  cases c with
  | opened latency =>
    obtain ⟨hs, ha⟩ := (opened_agrees h latency).mpr hk
    obtain ⟨hc, k, hr, -⟩ := hk
    refine ⟨fun hf => absurd hf (by decide), fun _ => ⟨_, rfl, ?_, fun j hj => ?_⟩, ha⟩
    · exact congrArg JsValue.number (shows_number.mp hs)
    · obtain ⟨a, hra, -, h50⟩ := h.number hc
      rw [hr] at hra hj
      cases hra
      simp only [Option.map_some, Numeric.add, least_hundredths] at hj
      cases hj
      have := h50 k rfl
      omega
  | failed =>
    obtain ⟨hs, ha⟩ := (failed_agrees h).mpr hk
    refine ⟨fun hf => absurd hf (by decide), fun _ => ⟨_, rfl, ?_, fun j hj => ?_⟩, ha⟩
    · exact congrArg JsValue.number (shows_number.mp hs)
    · rcases hr : row.reliability with _ | ⟨_ | k⟩
      · rw [hr] at hj
        cases hj
        decide
      · rw [hr] at hj
        cases hj
      · rw [hr] at hj
        simp only [Option.map_some, Numeric.add, greatest_hundredths] at hj
        cases hj
        exact le_max_right _ _

end

/-! ## The table and the cache -/

section

variable {α : Type} (key : α → String)

/-- One record changed, by its key. -/
def changeAt (id : String) (f : α → α) (l : List α) : List α := l.map fun x => if key x = id then f x else x

/-- Records changed in turn, by their keys. -/
def changeAll (ids : List String) (f : String → α → α) (l : List α) : List α :=
  ids.foldl (fun l id => changeAt key id (f id) l) l

variable {key}

theorem find_changeAt {f : α → α} (hf : ∀ x, key (f x) = key x) (id id' : String) (l : List α) :
    (changeAt key id f l).find? (fun x => key x == id') =
      (l.find? fun x => key x == id').map fun x => if id' = id then f x else x := by
  induction l with
  | nil => rfl
  | cons x l ih =>
    have hk : key (if key x = id then f x else x) = key x := by
      split
      · exact hf x
      · rfl
    show List.find? _ ((if key x = id then f x else x) :: changeAt key id f l) = _
    rw [List.find?_cons, List.find?_cons, hk]
    cases hx : key x == id' with
    | true => simp [beq_iff_eq.mp hx]
    | false => exact ih

theorem map_changeAt {f : α → α} (hf : ∀ x, key (f x) = key x) (id : String) (l : List α) :
    (changeAt key id f l).map key = l.map key := by
  rw [changeAt, List.map_map]
  refine List.map_congr_left fun x _ => ?_
  show key (if key x = id then f x else x) = key x
  split
  · exact hf x
  · rfl

theorem find_changeAll {f : String → α → α} (hf : ∀ id x, key (f id x) = key x) (id' : String) :
    ∀ {ids : List String} (_ : ids.Nodup) (l : List α), (changeAll key ids f l).find? (fun x => key x == id') =
      (l.find? fun x => key x == id').map fun x => if id' ∈ ids then f id' x else x
  | [], _, l => by simp [changeAll]
  | id :: ids, hnd, l => by
    obtain ⟨hid, hnd⟩ := List.nodup_cons.mp hnd
    show (changeAll key ids f (changeAt key id (f id) l)).find? _ = _
    rw [find_changeAll hf id' hnd, find_changeAt (hf id), Option.map_map]
    congr 1
    funext x
    by_cases h : id' = id
    · subst h
      simp [hid]
    · simp [h]

theorem map_changeAll {f : String → α → α} (hf : ∀ id x, key (f id x) = key x) :
    ∀ (ids : List String) (l : List α), (changeAll key ids f l).map key = l.map key
  | [], _ => rfl
  | id :: ids, l => (map_changeAll hf ids _).trans (map_changeAt (hf id) id l)

/-- A record is found by its key. -/
theorem find_of_mem {x : α} : ∀ {l : List α}, (l.map key).Nodup → x ∈ l → l.find? (fun y => key y == key x) = some x
  | y :: l, hnd, hx => by
    obtain ⟨hy, hnd⟩ := List.nodup_cons.mp hnd
    rcases List.mem_cons.mp hx with rfl | hx
    · simp
    · have hne : (key y == key x) = false := by
        rw [beq_eq_false_iff_ne]
        rintro he
        exact hy (he ▸ List.mem_map_of_mem hx)
      rw [List.find?_cons, hne]
      exact find_of_mem hnd hx

end

/-- `onion_nodes`, by its primary key. -/
structure OnionNodes where
  rows : List OnionNodeRow
  primaryKey : (rows.map OnionNodeRow.id).Nodup

/-- The rows `WHERE is_active = true`, each set in the cache. -/
def loadNodes (table : OnionNodes) : List OnionNode :=
  (table.rows.filter fun row => row.isActive == some true).map OnionNode.ofRow

/-- The table, and `nodeCache` in the order of its entries. -/
structure RelayState where
  onionNodes : List OnionNodeRow
  nodeCache : List OnionNode

namespace RelayState

def row (s : RelayState) (id : String) : Option OnionNodeRow := s.onionNodes.find? fun row => row.id == id

def node (s : RelayState) (id : String) : Option OnionNode := s.nodeCache.find? fun node => node.id == id

/-- The `UPDATE … WHERE id = …` of a check, and its change of `nodeCache.get(id)`. -/
def checkNode (s : RelayState) (id : String) (c : HealthCheck) : RelayState where
  onionNodes := changeAt OnionNodeRow.id id (fun row => row.check c) s.onionNodes
  nodeCache := changeAt OnionNode.id id (fun node => node.check c) s.nodeCache

/-- One round: every entry is checked, with what comes of each check. -/
def healthCheckNodes (s : RelayState) (outcome : String → HealthCheck) : RelayState :=
  (s.nodeCache.map OnionNode.id).foldl (fun s id => s.checkNode id (outcome id)) s

/-- What `handleRelay` sees of the cache. -/
def cached (s : RelayState) : NodeCache := fun id =>
  (s.node id).map fun node => ⟨node.address, node.isActive == some true⟩

/-- The cache shows the row. -/
def Agrees (s : RelayState) (id : String) : Prop :=
  ∃ row node, s.row id = some row ∧ s.node id = some node ∧ OnionRelay.Agrees row node

/-- The next check of the row keeps the two together. -/
def Keeps (s : RelayState) (id : String) (checked : Bool) (c : HealthCheck) : Prop :=
  ∃ row, s.row id = some row ∧ row.Keeps checked c

theorem foldl_checkNode (outcome : String → HealthCheck) : ∀ (ids : List String) (s : RelayState),
    ids.foldl (fun s id => s.checkNode id (outcome id)) s =
      ⟨changeAll OnionNodeRow.id ids (fun id row => row.check (outcome id)) s.onionNodes,
        changeAll OnionNode.id ids (fun id node => node.check (outcome id)) s.nodeCache⟩
  | [], _ => rfl
  | id :: ids, s => foldl_checkNode outcome ids (s.checkNode id (outcome id))

end RelayState

/-- The relay after some rounds. -/
def after (table : OnionNodes) (rounds : List (String → HealthCheck)) : RelayState :=
  rounds.foldl RelayState.healthCheckNodes ⟨table.rows, loadNodes table⟩

/-! ## Runs -/

theorem OnionNodeRow.id_check (row : OnionNodeRow) (c : HealthCheck) : (row.check c).id = row.id := by
  cases c with
  | opened latency => rfl
  | failed => rfl

theorem OnionNode.id_check (node : OnionNode) (c : HealthCheck) : (node.check c).id = node.id := by
  cases c with
  | opened latency => rfl
  | failed => rfl

section

variable (table : OnionNodes)

theorem after_append (rounds : List (String → HealthCheck)) (outcome : String → HealthCheck) :
    after table (rounds ++ [outcome]) = (after table rounds).healthCheckNodes outcome := by
  simp [after]

theorem ids_loadNodes : (loadNodes table).map OnionNode.id =
    (table.rows.filter fun row => row.isActive == some true).map OnionNodeRow.id := by
  rw [loadNodes, List.map_map]
  rfl

/-- The keys of the cache stay those that were loaded. -/
theorem ids_after (rounds : List (String → HealthCheck)) :
    (after table rounds).nodeCache.map OnionNode.id = (loadNodes table).map OnionNode.id := by
  induction rounds using List.reverseRecOn with
  | nil => rfl
  | append_singleton rounds outcome ih =>
    rw [after_append, RelayState.healthCheckNodes, RelayState.foldl_checkNode]
    exact (map_changeAll (fun id node => node.id_check (outcome id)) _ _).trans ih

theorem nodup_loadNodes : ((loadNodes table).map OnionNode.id).Nodup := by
  rw [ids_loadNodes]
  exact (List.filter_sublist.map _).nodup table.primaryKey

variable {table} {row : OnionNodeRow} (hrow : row ∈ table.rows) (hactive : row.isActive = some true)

include hrow

theorem start_row : (after table []).row row.id = some row := find_of_mem table.primaryKey hrow

include hactive

theorem mem_loadNodes : OnionNode.ofRow row ∈ loadNodes table :=
  List.mem_map_of_mem (List.mem_filter.mpr ⟨hrow, by rw [hactive]; rfl⟩)

/-- A round changes a loaded row by the check of its own entry. -/
theorem after_row (rounds : List (String → HealthCheck)) (outcome : String → HealthCheck) :
    (after table (rounds ++ [outcome])).row row.id =
      ((after table rounds).row row.id).map fun r => r.check (outcome row.id) := by
  have hid : row.id ∈ (after table rounds).nodeCache.map OnionNode.id := by
    rw [ids_after]
    exact List.mem_map_of_mem (mem_loadNodes hrow hactive)
  have hnd : ((after table rounds).nodeCache.map OnionNode.id).Nodup := by
    rw [ids_after]
    exact nodup_loadNodes table
  rw [after_append, RelayState.healthCheckNodes, RelayState.foldl_checkNode, RelayState.row,
    find_changeAll (fun id r => r.id_check (outcome id)) row.id hnd]
  simp only [if_pos hid, RelayState.row]

/-- And so it changes the entry. -/
theorem after_node (rounds : List (String → HealthCheck)) (outcome : String → HealthCheck) :
    (after table (rounds ++ [outcome])).node row.id =
      ((after table rounds).node row.id).map fun n => n.check (outcome row.id) := by
  have hid : row.id ∈ (after table rounds).nodeCache.map OnionNode.id := by
    rw [ids_after]
    exact List.mem_map_of_mem (mem_loadNodes hrow hactive)
  have hnd : ((after table rounds).nodeCache.map OnionNode.id).Nodup := by
    rw [ids_after]
    exact nodup_loadNodes table
  rw [after_append, RelayState.healthCheckNodes, RelayState.foldl_checkNode, RelayState.node,
    find_changeAll (fun id n => n.id_check (outcome id)) row.id hnd]
  simp only [if_pos hid, RelayState.node]

theorem start_node : (after table []).node row.id = some (.ofRow row) :=
  find_of_mem (nodup_loadNodes table) (mem_loadNodes hrow hactive)

/-- Checks that keep the row and its entry together do so in every run. -/
theorem together_of_keeps (rounds : List (String → HealthCheck))
    (hk : ∀ past outcome, past ++ [outcome] <+: rounds → (after table past).Keeps row.id (!past.isEmpty) (outcome row.id)) :
    ∃ r n, (after table rounds).row row.id = some r ∧ (after table rounds).node row.id = some n ∧
      Together (!rounds.isEmpty) r n := by
  induction rounds using List.reverseRecOn with
  | nil => exact ⟨row, .ofRow row, start_row hrow, start_node hrow hactive, ⟨fun _ => rfl, by simp, rfl⟩⟩
  | append_singleton rounds outcome ih =>
    obtain ⟨r, n, hr, hn, ht⟩ := ih fun past o hp => hk past o (hp.trans (List.prefix_append _ _))
    obtain ⟨r', hr', hkeep⟩ := hk rounds outcome List.prefix_rfl
    rw [hr] at hr'
    cases hr'
    refine ⟨r.check (outcome row.id), n.check (outcome row.id), ?_, ?_, ?_⟩
    · rw [after_row hrow hactive, hr]
      rfl
    · rw [after_node hrow hactive, hn]
      rfl
    · rw [show (!(rounds ++ [outcome]).isEmpty) = true by simp]
      exact ht.check hkeep

/-- A cache that always shows the row has only seen checks that keep it so. -/
theorem keeps_of_agrees (rounds : List (String → HealthCheck))
    (ha : ∀ past, past <+: rounds → (after table past).Agrees row.id) (past : List (String → HealthCheck))
    (outcome : String → HealthCheck) (hp : past ++ [outcome] <+: rounds) :
    (after table past).Keeps row.id (!past.isEmpty) (outcome row.id) := by
  induction rounds using List.reverseRecOn generalizing past outcome with
  | nil => simp at hp
  | append_singleton rounds last ih =>
    have hkeeps := ih fun past hp => ha past (hp.trans (List.prefix_append _ _))
    rcases List.prefix_concat_iff.mp hp with he | hp
    · obtain ⟨hpast, hlast⟩ := List.append_inj' he rfl
      rw [List.singleton_inj] at hlast
      subst hpast hlast
      obtain ⟨r, n, hr, hn, ht⟩ := together_of_keeps hrow hactive past hkeeps
      obtain ⟨r', n', hr', hn', hag⟩ := ha _ List.prefix_rfl
      rw [after_row hrow hactive, hr] at hr'
      rw [after_node hrow hactive, hn] at hn'
      cases hr'
      cases hn'
      exact ⟨r, hr, (check_agrees ht _).mp hag⟩
    · exact hkeeps past outcome hp

/-- The cache shows a loaded row after every round exactly when each of its checks keeps it so. -/
theorem cache_iff (rounds : List (String → HealthCheck)) :
    (∀ past, past <+: rounds → (after table past).Agrees row.id) ↔
      ∀ past outcome, past ++ [outcome] <+: rounds →
        (after table past).Keeps row.id (!past.isEmpty) (outcome row.id) := by
  constructor
  · exact keeps_of_agrees hrow hactive rounds
  · intro hk past hp
    obtain ⟨r, n, hr, hn, ht⟩ := together_of_keeps hrow hactive past fun p o h => hk p o (h.trans hp)
    exact ⟨r, n, hr, hn, ht.agrees⟩

end

/-- With a cache that shows the row, a relay refuses the node exactly when the row is not active. -/
theorem handleRelay_row {s : RelayState} {id : String} {r : OnionNodeRow} (ha : s.Agrees id) (hr : s.row id = some r)
    (hid : id ≠ "") (packet : OnionPacket) :
    handleRelay s.cached ⟨some packet, some id⟩ = .refused "Node unavailable" ↔ r.isActive ≠ some true := by
  obtain ⟨r', n, hr', hn, -, hact⟩ := ha
  rw [hr] at hr'
  cases hr'
  have hc : s.cached id = some ⟨n.address, n.isActive == some true⟩ := by
    rw [RelayState.cached, hn]
    rfl
  unfold handleRelay
  dsimp only
  rw [if_neg (by simpa using hid), hc, hact]
  dsimp only
  by_cases h : r.isActive = some true
  · rw [h]
    simp
  · have hb : (r.isActive == some true) = false := by simpa using h
    rw [hb]
    simp [h]

/-- An active node. -/
def nodeAt (k : Int) (hk : Fits (.hundredths k)) : OnionNodeRow where
  id := "n1"
  address := "n1.chhaya.network:8443"
  publicKey := []
  region := "eu"
  latencyMs := some 40
  reliability := some (.hundredths k)
  isActive := some true
  fits := by
    rintro a ⟨⟩
    exact hk

/-- A table of one row. -/
def oneNode (row : OnionNodeRow) : OnionNodes := ⟨[row], List.nodup_singleton _⟩

/-- Two failed checks from `0.80` and then a good one: the cache shows `0.75`, `0.70` and `0.71`. -/
theorem cache_shown :
    (after (oneNode (nodeAt 80 (by decide))) [fun _ => .failed, fun _ => .failed, fun _ => .opened 12]).Agrees "n1" := by
  refine (@cache_iff (oneNode (nodeAt 80 (by decide))) (nodeAt 80 (by decide)) List.mem_cons_self rfl
    [fun _ => .failed, fun _ => .failed, fun _ => .opened 12]).mpr ?_ _ List.prefix_rfl
  intro past outcome hp
  rcases past with _ | ⟨a, _ | ⟨b, _ | ⟨c, past⟩⟩⟩
  · simp only [List.nil_append, List.cons_prefix_cons] at hp
    obtain ⟨rfl, -⟩ := hp
    exact ⟨_, rfl, by decide, by decide⟩
  · simp only [List.cons_append, List.nil_append, List.cons_prefix_cons] at hp
    obtain ⟨rfl, rfl, -⟩ := hp
    exact ⟨_, rfl, by decide, by decide⟩
  · simp only [List.cons_append, List.nil_append, List.cons_prefix_cons] at hp
    obtain ⟨rfl, rfl, rfl, -⟩ := hp
    exact ⟨_, rfl, rfl, 70, rfl, by decide⟩
  · have hl := hp.length_le
    simp only [List.length_append, List.length_cons, List.length_nil] at hl
    omega

/-- The first check of a node opens: its cached reliability is no number from then on. -/
theorem cache_nan : ¬(after (oneNode (nodeAt 95 (by decide))) [fun _ => .opened 12]).Agrees "n1" := by
  rintro ⟨r, n, hr, hn, hs, -⟩
  have hr' : (after (oneNode (nodeAt 95 (by decide))) [fun _ => .opened 12]).row "n1" =
      some ((nodeAt 95 (by decide)).opened 12) := rfl
  have hn' : (after (oneNode (nodeAt 95 (by decide))) [fun _ => .opened 12]).node "n1" =
      some ((OnionNode.ofRow (nodeAt 95 (by decide))).opened 12) := rfl
  rw [hr'] at hr
  rw [hn'] at hn
  cases hr
  cases hn
  have hv : JsNumber.ofText ((Numeric.hundredths 95).text ++ "0.01") = .nan := ofText_text_append (by decide)
  have hx : (JsNumber.ofText ((Numeric.hundredths 95).text ++ "0.01")).min (.decimal 99 2) = .decimal 96 2 :=
    shows_number.mp hs
  rw [hv] at hx
  exact absurd hx (by decide +kernel)

end OnionRelay
end Chhaya
