import Chhaya.Dart.Core
import Chhaya.Lib.Calendar

/-!
# Times as text

`DateTime.toIso8601String` and `DateTime.parse`. A local time is written as the wall-clock time of the zone in force, without
the zone, and is read as a wall-clock time of the zone in force then.

- `DateTime.parse_toIso8601String`: what is read of a time that was written.
- `Zone.recovers_iff`: where the zones show one clock.
-/

namespace Chhaya

/-! ## Zones -/

/-- A time zone: how far its clock is ahead at an instant, in microseconds, and the instant that it takes for a wall-clock
time. A wall-clock time that occurs is taken for an instant at which it does; others fall into a gap. -/
structure Zone where
  offset : Int → Int
  resolve : Int → Int
  offset_lt : ∀ t, -86400000000 < offset t ∧ offset t < 86400000000
  resolve_clock : ∀ t, resolve (t + offset t) + offset (resolve (t + offset t)) = t + offset t

namespace Zone

/-- The wall-clock time at the instant `t`. -/
def clock (z : Zone) (t : Int) : Int := t + z.offset t

/-- What the clock of `w` shows at the instant `t` is taken for `t` in the zone `r`. -/
def Recovers (w r : Zone) (t : Int) : Prop := r.resolve (w.clock t) = t

/-- Where the clock of `r` shows the wall-clock time at some instant, it is the offset that counts, and for a time that the
clock of `r` shows twice also which of the two it takes. -/
theorem recovers_iff {w r : Zone} {t u : Int} (hu : r.clock u = w.clock t) :
    Recovers w r t ↔ r.offset t = w.offset t ∧ Recovers r r t := by
  have hr : r.clock (r.resolve (w.clock t)) = w.clock t := by
    rw [← hu]
    exact r.resolve_clock u
  unfold Recovers
  constructor
  · intro h
    rw [h] at hr
    refine ⟨by unfold clock at hr; omega, ?_⟩
    rw [hr]
    exact h
  · rintro ⟨ho, h⟩
    have hc : r.clock t = w.clock t := by unfold clock; omega
    rwa [← hc]

/-- A zone without changes. -/
def fixed (o : Int) (h : -86400000000 < o ∧ o < 86400000000) : Zone where
  offset _ := o
  resolve l := l - o
  offset_lt _ := h
  resolve_clock t := by omega

end Zone

/-! ## Writing -/

/-- `n` in `w` decimal digits. -/
def paddedDigits : Nat → Nat → List Char
  | 0, _ => []
  | w + 1, n => paddedDigits w (n / 10) ++ [Nat.digitChar (n % 10)]

/-- A year: `_fourDigits`, or `_sixDigits` with its sign. -/
def yearText (year : Int) : List Char :=
  if -9999 ≤ year ∧ year ≤ 9999 then
    (if year < 0 then ['-'] else []) ++ paddedDigits 4 year.natAbs
  else (if year < 0 then ['-'] else ['+']) ++ paddedDigits 6 year.natAbs

/-- Milliseconds, and microseconds where there are some. -/
def fractionDigits (ms us : Nat) : List Char := paddedDigits 3 ms ++ if us = 0 then [] else paddedDigits 3 us

/-- The text after the year: a month and a day, and the microseconds of the day. -/
def dayText (month day rest : Nat) : List Char :=
  '-' :: (paddedDigits 2 month ++ '-' :: (paddedDigits 2 day ++ 'T' :: (paddedDigits 2 (rest / 3600000000) ++
    ':' :: (paddedDigits 2 (rest / 60000000 % 60) ++ ':' :: (paddedDigits 2 (rest / 1000000 % 60) ++
      '.' :: fractionDigits (rest / 1000 % 1000) (rest % 1000))))))

/-- The text of the wall-clock time `l`, in microseconds since the epoch. -/
def clockText (l : Int) : List Char :=
  let date := Calendar.ofDayNumber (l / 86400000000)
  yearText date.year ++ dayText date.month.toNat date.day.toNat (l % 86400000000).toNat

/-- `toIso8601String`, in the zone `z`. -/
def DateTime.toIso8601String (z : Zone) (t : DateTime) : String :=
  String.ofList (if t.isUtc then clockText t.microsecondsSinceEpoch ++ ['Z'] else clockText (z.clock t.microsecondsSinceEpoch))

/-! ## Reading -/

/-- `\d` as often as `w` says. -/
def readDigits (w : Nat) (cs : List Char) : Option (Nat × List Char) :=
  if w ≤ cs.length ∧ (cs.take w).all Char.isDigit then some (Nat.ofDigitChars 10 (cs.take w) 0, cs.drop w) else none

/-- An optional character. -/
def skipOne (c : Char) : List Char → List Char
  | d :: cs => if d = c then cs else d :: cs
  | [] => []

/-- An optional group `:?\d\d`. -/
def readPart (cs : List Char) : Option (Nat × List Char) := readDigits 2 (skipOne ':' cs)

/-- The microseconds of a fraction of a second: its first six digits. -/
def fractionOf (ds : List Char) : Nat := Nat.ofDigitChars 10 ((ds ++ List.replicate 6 '0').take 6) 0

/-- An optional fraction `[.,]\d+`. -/
def readFraction : List Char → Nat × List Char
  | c :: cs =>
    let ds := cs.takeWhile Char.isDigit
    if (c = '.' ∨ c = ',') ∧ ds ≠ [] then (fractionOf ds, cs.dropWhile Char.isDigit) else (0, c :: cs)
  | [] => (0, [])

/-- Minutes, seconds and a fraction, each optional where the one before it is there. -/
def readMinutes (cs : List Char) : (Nat × Nat × Nat) × List Char :=
  match readPart cs with
  | none => ((0, 0, 0), cs)
  | some (minute, cs) =>
    match readPart cs with
    | none => ((minute, 0, 0), cs)
    | some (second, cs) => ((minute, second, (readFraction cs).1), (readFraction cs).2)

/-- The end of the text: no zone, `Z`, or the minutes that a zone is ahead. -/
def readZone (cs : List Char) : Option (Option Int) :=
  if cs = [] then some none
  else
    match skipOne ' ' cs with
    | ['Z'] | ['z'] => some (some 0)
    | c :: cs =>
      if c = '+' ∨ c = '-' then do
        let (hour, cs) ← readDigits 2 cs
        let (minute, cs) := (readPart cs).getD (0, cs)
        if cs = [] then some (some (if c = '-' then -(minute + 60 * hour : Int) else minute + 60 * hour)) else none
      else none
    | [] => none

/-- The parts of a time that `DateTime.parse` finds. -/
structure TimeParts where
  date : Calendar.Date
  hour : Nat := 0
  minute : Nat := 0
  second : Nat := 0
  micro : Nat := 0
  zone : Option Int := none

/-- The text after the year. -/
def readAfterYear (year : Int) (cs : List Char) : Option TimeParts := do
  let (month, cs) ← readDigits 2 (skipOne '-' cs)
  let (day, cs) ← readDigits 2 (skipOne '-' cs)
  match cs with
  | [] => some { date := ⟨year, month, day⟩ }
  | c :: cs =>
    if c = ' ' ∨ c = 'T' then do
      let (hour, cs) ← readDigits 2 cs
      let ((minute, second, micro), cs) := readMinutes cs
      let zone ← readZone cs
      some { date := ⟨year, month, day⟩, hour, minute, second, micro, zone }
    else none

/-- An optional sign: whether it is a minus. -/
def readSign : List Char → Bool × List Char
  | '-' :: cs => (true, cs)
  | '+' :: cs => (false, cs)
  | cs => (false, cs)

/-- The text after the sign of the year, which has six, five or four digits. -/
def readYear (neg : Bool) (cs : List Char) : Option TimeParts :=
  [6, 5, 4].findSome? fun w => do
    let (year, cs) ← readDigits w cs
    readAfterYear (withSign neg year) cs

/-- The regular expression of `DateTime.parse`. -/
def timeParts (cs : List Char) : Option TimeParts := readYear (readSign cs).1 (readSign cs).2

/-- `_maxMillisecondsSinceEpoch` in microseconds. -/
def maxMicros : Int := 8640000000000000000

/-- `_finishParse`. -/
def TimeParts.finish (z : Zone) (p : TimeParts) : Option DateTime :=
  let l : Int := Calendar.dayNumber p.date * 86400000000 + p.hour * 3600000000 +
    (p.minute - p.zone.getD 0) * 60000000 + p.second * 1000000 + p.micro
  match p.zone with
  | some _ => if -maxMicros ≤ l ∧ l ≤ maxMicros then some ⟨l, true⟩ else none
  | none =>
    if l < -maxMicros - 86400000000 ∨ maxMicros + 86400000000 < l then none
    else if -maxMicros ≤ z.resolve l ∧ z.resolve l ≤ maxMicros then some ⟨z.resolve l, false⟩
    else none

/-- `DateTime.parse`, in the zone `z`. -/
def DateTime.parse (z : Zone) (s : String) : Except DartError DateTime :=
  match timeParts s.toList with
  | none => .error (.format "Invalid date format")
  | some p =>
    match p.finish z with
    | none => .error (.format "Time out of range")
    | some t => .ok t


/-! ## What was written is read -/

theorem length_paddedDigits : ∀ w n, (paddedDigits w n).length = w
  | 0, _ => rfl
  | w + 1, n => by rw [paddedDigits, List.length_append, length_paddedDigits w, List.length_singleton]

theorem isDigit_digitChar {n : Nat} (h : n < 10) : (Nat.digitChar n).isDigit = true := by
  interval_cases n <;> decide

theorem paddedDigits_isDigit : ∀ w n, ∀ c ∈ paddedDigits w n, c.isDigit = true
  | 0, _ => fun c hc => (List.not_mem_nil hc).elim
  | w + 1, n => fun c hc => by
    rcases List.mem_append.mp hc with hc | hc
    · exact paddedDigits_isDigit w _ c hc
    · rw [List.mem_singleton.mp hc]
      exact isDigit_digitChar (Nat.mod_lt _ (by omega))

theorem ofDigitChars_paddedDigits : ∀ w n, n < 10 ^ w → Nat.ofDigitChars 10 (paddedDigits w n) 0 = n
  | 0, n, h => by
    simp only [pow_zero, Nat.lt_one_iff] at h
    rw [h]
    rfl
  | w + 1, n, h => by
    have h1 : n / 10 < 10 ^ w := by rw [Nat.pow_succ] at h; omega
    rw [paddedDigits, Nat.ofDigitChars_append, ofDigitChars_paddedDigits w _ h1,
      Nat.ofDigitChars_cons_digitChar_of_lt_ten (Nat.mod_lt _ (by omega)), Nat.ofDigitChars_nil]
    omega

/-- Digits are read. -/
theorem readDigits_paddedDigits {w n : Nat} (h : n < 10 ^ w) (r : List Char) :
    readDigits w (paddedDigits w n ++ r) = some (n, r) := by
  have ht : (paddedDigits w n ++ r).take w = paddedDigits w n := List.take_left' (length_paddedDigits w n)
  have hd : (paddedDigits w n ++ r).drop w = r := List.drop_left' (length_paddedDigits w n)
  rw [readDigits, ht, hd, ofDigitChars_paddedDigits w n h, if_pos]
  refine ⟨by rw [List.length_append, length_paddedDigits]; omega, ?_⟩
  rw [List.all_eq_true]
  exact paddedDigits_isDigit w n

/-- Fewer digits than are asked for. -/
theorem readDigits_none {w : Nat} {a r : List Char} {c : Char} (hl : a.length < w) (hc : c.isDigit = false) :
    readDigits w (a ++ c :: r) = none := by
  rw [readDigits, if_neg]
  rintro ⟨-, h⟩
  have hm : c ∈ (a ++ c :: r).take w := by
    rw [List.take_append, List.mem_append]
    obtain ⟨k, hk⟩ : ∃ k, w - a.length = k + 1 := ⟨w - a.length - 1, by omega⟩
    rw [hk]
    exact Or.inr List.mem_cons_self
  rw [List.all_eq_true] at h
  rw [h c hm] at hc
  cases hc

theorem skipOne_self (c : Char) (cs : List Char) : skipOne c (c :: cs) = cs := if_pos rfl

/-- The end of a text that was written. -/
def zoneSuffix (utc : Bool) : List Char := if utc then ['Z'] else []

theorem zoneSuffix_head (utc : Bool) : ∀ c ∈ (zoneSuffix utc).head?, c.isDigit = false := by
  cases utc <;> simp [zoneSuffix]

theorem readZone_zoneSuffix (utc : Bool) : readZone (zoneSuffix utc) = some (if utc then some 0 else none) := by
  cases utc <;> rfl

/-- Digits, and then something else. -/
theorem takeWhile_digits {ds r : List Char} (hd : ∀ c ∈ ds, c.isDigit = true) (hr : ∀ c ∈ r.head?, c.isDigit = false) :
    (ds ++ r).takeWhile Char.isDigit = ds ∧ (ds ++ r).dropWhile Char.isDigit = r := by
  rw [List.takeWhile_append_of_pos hd, List.dropWhile_append_of_pos hd]
  cases r with
  | nil => simp
  | cons c r =>
    have hc := hr c rfl
    simp [hc]

theorem fractionOf_fractionDigits {ms us : Nat} (hms : ms < 1000) (hus : us < 1000) :
    fractionOf (fractionDigits ms us) = 1000 * ms + us := by
  have hm := ofDigitChars_paddedDigits 3 ms hms
  have hu := ofDigitChars_paddedDigits 3 us hus
  have hl := length_paddedDigits 3 ms
  unfold fractionOf fractionDigits
  split
  · rename_i h
    rw [List.append_nil, List.take_append, hl, List.take_of_length_le (by rw [hl]; omega), Nat.ofDigitChars_append, hm, h]
    exact (Nat.ofDigitChars_replicate_zero : Nat.ofDigitChars 10 (List.replicate 3 '0') ms = 10 ^ 3 * ms)
  · rw [List.take_left' (by rw [List.length_append, hl, length_paddedDigits]), Nat.ofDigitChars_append, hm,
      Nat.ofDigitChars_eq_ofDigitChars_zero, hu, length_paddedDigits]

/-- A fraction that was written. -/
theorem readFraction_fractionDigits {ms us : Nat} (hms : ms < 1000) (hus : us < 1000) (utc : Bool) :
    readFraction ('.' :: (fractionDigits ms us ++ zoneSuffix utc)) = (1000 * ms + us, zoneSuffix utc) := by
  have hd : ∀ c ∈ fractionDigits ms us, c.isDigit = true := by
    intro c hc
    rcases List.mem_append.mp hc with hc | hc
    · exact paddedDigits_isDigit 3 ms c hc
    · split at hc
      · exact (List.not_mem_nil hc).elim
      · exact paddedDigits_isDigit 3 us c hc
  have hne : fractionDigits ms us ≠ [] := by
    intro h
    have := congrArg List.length (List.append_eq_nil_iff.mp h).1
    rw [length_paddedDigits] at this
    cases this
  obtain ⟨h1, h2⟩ := takeWhile_digits hd (zoneSuffix_head utc)
  simp only [readFraction, h1, h2]
  rw [if_pos ⟨Or.inl trivial, hne⟩, fractionOf_fractionDigits hms hus]

/-- What is read after the year. -/
theorem readAfterYear_dayText (year : Int) {month day rest : Nat} (hm : month < 100) (hd : day < 100)
    (hr : rest < 86400000000) (utc : Bool) :
    readAfterYear year (dayText month day rest ++ zoneSuffix utc) = some
      { date := ⟨year, month, day⟩, hour := rest / 3600000000, minute := rest / 60000000 % 60,
        second := rest / 1000000 % 60, micro := 1000 * (rest / 1000 % 1000) + rest % 1000,
        zone := if utc then some 0 else none } := by
  have hcolon : ∀ (n : Nat) (r : List Char), n < 10 ^ 2 → readPart (':' :: (paddedDigits 2 n ++ r)) = some (n, r) := by
    intro n r hn
    rw [readPart, skipOne_self]
    exact readDigits_paddedDigits hn r
  have hmin : readMinutes (':' :: (paddedDigits 2 (rest / 60000000 % 60) ++ ':' :: (paddedDigits 2 (rest / 1000000 % 60) ++
      '.' :: (fractionDigits (rest / 1000 % 1000) (rest % 1000) ++ zoneSuffix utc)))) =
        ((rest / 60000000 % 60, rest / 1000000 % 60, 1000 * (rest / 1000 % 1000) + rest % 1000), zoneSuffix utc) := by
    rw [readMinutes, hcolon _ _ (by omega)]
    simp only []
    rw [hcolon _ _ (by omega)]
    simp only []
    rw [readFraction_fractionDigits (by omega) (by omega)]
  simp only [readAfterYear, dayText, List.cons_append, List.append_assoc, skipOne_self]
  rw [readDigits_paddedDigits (by omega)]
  simp only [Option.bind_eq_bind, Option.bind_some, skipOne_self]
  rw [readDigits_paddedDigits (by omega)]
  simp only [Option.bind_some]
  rw [if_pos (Or.inr trivial), readDigits_paddedDigits (by omega)]
  simp only [Option.bind_some]
  rw [hmin]
  simp only []
  rw [readZone_zoneSuffix]
  rfl

theorem readSign_paddedDigits {w n : Nat} (hw : 0 < w) (r : List Char) :
    readSign (paddedDigits w n ++ r) = (false, paddedDigits w n ++ r) := by
  cases hp : paddedDigits w n with
  | nil =>
    have hl := length_paddedDigits w n
    rw [hp, List.length_nil] at hl
    omega
  | cons d ds =>
    have hd := paddedDigits_isDigit w n d (by rw [hp]; exact List.mem_cons_self)
    rw [List.cons_append, readSign]
    · intro r' h
      rw [(List.cons.inj h).1] at hd
      cases hd
    · intro r' h
      rw [(List.cons.inj h).1] at hd
      cases hd

/-- A year and what comes after it. -/
theorem timeParts_yearText {year : Int} (hy : -300000 ≤ year ∧ year ≤ 300000) {r : List Char} {p : TimeParts}
    (hp : readAfterYear year ('-' :: r) = some p) : timeParts (yearText year ++ '-' :: r) = some p := by
  have hfour : ∀ neg n, n < 10 ^ 4 → withSign neg n = year → readYear neg (paddedDigits 4 n ++ '-' :: r) = some p := by
    intro neg n hn hs
    have hl := length_paddedDigits 4 n
    rw [readYear, List.findSome?_cons, readDigits_none (by rw [hl]; omega) rfl, List.findSome?_cons,
      readDigits_none (by rw [hl]; omega) rfl, List.findSome?_cons, readDigits_paddedDigits hn]
    simp only [Option.bind_eq_bind, Option.bind_none, Option.bind_some, hs, hp]
  have hsix : ∀ neg n, n < 10 ^ 6 → withSign neg n = year → readYear neg (paddedDigits 6 n ++ '-' :: r) = some p := by
    intro neg n hn hs
    rw [readYear, List.findSome?_cons, readDigits_paddedDigits hn]
    simp only [Option.bind_eq_bind, Option.bind_some, hs, hp]
  have hneg : year < 0 → withSign true year.natAbs = year := fun h => by
    rw [withSign, if_pos rfl]
    omega
  have hpos : ¬year < 0 → withSign false year.natAbs = year := fun h => by
    rw [withSign, if_neg Bool.false_ne_true]
    omega
  unfold yearText
  split
  · split
    · rename_i h
      exact hfour true _ (by omega) (hneg h)
    · rename_i h
      rw [List.nil_append, timeParts, readSign_paddedDigits (by omega)]
      exact hfour false _ (by omega) (hpos h)
  · split
    · rename_i h
      exact hsix true _ (by omega) (hneg h)
    · rename_i h
      exact hsix false _ (by omega) (hpos h)

/-- What is found in the text of a wall-clock time. -/
theorem timeParts_clockText {l : Int} (h : -maxMicros - 86400000000 ≤ l ∧ l ≤ maxMicros + 86400000000) (utc : Bool) :
    ∃ p, timeParts (clockText l ++ zoneSuffix utc) = some p ∧ p.zone = (if utc then some 0 else none) ∧
      Calendar.dayNumber p.date * 86400000000 + p.hour * 3600000000 + (p.minute - 0) * 60000000 + p.second * 1000000 +
        p.micro = l := by
  unfold maxMicros at h
  obtain ⟨hm, hd, hy⟩ := Calendar.ofDayNumber_range (n := l / 86400000000) (by omega) (by omega)
  have hn := Calendar.dayNumber_ofDayNumber (l / 86400000000)
  generalize hc : Calendar.ofDayNumber (l / 86400000000) = date at hm hd hy hn
  have hr : (l % 86400000000).toNat < 86400000000 := by omega
  have hp := @readAfterYear_dayText date.year date.month.toNat date.day.toNat _ (by omega) (by omega) hr utc
  rw [dayText, List.cons_append] at hp
  have hdate : (⟨date.year, date.month.toNat, date.day.toNat⟩ : Calendar.Date) = date := by
    have h1 : (date.month.toNat : Int) = date.month := Int.toNat_of_nonneg (by omega)
    have h2 : (date.day.toNat : Int) = date.day := Int.toNat_of_nonneg (by omega)
    rw [h1, h2]
  simp only [clockText, hc]
  rw [List.append_assoc]
  refine ⟨_, timeParts_yearText hy hp, rfl, ?_⟩
  simp only [hdate, hn]
  omega

/-- A time that a `DateTime` can hold. -/
def DateTime.Valid (t : DateTime) : Prop := -maxMicros ≤ t.microsecondsSinceEpoch ∧ t.microsecondsSinceEpoch ≤ maxMicros

instance (t : DateTime) : Decidable t.Valid := inferInstanceAs (Decidable (_ ∧ _))

/-- What is read in the zone `r` of a time that was written in the zone `w`. -/
def DateTime.reread (w r : Zone) (t : DateTime) : Except DartError DateTime :=
  if t.isUtc then .ok t
  else
    let u := r.resolve (w.clock t.microsecondsSinceEpoch)
    if -maxMicros ≤ u ∧ u ≤ maxMicros then .ok ⟨u, false⟩ else .error (.format "Time out of range")

theorem DateTime.parse_toIso8601String {t : DateTime} (h : t.Valid) (w r : Zone) :
    DateTime.parse r (t.toIso8601String w) = t.reread w r := by
  obtain ⟨t, utc⟩ := t
  obtain ⟨h0, h1⟩ := h
  cases utc with
  | true =>
    obtain ⟨p, hp, hz, hl⟩ := timeParts_clockText (l := t) (by dsimp only at h0 h1; omega) true
    have hf : p.finish r = some ⟨t, true⟩ := by
      rw [TimeParts.finish, hz]
      simp only [if_true, Option.getD_some]
      rw [hl, if_pos ⟨h0, h1⟩]
    rw [zoneSuffix, if_pos rfl] at hp
    simp only [DateTime.parse, DateTime.toIso8601String, if_true, String.toList_ofList, hp, hf, reread]
  | false =>
    obtain ⟨ho0, ho1⟩ := w.offset_lt t
    have hc : -maxMicros - 86400000000 ≤ w.clock t ∧ w.clock t ≤ maxMicros + 86400000000 := by
      unfold Zone.clock
      dsimp only at h0 h1
      omega
    obtain ⟨p, hp, hz, hl⟩ := timeParts_clockText hc false
    rw [zoneSuffix, if_neg Bool.false_ne_true, List.append_nil] at hp
    simp only [DateTime.parse, DateTime.toIso8601String, Bool.false_eq_true, if_false, String.toList_ofList, hp, reread,
      TimeParts.finish, hz, Option.getD_none, hl]
    rw [if_neg (by omega)]
    by_cases hu : -maxMicros ≤ r.resolve (w.clock t) ∧ r.resolve (w.clock t) ≤ maxMicros
    · simp only [if_pos hu]
    · simp only [if_neg hu]

end Chhaya
