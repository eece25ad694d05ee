import ServerLib.Common.Asserts
import ServerLib.Common.Strings
import ServerLib.Foundation.CutOver

/-!
# Approximate ages

`get_approximate_relative_time_string` names the time between two events in the unit that leaves
few digits (`options_helper.cpp`). Each unit is computed from the one before it and rounded, and
only the years have a second number, the months of 30 days that are left over. These are dropped
from 60 months on, which is before five years of 365 days are over.

The difference of two 64-bit times is narrowed to 32 bits. What does not fit is taken modulo the
size of the type, so that it may count as the future.
-/
namespace ServerLib

open CutOver

/-! ### The text -/

inductive TimeUnit where
  | second
  | minute
  | hour
  | day
  | week
  | month
  | year
  deriving DecidableEq, Repr

namespace TimeUnit

/-- How it is written behind a number. -/
def name : TimeUnit → List UInt8
  | second => ascii " second"
  | minute => ascii " minute"
  | hour => ascii " hour"
  | day => ascii " day"
  | week => ascii " week"
  | month => ascii " month"
  | year => ascii " year"

/-- A month has 30 days and a year 365. -/
def seconds : TimeUnit → Nat
  | second => 1
  | minute => 60
  | hour => 3600
  | day => 24 * 3600
  | week => 7 * 24 * 3600
  | month => 30 * 24 * 3600
  | year => 365 * 24 * 3600

end TimeUnit

structure NamedTime where
  number : Int
  unit : TimeUnit
  /-- An `s` is written behind the unit. -/
  plural : Bool
  deriving DecidableEq, Repr

/-- A signed number as `operator<<` writes it. -/
def signedDecimal (n : Int) : List UInt8 :=
  if n < 0 then 45 :: decimal n.natAbs else decimal n.natAbs

def NamedTime.text (t : NamedTime) : List UInt8 :=
  signedDecimal t.number ++ t.unit.name ++ if t.plural then ascii "s" else []

structure RelativeTime where
  parts : List NamedTime
  ago : List UInt8
  deriving DecidableEq, Repr

namespace RelativeTime

def text (t : RelativeTime) : List UInt8 := t.parts.flatMap NamedTime.text ++ t.ago

/-- The seconds that are named. -/
def duration (parts : List NamedTime) : Int :=
  (parts.map fun t => t.number * (t.unit.seconds : Int)).sum

/-- The function from the computation of the days on. -/
def ofDays (daysAgo : UInt32) : List NamedTime :=
  if daysAgo < 90 then [⟨daysAgo.toNat, .day, 1 < daysAgo⟩]
  else
    let weeksAgo := (daysAgo + 3) / 7
    if weeksAgo < 70 then [⟨weeksAgo.toNat, .week, 1 < weeksAgo⟩]
    else
      let monthsAgo := (daysAgo + 15) / 30
      if monthsAgo < 12 then [⟨monthsAgo.toNat, .month, 1 < monthsAgo⟩]
      else
        let yearsAgo := daysAgo / 365
        -- both numbers take their plural from the months of the whole age
        ⟨yearsAgo.toNat, .year, 1 < monthsAgo⟩ ::
          if monthsAgo < 12 * 5 then
            let leftoverDays := daysAgo - yearsAgo * 365
            let leftoverMonths := (leftoverDays + 15) / 30
            if leftoverMonths ≠ 0 then [⟨leftoverMonths.toNat, .month, 1 < monthsAgo⟩] else []
          else []

def ofHours (hoursAgo : UInt32) : List NamedTime :=
  if hoursAgo < 90 then [⟨hoursAgo.toNat, .hour, 1 < hoursAgo⟩]
  else ofDays ((hoursAgo + 12) / 24)

def ofMinutes (minutesAgo : UInt32) : List NamedTime :=
  if minutesAgo < 90 then [⟨minutesAgo.toNat, .minute, 1 < minutesAgo⟩]
  else ofHours ((minutesAgo + 30) / 60)

/-- The numbers and units for some seconds. -/
def ofSeconds (secondsAgo : Int32) : List NamedTime :=
  if secondsAgo < 90 then [⟨secondsAgo.toInt, .second, 1 < secondsAgo⟩]
  else ofMinutes ((secondsAgo + 30) / 60).toUInt32

/-- `static_cast<int32_t>(relative_to_time - event_time)` -/
def narrowed (eventTime relativeToTime : Int64) : Int32 := (relativeToTime - eventTime).toInt32

/-- `seconds_ago` where the units are computed from it. -/
def secondsAgo (eventTime relativeToTime : Int64) : Int32 :=
  if narrowed eventTime relativeToTime < 0 then -narrowed eventTime relativeToTime
  else narrowed eventTime relativeToTime

def agoText (eventTime relativeToTime : Int64) (defaultAgo : List UInt8) : List UInt8 :=
  if narrowed eventTime relativeToTime < 0 then ascii " in the future" else defaultAgo

/-- What `get_approximate_relative_time_string` writes, if the assertion lets it. -/
def ofEvents (eventTime relativeToTime : Int64) (defaultAgo : List UInt8) :
    Except LogicError RelativeTime :=
  if eventTime ≤ relativeToTime then
    .ok ⟨ofSeconds (secondsAgo eventTime relativeToTime),
      agoText eventTime relativeToTime defaultAgo⟩
  else .error ⟨"relative_to_time >= event_time", ""⟩

end RelativeTime

/-- `options::get_approximate_relative_time_string` -/
def getApproximateRelativeTimeString (eventTime relativeToTime : Int64)
    (defaultAgo : List UInt8 := ascii " ago") : Except LogicError (List UInt8) :=
  (RelativeTime.ofEvents eventTime relativeToTime defaultAgo).map RelativeTime.text

namespace RelativeTime

/-- No operation on signed numbers and no conversion leaves its type. -/
structure Exact (eventTime relativeToTime : Int64) : Prop where
  difference :
    (relativeToTime - eventTime).toInt = relativeToTime.toInt - eventTime.toInt
  narrowing :
    (narrowed eventTime relativeToTime).toInt = (relativeToTime - eventTime).toInt
  negation : narrowed eventTime relativeToTime < 0 →
    (-narrowed eventTime relativeToTime).toInt = -(narrowed eventTime relativeToTime).toInt
  /-- What follows is computed from 90 seconds on. -/
  rounding : 90 ≤ secondsAgo eventTime relativeToTime →
    (secondsAgo eventTime relativeToTime + 30).toInt =
      (secondsAgo eventTime relativeToTime).toInt + 30
  unsigned : 90 ≤ secondsAgo eventTime relativeToTime →
    (((secondsAgo eventTime relativeToTime + 30) / 60).toUInt32.toNat : Int) =
      ((secondsAgo eventTime relativeToTime + 30) / 60).toInt

def SaysFuture (text : List UInt8) : Prop := ascii "in the future" <:+: text

/-- Both events are accepted, no text has "in the future" unless it is the caller's, nothing
overflows, and the older event is named with the longer duration. -/
def AgesAgree (older younger relativeToTime : Int64) (defaultAgo : List UInt8) : Prop :=
  ∃ t t', ofEvents older relativeToTime defaultAgo = .ok t ∧
    ofEvents younger relativeToTime defaultAgo = .ok t' ∧
    (SaysFuture t.text ∨ SaysFuture t'.text → SaysFuture defaultAgo) ∧
    Exact older relativeToTime ∧ Exact younger relativeToTime ∧
    duration t'.parts ≤ duration t.parts

/-! ### The durations that are named -/

/-- The months of 30 days that are left over from the years, shown for less than 60 months. -/
def leftoverMonths (d : Nat) : Nat :=
  if (d + 15) / 30 < 60 then (d - 365 * (d / 365) + 15) / 30 else 0

def byYears (d : Nat) : Nat := 86400 * (365 * (d / 365) + 30 * leftoverMonths d)

def byWeeks (d : Nat) : Nat := 604800 * ((d + 3) / 7)

def weeksAndYears : Nat → Nat := cutOver 487 byWeeks byYears

def byDays : Nat → Nat := cutOver 90 (86400 * ·) weeksAndYears

def byHours : Nat → Nat := cutOver 90 (3600 * ·) fun h => byDays ((h + 12) / 24)

def byMinutes : Nat → Nat := cutOver 90 (60 * ·) fun m => byHours ((m + 30) / 60)

def bySeconds : Nat → Nat := cutOver 90 id fun s => byMinutes ((s + 30) / 60)

/-- `d` days are named without the months that are left over, `d'` days with one at least, and both
with four years. -/
def Dropped (d' d : Nat) : Prop := 1785 ≤ d ∧ d < 1825 ∧ 1475 ≤ d' ∧ d' < 1785

variable {x y : Nat}

theorem leftoverMonths_le (d : Nat) : leftoverMonths d ≤ 12 := by
  unfold leftoverMonths
  split <;> omega

/-- Within a year it is the months that count. -/
theorem leftoverMonths_le_iff (le : x ≤ y) (same : x / 365 = y / 365) :
    leftoverMonths x ≤ leftoverMonths y ↔ ¬ Dropped x y := by
  unfold leftoverMonths Dropped
  rw [same]
  split <;> split <;> omega

theorem byYears_le_iff (le : x ≤ y) : byYears x ≤ byYears y ↔ ¬ Dropped x y := by
  unfold byYears
  rcases (Nat.div_le_div_right (c := 365) le).eq_or_lt with same | later
  · rw [← leftoverMonths_le_iff le same, same]
    omega
  · -- twelve months of 30 days are less than a year
    have months := leftoverMonths_le x
    unfold Dropped
    omega

/-- A year and four months at least. -/
theorem byYears_ge (long : 487 ≤ x) : 86400 * 485 ≤ byYears x := by
  unfold byYears leftoverMonths
  by_cases second : x / 365 < 2
  · have one : x / 365 = 1 := by omega
    rw [one]
    split <;> omega
  · omega

theorem weeksAndYears_ge (long : 90 ≤ x) : 604800 * 13 ≤ weeksAndYears x := by
  apply le_cutOver
  · intro _
    unfold byWeeks
    omega
  · intro long
    exact (byYears_ge long).trans' (by decide)

theorem byDays_ge (long : 4 ≤ x) : 345600 ≤ byDays x := by
  apply le_cutOver
  · intro _
    omega
  · intro many
    exact (weeksAndYears_ge many).trans' (by decide)

theorem byHours_ge (long : 2 ≤ x) : 7200 ≤ byHours x := by
  apply le_cutOver
  · intro _
    omega
  · intro many
    exact (byDays_ge (by omega)).trans' (by decide)

theorem byMinutes_ge (long : 2 ≤ x) : 120 ≤ byMinutes x := by
  apply le_cutOver
  · intro _
    omega
  · intro many
    exact (byHours_ge (by omega)).trans' (by decide)

theorem weeksAndYears_le_iff (le : x ≤ y) :
    weeksAndYears x ≤ weeksAndYears y ↔ ¬ Dropped x y := by
  have cut : weeksAndYears x ≤ weeksAndYears y ↔ (487 ≤ x → byYears x ≤ byYears y) := by
    apply cutOver_le_iff _ _ le
    · intro x y le _
      unfold byWeeks
      omega
    · intro x y below above
      have years := byYears_ge above
      unfold byWeeks
      omega
  rw [cut, byYears_le_iff le]
  unfold Dropped
  omega

theorem byDays_le_iff (le : x ≤ y) : byDays x ≤ byDays y ↔ ¬ Dropped x y := by
  have cut : byDays x ≤ byDays y ↔ (90 ≤ x → weeksAndYears x ≤ weeksAndYears y) :=
    cutOver_mul_le_iff (fun d long => (weeksAndYears_ge long).trans' (by decide)) le
  rw [cut, weeksAndYears_le_iff le]
  unfold Dropped
  omega

theorem byHours_le_iff (le : x ≤ y) :
    byHours x ≤ byHours y ↔ ¬ Dropped ((x + 12) / 24) ((y + 12) / 24) := by
  have cut : byHours x ≤ byHours y ↔
      (90 ≤ x → byDays ((x + 12) / 24) ≤ byDays ((y + 12) / 24)) :=
    cutOver_mul_le_iff (fun h long => (byDays_ge (by omega)).trans' (by decide)) le
  rw [cut, byDays_le_iff (by omega)]
  unfold Dropped
  omega

theorem byMinutes_le_iff (le : x ≤ y) :
    byMinutes x ≤ byMinutes y ↔
      ¬ Dropped (((x + 30) / 60 + 12) / 24) (((y + 30) / 60 + 12) / 24) := by
  have cut : byMinutes x ≤ byMinutes y ↔
      (90 ≤ x → byHours ((x + 30) / 60) ≤ byHours ((y + 30) / 60)) :=
    cutOver_mul_le_iff (fun m long => (byHours_ge (by omega)).trans' (by decide)) le
  rw [cut, byHours_le_iff (by omega)]
  unfold Dropped
  omega

/-- The order is lost for the last forty days of the fifth year, where the months are dropped
already. -/
theorem bySeconds_le_iff (le : x ≤ y) :
    bySeconds x ≤ bySeconds y ↔
      ¬ (154178970 ≤ y ∧ y < 157634970 ∧ 127394970 ≤ x ∧ x < 154178970) := by
  have cut : bySeconds x ≤ bySeconds y ↔
      (90 ≤ x → byMinutes ((x + 30) / 60) ≤ byMinutes ((y + 30) / 60)) := by
    apply cutOver_le_iff _ _ le
    · intro x y le _
      exact le
    · intro x y below above
      have minutes := byMinutes_ge (x := (y + 30) / 60) (by omega)
      simp only [id]
      omega
  rw [cut, byMinutes_le_iff (by omega)]
  unfold Dropped
  omega

/-! ### The code's numbers -/

variable {eventTime relativeToTime : Int64}

/-- A time that is not too long is taken as it is. -/
theorem narrowed_toInt (le : eventTime ≤ relativeToTime)
    (fits : relativeToTime.toInt - eventTime.toInt < 2 ^ 31) :
    (relativeToTime - eventTime).toInt = relativeToTime.toInt - eventTime.toInt ∧
      (narrowed eventTime relativeToTime).toInt = relativeToTime.toInt - eventTime.toInt := by
  rw [Int64.le_iff_toInt_le] at le
  have wide : (relativeToTime - eventTime).toInt = relativeToTime.toInt - eventTime.toInt := by
    rw [Int64.toInt_sub]
    exact Int.bmod_eq_of_le_mul_two (by omega) (by omega)
  refine ⟨wide, ?_⟩
  rw [narrowed, Int64.toInt_toInt32, wide]
  exact Int.bmod_eq_of_le_mul_two (by omega) (by omega)

theorem not_future (exact_ : (narrowed eventTime relativeToTime).toInt =
      relativeToTime.toInt - eventTime.toInt) (le : eventTime ≤ relativeToTime) :
    ¬ narrowed eventTime relativeToTime < 0 := by
  rw [Int64.le_iff_toInt_le] at le
  rw [Int32.lt_iff_toInt_lt, exact_, Int32.toInt_zero]
  omega

theorem unsigned_round {s : Int32} (nonneg : 0 ≤ s.toInt) (room : s.toInt < 2 ^ 31 - 30) :
    (s + 30).toInt = s.toInt + 30 ∧
      ((s + 30) / 60).toInt = (s.toInt + 30) / 60 ∧
      (((s + 30) / 60).toUInt32.toNat : Int) = (s.toInt + 30) / 60 := by
  have sum : (s + 30).toInt = s.toInt + 30 := by
    rw [Int32.toInt_add]
    exact Int.bmod_eq_of_le_mul_two (by simp; omega) (by simp; omega)
  have quotient : ((s + 30) / 60).toInt = (s.toInt + 30) / 60 := by
    rw [Int32.toInt_div_of_ne_right _ _ (by decide), sum]
    exact Int.tdiv_eq_ediv_of_nonneg (by omega)
  have positive : (0 : Int32) ≤ (s + 30) / 60 := by
    rw [Int32.le_iff_toInt_le, quotient, Int32.toInt_zero]
    omega
  refine ⟨sum, quotient, ?_⟩
  rw [Int32.toNat_toUInt32_of_le positive, Int32.cast_toNatClampNeg _ positive, quotient]

theorem exact_iff (le : eventTime ≤ relativeToTime) :
    Exact eventTime relativeToTime ↔
      relativeToTime.toInt - eventTime.toInt < 2 ^ 31 - 30 := by
  constructor
  · rintro ⟨difference, narrowing, -, rounding, -⟩
    have exact_ := narrowing.trans difference
    have same : secondsAgo eventTime relativeToTime = narrowed eventTime relativeToTime :=
      if_neg (not_future exact_ le)
    by_contra long
    -- the sum would be an `int32_t` too
    have below := Int32.toInt_lt (secondsAgo eventTime relativeToTime + 30)
    rw [rounding, same, exact_] at below
    · omega
    · rw [Int32.le_iff_toInt_le, same, exact_]
      have ninety : (90 : Int32).toInt = 90 := by decide
      omega
  · intro fits
    obtain ⟨difference, exact_⟩ := narrowed_toInt le (by omega)
    have future := not_future exact_ le
    have same : secondsAgo eventTime relativeToTime = narrowed eventTime relativeToTime :=
      if_neg future
    have nonneg : 0 ≤ (narrowed eventTime relativeToTime).toInt := by
      rw [Int32.lt_iff_toInt_lt, Int32.toInt_zero] at future
      omega
    obtain ⟨sum, quotient, unsigned⟩ := unsigned_round nonneg (by omega)
    refine ⟨difference, exact_.trans difference.symm, fun past => absurd past future, ?_, ?_⟩
    · intro _
      rw [same, sum]
    · intro _
      rw [same, unsigned, quotient]

theorem round_toNat {n half unit : UInt32} (fits : n.toNat + half.toNat < 2 ^ 32) :
    ((n + half) / unit).toNat = (n.toNat + half.toNat) / unit.toNat := by
  rw [UInt32.toNat_div, UInt32.toNat_add, Nat.mod_eq_of_lt fits]

theorem duration_cons (t : NamedTime) (parts : List NamedTime) :
    duration (t :: parts) = t.number * (t.unit.seconds : Int) + duration parts := by
  simp only [duration, List.map_cons, List.sum_cons]

@[simp] theorem duration_nil : duration [] = 0 := rfl

/-- The days behind the last whole year, in months. -/
theorem leftover_toNat (d : UInt32) :
    ((d - d / 365 * 365 + 15) / 30).toNat = (d.toNat - 365 * (d.toNat / 365) + 15) / 30 := by
  have bound := d.toNat_lt
  have whole : (d / 365 * 365).toNat = 365 * (d.toNat / 365) := by
    simp only [UInt32.toNat_mul, UInt32.toNat_div, UInt32.reduceToNat]
    omega
  have left : (d - d / 365 * 365).toNat = d.toNat - 365 * (d.toNat / 365) := by
    rw [UInt32.toNat_sub_of_le, whole]
    rw [UInt32.le_iff_toNat_le, whole]
    omega
  rw [round_toNat, left]
  · rfl
  · simp only [left, UInt32.reduceToNat]
    omega

theorem duration_ofDays {d : UInt32} (small : d.toNat < 2 ^ 32 - 15) :
    duration (ofDays d) = byDays d.toNat := by
  have weeks : ((d + 3) / 7).toNat = (d.toNat + 3) / 7 := by
    apply round_toNat
    simp only [UInt32.reduceToNat]
    omega
  have months : ((d + 15) / 30).toNat = (d.toNat + 15) / 30 := by
    apply round_toNat
    simp only [UInt32.reduceToNat]
    omega
  have years : (d / 365).toNat = d.toNat / 365 := UInt32.toNat_div d 365
  simp only [ofDays, UInt32.lt_iff_toNat_lt, weeks, months, years, leftover_toNat,
    UInt32.reduceMul, UInt32.reduceToNat, ne_eq, ← UInt32.toNat_inj]
  split
  next below =>
    rw [byDays, cutOver_below below, duration_cons, duration_nil]
    simp only [TimeUnit.seconds]
    omega
  next above =>
    rw [byDays, cutOver_above (not_lt.mp above)]
    split
    next below =>
      rw [weeksAndYears, cutOver_below (by omega), duration_cons, duration_nil, byWeeks]
      simp only [TimeUnit.seconds]
      omega
    next long =>
      -- seventy weeks are more than twelve months
      rw [weeksAndYears, cutOver_above (by omega), if_neg (by omega), duration_cons, byYears,
        leftoverMonths]
      simp only [TimeUnit.seconds]
      split
      · split
        · rw [duration_cons, duration_nil]
          simp only [TimeUnit.seconds]
          omega
        · rw [duration_nil]
          omega
      · rw [duration_nil]
        omega

theorem duration_ofHours {h : UInt32} (small : h.toNat < 2 ^ 32 - 12) :
    duration (ofHours h) = byHours h.toNat := by
  have days : ((h + 12) / 24).toNat = (h.toNat + 12) / 24 := by
    apply round_toNat
    simp only [UInt32.reduceToNat]
    omega
  simp only [ofHours, UInt32.lt_iff_toNat_lt, UInt32.reduceToNat]
  split
  next below =>
    rw [byHours, cutOver_below below, duration_cons, duration_nil]
    simp only [TimeUnit.seconds]
    omega
  next above =>
    rw [byHours, cutOver_above (not_lt.mp above), duration_ofDays (by omega), days]

theorem duration_ofMinutes {m : UInt32} (small : m.toNat < 2 ^ 32 - 30) :
    duration (ofMinutes m) = byMinutes m.toNat := by
  have hours : ((m + 30) / 60).toNat = (m.toNat + 30) / 60 := by
    apply round_toNat
    simp only [UInt32.reduceToNat]
    omega
  simp only [ofMinutes, UInt32.lt_iff_toNat_lt, UInt32.reduceToNat]
  split
  next below =>
    rw [byMinutes, cutOver_below below, duration_cons, duration_nil]
    simp only [TimeUnit.seconds]
    omega
  next above =>
    rw [byMinutes, cutOver_above (not_lt.mp above), duration_ofHours (by omega), hours]

theorem duration_ofSeconds {s : Int32} (nonneg : 0 ≤ s.toInt) (room : s.toInt < 2 ^ 31 - 30) :
    duration (ofSeconds s) = bySeconds s.toInt.toNat := by
  have minutes := (unsigned_round nonneg room).2.2
  have ninety : (90 : Int32).toInt = 90 := by decide
  simp only [ofSeconds, Int32.lt_iff_toInt_lt, ninety]
  split
  next below =>
    rw [bySeconds, cutOver_below (by omega), duration_cons, duration_nil]
    simp only [TimeUnit.seconds, id]
    omega
  next above =>
    have same : ((s + 30) / 60).toUInt32.toNat = (s.toInt.toNat + 30) / 60 := by omega
    rw [bySeconds, cutOver_above (by omega), duration_ofMinutes (by omega), same]

/-! ### What the text says -/

variable {text : List UInt8}

theorem SaysFuture.of_cons {c : UInt8} (other : c ≠ 105) (said : SaysFuture (c :: text)) :
    SaysFuture text := by
  rcases List.infix_cons_iff.mp said with first | behind
  · exact absurd (List.cons_prefix_cons.mp first).1.symm other
  · exact behind

/-- The words do not begin where there is no `i`. -/
theorem SaysFuture.of_append {front : List UInt8} (without : 105 ∉ front)
    (said : SaysFuture (front ++ text)) : SaysFuture text := by
  induction front with
  | nil => exact said
  | cons c front ih =>
    rw [List.mem_cons, not_or] at without
    exact ih without.2 (of_cons (Ne.symm without.1) said)

theorem SaysFuture.of_name {unit : TimeUnit} (said : SaysFuture (unit.name ++ text)) :
    SaysFuture text := by
  cases unit with
  | minute =>
    -- the `i` of the minutes is followed by another word
    have word : TimeUnit.minute.name ++ text =
        [32, 109] ++ (105 :: ([110, 117, 116, 101] ++ text)) := rfl
    rw [word] at said
    rcases List.infix_cons_iff.mp (of_append (by decide) said) with first | behind
    · have third := List.cons_prefix_cons.mp (List.cons_prefix_cons.mp
        (List.cons_prefix_cons.mp first).2).2
      exact absurd third.1 (by decide)
    · exact of_append (by decide) behind
  | _ => exact of_append (by decide) said

theorem notMem_decimal (n : Nat) : (105 : UInt8) ∉ decimal n := by
  intro member
  have digit := (isNumeral_decimal n).2 105 member
  revert digit
  decide

theorem notMem_signedDecimal (n : Int) : (105 : UInt8) ∉ signedDecimal n := by
  unfold signedDecimal
  split
  · rw [List.mem_cons, not_or]
    exact ⟨by decide, notMem_decimal _⟩
  · exact notMem_decimal _

/-- Numbers and units do not say it. -/
theorem SaysFuture.of_parts {parts : List NamedTime} {ago : List UInt8}
    (said : SaysFuture (RelativeTime.text ⟨parts, ago⟩)) : SaysFuture ago := by
  induction parts with
  | nil => exact said
  | cons t parts ih =>
    have front : RelativeTime.text ⟨t :: parts, ago⟩ =
        signedDecimal t.number ++ (t.unit.name ++ ((if t.plural then ascii "s" else []) ++
          RelativeTime.text ⟨parts, ago⟩)) := by
      simp [RelativeTime.text, NamedTime.text]
    rw [front] at said
    have plural : (105 : UInt8) ∉ if t.plural then ascii "s" else [] := by
      split <;> decide
    exact ih (of_append plural (of_name (of_append (notMem_signedDecimal _) said)))

/-! ### Which ages are named in order -/

theorem ofEvents_exact (defaultAgo : List UInt8) (le : eventTime ≤ relativeToTime)
    (fits : relativeToTime.toInt - eventTime.toInt < 2 ^ 31 - 30) :
    ∃ t, ofEvents eventTime relativeToTime defaultAgo = .ok t ∧ t.ago = defaultAgo ∧
      duration t.parts = bySeconds (relativeToTime.toInt - eventTime.toInt).toNat := by
  obtain ⟨-, exact_⟩ := narrowed_toInt le (by omega)
  have future := not_future exact_ le
  have same : secondsAgo eventTime relativeToTime = narrowed eventTime relativeToTime :=
    if_neg future
  refine ⟨_, if_pos le, if_neg future, ?_⟩
  rw [Int64.le_iff_toInt_le] at le
  rw [same, duration_ofSeconds, exact_]
  · rw [exact_]
    omega
  · rw [exact_]
    exact fits

theorem AgesAgree.fits {older younger : Int64} {defaultAgo : List UInt8}
    (agree : AgesAgree older younger relativeToTime defaultAgo) (le : older ≤ relativeToTime) :
    relativeToTime.toInt - older.toInt < 2 ^ 31 - 30 := by
  obtain ⟨-, -, -, -, -, exact_, -⟩ := agree
  exact (exact_iff le).mp exact_

/-- Ages that fit are told right if the durations they are named with are in order. -/
theorem agesAgree_iff_le {older younger : Int64} {defaultAgo : List UInt8}
    (ordered : older ≤ younger) (past : younger ≤ relativeToTime)
    (fits : relativeToTime.toInt - older.toInt < 2 ^ 31 - 30) :
    AgesAgree older younger relativeToTime defaultAgo ↔
      bySeconds (relativeToTime.toInt - younger.toInt).toNat ≤
        bySeconds (relativeToTime.toInt - older.toInt).toNat := by
  have le : older ≤ relativeToTime := Int64.le_trans ordered past
  have shorter : relativeToTime.toInt - younger.toInt < 2 ^ 31 - 30 := by
    have ages := Int64.le_iff_toInt_le.mp ordered
    omega
  obtain ⟨t, told, ago, duration⟩ := ofEvents_exact defaultAgo le fits
  obtain ⟨t', told', ago', duration'⟩ := ofEvents_exact defaultAgo past shorter
  rw [← Int.ofNat_le, ← duration, ← duration']
  constructor
  · rintro ⟨u, u', written, written', -, -, -, longer⟩
    cases told.symm.trans written
    cases told'.symm.trans written'
    exact longer
  · intro longer
    refine ⟨t, t', told, told', ?_, (exact_iff le).mpr fits, (exact_iff past).mpr shorter, longer⟩
    rintro (said | said)
    · exact ago ▸ said.of_parts
    · exact ago' ▸ said.of_parts

/-- Two ages are told right exactly if the older one fits 32 bits with the rounding, and it is not
one of less than five years that is named without the months left over while the younger one is
named with them. -/
theorem ages_agree_iff (older younger relativeToTime : Int64) (defaultAgo : List UInt8)
    (ordered : older ≤ younger) (past : younger ≤ relativeToTime) :
    AgesAgree older younger relativeToTime defaultAgo ↔
      relativeToTime.toInt - older.toInt < 2 ^ 31 - 30 ∧
        ¬ (154178970 ≤ relativeToTime.toInt - older.toInt ∧
          relativeToTime.toInt - older.toInt < 157634970 ∧
          127394970 ≤ relativeToTime.toInt - younger.toInt ∧
          relativeToTime.toInt - younger.toInt < 154178970) := by
  by_cases fits : relativeToTime.toInt - older.toInt < 2 ^ 31 - 30
  · have ages := Int64.le_iff_toInt_le.mp ordered
    have age := Int64.le_iff_toInt_le.mp past
    rw [agesAgree_iff_le ordered past fits, bySeconds_le_iff (by omega)]
    omega
  · apply iff_of_false
    · exact fun agree => fits (agree.fits (Int64.le_trans ordered past))
    · exact fun both => fits both.1

/-- An hour and a minute ago. -/
theorem ages_agree_iff_hour : AgesAgree 0 3540 3600 (ascii " ago") :=
  (ages_agree_iff 0 3540 3600 (ascii " ago") (by decide) (by decide)).mpr (by decide)

/-- An event of 136 years ago is in the future, and one of 1785 days ago is younger than one of
1784 days ago. -/
theorem ages_disagree :
    (getApproximateRelativeTimeString 0 (2 ^ 32 - 100) = .ok (ascii "2 minutes in the future") ∧
      ¬ AgesAgree 0 0 (2 ^ 32 - 100) (ascii " ago")) ∧
    getApproximateRelativeTimeString 0 (1785 * 86400) = .ok (ascii "4 years ago") ∧
      getApproximateRelativeTimeString 86400 (1785 * 86400) = .ok (ascii "4 years11 months ago") ∧
      ¬ AgesAgree 0 86400 (1785 * 86400) (ascii " ago") := by
  have long : ¬ AgesAgree 0 0 (2 ^ 32 - 100) (ascii " ago") := by
    intro agree
    exact absurd (agree.fits (by decide)) (by decide)
  have dropped : ¬ AgesAgree 0 86400 (1785 * 86400) (ascii " ago") := by
    rw [agesAgree_iff_le (by decide) (by decide) (by decide), bySeconds_le_iff (by decide)]
    decide
  exact ⟨⟨by decide +kernel, long⟩, by decide +kernel, by decide +kernel, dropped⟩

end RelativeTime

end ServerLib
