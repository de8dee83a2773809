import Mathlib.Data.List.Lex
import Mathlib.Data.String.Basic
import Mathlib.Tactic.IntervalCases

/- The proleptic Gregorian calendar, and the text of an instant in UTC as ISO 8601 writes it with
   microseconds: `2026-08-29T12:00:00+00:00`, with the fraction of the second left out where it is
   zero. Days and microseconds are counted from the start of the year 1.

   Every field has a fixed width and `+` is before `.`, so the texts of instants within the years
   1 to 9999 are ordered as the instants are (`isoformat_lt_iff`). -/
namespace Calendar

/-- The number in `k` decimal digits. -/
def digits : Nat → Nat → List Char
  | 0, _ => []
  | k + 1, n => Nat.digitChar (n / 10 ^ k) :: digits k (n % 10 ^ k)

/-- The year of a day, and the number of days of that year before it. -/
def yearDay (n : Nat) : Nat × Nat :=
  let n400 := n % 146097
  let centuries := min (n400 / 36524) 3
  let n100 := n400 - centuries * 36524
  let n4 := n100 % 1461
  let years := min (n4 / 365) 3
  (400 * (n / 146097) + 100 * centuries + 4 * (n100 / 1461) + years + 1, n4 - years * 365)

def isLeap (year : Nat) : Bool := year % 4 = 0 ∧ (year % 100 ≠ 0 ∨ year % 400 = 0)

/-- The lengths of the months from January to November. -/
def monthLengths (year : Nat) : List Nat :=
  [31, if isLeap year then 29 else 28, 31, 30, 31, 30, 31, 31, 30, 31, 30]

/-- The month and the day of the month, where `n` days are before it from `month` on. -/
def monthDay : List Nat → Nat → Nat → Nat × Nat
  | [], month, n => (month, n + 1)
  | length :: rest, month, n =>
    if n < length then (month, n + 1) else monthDay rest (month + 1) (n - length)

/-- The time of day, in microseconds. -/
def timeText (n : Nat) : List Char :=
  digits 2 (n / 3600000000) ++ ':' :: (digits 2 (n / 60000000 % 60) ++
    ':' :: (digits 2 (n / 1000000 % 60) ++
      if n % 1000000 = 0 then "+00:00".toList
      else '.' :: (digits 6 (n % 1000000) ++ "+00:00".toList)))

def dateText (year ordinal : Nat) (rest : List Char) : List Char :=
  let date := monthDay (monthLengths year) 1 ordinal
  digits 4 year ++ '-' :: (digits 2 date.1 ++ '-' :: (digits 2 date.2 ++ 'T' :: rest))

def text (n : Nat) : List Char :=
  let date := yearDay (n / 86400000000)
  dateText date.1 date.2 (timeText (n % 86400000000))

/-- The instants of the years 1 to 9999, in microseconds since 1970. -/
def InRange (t : Int) : Prop := -62135596800000000 ≤ t ∧ t ≤ 253402300799999999

/-- The text of an instant, in microseconds since 1970. -/
def isoformat (t : Int) : String := String.ofList (text (t + 62135596800000000).toNat)

example : isoformat 1787443200000000 = "2026-08-23T00:00:00+00:00" := by decide
example : isoformat 951868799250000 = "2000-02-29T23:59:59.250000+00:00" := by decide

/-! ## Digits -/

theorem digitChar_lt {a b : Nat} (h : a < b) (hb : b < 10) : Nat.digitChar a < Nat.digitChar b := by
  interval_cases b <;> interval_cases a <;> decide

/-- Numbers of one width are ordered as their texts are, whatever follows. -/
theorem digits_lt {k n m : Nat} (h : n < m) (hm : m < 10 ^ k) (x y : List Char) :
    digits k n ++ x < digits k m ++ y := by
  induction k generalizing n m with
  | zero => omega
  | succ k ih =>
    have hpos : 0 < 10 ^ k := Nat.pow_pos (by decide)
    have hle : n / 10 ^ k ≤ m / 10 ^ k := Nat.div_le_div_right h.le
    have hdigit : m / 10 ^ k < 10 := by
      apply Nat.div_lt_of_lt_mul
      rwa [← Nat.pow_succ]
    have hn := Nat.div_add_mod n (10 ^ k)
    have hm' := Nat.div_add_mod m (10 ^ k)
    simp only [digits, List.cons_append, List.cons_lt_cons_iff]
    rcases Nat.lt_or_eq_of_le hle with hlt | heq
    · exact .inl (digitChar_lt hlt hdigit)
    · refine .inr ⟨congrArg _ heq, ih ?_ (Nat.mod_lt _ hpos)⟩
      rw [heq] at hn
      omega

/-- A field, the mark after it, and the rest. -/
theorem field_lt {k n m : Nat} {mark : Char} {x y : List Char} (hm : m < 10 ^ k)
    (h : n < m ∨ n = m ∧ x < y) : digits k n ++ mark :: x < digits k m ++ mark :: y := by
  rcases h with h | ⟨rfl, h⟩
  · exact digits_lt h hm _ _
  · apply List.append_left_lt
    exact List.cons_lt_cons_iff.mpr (.inr ⟨rfl, h⟩)

/-! ## Dates -/

/-- The number of whole blocks, and what is left, with a bound on the blocks. -/
theorem blocks_lt (length bound : Nat) {n m : Nat} (h : n < m) :
    min (n / length) bound < min (m / length) bound ∨
      min (n / length) bound = min (m / length) bound ∧
        n - min (n / length) bound * length < m - min (m / length) bound * length := by
  have hle : n / length ≤ m / length := Nat.div_le_div_right h.le
  have hblocks : min (n / length) bound * length ≤ n :=
    (Nat.mul_le_mul_right _ (min_le_left _ _)).trans (Nat.div_mul_le_self n length)
  by_cases heq : min (n / length) bound = min (m / length) bound
  · refine .inr ⟨heq, ?_⟩
    rw [← heq]
    omega
  · exact .inl (by omega)

theorem divMod_lt (length : Nat) {n m : Nat} (h : n < m) :
    n / length < m / length ∨ n / length = m / length ∧ n % length < m % length := by
  rcases Nat.lt_or_eq_of_le (Nat.div_le_div_right h.le) with hlt | heq
  · exact .inl hlt
  · have hn := Nat.div_add_mod n length
    have hm := Nat.div_add_mod m length
    rw [heq] at hn
    exact .inr ⟨heq, by omega⟩

/-- Years by the blocks they are in, of 400, 100, 4 and 1 years. -/
theorem year_lt {a b c d a' b' c' d' : Nat} (hb : b ≤ 3) (hc : c ≤ 24) (hd : d ≤ 3)
    (h : a < a' ∨ a = a' ∧ (b < b' ∨ b = b' ∧ (c < c' ∨ c = c' ∧ d < d'))) :
    400 * a + 100 * b + 4 * c + d + 1 < 400 * a' + 100 * b' + 4 * c' + d' + 1 := by
  omega

theorem fours_le (n : Nat) :
    (n % 146097 - min (n % 146097 / 36524) 3 * 36524) / 1461 ≤ 24 := by
  omega

theorem yearDay_lt {n m : Nat} (h : n < m) :
    (yearDay n).1 < (yearDay m).1 ∨
      (yearDay n).1 = (yearDay m).1 ∧ (yearDay n).2 < (yearDay m).2 := by
  unfold yearDay
  dsimp only
  have hyear := @year_lt (n / 146097) _ _ _ (m / 146097)
    (min (m % 146097 / 36524) 3) ((m % 146097 - min (m % 146097 / 36524) 3 * 36524) / 1461)
    (min ((m % 146097 - min (m % 146097 / 36524) 3 * 36524) % 1461 / 365) 3)
    (min_le_right (n % 146097 / 36524) 3) (fours_le n)
    (min_le_right ((n % 146097 - min (n % 146097 / 36524) 3 * 36524) % 1461 / 365) 3)
  rcases divMod_lt 146097 h with h400 | ⟨h400, h⟩
  · exact .inl (hyear (.inl h400))
  rcases blocks_lt 36524 3 h with h100 | ⟨h100, h⟩
  · exact .inl (hyear (.inr ⟨h400, .inl h100⟩))
  rcases divMod_lt 1461 h with h4 | ⟨h4, h⟩
  · exact .inl (hyear (.inr ⟨h400, .inr ⟨h100, .inl h4⟩⟩))
  rcases blocks_lt 365 3 h with h1 | ⟨h1, h⟩
  · exact .inl (hyear (.inr ⟨h400, .inr ⟨h100, .inr ⟨h4, h1⟩⟩⟩))
  · refine .inr ⟨?_, h⟩
    rw [h1, h4, h100, h400]

theorem yearDay_fst_lt {n : Nat} (h : n < 3652059) : (yearDay n).1 < 10000 := by
  unfold yearDay
  dsimp only
  omega

theorem yearDay_snd_lt (n : Nat) : (yearDay n).2 < 366 := by
  unfold yearDay
  dsimp only
  omega

theorem month_le (lengths : List Nat) (month n : Nat) : month ≤ (monthDay lengths month n).1 := by
  induction lengths generalizing month n with
  | nil => exact le_rfl
  | cons length rest ih =>
    unfold monthDay
    split
    · exact le_rfl
    · exact (Nat.le_succ month).trans (ih _ _)

theorem monthDay_lt (lengths : List Nat) (month : Nat) {n m : Nat} (h : n < m) :
    (monthDay lengths month n).1 < (monthDay lengths month m).1 ∨
      (monthDay lengths month n).1 = (monthDay lengths month m).1 ∧
        (monthDay lengths month n).2 < (monthDay lengths month m).2 := by
  induction lengths generalizing month n m with
  | nil => exact .inr ⟨rfl, Nat.succ_lt_succ h⟩
  | cons length rest ih =>
    unfold monthDay
    by_cases hm : m < length
    · rw [if_pos hm, if_pos (h.trans hm)]
      exact .inr ⟨rfl, Nat.succ_lt_succ h⟩
    · rw [if_neg hm]
      by_cases hn : n < length
      · rw [if_pos hn]
        exact .inl (month_le rest (month + 1) _)
      · rw [if_neg hn]
        exact ih (month + 1) (by omega)

theorem month_lt_add (lengths : List Nat) (month n : Nat) :
    (monthDay lengths month n).1 ≤ month + lengths.length := by
  induction lengths generalizing month n with
  | nil => exact le_rfl
  | cons length rest ih =>
    unfold monthDay
    split
    · omega
    · have := ih (month + 1) (n - length)
      simp only [List.length_cons]
      omega

theorem day_le {lengths : List Nat} {month n bound : Nat} (hlengths : ∀ l ∈ lengths, l ≤ bound)
    (hn : n < lengths.sum + bound) : (monthDay lengths month n).2 ≤ bound := by
  induction lengths generalizing month n with
  | nil =>
    simp only [List.sum_nil, Nat.zero_add] at hn
    exact hn
  | cons length rest ih =>
    have hlength := hlengths length List.mem_cons_self
    rw [List.sum_cons] at hn
    unfold monthDay
    split
    · omega
    · exact ih (fun l hl => hlengths l (List.mem_cons_of_mem _ hl)) (by omega)

theorem month_day_bounds {year ordinal : Nat} (h : ordinal < 366) :
    (monthDay (monthLengths year) 1 ordinal).1 < 100 ∧
      (monthDay (monthLengths year) 1 ordinal).2 < 100 := by
  constructor
  · have := month_lt_add (monthLengths year) 1 ordinal
    simp only [monthLengths, List.length_cons, List.length_nil] at this ⊢
    omega
  · have hday : (monthDay (monthLengths year) 1 ordinal).2 ≤ 32 := by
      apply day_le
      · intro l hl
        unfold monthLengths at hl
        split at hl <;> simp at hl <;> omega
      · unfold monthLengths
        split <;> simp <;> omega
    omega

theorem dateText_lt {year year' ordinal ordinal' : Nat} {x y : List Char} (hyear : year' < 10000)
    (hordinal : ordinal' < 366)
    (h : year < year' ∨ year = year' ∧ (ordinal < ordinal' ∨ ordinal = ordinal' ∧ x < y)) :
    dateText year ordinal x < dateText year' ordinal' y := by
  obtain ⟨hmonth, hday⟩ := @month_day_bounds year' ordinal' hordinal
  apply field_lt hyear
  rcases h with h | ⟨rfl, h⟩
  · exact .inl h
  refine .inr ⟨rfl, field_lt hmonth ?_⟩
  rcases h with h | ⟨rfl, h⟩
  · rcases monthDay_lt (monthLengths year) 1 h with hlt | ⟨heq, hlt⟩
    · exact .inl hlt
    · exact .inr ⟨heq, field_lt hday (.inl hlt)⟩
  · exact .inr ⟨rfl, field_lt hday (.inr ⟨rfl, h⟩)⟩

/-! ## Times -/

theorem timeText_lt {n m : Nat} (h : n < m) (hm : m < 86400000000) : timeText n < timeText m := by
  unfold timeText
  refine field_lt (by omega) ?_
  by_cases hhour : n / 3600000000 < m / 3600000000
  · exact .inl hhour
  refine .inr ⟨by omega, field_lt (by omega) ?_⟩
  by_cases hminute : n / 60000000 % 60 < m / 60000000 % 60
  · exact .inl hminute
  refine .inr ⟨by omega, ?_⟩
  by_cases hsecond : n / 1000000 % 60 < m / 1000000 % 60
  · exact digits_lt hsecond (by omega) _ _
  have hequal : n / 1000000 % 60 = m / 1000000 % 60 := by omega
  have hfraction : n % 1000000 < m % 1000000 := by omega
  rw [hequal]
  apply List.append_left_lt
  rw [if_neg (by omega : ¬ m % 1000000 = 0)]
  split
  · exact List.cons_lt_cons_iff.mpr (.inl (by decide))
  · exact List.cons_lt_cons_iff.mpr (.inr ⟨rfl, digits_lt hfraction (by omega) _ _⟩)

theorem text_lt {n m : Nat} (h : n < m) (hm : m < 315537897600000000) : text n < text m := by
  apply dateText_lt
  · exact yearDay_fst_lt (by omega)
  · exact yearDay_snd_lt _
  by_cases hday : n / 86400000000 < m / 86400000000
  · rcases yearDay_lt hday with hlt | ⟨heq, hlt⟩
    · exact .inl hlt
    · exact .inr ⟨heq, .inl hlt⟩
  · have heq : n / 86400000000 = m / 86400000000 := by omega
    rw [heq]
    exact .inr ⟨rfl, .inr ⟨rfl, timeText_lt (by omega) (by omega)⟩⟩

/-- **The texts of instants are ordered as the instants are.** -/
theorem isoformat_lt_iff {s t : Int} (hs : InRange s) (ht : InRange t) :
    isoformat s < isoformat t ↔ s < t := by
  unfold InRange at hs ht
  have hmono : ∀ {s t : Int}, s < t → -62135596800000000 ≤ s → t ≤ 253402300799999999 →
      isoformat s < isoformat t := by
    intro s t hlt hlow hhigh
    unfold isoformat
    rw [String.lt_iff, String.toList_ofList, String.toList_ofList]
    exact text_lt (by omega) (by omega)
  constructor
  · intro hlt
    rcases lt_trichotomy s t with h | rfl | h
    · exact h
    · exact absurd hlt (lt_irrefl _)
    · exact absurd hlt (lt_asymm (hmono h ht.1 hs.2))
  · intro h
    exact hmono h hs.1 ht.2

theorem isoformat_le_iff {s t : Int} (hs : InRange s) (ht : InRange t) :
    isoformat s ≤ isoformat t ↔ s ≤ t := by
  rw [← not_lt, ← not_lt, isoformat_lt_iff ht hs]

end Calendar
