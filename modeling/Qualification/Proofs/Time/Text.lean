import Qualification.Proofs.Text.Digits
import Qualification.Proofs.Time.Calendar
/-!
# The text of instants

An instant of the years 0 to 9999 is read from its RFC 3339 text, to the nanosecond and with leap
seconds.

* `Instant.Proper`: the instants that have such a text;
* `digits?_padded`, `part?_padded`, `year?_padded`, `fraction?_fractionChars`: the parts of a text;
* `secondOfDay_spec`, `renderChars_eq`: the seconds of a day, and the parts of a text;
* `parse?_of_parts`: a text that has all its parts is read part by part;
* **`parse?_render`**: a text is read as the instant that it was written for.
-/

namespace Qualification.Instant

open Text (dropBlanks isBlank)

/-- Whether the year of an instant has four digits, and its nanoseconds are those of a second, or of
the leap second that may follow the last one of a minute. -/
structure Proper (t : Instant) : Prop where
  year_nonneg : 0 ≤ (dateOfDay (Int.fdiv t.seconds 86400)).1
  year_le : (dateOfDay (Int.fdiv t.seconds 86400)).1 ≤ 9999
  nanos : t.nanos < 1000000000 ∨ t.nanos < 2000000000 ∧ t.seconds % 60 = 59

instance (t : Instant) : Decidable t.Proper :=
  decidable_of_iff (0 ≤ (dateOfDay (Int.fdiv t.seconds 86400)).1 ∧
    (dateOfDay (Int.fdiv t.seconds 86400)).1 ≤ 9999 ∧
    (t.nanos < 1000000000 ∨ t.nanos < 2000000000 ∧ t.seconds % 60 = 59))
    ⟨fun h => ⟨h.1, h.2.1, h.2.2⟩, fun h => ⟨h.year_nonneg, h.year_le, h.nanos⟩⟩

/-! ## Digits -/

section Digits

variable {width n : Nat}

theorem exists_padded (width n : Nat) :
    ∃ d ds, padded width n = d :: ds ∧ d.isDigit = true := by
  have hne : padded width n ≠ [] := by simp [padded]
  obtain ⟨d, ds, hds⟩ := List.exists_cons_of_ne_nil hne
  exact ⟨d, ds, hds, isDigit_of_mem_padded d (by rw [hds]; exact List.mem_cons_self)⟩

theorem isBlank_of_isDigit {c : Char} (h : c.isDigit = true) : isBlank c = false := by
  simp only [Char.isDigit, Bool.and_eq_true, decide_eq_true_eq] at h
  have hlow : 48 ≤ c.toNat := h.1
  have hhigh : c.toNat ≤ 57 := h.2
  simp [isBlank]
  omega

theorem dropBlanks_padded (width n : Nat) (rest : List Char) :
    dropBlanks (padded width n ++ rest) = padded width n ++ rest := by
  obtain ⟨d, ds, hds, hd⟩ := exists_padded width n
  rw [hds]
  exact Text.dropBlanks_eq_self (by simpa using isBlank_of_isDigit hd)

theorem digits?_padded (hwidth : 0 < width) (h : n < 10 ^ width) (rest : List Char) :
    digits? width (padded width n ++ rest) = some (n, rest) := by
  have htake : (padded width n ++ rest).take width = padded width n :=
    List.take_left' (length_padded hwidth h)
  have hnil : NoDigit [] := by simp [NoDigit]
  have hrun : (padded width n).takeWhile Char.isDigit = padded width n := by
    simpa using takeWhile_digits isDigit_of_mem_padded hnil
  have hne : (padded width n).isEmpty = false := by simp [padded]
  simp only [digits?, htake, hrun, hne, foldl_digits, ofDigitChars_padded, List.drop_left]
  rfl

theorem part?_padded (hwidth : 0 < width) (h : n < 10 ^ width) {low high : Nat} (hlow : low ≤ n)
    (hhigh : n ≤ high) (rest : List Char) :
    part? width low high (padded width n ++ rest) = some (n, rest) := by
  simp [part?, dropBlanks_padded, digits?_padded hwidth h, hlow, hhigh]

theorem year?_padded (h : n < 10000) (rest : List Char) :
    year? (padded 4 n ++ rest) = some ((n : Int), rest) := by
  have hdigits : digits? 4 (padded 4 n ++ rest) = some (n, rest) :=
    digits?_padded (by decide) (by simpa using h) rest
  have hblanks := dropBlanks_padded 4 n rest
  obtain ⟨d, ds, hds, hd⟩ := exists_padded 4 n
  rw [hds] at hdigits hblanks ⊢
  unfold year?
  rw [hblanks]
  split
  next heq =>
    obtain ⟨rfl, -⟩ := List.cons.inj heq
    cases hd
  next heq =>
    obtain ⟨rfl, -⟩ := List.cons.inj heq
    cases hd
  next => rw [hdigits]; rfl

theorem mark?_cons {c : Char} (h : isBlank c = false) (rest : List Char) :
    mark? c (c :: rest) = some rest := by
  rw [mark?, Text.dropBlanks_eq_self (by simpa using h)]
  simp

/-- A fraction with some of nine digits. -/
theorem fraction?_padded (hwidth : 0 < width) (hwidth' : width ≤ 9) (h : n < 10 ^ width)
    {rest : List Char} (hrest : NoDigit rest) :
    fraction? ('.' :: padded width n ++ rest) = some (n * 10 ^ (9 - width), rest) := by
  have hrun : (padded width n ++ rest).takeWhile Char.isDigit = padded width n :=
    takeWhile_digits isDigit_of_mem_padded hrest
  have hne : (padded width n).isEmpty = false := by simp [padded]
  have hlength := length_padded hwidth h
  have hnine : (padded width n).take 9 = padded width n := by
    rw [List.take_of_length_le (by omega)]
  simp [fraction?, hrun, hnine, hne, hlength, foldl_digits, ofDigitChars_padded]

/-- **The fraction of a second.** -/
theorem fraction?_fractionChars {nanos : Nat} (h : nanos < 1000000000) {rest : List Char}
    (hrest : NoDigit rest) (hpoint : rest.head? ≠ some '.') :
    fraction? (fractionChars nanos ++ rest) = some (nanos, rest) := by
  unfold fractionChars
  split
  next hzero =>
    subst hzero
    unfold fraction?
    split
    next heq =>
      rw [List.nil_append] at heq
      exact absurd (congrArg List.head? heq) hpoint
    next => rfl
  split
  next hmillis =>
    rw [fraction?_padded (by decide) (by decide) (by omega) hrest]
    congr 2
    omega
  split
  next hmicros =>
    rw [fraction?_padded (by decide) (by decide) (by omega) hrest]
    congr 2
    omega
  next =>
    rw [fraction?_padded (by decide) (by decide) (by omega) hrest]
    simp

end Digits

/-! ## The text -/

/-- The second of the day of an instant. -/
def secondOfDay (t : Instant) : Nat := (Int.fmod t.seconds 86400).toNat

/-- An instant is a day and a second of that. -/
theorem secondOfDay_spec (t : Instant) : t.secondOfDay < 86400 ∧
    Int.fdiv t.seconds 86400 * 86400 + t.secondOfDay = t.seconds := by
  have hnonneg : 0 ≤ Int.fmod t.seconds 86400 := Int.fmod_nonneg_of_pos _ (by decide)
  have hlt : Int.fmod t.seconds 86400 < 86400 := Int.fmod_lt_of_pos _ (by decide)
  have hsum := Int.fmod_add_mul_fdiv t.seconds 86400
  unfold secondOfDay
  omega

/-- The second that a text shows: a leap second comes after the last one of a minute. -/
def shownSecond (t : Instant) : Nat := t.secondOfDay % 60 + if 1000000000 ≤ t.nanos then 1 else 0

theorem shownSecond_spec {t : Instant} (h : t.Proper) : t.shownSecond ≤ 60 ∧
    (if t.shownSecond = 60 then 59 else t.shownSecond) = t.secondOfDay % 60 ∧
    (if t.shownSecond = 60 then t.nanos % 1000000000 + 1000000000 else t.nanos % 1000000000) =
      t.nanos := by
  obtain ⟨-, hsum⟩ := t.secondOfDay_spec
  have hnanos := h.nanos
  by_cases hleap : 1000000000 ≤ t.nanos
  · have hshown : t.shownSecond = 60 := by
      rw [shownSecond, if_pos hleap]
      omega
    rw [if_pos hshown, if_pos hshown]
    omega
  · have hshown : t.shownSecond = t.secondOfDay % 60 := by
      rw [shownSecond, if_neg hleap]
      omega
    have hbefore : t.shownSecond ≠ 60 := by omega
    rw [if_neg hbefore, if_neg hbefore]
    omega

theorem renderChars_eq {t : Instant} {year : Int} {month day : Nat}
    (hdate : dateOfDay (Int.fdiv t.seconds 86400) = (year, month, day)) (hyear : 0 ≤ year)
    (hyear' : year ≤ 9999) : t.renderChars =
      padded 4 year.toNat ++ '-' :: (padded 2 month ++ '-' :: (padded 2 day ++
        'T' :: (padded 2 (t.secondOfDay / 3600) ++ ':' :: (padded 2 (t.secondOfDay / 60 % 60) ++
          ':' :: (padded 2 t.shownSecond ++
            (fractionChars (t.nanos % 1000000000) ++ ['Z'])))))) := by
  simp [renderChars, dateChars, timeChars, hdate, yearChars, hyear, hyear', secondOfDay,
    shownSecond]

/-- A text that has all its parts is read part by part. -/
theorem parse?_of_parts {s : String} {year : Int} {month day hour minute second nanos : Nat}
    {cs afterYear afterMonth afterDay afterHour afterMinute afterSecond : List Char}
    (hs : s.toList = cs) (hyear : year? cs = some (year, '-' :: afterYear))
    (hmonth : part? 2 1 12 afterYear = some (month, '-' :: afterMonth))
    (hday : part? 2 1 31 afterMonth = some (day, 'T' :: afterDay))
    (hhour : part? 2 0 23 afterDay = some (hour, ':' :: afterHour))
    (hminute : part? 2 0 59 afterHour = some (minute, ':' :: afterMinute))
    (hsecond : part? 2 0 60 afterMinute = some (second, afterSecond))
    (hnanos : fraction? afterSecond = some (nanos, ['Z']))
    (hinRange : yearInRange year = true) (hdays : day ≤ daysInMonth year month) {seconds : Int}
    (hseconds : dayNumber year month day * 86400 + (hour * 3600 + minute * 60 +
      (if second = 60 then 59 else second : Nat)) = seconds)
    (hinRange' : yearInRange (dateOfDay (Int.fdiv seconds 86400)).1 = true) :
    parse? s = some ⟨seconds, if second = 60 then nanos + 1000000000 else nanos⟩ := by
  have hzone : offset? (dropBlanks ['Z']) = some (0, []) := by decide
  have hhyphen : ∀ rest, mark? '-' ('-' :: rest) = some rest := mark?_cons (by decide)
  have hcolon : ∀ rest, mark? ':' (':' :: rest) = some rest := mark?_cons (by decide)
  -- One part is read after the other; `simp` would look at the rest of the reader for each of them.
  rw [parse?, hs, hyear]
  dsimp only [Option.bind_eq_bind, Option.bind_some]
  rw [hhyphen, Option.bind_some, hmonth, Option.bind_some]
  dsimp only
  rw [hhyphen, Option.bind_some, hday, Option.bind_some]
  change Option.bind (part? 2 0 23 afterDay) _ = _
  rw [hhour, Option.bind_some]
  dsimp only
  rw [hcolon, Option.bind_some, hminute, Option.bind_some]
  dsimp only
  rw [hcolon, Option.bind_some, hsecond, Option.bind_some]
  dsimp only
  rw [hnanos, Option.bind_some]
  dsimp only
  rw [hzone, Option.bind_some]
  dsimp only
  rw [if_neg (by simpa [dropBlanks, hinRange] using hdays)]
  simp only [beq_iff_eq, Int.sub_zero, hseconds, hinRange', if_true]
  rfl

/-- **An instant is read from its text.** -/
theorem parse?_render {t : Instant} (h : t.Proper) : parse? t.render = some t := by
  obtain ⟨hmonth, hmonth', hday, hday', hnumber⟩ := dateOfDay_spec (Int.fdiv t.seconds 86400)
  have hyear := h.year_nonneg
  have hyear' := h.year_le
  rcases hdate : dateOfDay (Int.fdiv t.seconds 86400) with ⟨year, month, day⟩
  simp only [hdate] at hmonth hmonth' hday hday' hnumber hyear hyear'
  obtain ⟨hdaySecond, hsum⟩ := t.secondOfDay_spec
  obtain ⟨hsecond, hshown, hnanos⟩ := shownSecond_spec h
  have hdays := daysInMonth_le year month
  have hcast : (year.toNat : Int) = year := Int.toNat_of_nonneg hyear
  have hinRange : yearInRange year = true := by
    simp only [yearInRange, Bool.and_eq_true, decide_eq_true_eq]
    omega
  have hseconds : dayNumber year month day * 86400 +
      ((t.secondOfDay / 3600 : Nat) * 3600 + (t.secondOfDay / 60 % 60 : Nat) * 60 +
        ((if t.shownSecond = 60 then 59 else t.shownSecond : Nat) : Int)) = t.seconds := by
    rw [hshown, hnumber]
    omega
  have hchars : t.render.toList = t.renderChars := String.toList_ofList
  have hyears : ∀ rest, year? (padded 4 year.toNat ++ rest) = some (year, rest) := fun rest => by
    rw [year?_padded (by omega), hcast]
  have hfraction : fraction? (fractionChars (t.nanos % 1000000000) ++ ['Z']) =
      some (t.nanos % 1000000000, ['Z']) :=
    fraction?_fractionChars (by omega) (by simp [NoDigit]) (by simp)
  rw [parse?_of_parts (hchars.trans (renderChars_eq hdate hyear hyear')) (hyears _)
    (part?_padded (by decide) (by omega) hmonth hmonth' _)
    (part?_padded (by decide) (by omega) hday (by omega) _)
    (part?_padded (by decide) (by omega) (by omega) (by omega) _)
    (part?_padded (by decide) (by omega) (by omega) (by omega) _)
    (part?_padded (by decide) (by omega) (by omega) hsecond _)
    hfraction hinRange hday' hseconds (by rw [hdate]; exact hinRange), hnanos]

end Qualification.Instant
