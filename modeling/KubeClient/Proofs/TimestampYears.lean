import KubeClient.Proofs.Numerals
import KubeClient.Proofs.Outcomes
import KubeClient.Proofs.TimestampText

/-!
# Timestamps that were read are written

An offset can move an instant into a year that has no four digits in universal time. All other
timestamps that are read are read again from their text.

* `Instant.Reading` : what a text says, and the instant that it stands for;
* `Instant.exists_reading` : every text that is read says so much;
* `Instant.HasYear` : the instants of years of four digits;
* `Instant.parseChars_of_year` : the text of another instant is not read;
* `Timestamp.parse_text_iff` : which timestamps are read again.
-/

namespace KubeClient

open Numeral

namespace Instant

/-! ### What parts of a text say -/

theorem digits_eq_ok {n v : Nat} {cs rest : List Char} (h : digits n cs = .ok (v, rest)) :
    ∃ ds, cs = ds ++ rest ∧ ds.length = n ∧ IsDigits ds ∧ v = value ds := by
  unfold digits at h
  dsimp only at h
  split_ifs at h with hds
  obtain ⟨rfl, rfl⟩ := Prod.mk.inj (Except.ok.inj h)
  exact ⟨cs.take n, (List.take_append_drop n cs).symm, hds.1, List.all_eq_true.mp hds.2, rfl⟩

theorem digits_of_not_isDigit (n : Nat) {c : Char} (hc : c.isDigit = false) (cs : List Char) :
    digits (n + 1) (c :: cs) = .error .invalid := by
  simp [digits, hc]

theorem oneOf_eq_ok {allowed cs rest : List Char} (h : oneOf allowed cs = .ok rest) :
    ∃ c ∈ allowed, cs = c :: rest := by
  cases cs with
  | nil => cases h
  | cons c cs =>
    rw [oneOf] at h
    split_ifs at h with hc
    obtain rfl := Except.ok.inj h
    exact ⟨c, hc, rfl⟩

/-- A fraction stays below one second. -/
theorem fraction_eq_ok {n : Nat} {cs rest : List Char} (h : fraction cs = .ok (n, rest)) :
    n < 10 ^ 9 ∧ rest <:+ cs := by
  unfold fraction at h
  split at h
  · rename_i cs
    dsimp only at h
    split_ifs at h
    obtain ⟨rfl, rfl⟩ := Prod.mk.inj (Except.ok.inj h)
    refine ⟨?_, (List.dropWhile_suffix _).trans (List.suffix_cons '.' cs)⟩
    have hdigits : IsDigits ((cs.take 9).takeWhile Char.isDigit) :=
      fun _ hc => List.mem_takeWhile_imp hc
    have hlength : ((cs.take 9).takeWhile Char.isDigit).length ≤ 9 :=
      ((List.takeWhile_prefix _).length_le).trans (by simp)
    calc value ((cs.take 9).takeWhile Char.isDigit) *
          10 ^ (9 - ((cs.take 9).takeWhile Char.isDigit).length)
        < 10 ^ ((cs.take 9).takeWhile Char.isDigit).length *
          10 ^ (9 - ((cs.take 9).takeWhile Char.isDigit).length) :=
          Nat.mul_lt_mul_of_pos_right (value_lt_pow hdigits) (Nat.pow_pos (by decide))
      _ = 10 ^ 9 := by rw [← Nat.pow_add, Nat.add_sub_cancel' hlength]
  · obtain ⟨rfl, rfl⟩ := Prod.mk.inj (Except.ok.inj h)
    exact ⟨by decide, List.suffix_rfl⟩

/-- The year of a date is that of the first four digits. -/
theorem date_eq_ok {d : Date} {cs rest : List Char} (h : date cs = .ok (d, rest)) :
    d.Valid ∧ d.year = (value (cs.take 4) : Int) ∧ d.year ≤ 9999 ∧ rest <:+ cs := by
  obtain ⟨⟨year, cs₁⟩, hyear, h⟩ := exists_of_bind_ok h
  obtain ⟨cs₂, hdash, h⟩ := exists_of_bind_ok h
  obtain ⟨⟨month, cs₃⟩, hmonth, h⟩ := exists_of_bind_ok h
  obtain ⟨cs₄, hdash', h⟩ := exists_of_bind_ok h
  obtain ⟨⟨day, cs₅⟩, hday, h⟩ := exists_of_bind_ok h
  dsimp only at h
  split_ifs at h with hvalid
  obtain ⟨rfl, rfl⟩ := Prod.mk.inj (Except.ok.inj h)
  -- what was read, put together again
  obtain ⟨ds, rfl, hlength, hdigits, rfl⟩ := digits_eq_ok hyear
  obtain ⟨c, -, rfl⟩ := oneOf_eq_ok hdash
  obtain ⟨ms, rfl, -⟩ := digits_eq_ok hmonth
  obtain ⟨c', -, rfl⟩ := oneOf_eq_ok hdash'
  obtain ⟨ns, rfl, -⟩ := digits_eq_ok hday
  have hlt := value_lt_pow hdigits
  rw [hlength] at hlt
  refine ⟨hvalid, by rw [List.take_left' hlength], by dsimp only; omega, ?_⟩
  exact ⟨ds ++ c :: (ms ++ c' :: ns), by simp⟩

/-- A second of the day, the last one of its minute if it is a leap second. -/
theorem timeOfDay_eq_ok {s n : Nat} {cs rest : List Char}
    (h : timeOfDay cs = .ok (s, n, rest)) :
    s < 86400 ∧ (n < 10 ^ 9 ∨ n < 2 * 10 ^ 9 ∧ s % 60 = 59) ∧ rest <:+ cs := by
  obtain ⟨⟨hour, cs₁⟩, hhour, h⟩ := exists_of_bind_ok h
  obtain ⟨cs₂, hcolon, h⟩ := exists_of_bind_ok h
  obtain ⟨⟨minute, cs₃⟩, hminute, h⟩ := exists_of_bind_ok h
  obtain ⟨cs₄, hcolon', h⟩ := exists_of_bind_ok h
  obtain ⟨⟨second, cs₅⟩, hsecond, h⟩ := exists_of_bind_ok h
  obtain ⟨⟨nanos, cs₆⟩, hfraction, h⟩ := exists_of_bind_ok h
  have hsuffix : cs₆ <:+ cs := by
    obtain ⟨hs, rfl, -⟩ := digits_eq_ok hhour
    obtain ⟨c, -, rfl⟩ := oneOf_eq_ok hcolon
    obtain ⟨ms, rfl, -⟩ := digits_eq_ok hminute
    obtain ⟨c', -, rfl⟩ := oneOf_eq_ok hcolon'
    obtain ⟨ss, rfl, -⟩ := digits_eq_ok hsecond
    exact (fraction_eq_ok hfraction).2.trans ⟨hs ++ c :: (ms ++ c' :: ss), by simp⟩
  have hnanos := (fraction_eq_ok hfraction).1
  dsimp only at h
  split_ifs at h with hrange hleap
  · obtain ⟨rfl, htail⟩ := Prod.mk.inj (Except.ok.inj h)
    obtain ⟨rfl, rfl⟩ := Prod.mk.inj htail
    exact ⟨by omega, .inr ⟨by omega, by omega⟩, hsuffix⟩
  · obtain ⟨rfl, htail⟩ := Prod.mk.inj (Except.ok.inj h)
    obtain ⟨rfl, rfl⟩ := Prod.mk.inj htail
    exact ⟨by omega, .inl hnanos, hsuffix⟩

/-- Two digits of an offset end with a digit. -/
theorem offsetPart_eq_ok {limit n : Nat} {cs rest : List Char}
    (h : offsetPart limit cs = .ok (n, rest)) :
    ∃ ds d, d.isDigit = true ∧ cs = ds ++ d :: rest := by
  unfold offsetPart at h
  split_ifs at h
  obtain ⟨⟨m, cs'⟩, hdigits, h⟩ := exists_of_bind_ok h
  dsimp only at h
  split_ifs at h with hlimit
  obtain ⟨rfl, rfl⟩ := Prod.mk.inj (Except.ok.inj h)
  obtain ⟨ds, rfl, hlength, hds, -⟩ := digits_eq_ok hdigits
  have hne : ds ≠ [] := by
    rintro rfl
    cases hlength
  refine ⟨ds.dropLast, ds.getLast hne, hds _ (List.getLast_mem hne), ?_⟩
  rw [← List.singleton_append, ← List.append_assoc, List.dropLast_append_getLast hne]

/-- An offset at the end of a text: `Z` for none, or hours and minutes, of which the last character
is a digit. -/
theorem offset_eq_ok {n : Int} {cs : List Char} (h : offset cs = .ok (n, [])) :
    n % 60 = 0 ∧ ((cs = ['Z'] ∨ cs = ['z']) ∧ n = 0 ∨ ∃ d, d.isDigit = true ∧ [d] <:+ cs) := by
  cases cs with
  | nil => cases h
  | cons c cs =>
    rw [offset] at h
    by_cases hzero : c = 'Z' ∨ c = 'z'
    · rw [if_pos hzero] at h
      obtain ⟨rfl, rfl⟩ := Prod.mk.inj (Except.ok.inj h)
      refine ⟨rfl, .inl ⟨?_, rfl⟩⟩
      rcases hzero with rfl | rfl
      · exact .inl rfl
      · exact .inr rfl
    by_cases hsign : c = '+' ∨ c = '-' ∨ c = '−'
    · rw [if_neg hzero, if_pos hsign] at h
      obtain ⟨⟨hours, cs₁⟩, hhours, h⟩ := exists_of_bind_ok h
      obtain ⟨cs₂, hcolon, h⟩ := exists_of_bind_ok h
      obtain ⟨⟨minutes, cs₃⟩, hminutes, h⟩ := exists_of_bind_ok h
      obtain ⟨hn, rfl⟩ := Prod.mk.inj (Except.ok.inj h)
      obtain ⟨hs, d, -, rfl⟩ := offsetPart_eq_ok hhours
      obtain ⟨c', -, rfl⟩ := oneOf_eq_ok hcolon
      obtain ⟨ms, e, he, rfl⟩ := offsetPart_eq_ok hminutes
      refine ⟨?_, .inr ⟨e, he, c :: (hs ++ d :: c' :: ms), by simp⟩⟩
      rw [← hn]
      split <;> omega
    · rw [if_neg hzero, if_neg hsign] at h
      cases h

/-! ### What a text says -/

/-- A text says a date, a second of the day, and how far local time is ahead of universal time. -/
structure Reading (cs : List Char) (t : Instant) (d : Date) (second : Nat) (ahead : Int) :
    Prop where
  valid : d.Valid
  year : d.year = (value (cs.take 4) : Int)
  year_le : d.year ≤ 9999
  second_lt : second < 86400
  ahead_lt : ahead.natAbs < 86400
  /-- Offsets are whole minutes. -/
  ahead_minutes : ahead % 60 = 0
  ahead_zero : cs.getLast? = some 'Z' ∨ cs.getLast? = some 'z' → ahead = 0
  seconds : t.seconds = d.toDays * 86400 + second - ahead
  leap : t.nanos < 10 ^ 9 ∨ t.nanos < 2 * 10 ^ 9 ∧ second % 60 = 59

/-- Every text that is read says so much. -/
theorem exists_reading {cs : List Char} {t : Instant} (h : parseChars cs = .ok t) :
    ∃ d second ahead, Reading cs t d second ahead := by
  unfold parseChars at h
  split_ifs at h
  obtain ⟨⟨d, cs₁⟩, hdate, h⟩ := exists_of_bind_ok h
  obtain ⟨cs₂, hbetween, h⟩ := exists_of_bind_ok h
  obtain ⟨⟨second, nanos, cs₃⟩, htime, h⟩ := exists_of_bind_ok h
  obtain ⟨⟨ahead, cs₄⟩, hoffset, h⟩ := exists_of_bind_ok h
  dsimp only at h
  split_ifs at h with htrailing hrange
  obtain rfl : cs₄ = [] := Decidable.not_not.mp htrailing
  obtain rfl := Except.ok.inj h
  obtain ⟨hvalid, hyear, hyearle, hrest₁⟩ := date_eq_ok hdate
  obtain ⟨c, -, rfl⟩ := oneOf_eq_ok hbetween
  obtain ⟨hsecond, hleap, hrest₂⟩ := timeOfDay_eq_ok htime
  obtain ⟨hminutes, hend⟩ := offset_eq_ok hoffset
  have hsuffix : cs₃ <:+ cs := (hrest₂.trans (List.suffix_cons c cs₂)).trans hrest₁
  refine ⟨d, second, ahead, hvalid, hyear, hyearle, hsecond, Nat.not_le.mp hrange, hminutes, ?_,
    rfl, hleap⟩
  intro hlast
  rcases hend with ⟨-, hzero⟩ | ⟨e, he, hdigit⟩
  · exact hzero
  · -- the text ends with a digit of the offset, which is no `Z`
    obtain ⟨front, rfl⟩ := hdigit.trans hsuffix
    rw [List.getLast?_append] at hlast
    rcases hlast with hlast | hlast <;> cases hlast <;> cases he

/-! ### Years -/

/-- The year of universal time has four digits. -/
def HasYear (t : Instant) : Prop :=
  0 ≤ (Date.ofDays (t.seconds / 86400)).year ∧ (Date.ofDays (t.seconds / 86400)).year ≤ 9999

instance (t : Instant) : Decidable t.HasYear :=
  inferInstanceAs (Decidable (_ ∧ _))

/-- The years of four digits, day by day. -/
theorem hasYear_iff (t : Instant) : t.HasYear ↔
    Date.firstDay 0 ≤ t.seconds / 86400 ∧ t.seconds / 86400 < Date.firstDay 10000 := by
  have hlow := Date.le_year_iff (t.seconds / 86400) 0
  have hhigh := Date.le_year_iff (t.seconds / 86400) 10000
  unfold HasYear
  omega

/-- Only an offset leads out of the years of four digits, and only from the first or the last. -/
theorem Reading.hasYear {cs : List Char} {t : Instant} {d : Date} {second : Nat} {ahead : Int}
    (h : Reading cs t d second ahead) (hinner : ahead = 0 ∨ 1 ≤ d.year ∧ d.year ≤ 9998) :
    t.HasYear := by
  have hyear : 0 ≤ d.year := by
    rw [h.year]
    exact Int.natCast_nonneg _
  have hyearle := h.year_le
  have hfirst := Date.le_year_iff_of_valid h.valid 0
  have hsecond := Date.le_year_iff_of_valid h.valid 1
  have hlast := Date.le_year_iff_of_valid h.valid 9999
  have hend := Date.le_year_iff_of_valid h.valid 10000
  -- the first and the last year are longer than an offset
  have hlong : Date.firstDay 0 + 1 ≤ Date.firstDay 1 ∧
      Date.firstDay 9999 + 1 ≤ Date.firstDay 10000 := by decide
  have hseconds := h.seconds
  have hbelow := h.second_lt
  have hahead := h.ahead_lt
  rw [hasYear_iff]
  rcases hinner with rfl | hinner <;> omega

/-- What was read can be written with the digits of its precision, if its year can. -/
theorem Reading.regular {cs : List Char} {t : Instant} {d : Date} {second : Nat} {ahead : Int}
    (h : Reading cs t d second ahead) (p : Precision) (hyear : t.HasYear) :
    (t.truncate p.unit).Regular p where
  whole := by
    have hwhole : t.nanos - t.nanos % p.unit = p.unit * (t.nanos / p.unit) := by
      have hparts := Nat.div_add_mod t.nanos p.unit
      omega
    show (t.nanos - t.nanos % p.unit) % p.unit = 0
    rw [hwhole, Nat.mul_mod_right]
  leap := by
    have hseconds := h.seconds
    have hminutes := h.ahead_minutes
    have hsecond := h.second_lt
    show t.nanos - t.nanos % p.unit < 10 ^ 9 ∨
      t.nanos - t.nanos % p.unit < 2 * 10 ^ 9 ∧ t.seconds % 60 = 59
    rcases h.leap with hleap | ⟨hleap, hlast⟩
    · exact .inl (by omega)
    · exact .inr ⟨by omega, by omega⟩
  year := hyear

/-- Other years are written with a sign. -/
theorem exists_yearChars {year : Int} (h : ¬ (0 ≤ year ∧ year ≤ 9999)) :
    ∃ c cs, c.isDigit = false ∧ yearChars year = c :: cs := by
  rw [yearChars, if_neg h]
  split
  · exact ⟨'-', _, rfl, rfl⟩
  · exact ⟨'+', _, rfl, rfl⟩

/-- A year without four digits has a sign, where the reader wants a digit. -/
theorem parseChars_of_year {t : Instant} (f : Fraction) (h : ¬ t.HasYear) :
    parseChars (t.chars f) = .error .invalid := by
  obtain ⟨c, cs, hc, hyear⟩ := exists_yearChars h
  have hchars : ∃ tail, t.chars f = c :: tail := by
    unfold chars
    dsimp only
    rw [hyear]
    exact ⟨_, rfl⟩
  obtain ⟨tail, htail⟩ := hchars
  rw [parseChars, if_neg (Nat.not_lt.mpr (minBytes_le t f)), htail, date,
    digits_of_not_isDigit 3 hc tail]
  rfl

end Instant

namespace Timestamp

theorem parse_eq_ok_iff {p : Precision} {s : String} {t : Timestamp p} :
    parse p s = .ok t ↔ ∃ i, Instant.parseChars s.toList = .ok i ∧ ofInstant p i = t := by
  rw [parse, parseChars]
  cases Instant.parseChars s.toList with
  | error f => simp [Except.map, Except.mapError]
  | ok i => simp [Except.map, Except.mapError]

/-- A timestamp that was read is read again from its text exactly if its year of universal time has
four digits. Another one was written with an offset, in the year 0 or 9999, and its own text is
refused for its sign. -/
theorem parse_text_iff {p : Precision} {s : String} {t : Timestamp p} (h : parse p s = .ok t) :
    (parse p t.text = .ok t ↔ t.instant.HasYear) ∧
    (¬ t.instant.HasYear →
      parse p t.text = .error ⟨p.kind, t.text, "input contains invalid characters"⟩ ∧
      (value (s.toList.take 4) = 0 ∨ value (s.toList.take 4) = 9999) ∧
      s.toList.getLast? ≠ some 'Z' ∧ s.toList.getLast? ≠ some 'z') := by
  obtain ⟨i, hi, rfl⟩ := parse_eq_ok_iff.mp h
  obtain ⟨d, second, ahead, reading⟩ := Instant.exists_reading hi
  have hrefused (hyear : ¬ (ofInstant p i).instant.HasYear) : parse p (ofInstant p i).text =
      .error ⟨p.kind, (ofInstant p i).text, "input contains invalid characters"⟩ := by
    have hchars := Instant.parseChars_of_year p.fraction hyear
    rw [parse, parseChars, text, Instant.text, String.toList_ofList, hchars]
    rfl
  refine ⟨⟨fun hread => ?_, fun hyear => parse_text (reading.regular p hyear)⟩, fun hyear => ?_⟩
  · by_contra hyear
    cases hread.symm.trans (hrefused hyear)
  · -- the offset has led out of the year that was written
    have hinner : ¬ (ahead = 0 ∨ 1 ≤ d.year ∧ d.year ≤ 9998) := fun hinner =>
      hyear (reading.hasYear hinner)
    have hwritten := reading.year
    have hle := reading.year_le
    exact ⟨hrefused hyear, by omega, fun hlast => hinner (.inl (reading.ahead_zero (.inl hlast))),
      fun hlast => hinner (.inl (reading.ahead_zero (.inr hlast)))⟩

/-- A leap second that is written in local time, with more digits than are kept. -/
theorem parse_text_iff_leap :
    parse .micros "2016-12-31T18:59:60.9999999-05:00" = .ok ⟨1483228799, 1999999000⟩ ∧
    Instant.HasYear ⟨1483228799, 1999999000⟩ ∧
    parse .micros (⟨1483228799, 1999999000⟩ : Timestamp .micros).text =
      .ok ⟨1483228799, 1999999000⟩ := by
  have hread : parse .micros "2016-12-31T18:59:60.9999999-05:00" =
      .ok ⟨1483228799, 1999999000⟩ := by decide +kernel
  have hyear : Instant.HasYear ⟨1483228799, 1999999000⟩ := by decide +kernel
  exact ⟨hread, hyear, (parse_text_iff hread).1.mpr hyear⟩

/-- The last second of the year 9999, one minute behind universal time. -/
theorem text_beyond_years :
    parse .seconds "9999-12-31T23:59:59-00:01" = .ok ⟨253402300859, 0⟩ ∧
    (⟨253402300859, 0⟩ : Timestamp .seconds).text = "+10000-01-01T00:00:59Z" ∧
    parse .seconds "+10000-01-01T00:00:59Z" = .error
      ⟨"timestamp", "+10000-01-01T00:00:59Z", "input contains invalid characters"⟩ := by
  refine ⟨?_, ?_, ?_⟩ <;> decide +kernel

end Timestamp
end KubeClient
