import Mathlib.Order.Monotone.Basic
import Mathlib.Tactic.Ring
import Woodhouse.Python.Ascii
import Woodhouse.Python.DateTime

namespace Woodhouse.Python

section Dates

/-- The month and the day of the month, from the lengths of the months that are left. -/
def monthDay : (lengths : List Nat) → (month days : Nat) → Nat × Nat
  | [], month, days => (month,days + 1)
  | length :: rest, month, days =>
    if days < length then (month,days + 1) else monthDay rest (month + 1) (days - length)

def monthLengths (year : Nat) : List Nat := (List.range 12).map (fun m => daysInMonth year (m + 1))

/-- The year of a day, from the days before it. -/
def yearOf (days : Nat) : Nat :=
  let n400 := days / 146097
  let n := days % 146097
  let n100 := n / 36524
  let n := n % 36524
  let n4 := n / 1461
  let n1 := n % 1461 / 365
  let year := n400 * 400 + 1 + n100 * 100 + n4 * 4 + n1
  -- the last day of a leap year
  if n1 = 4 ∨ n100 = 4 then year - 1 else year

/-- `date.fromordinal(n)`: its year, month and day. -/
def fromOrdinal (n : Nat) : Nat × Nat × Nat :=
  let year := yearOf (n - 1)
  (year,monthDay (monthLengths year) 1 (n - 1 - daysBeforeYear year))

theorem daysBeforeYear_parts {a b c d : Nat} (hb : b ≤ 3) (hc : c ≤ 24) (hd : d ≤ 3) :
    daysBeforeYear (400 * a + 100 * b + 4 * c + d + 1) = 146097 * a + 36524 * b + 1461 * c + 365 * d := by
  have h4 : (400 * a + 100 * b + 4 * c + d) / 4 = 100 * a + 25 * b + c := by omega
  have h100 : (400 * a + 100 * b + 4 * c + d) / 100 = 4 * a + b := by omega
  have h400 : (400 * a + 100 * b + 4 * c + d) / 400 = a := by omega
  unfold daysBeforeYear
  dsimp only
  rw [Nat.add_sub_cancel,h4,h100,h400]
  omega

theorem daysBeforeYear_mono {y z : Nat} (h : y ≤ z) : daysBeforeYear y ≤ daysBeforeYear z := by
  refine monotone_nat_of_le_succ (f := daysBeforeYear) ?_ h
  intro n
  unfold daysBeforeYear
  dsimp only
  omega

/-- The last year of a cycle of 4, 100 or 400 years is one year before the next cycle. -/
theorem daysBeforeYear_next {a b c d : Nat} (hb : b ≤ 3) (hc : c ≤ 24) (hd : d ≤ 3) :
    daysBeforeYear (400 * a + 100 * b + 4 * c + d + 2) =
      if d < 3 then 146097 * a + 36524 * b + 1461 * c + 365 * (d + 1)
      else if c < 24 then 146097 * a + 36524 * b + 1461 * (c + 1)
      else if b < 3 then 146097 * a + 36524 * (b + 1)
      else 146097 * (a + 1) := by
  split
  · exact daysBeforeYear_parts (d := d + 1) hb hc (by omega)
  · obtain rfl : d = 3 := by omega
    split
    · exact daysBeforeYear_parts (c := c + 1) (d := 0) hb (by omega) (by omega)
    · obtain rfl : c = 24 := by omega
      split
      · have h := daysBeforeYear_parts (a := a) (b := b + 1) (c := 0) (d := 0) (by omega) (by omega)
          (by omega)
        rw [show 400 * a + 100 * b + 4 * 24 + 3 + 2 = 400 * a + 100 * (b + 1) + 4 * 0 + 0 + 1 by omega,h]
        omega
      · have h := daysBeforeYear_parts (a := a + 1) (b := 0) (c := 0) (d := 0) (by omega) (by omega)
          (by omega)
        rw [show 400 * a + 100 * b + 4 * 24 + 3 + 2 = 400 * (a + 1) + 100 * 0 + 4 * 0 + 0 + 1 by omega,
          h]
        omega

theorem yearOf_bounds (days : Nat) : 1 ≤ yearOf days ∧ daysBeforeYear (yearOf days) ≤ days ∧
    days < daysBeforeYear (yearOf days + 1) := by
  have hwithin : ∀ a b c d rest, b ≤ 3 → c ≤ 24 → d ≤ 3 →
      days = 146097 * a + 36524 * b + 1461 * c + 365 * d + rest →
      rest < (if d = 3 ∧ (c < 24 ∨ b = 3) then 366 else 365) →
      yearOf days = 400 * a + 100 * b + 4 * c + d + 1 → 1 ≤ yearOf days ∧
        daysBeforeYear (yearOf days) ≤ days ∧ days < daysBeforeYear (yearOf days + 1) := by
    intro a b c d rest hb hc hd hdays hrest hyear
    rw [hyear,daysBeforeYear_parts hb hc hd,daysBeforeYear_next hb hc hd]
    refine ⟨by omega,by omega,?_⟩
    split at hrest
    all_goals repeat' split
    all_goals omega
  have h400 := Nat.div_add_mod days 146097
  have hn400 := Nat.mod_lt days (show 0 < 146097 by decide)
  have h100 := Nat.div_add_mod (days % 146097) 36524
  have hn100 := Nat.mod_lt (days % 146097) (show 0 < 36524 by decide)
  have h4 := Nat.div_add_mod (days % 146097 % 36524) 1461
  have hn4 := Nat.mod_lt (days % 146097 % 36524) (show 0 < 1461 by decide)
  have h1 := Nat.div_add_mod (days % 146097 % 36524 % 1461) 365
  have hn1 := Nat.mod_lt (days % 146097 % 36524 % 1461) (show 0 < 365 by decide)
  have hyear : yearOf days = if days % 146097 % 36524 % 1461 / 365 = 4 ∨ days % 146097 / 36524 = 4 then
      days / 146097 * 400 + 1 + days % 146097 / 36524 * 100 + days % 146097 % 36524 / 1461 * 4 +
        days % 146097 % 36524 % 1461 / 365 - 1
      else days / 146097 * 400 + 1 + days % 146097 / 36524 * 100 + days % 146097 % 36524 / 1461 * 4 +
        days % 146097 % 36524 % 1461 / 365 := rfl
  generalize days / 146097 = a at *
  generalize days % 146097 = n at *
  generalize n / 36524 = b at *
  generalize n % 36524 = n at *
  generalize n / 1461 = c at *
  generalize n % 1461 = n at *
  generalize n / 365 = d at *
  generalize n % 365 = n at *
  split at hyear
  · by_cases hb : b = 4
    · exact hwithin a 3 24 3 365 (by omega) (by omega) (by omega) (by omega) (by simp) (by omega)
    · exact hwithin a b c 3 365 (by omega) (by omega) (by omega) (by omega)
        (by rw [if_pos (by omega)]; omega) (by omega)
  · refine hwithin a b c d n (by omega) (by omega) (by omega) (by omega) ?_ (by omega)
    split
    · omega
    · exact hn1

theorem monthDay_spec {lengths : List Nat} (month : Nat) {days : Nat} (h : days < lengths.sum) :
    ∃ k, k < lengths.length ∧ (lengths.take k).sum ≤ days ∧
      days < (lengths.take k).sum + lengths.getD k 0 ∧
      monthDay lengths month days = (month + k,days - (lengths.take k).sum + 1) := by
  induction lengths generalizing month days with
  | nil => simp at h
  | cons length rest ih =>
    unfold monthDay
    split
    · rename_i hfirst
      exact ⟨0,by simp,by simp,by simpa using hfirst,by simp⟩
    · rename_i hfirst
      rw [List.sum_cons] at h
      obtain ⟨k,hk,hlow,hhigh,heq⟩ := @ih (month + 1) (days - length) (by omega)
      refine ⟨k + 1,by simpa using hk,?_,?_,?_⟩
      · rw [List.take_succ_cons,List.sum_cons]
        omega
      · rw [List.take_succ_cons,List.sum_cons,List.getD_cons_succ]
        omega
      · rw [heq,List.take_succ_cons,List.sum_cons,Prod.mk.injEq]
        exact ⟨by omega,by omega⟩

theorem monthLengths_sum {year : Nat} (h : 1 ≤ year) :
    (monthLengths year).sum = daysBeforeYear (year + 1) - daysBeforeYear year := by
  have hsum : (monthLengths year).sum = 365 + if isLeap year then 1 else 0 := by
    have hparts : monthLengths year =
        [31,if isLeap year then 29 else 28,31,30,31,30,31,31,30,31,30,31] := rfl
    rw [hparts]
    split
    · rfl
    · rfl
  have h4 : year / 4 = (year - 1) / 4 + if year % 4 = 0 then 1 else 0 := by split <;> omega
  have h100 : year / 100 = (year - 1) / 100 + if year % 100 = 0 then 1 else 0 := by split <;> omega
  have h400 : year / 400 = (year - 1) / 400 + if year % 400 = 0 then 1 else 0 := by split <;> omega
  have hle : (year - 1) / 100 ≤ (year - 1) / 4 := Nat.div_le_div_left (by decide) (by decide)
  rw [hsum]
  unfold daysBeforeYear isLeap
  dsimp only
  rw [Nat.add_sub_cancel,h4,h100,h400]
  by_cases hc : year % 100 = 0
  · by_cases hl : year % 400 = 0
    · rw [if_pos (by simp [show year % 4 = 0 by omega,hl]),if_pos (by omega),if_pos hc,if_pos hl]
      omega
    · rw [if_neg (by simp [hc,hl]),if_pos (by omega),if_pos hc,if_neg hl]
      omega
  · by_cases hq : year % 4 = 0
    · rw [if_pos (by simp [hq,hc]),if_pos hq,if_neg hc,if_neg (by omega)]
      omega
    · rw [if_neg (by simp [hq]),if_neg hq,if_neg hc,if_neg (by omega)]
      omega

theorem monthLengths_take {year k : Nat} (h : k ≤ 12) :
    (monthLengths year).take k = (List.range k).map (fun m => daysInMonth year (m + 1)) := by
  unfold monthLengths
  rw [← List.map_take,List.take_range,Nat.min_eq_left h]

theorem ordinal_fromOrdinal {n : Nat} (h : 1 ≤ n) :
    ordinal (fromOrdinal n).1 (fromOrdinal n).2.1 (fromOrdinal n).2.2 = some n := by
  obtain ⟨hyear,hlow,hhigh⟩ := yearOf_bounds (n - 1)
  have hsum := monthLengths_sum hyear
  have hdays : n - 1 - daysBeforeYear (yearOf (n - 1)) < (monthLengths (yearOf (n - 1))).sum := by
    omega
  obtain ⟨k,hk,hbefore,hafter,heq⟩ := monthDay_spec 1 hdays
  have hk12 : k < 12 := hk
  have hlength : (monthLengths (yearOf (n - 1))).getD k 0 = daysInMonth (yearOf (n - 1)) (1 + k) := by
    simp [monthLengths,List.getD_eq_getElem?_getD,hk12,Nat.add_comm]
  rw [hlength] at hafter
  unfold fromOrdinal
  dsimp only
  rw [heq]
  unfold ordinal
  dsimp only
  rw [if_pos ⟨hyear,by omega,by omega,by omega,by omega⟩,Nat.add_sub_cancel_left,
    ← monthLengths_take (by omega)]
  exact congrArg some (by omega)

theorem fromOrdinal_year {n : Nat} (h : 1 ≤ n) (hmax : n ≤ 3652059) : (fromOrdinal n).1 < 10000 := by
  obtain ⟨_,hlow,_⟩ := yearOf_bounds (n - 1)
  change yearOf (n - 1) < 10000
  by_contra hlarge
  have hmono := daysBeforeYear_mono (y := 10000) (z := yearOf (n - 1)) (by omega)
  have hlast : daysBeforeYear 10000 = 3652059 := by decide
  omega

/-- The month and the day have two digits. -/
theorem fromOrdinal_small {n : Nat} (h : 1 ≤ n) :
    (fromOrdinal n).2.1 < 100 ∧ (fromOrdinal n).2.2 < 100 := by
  have hordinal := ordinal_fromOrdinal h
  unfold ordinal at hordinal
  split at hordinal
  · rename_i hvalid
    refine ⟨by omega,?_⟩
    have hdays : ∀ year month, daysInMonth year month ≤ 31 := by
      intro year month
      unfold daysInMonth
      rw [List.getD_eq_getElem?_getD]
      match month - 1 with
      | 0 | 2 | 3 | 4 | 5 | 6 | 7 | 8 | 9 | 10 | 11 => simp
      | 1 =>
        simp only [List.getElem?_cons_succ,List.getElem?_cons_zero,Option.getD_some]
        split <;> omega
      | k + 12 => simp
    have := hdays (fromOrdinal n).1 (fromOrdinal n).2.1
    omega
  · cases hordinal

end Dates

section Texts

def digitChar (d : Nat) : CodePoint := Fin.ofNat _ (48 + d)

/-- `format(n, "0…d")` of a number that fits. -/
def padded : (width n : Nat) → Str
  | 0, _ => []
  | width + 1, n => digitChar (n / 10 ^ width % 10) :: padded width n

/-- `hh:mm:ss` and the microseconds where there are any. -/
def formatTime (micros : Nat) : Str :=
  padded 2 (micros / 3600000000) ++ str ":" ++ padded 2 (micros / 60000000 % 60) ++ str ":" ++
    padded 2 (micros / 1000000 % 60) ++
    if micros % 1000000 = 0 then [] else str "." ++ padded 6 (micros % 1000000)

/-- A UTC offset: its seconds only where it has some. -/
def formatOffset (offset : Int) : Str :=
  let n := offset.natAbs
  str (if offset < 0 then "-" else "+") ++
    if n % 60000000 = 0 then
      padded 2 (n / 3600000000) ++ str ":" ++ padded 2 (n / 60000000 % 60)
    else formatTime n

def formatDate (days : Nat) : Str :=
  let (year,month,day) := fromOrdinal (days + 1)
  padded 4 year ++ str "-" ++ padded 2 month ++ str "-" ++ padded 2 day

/-- `d.isoformat()`. -/
def isoformat (d : Datetime) : Str :=
  formatDate (d.clock.val / dayMicros) ++ str "T" ++ formatTime (d.clock.val % dayMicros) ++
    (d.utcoffset.map formatOffset).getD []

end Texts

section Parsing
variable {s : Bytes} {i n v p stop left : Nat} {c : CodePoint}

theorem encodeUtf8_ascii {t : Str} (h : isAscii t = true) : encodeUtf8 t = .ok (asciiBytes t) := by
  rw [isAscii_iff] at h
  have hany : t.any isSurrogate = false := by
    rw [List.any_eq_false]
    intro c hc
    have := h c hc
    unfold isSurrogate
    simp only [decide_eq_true_eq]
    omega
  have hflat : t.flatMap utf8Bytes = asciiBytes t := by
    have hone : ∀ c ∈ t, utf8Bytes c = [UInt8.ofNat c.val] := by
      intro c hc
      unfold utf8Bytes
      dsimp only
      rw [if_pos (h c hc)]
      rfl
    unfold asciiBytes
    rw [List.flatMap_congr hone,List.map_eq_flatMap]
  unfold encodeUtf8
  rw [hany,if_neg Bool.false_ne_true,hflat]

theorem sanitized_ascii {t : Str} (h : isAscii t = true) : sanitized t = t := by
  unfold sanitized
  split
  · rename_i i hi
    have hsurrogate := List.find?_some hi
    rw [isAscii_iff] at h
    cases hget : t[i]? with
    | none =>
      rw [hget] at hsurrogate
      cases hsurrogate
    | some c =>
      rw [hget,Option.any_some] at hsurrogate
      have := h c (List.mem_of_getElem? hget)
      unfold isSurrogate at hsurrogate
      simp only [decide_eq_true_eq] at hsurrogate
      omega
  · rfl

theorem byteAt_append (pre post : Str) (hc : c.val < 128) (hs : s = asciiBytes (pre ++ c :: post))
    (hi : pre.length = i) : byteAt s i = c.val := by
  subst hs hi
  unfold byteAt asciiBytes
  rw [List.map_append,List.getD_eq_getElem?_getD,List.getElem?_append_right (by simp)]
  simp only [List.length_map,Nat.sub_self,List.map_cons,List.getElem?_cons_zero,Option.getD_some]
  rw [UInt8.toNat_ofNat',Nat.mod_eq_of_lt (by omega)]

theorem digitChar_val {d : Nat} (h : d < 10) : (digitChar d).val = 48 + d := by
  unfold digitChar
  rw [Fin.val_ofNat,Nat.mod_eq_of_lt (by omega)]

@[simp] theorem padded_length (width n : Nat) : (padded width n).length = width := by
  induction width with
  | zero => rfl
  | succ width ih => rw [padded,List.length_cons,ih]

/-- The digits of a padded number write it. -/
theorem digitsAt_padded (pre post : Str) (hs : s = asciiBytes (pre ++ (padded n v ++ post))) (hi : pre.length = i)
    (hv : v < 10 ^ n) : digitsAt s i n = some v := by
  have hdigits : ∀ (width : Nat) (pre : Str) (i seed : Nat),
      s = asciiBytes (pre ++ (padded width v ++ post)) → pre.length = i →
      ∃ ds, (List.range' i width).mapM (fun k => asciiDigit (byteAt s k)) = some ds ∧
        ds.foldl (fun n d => 10 * n + d) seed = seed * 10 ^ width + v % 10 ^ width := by
    intro width
    induction width with
    | zero => exact fun pre i seed _ _ => ⟨[],rfl,by simp [Nat.mod_one]⟩
    | succ width ih =>
      intro pre i seed hs hi
      have hd : v / 10 ^ width % 10 < 10 := Nat.mod_lt _ (by decide)
      have hchar := digitChar_val hd
      have hbyte : byteAt s i = (digitChar (v / 10 ^ width % 10)).val :=
        byteAt_append pre (padded width v ++ post) (by omega) hs hi
      have hdigit : asciiDigit (byteAt s i) = some (v / 10 ^ width % 10) := by
        unfold asciiDigit
        rw [hbyte,hchar,if_pos (by omega),Nat.add_sub_cancel_left]
      obtain ⟨ds,hds,hvalue⟩ := ih (pre ++ [digitChar (v / 10 ^ width % 10)]) (i + 1)
        (10 * seed + v / 10 ^ width % 10) (by rw [hs,padded]; simp) (by simpa using hi)
      refine ⟨v / 10 ^ width % 10 :: ds,?_,?_⟩
      · rw [List.range'_succ,List.mapM_cons,hdigit,hds]
        rfl
      · rw [List.foldl_cons,hvalue,Nat.pow_succ,Nat.mod_mul]
        ring
  obtain ⟨ds,hds,hvalue⟩ := hdigits n pre i 0 hs hi
  unfold digitsAt
  have hrange : (List.range n).mapM (fun k => asciiDigit (byteAt s (i + k))) = some ds := by
    rw [← hds,List.range'_eq_map_range,List.mapM_map]
    rfl
  rw [hrange,Option.map_some]
  unfold ofDigits
  rw [hvalue,Nat.zero_mul,Nat.zero_add,Nat.mod_eq_of_lt hv]

/-- A component before a colon. -/
theorem parseHhMmSs_colon {separated : Option Bool} (hv : digitsAt s p 2 = some v) (hp : p + 3 < stop)
    (hbyte : byteAt s (p + 2) = 58) (hsep : separated.getD true = true) :
    parseHhMmSs s stop (left + 1) p separated = (parseHhMmSs s stop left (p + 3) (some true)).map
      (fun rest => { rest with components := v :: rest.components }) := by
  have his : isByteAt s (p + 2) ':' = true := by
    unfold isByteAt
    simpa using hbyte
  rw [parseHhMmSs,hv,his,hsep]
  simp only [Option.bind_eq_bind,Option.bind_some,if_neg (Nat.not_le_of_lt hp)]
  cases parseHhMmSs s stop left (p + 3) (some true) with
  | none => rfl
  | some rest => rfl

/-- The last component. -/
theorem parseHhMmSs_last {separated : Option Bool} (hv : digitsAt s p 2 = some v) (hp : stop ≤ p + 3) :
    parseHhMmSs s stop (left + 1) p separated = some ⟨[v],0,byteAt s (p + 2) ≠ 0⟩ := by
  rw [parseHhMmSs,hv]
  simp only [Option.bind_eq_bind,Option.bind_some,if_pos hp]

/-- The last component before a fraction. -/
theorem parseHhMmSs_dot {separated : Option Bool} (hv : digitsAt s p 2 = some v) (hp : p + 3 < stop)
    (hbyte : byteAt s (p + 2) = 46) :
    parseHhMmSs s stop (left + 1) p separated = (parseFraction s (p + 3) stop).map
      (fun rest => { rest with components := v :: rest.components }) := by
  have hcolon : isByteAt s (p + 2) ':' = false := by
    unfold isByteAt
    simp [hbyte]
  have hdot : isByteAt s (p + 2) '.' = true := by
    unfold isByteAt
    simpa using hbyte
  rw [parseHhMmSs,hv,hcolon,hdot]
  simp only [Option.bind_eq_bind,Option.bind_some,if_neg (Nat.not_le_of_lt hp)]
  cases parseFraction s (p + 3) stop with
  | none => simp
  | some rest => simp

end Parsing

section RoundTrip
variable {s : Bytes} {pre post : Str} {p stop micros : Nat} {c : CodePoint}

theorem formatTime_length (micros : Nat) :
    (formatTime micros).length = if micros % 1000000 = 0 then 8 else 15 := by
  have hcolon : (str ":").length = 1 := rfl
  have hdot : (str ".").length = 1 := rfl
  unfold formatTime
  split
  · simp [hcolon]
  · simp [hcolon,hdot]

/-- A time of day is read back. -/
theorem parseHhMmSs_formatTime (hs : s = asciiBytes (pre ++ (formatTime micros ++ post)))
    (hp : pre.length = p) (hmicros : micros < dayMicros)
    (hstop : stop = p + (formatTime micros).length) :
    ∃ leftOver, parseHhMmSs s stop 3 p none = some
      ⟨[micros / 3600000000,micros / 60000000 % 60,micros / 1000000 % 60],micros % 1000000,leftOver⟩ := by
  unfold dayMicros at hmicros
  rw [formatTime_length] at hstop
  obtain ⟨fraction,hfraction⟩ : ∃ fraction, (if micros % 1000000 = 0 then []
      else str "." ++ padded 6 (micros % 1000000)) = fraction := ⟨_,rfl⟩
  have htext : s = asciiBytes (pre ++ (padded 2 (micros / 3600000000) ++ (chr ':' ::
      (padded 2 (micros / 60000000 % 60) ++ (chr ':' ::
        (padded 2 (micros / 1000000 % 60) ++ (fraction ++ post))))))) := by
    rw [hs,← hfraction]
    unfold formatTime
    simp only [List.append_assoc]
    rfl
  have hhour : digitsAt s p 2 = some (micros / 3600000000) :=
    digitsAt_padded pre _ htext hp (by omega)
  have hminute : digitsAt s (p + 3) 2 = some (micros / 60000000 % 60) := by
    refine digitsAt_padded (pre ++ padded 2 (micros / 3600000000) ++ [chr ':'])
      (chr ':' :: (padded 2 (micros / 1000000 % 60) ++ (fraction ++ post))) ?_ (by simp [hp]) (by omega)
    rw [htext]
    simp only [List.append_assoc,List.cons_append,List.nil_append]
  have hsecond : digitsAt s (p + 6) 2 = some (micros / 1000000 % 60) := by
    refine digitsAt_padded (pre ++ padded 2 (micros / 3600000000) ++ [chr ':'] ++
      padded 2 (micros / 60000000 % 60) ++ [chr ':']) (fraction ++ post) ?_ (by simp [hp]) (by omega)
    rw [htext]
    simp only [List.append_assoc,List.cons_append,List.nil_append]
  have hcolon₁ : byteAt s (p + 2) = 58 := by
    refine byteAt_append (c := chr ':') (pre ++ padded 2 (micros / 3600000000))
      (padded 2 (micros / 60000000 % 60) ++ (chr ':' ::
        (padded 2 (micros / 1000000 % 60) ++ (fraction ++ post)))) (by decide) ?_ (by simp [hp])
    rw [htext]
    simp only [List.append_assoc]
  have hcolon₂ : byteAt s (p + 5) = 58 := by
    refine byteAt_append (c := chr ':') (pre ++ padded 2 (micros / 3600000000) ++ [chr ':'] ++
      padded 2 (micros / 60000000 % 60)) (padded 2 (micros / 1000000 % 60) ++ (fraction ++ post))
      (by decide) ?_ (by simp [hp])
    rw [htext]
    simp only [List.append_assoc,List.cons_append,List.nil_append]
  rw [parseHhMmSs_colon hhour (by split at hstop <;> omega) hcolon₁ rfl,
    parseHhMmSs_colon hminute (by split at hstop <;> omega) hcolon₂ rfl]
  split at hstop
  · rename_i hwhole
    rw [parseHhMmSs_last hsecond (by omega),hwhole]
    exact ⟨_,rfl⟩
  · rename_i hpart
    rw [if_neg hpart] at hfraction
    have hdot : byteAt s (p + 6 + 2) = 46 := by
      refine byteAt_append (c := chr '.') (pre ++ padded 2 (micros / 3600000000) ++ [chr ':'] ++
        padded 2 (micros / 60000000 % 60) ++ [chr ':'] ++ padded 2 (micros / 1000000 % 60))
        (padded 6 (micros % 1000000) ++ post) (by decide) ?_ (by simp [hp])
      rw [htext,← hfraction]
      simp only [List.append_assoc,List.cons_append,List.nil_append]
      rfl
    have hplaces : digitsAt s (p + 6 + 3) 6 = some (micros % 1000000) := by
      refine digitsAt_padded (pre ++ padded 2 (micros / 3600000000) ++ [chr ':'] ++
        padded 2 (micros / 60000000 % 60) ++ [chr ':'] ++ padded 2 (micros / 1000000 % 60) ++
        [chr '.']) post ?_ (by simp [hp]) (by omega)
      rw [htext,← hfraction]
      simp only [List.append_assoc,List.cons_append,List.nil_append]
      rfl
    have hmin : min (stop - (p + 6 + 3)) 6 = 6 := by omega
    rw [parseHhMmSs_dot hsecond (by omega) hdot]
    unfold parseFraction
    rw [hmin]
    dsimp only
    rw [hplaces]
    simp only [Option.bind_eq_bind,Option.bind_some,Option.map_some,Nat.sub_self,Nat.pow_zero,
      Nat.mul_one]
    exact ⟨_,rfl⟩

/-- No character of a time of day starts an offset. -/
theorem formatTime_zone (hc : c ∈ formatTime micros) : (48 ≤ c.val ∧ c.val ≤ 57) ∨ c = chr ':' ∨ c = chr '.' := by
  have hpadded : ∀ width n, ∀ c ∈ padded width n, 48 ≤ c.val ∧ c.val ≤ 57 := by
    intro width n
    induction width with
    | zero => exact fun c hc => nomatch hc
    | succ width ih =>
      intro c hc
      rcases List.mem_cons.mp hc with rfl | hc
      · have hd : n / 10 ^ width % 10 < 10 := Nat.mod_lt _ (by decide)
        rw [digitChar_val hd]
        omega
      · exact ih c hc
  have hcolon : ∀ c ∈ str ":", c = chr ':' := by simp [str,chr]
  have hdot : ∀ c ∈ str ".", c = chr '.' := by simp [str,chr]
  unfold formatTime at hc
  simp only [List.mem_append] at hc
  rcases hc with ((((hc | hc) | hc) | hc) | hc) | hc
  · exact .inl (hpadded _ _ c hc)
  · exact .inr (.inl (hcolon c hc))
  · exact .inl (hpadded _ _ c hc)
  · exact .inr (.inl (hcolon c hc))
  · exact .inl (hpadded _ _ c hc)
  · split at hc
    · cases hc
    · rcases List.mem_append.mp hc with hc | hc
      · exact .inr (.inr (hdot c hc))
      · exact .inl (hpadded _ _ c hc)

/-- The offset starts behind a time of day. -/
theorem takeWhile_formatTime (hs : s = asciiBytes (pre ++ (formatTime micros ++ (c :: post))))
    (hp : pre.length = p) (hc : c = chr '+' ∨ c = chr 'Z') :
    ((s.drop p).takeWhile (fun b => !decide (b.toNat ∈ ['+'.toNat,'-'.toNat,'Z'.toNat]))).length =
      (formatTime micros).length := by
  have hdrop : s.drop p = asciiBytes (formatTime micros) ++ UInt8.ofNat c.val :: asciiBytes post := by
    rw [hs,← hp]
    unfold asciiBytes
    rw [List.map_append,List.drop_append_of_le_length (by simp),List.drop_of_length_le (by simp),
      List.nil_append,List.map_append]
    rfl
  have hzone : (UInt8.ofNat c.val :: asciiBytes post).takeWhile
      (fun b => !decide (b.toNat ∈ ['+'.toNat,'-'.toNat,'Z'.toNat])) = [] := by
    rcases hc with rfl | rfl
    · rfl
    · rfl
  rw [hdrop,List.takeWhile_append_of_pos,hzone,List.append_nil]
  · simp [asciiBytes]
  · intro b hb
    obtain ⟨d,hd,rfl⟩ := List.mem_map.mp hb
    rcases formatTime_zone hd with hd | rfl | rfl
    · have hval : (UInt8.ofNat d.val).toNat = d.val := by
        rw [UInt8.toNat_ofNat',Nat.mod_eq_of_lt (by omega)]
      rw [hval]
      simp only [List.mem_cons,List.not_mem_nil,or_false,Bool.not_eq_true',decide_eq_false_iff_not]
      have hplus : '+'.toNat = 43 := rfl
      have hminus : '-'.toNat = 45 := rfl
      have hz : 'Z'.toNat = 90 := rfl
      omega
    · decide
    · decide

/-- The two ways to write the offset of UTC. -/
def IsUtcZone (zone : Str) : Prop := zone = formatOffset 0 ∨ zone = str "Z"

/-- A time of day and the offset of UTC are read back. -/
theorem parseTime_formatTime {zone : Str} (hzone : IsUtcZone zone)
    (hs : s = asciiBytes (pre ++ (formatTime micros ++ zone))) (hp : pre.length = p)
    (hmicros : micros < dayMicros) : ∃ leftOver, parseTime s p = some
      (⟨[micros / 3600000000,micros / 60000000 % 60,micros / 1000000 % 60],micros % 1000000,leftOver⟩,
        some 0) := by
  obtain ⟨leftOver,htime⟩ := parseHhMmSs_formatTime hs hp hmicros rfl
  have hlength : s.length = p + (formatTime micros).length + zone.length := by
    rw [hs,← hp]
    simp [asciiBytes]
    omega
  refine ⟨leftOver,?_⟩
  rcases hzone with rfl | rfl
  · have hoffset : formatOffset 0 = [chr '+',chr '0',chr '0',chr ':',chr '0',chr '0'] := by decide
    rw [hoffset] at hs hlength
    have hplus : byteAt s (p + (formatTime micros).length) = 43 := by
      refine byteAt_append (c := chr '+') (pre ++ formatTime micros)
        [chr '0',chr '0',chr ':',chr '0',chr '0'] (by decide) ?_ (by simp [hp])
      rw [hs,List.append_assoc]
    have hhour : digitsAt s (p + (formatTime micros).length + 1) 2 = some 0 := by
      refine digitsAt_padded (pre ++ formatTime micros ++ [chr '+']) [chr ':',chr '0',chr '0'] ?_
        (by simp [hp,Nat.add_assoc]) (by decide)
      rw [hs]
      simp only [List.append_assoc]
      rfl
    have hcolon : byteAt s (p + (formatTime micros).length + 1 + 2) = 58 := by
      refine byteAt_append (c := chr ':') (pre ++ formatTime micros ++ [chr '+',chr '0',chr '0'])
        [chr '0',chr '0'] (by decide) ?_ (by simp [hp,Nat.add_assoc])
      rw [hs]
      simp only [List.append_assoc]
      rfl
    have hminute : digitsAt s (p + (formatTime micros).length + 1 + 3) 2 = some 0 := by
      refine digitsAt_padded (pre ++ formatTime micros ++ [chr '+',chr '0',chr '0',chr ':']) [] ?_
        (by simp [hp,Nat.add_assoc]) (by decide)
      rw [hs]
      simp only [List.append_assoc]
      rfl
    have hlast : s.length = p + (formatTime micros).length + 6 := hlength
    have hend : byteAt s (p + (formatTime micros).length + 1 + 3 + 2) = 0 := by
      unfold byteAt
      rw [List.getD_eq_getElem?_getD,List.getElem?_eq_none (by omega)]
      rfl
    have hzoneTime : parseHhMmSs s s.length 3 (p + (formatTime micros).length + 1) none =
        some ⟨[0,0],0,false⟩ := by
      rw [parseHhMmSs_colon hhour (by omega) hcolon rfl,parseHhMmSs_last hminute (by omega),hend]
      rfl
    have hz : isByteAt s (p + (formatTime micros).length) 'Z' = false := by
      unfold isByteAt
      rw [hplus]
      decide
    have hbehind : ¬ s.length ≤ p + (formatTime micros).length := by omega
    have hnone : ∀ negative, offsetOf negative ⟨[0,0],0,false⟩ = 0 := fun _ => rfl
    unfold parseTime
    dsimp only
    rw [takeWhile_formatTime hs hp (.inl rfl),htime]
    simp only [Option.bind_eq_bind,Option.bind_some,if_neg hbehind,hz,hzoneTime,hnone]
    rfl
  · have hz : isByteAt s (p + (formatTime micros).length) 'Z' = true := by
      have hbyte : byteAt s (p + (formatTime micros).length) = 90 := by
        refine byteAt_append (c := chr 'Z') (pre ++ formatTime micros) [] (by decide) ?_ (by simp [hp])
        rw [hs,List.append_assoc]
        rfl
      unfold isByteAt
      rw [hbyte]
      rfl
    have hlast : s.length = p + (formatTime micros).length + 1 := hlength
    have hend : byteAt s (p + (formatTime micros).length + 1) = 0 := by
      unfold byteAt
      rw [List.getD_eq_getElem?_getD,List.getElem?_eq_none (by omega)]
      rfl
    have hbehind : ¬ s.length ≤ p + (formatTime micros).length := by omega
    have hnull : ¬ byteAt s (p + (formatTime micros).length + 1) ≠ 0 := by simp [hend]
    unfold parseTime
    dsimp only
    rw [@takeWhile_formatTime _ _ [] _ _ _ hs hp (.inr rfl),htime]
    simp only [Option.bind_eq_bind,Option.bind_some,if_neg hbehind,hz,if_neg hnull,if_true]

/-- A date is read back, with a separator and a time behind it. -/
theorem parseDate_formatDate {days : Nat} (hdays : days < 3652059)
    (hs : s = asciiBytes (formatDate days ++ (chr 'T' :: post))) :
    separatorAt s = some 10 ∧ parseDate s 10 = some (days + 1) := by
  have hyear := fromOrdinal_year (n := days + 1) (by omega) (by omega)
  obtain ⟨hmonth,hday⟩ := fromOrdinal_small (n := days + 1) (by omega)
  have hordinal := ordinal_fromOrdinal (n := days + 1) (by omega)
  unfold formatDate at hs
  generalize fromOrdinal (days + 1) = date at *
  obtain ⟨year,month,day⟩ := date
  dsimp only at hyear hmonth hday hordinal hs
  have htext : s = asciiBytes (padded 4 year ++ (chr '-' :: (padded 2 month ++ (chr '-' ::
      (padded 2 day ++ (chr 'T' :: post)))))) := by
    rw [hs]
    simp only [List.append_assoc]
    rfl
  have hy : digitsAt s 0 4 = some year := digitsAt_padded [] _ htext rfl (by omega)
  have hm : digitsAt s 5 2 = some month := by
    refine digitsAt_padded (padded 4 year ++ [chr '-']) (chr '-' :: (padded 2 day ++ (chr 'T' :: post)))
      ?_ (by simp) (by omega)
    rw [htext]
    simp only [List.append_assoc,List.cons_append,List.nil_append]
  have hd : digitsAt s 8 2 = some day := by
    refine digitsAt_padded (padded 4 year ++ [chr '-'] ++ padded 2 month ++ [chr '-']) (chr 'T' :: post)
      ?_ (by simp) (by omega)
    rw [htext]
    simp only [List.append_assoc,List.cons_append,List.nil_append]
  have hdash₁ : isByteAt s 4 '-' = true := by
    have hbyte : byteAt s 4 = 45 := byteAt_append (c := chr '-') (padded 4 year) _ (by decide) htext
      (by simp)
    unfold isByteAt
    rw [hbyte]
    rfl
  have hdash₂ : isByteAt s 7 '-' = true := by
    have hbyte : byteAt s 7 = 45 := by
      refine byteAt_append (c := chr '-') (padded 4 year ++ [chr '-'] ++ padded 2 month)
        (padded 2 day ++ (chr 'T' :: post)) (by decide) ?_ (by simp)
      rw [htext]
      simp only [List.append_assoc,List.cons_append,List.nil_append]
    unfold isByteAt
    rw [hbyte]
    rfl
  have hweek : isByteAt s 5 'W' = false := by
    have hdigit := digitChar_val (d := month / 10 ^ 1 % 10) (Nat.mod_lt _ (by decide))
    have hbyte : byteAt s 5 = (digitChar (month / 10 ^ 1 % 10)).val := by
      refine byteAt_append (padded 4 year ++ [chr '-'])
        (padded 1 month ++ (chr '-' :: (padded 2 day ++ (chr 'T' :: post)))) (by omega) ?_ (by simp)
      rw [htext]
      simp only [List.append_assoc,List.cons_append,List.nil_append]
      rfl
    have hw : 'W'.toNat = 87 := rfl
    unfold isByteAt
    rw [hbyte,hdigit,decide_eq_false_iff_not]
    omega
  have hlength : s.length ≠ 7 := by
    rw [htext]
    simp [asciiBytes]
    omega
  constructor
  · unfold separatorAt
    rw [if_neg hlength,hdash₁,hweek]
    rfl
  · unfold parseDate
    rw [hy,hdash₁]
    simp only [Option.bind_eq_bind,Option.bind_some,if_true]
    rw [hweek,hm,hdash₂]
    simp only [Option.bind_some,if_true,Bool.false_eq_true,if_false]
    rw [hd]
    exact hordinal

theorem isAscii_padded (width n : Nat) : isAscii (padded width n) = true := by
  induction width with
  | zero => rfl
  | succ width ih =>
    have hd : n / 10 ^ width % 10 < 10 := Nat.mod_lt _ (by decide)
    rw [padded,isAscii_cons,ih,digitChar_val hd,Bool.and_true,decide_eq_true_eq]
    omega

/-- A UTC time as `isoformat` writes it, with one of the two offsets. -/
def utcText (zone : Str) (t : Utc) : Str :=
  formatDate (t.val / dayMicros) ++ (chr 'T' :: (formatTime (t.val % dayMicros) ++ zone))

theorem isoformat_eq (t : Utc) : isoformat ⟨t,some 0⟩ = utcText (formatOffset 0) t := by
  unfold isoformat utcText
  simp only [List.append_assoc]
  rfl

theorem isAscii_utcText {zone : Str} (hzone : IsUtcZone zone) (t : Utc) :
    isAscii (utcText zone t) = true := by
  have hdate : ∀ days, isAscii (formatDate days) = true := by
    intro days
    have hdash : isAscii (str "-") = true := rfl
    unfold formatDate
    simp [isAscii_padded,hdash]
  have htime : ∀ micros, isAscii (formatTime micros) = true := by
    intro micros
    rw [isAscii_iff]
    intro c hc
    rcases formatTime_zone hc with hc | rfl | rfl
    · omega
    · decide
    · decide
  have hseparator : (chr 'T').val < 128 := by decide
  have hoffset : isAscii zone = true := by
    rcases hzone with rfl | rfl
    · decide
    · decide
  unfold utcText
  simp [hdate,htime,hseparator,hoffset]

theorem formatDate_length (days : Nat) : (formatDate days).length = 10 := by
  have hdash : (str "-").length = 1 := rfl
  unfold formatDate
  simp [hdash]

theorem utcOfMicros_val (t : Utc) : utcOfMicros (t.val : Int) = some t := by
  have := t.isLt
  unfold utcOfMicros
  rw [dif_pos ⟨by omega,by omega⟩]
  rfl

/-- `datetime.fromisoformat` reads back the text of a UTC time. -/
theorem fromisoformat_utcText {zone : Str} (hzone : IsUtcZone zone) (t : Utc) :
    fromisoformat (utcText zone t) = .ok ⟨t,some 0⟩ := by
  have hday : 0 < dayMicros := by decide
  have hdays : t.val / dayMicros < 3652059 := Nat.div_lt_of_lt_mul (by
    have := t.isLt
    unfold maxMicros at this
    rwa [Nat.mul_comm])
  have hmicros : t.val % dayMicros < dayMicros := Nat.mod_lt _ hday
  have hascii := isAscii_utcText hzone t
  have hlength := formatDate_length (t.val / dayMicros)
  have htext : asciiBytes (utcText zone t) = asciiBytes (formatDate (t.val / dayMicros) ++
      (chr 'T' :: (formatTime (t.val % dayMicros) ++ zone))) := rfl
  obtain ⟨hseparator,hdate⟩ := parseDate_formatDate hdays htext
  have hT : byteAt (asciiBytes (utcText zone t)) 10 = 84 :=
    byteAt_append (c := chr 'T') _ _ (by decide) htext hlength
  obtain ⟨leftOver,htime⟩ := parseTime_formatTime (s := asciiBytes (utcText zone t)) (p := 11) hzone
    (by rw [htext,List.append_cons]) (by simp [hlength]) hmicros
  have hlong : 10 < (asciiBytes (utcText zone t)).length := by
    rw [htext]
    simp [asciiBytes,hlength]
  have hclock : utcOfMicros (((t.val / dayMicros + 1 - 1) * 86400 +
      (t.val % dayMicros / 3600000000 * 3600 + t.val % dayMicros / 60000000 % 60 * 60 +
        t.val % dayMicros / 1000000 % 60)) * 1000000 + t.val % dayMicros % 1000000 : Nat) = some t := by
    rw [← utcOfMicros_val]
    refine congrArg utcOfMicros (congrArg Nat.cast ?_)
    unfold dayMicros
    omega
  have hlong' : ¬ (utcText zone t).length < 7 := by
    unfold utcText
    rw [List.length_append,hlength]
    omega
  unfold fromisoformat
  rw [if_neg hlong',sanitized_ascii hascii,encodeUtf8_ascii hascii]
  have hparse : parseIsoformat (asciiBytes (utcText zone t)) = some ⟨t,some 0⟩ := by
    unfold parseIsoformat
    rw [hseparator]
    simp only [Option.bind_eq_bind,Option.bind_some,hdate,if_pos hlong,hT]
    rw [show 10 + widthOf 84 = 11 from rfl,htime]
    simp only [Option.bind_some]
    unfold datetimeOfParts ParsedTime.seconds ParsedTime.hour ParsedTime.minute ParsedTime.second
    simp only [List.getD_cons_zero,List.getD_cons_succ]
    rw [if_pos (by unfold dayMicros; omega),hclock]
    rfl
  dsimp only
  rw [hparse]

theorem padded_digit {width n : Nat} {c : CodePoint} (hc : c ∈ padded width n) :
    48 ≤ c.val ∧ c.val ≤ 57 := by
  induction width with
  | zero => cases hc
  | succ width ih =>
    rcases List.mem_cons.mp hc with rfl | hc
    · have hd : n / 10 ^ width % 10 < 10 := Nat.mod_lt _ (by decide)
      rw [digitChar_val hd]
      omega
    · exact ih hc

/-- A UTC time up to its offset. -/
def localText (t : Utc) : Str :=
  formatDate (t.val / dayMicros) ++ (chr 'T' :: formatTime (t.val % dayMicros))

theorem utcText_eq (zone : Str) (t : Utc) : utcText zone t = localText t ++ zone := by
  simp [utcText,localText]

/-- No offset begins inside a local text. -/
theorem localText_zone {t : Utc} {c : CodePoint} (hc : c ∈ localText t) :
    c ≠ chr '+' ∧ c ≠ chr 'Z' := by
  have hdigit : ∀ d : CodePoint, 48 ≤ d.val ∧ d.val ≤ 57 → d ≠ chr '+' ∧ d ≠ chr 'Z' := by
    intro d hd
    have hplus : (chr '+').val = 43 := rfl
    have hz : (chr 'Z').val = 90 := rfl
    constructor
    · rintro rfl
      omega
    · rintro rfl
      omega
  have hdash : ∀ d ∈ str "-", d = chr '-' := by simp [str,chr]
  rcases List.mem_append.mp hc with hc | hc
  · unfold formatDate at hc
    simp only [List.mem_append] at hc
    rcases hc with (((hc | hc) | hc) | hc) | hc
    · exact hdigit c (padded_digit hc)
    · rw [hdash c hc]
      decide
    · exact hdigit c (padded_digit hc)
    · rw [hdash c hc]
      decide
    · exact hdigit c (padded_digit hc)
  · rcases List.mem_cons.mp hc with rfl | hc
    · decide
    · rcases formatTime_zone hc with hc | rfl | rfl
      · exact hdigit c hc
      · decide
      · decide

/-- `t.isoformat().replace("+00:00", "Z")`. -/
theorem replaceText_isoformat (t : Utc) :
    replaceText (isoformat ⟨t,some 0⟩) (str "+00:00") (str "Z") = utcText (str "Z") t := by
  have hplus : chr '+' ∉ localText t := fun h => (localText_zone h).1 rfl
  rw [isoformat_eq,utcText_eq,utcText_eq]
  exact replaceText_append_of_notMem hplus

/-- `text.replace("Z", "+00:00")`. -/
theorem replaceChar_utcText (t : Utc) :
    replaceChar (utcText (str "Z") t) (chr 'Z') (str "+00:00") = utcText (formatOffset 0) t := by
  have hz : chr 'Z' ∉ localText t := fun h => (localText_zone h).2 rfl
  rw [utcText_eq,utcText_eq,replaceChar_append,replaceChar_of_notMem hz]
  rfl

theorem fromisoformat_isoformat (t : Utc) : fromisoformat (isoformat ⟨t,some 0⟩) = .ok ⟨t,some 0⟩ := by
  rw [isoformat_eq]
  exact fromisoformat_utcText (.inl rfl) t

end RoundTrip

end Woodhouse.Python
