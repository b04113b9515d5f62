import Woodhouse.Python.Codecs
import Woodhouse.Python.Numbers

namespace Woodhouse.Python

def dayMicros : Nat := 86400 * 1000000

/-- One past the last microsecond of the year 9999. -/
def maxMicros : Nat := 3652059 * dayMicros

/-- A `datetime` of UTC: its microseconds since 0001-01-01T00:00:00. -/
abbrev Utc := Fin maxMicros

def utcOfMicros (n : Int) : Option Utc :=
  if h : 0 ≤ n ∧ n < maxMicros then some ⟨n.toNat,by omega⟩ else none

/-- A `datetime`: the time on its clock, and its UTC offset in microseconds when it has one. -/
structure Datetime where
  clock : Utc
  utcoffset : Option Int
  deriving DecidableEq

/-- `d.astimezone(UTC)` of an aware datetime. -/
def astimezoneUtc (clock : Utc) (utcoffset : Int) : Except PyExc Utc :=
  match utcOfMicros (clock.val - utcoffset) with
  | some t => .ok t
  | none => .error .overflowError

theorem utcOfMicros_eq_none {n : Int} : utcOfMicros n = none ↔ n < 0 ∨ (maxMicros : Int) ≤ n := by
  unfold utcOfMicros
  split
  · rename_i h
    simp only [reduceCtorEq,false_iff]
    omega
  · rename_i h
    simp only [true_iff]
    omega

section Calendar

def isLeap (year : Nat) : Bool := year % 4 = 0 ∧ (year % 100 ≠ 0 ∨ year % 400 = 0)

def daysInMonth (year month : Nat) : Nat :=
  [31,if isLeap year then 29 else 28,31,30,31,30,31,31,30,31,30,31].getD (month - 1) 0

def daysBeforeYear (year : Nat) : Nat :=
  let y := year - 1
  y * 365 + y / 4 - y / 100 + y / 400

/-- `date(year, month, day).toordinal()`. -/
def ordinal (year month day : Nat) : Option Nat :=
  if 1 ≤ year ∧ 1 ≤ month ∧ month ≤ 12 ∧ 1 ≤ day ∧ day ≤ daysInMonth year month then
    some (daysBeforeYear year +
      ((List.range (month - 1)).map (fun m => daysInMonth year (m + 1))).sum + day)
  else none

/-- The weekday of January 1st, Monday being 0. -/
def firstWeekday (year : Nat) : Nat := daysBeforeYear year % 7

def isLongYear (year : Nat) : Bool :=
  firstWeekday year = 3 ∨ (firstWeekday year = 2 ∧ isLeap year)

/-- `date.fromisocalendar(year, week, day).toordinal()`. -/
def isoOrdinal (year week day : Nat) : Option Nat :=
  if 1 ≤ year ∧ 1 ≤ week ∧ (week ≤ 52 ∨ (week = 53 ∧ isLongYear year)) ∧ 1 ≤ day ∧ day ≤ 7 then
    let first : Int := daysBeforeYear year + 1 - firstWeekday year
    let monday := if 3 < firstWeekday year then first + 7 else first
    let n := monday + ((week - 1) * 7 + (day - 1) : Nat)
    if 1 ≤ n ∧ n ≤ 3652059 then some n.toNat else none
  else none

end Calendar

section IsoFormat

/-- The byte at a position, and NUL behind the end. -/
def byteAt (s : Bytes) (i : Nat) : Nat := (s.getD i 0).toNat

def asciiDigit (b : Nat) : Option Nat := if 48 ≤ b ∧ b ≤ 57 then some (b - 48) else none

def isDigitAt (s : Bytes) (i : Nat) : Bool := (asciiDigit (byteAt s i)).isSome

def isByteAt (s : Bytes) (i : Nat) (c : Char) : Bool := byteAt s i = c.toNat

/-- The number that `n` digits at a position write. -/
def digitsAt (s : Bytes) (i n : Nat) : Option Nat :=
  ((List.range n).mapM (fun k => asciiDigit (byteAt s (i + k)))).map ofDigits

/-- Where the date ends and the separator stands. -/
def separatorAt (s : Bytes) : Option Nat :=
  if s.length = 7 then some 7
  else if isByteAt s 4 '-' then
    if isByteAt s 5 'W' then
      if 8 < s.length ∧ isByteAt s 8 '-' then
        if s.length = 9 then none
        else if 10 < s.length ∧ isDigitAt s 10 then some 8
        else some 10
      else some 8
    else some 10
  else if isByteAt s 4 'W' then
    let p := 7 + ((s.drop 7).takeWhile (fun b => (asciiDigit b.toNat).isSome)).length
    if p < 9 then some p else if p % 2 = 0 then some 7 else some 8
  else some 8

/-- The ordinal of the date in the first `stop` bytes. -/
def parseDate (s : Bytes) (stop : Nat) : Option Nat := do
  let year ← digitsAt s 0 4
  let usesSeparator := isByteAt s 4 '-'
  let p := if usesSeparator then 5 else 4
  if isByteAt s p 'W' then
    let week ← digitsAt s (p + 1) 2
    let p := p + 3
    if p < stop then
      if usesSeparator then
        if isByteAt s p '-' then isoOrdinal year week (← digitsAt s (p + 1) 1) else none
      else isoOrdinal year week (← digitsAt s p 1)
    else isoOrdinal year week 1
  else
    let month ← digitsAt s p 2
    let p := p + 2
    if usesSeparator then
      if isByteAt s p '-' then ordinal year month (← digitsAt s (p + 1) 2) else none
    else ordinal year month (← digitsAt s p 2)

/-- A time of day or an offset; `leftOver` says if bytes follow it. -/
structure ParsedTime where
  components : List Nat
  micros : Nat
  leftOver : Bool

def ParsedTime.hour (t : ParsedTime) : Nat := t.components.getD 0 0

def ParsedTime.minute (t : ParsedTime) : Nat := t.components.getD 1 0

def ParsedTime.second (t : ParsedTime) : Nat := t.components.getD 2 0

def ParsedTime.seconds (t : ParsedTime) : Nat := t.hour * 3600 + t.minute * 60 + t.second

def parseFraction (s : Bytes) (p stop : Nat) : Option ParsedTime := do
  let places := min (stop - p) 6
  let digits ← digitsAt s p places
  let rest := (s.drop (p + places)).dropWhile (fun b => (asciiDigit b.toNat).isSome)
  some ⟨[],digits * 10 ^ (6 - places),(rest.headD 0).toNat ≠ 0⟩

/-- `hh[:mm[:ss[.ffffff]]]` from `p`, of which `left` components may still come. Whether
components are separated is decided behind the first one. -/
def parseHhMmSs (s : Bytes) (stop : Nat) : (left p : Nat) → (separated : Option Bool) →
    Option ParsedTime
  | 0, p, _ => parseFraction s p stop
  | left + 1, p, separated => do
    let v ← digitsAt s p 2
    let hasSeparator := separated.getD (isByteAt s (p + 2) ':')
    let rest ←
      if stop ≤ p + 3 then some ⟨[],0,byteAt s (p + 2) ≠ 0⟩
      else if hasSeparator ∧ isByteAt s (p + 2) ':' then
        parseHhMmSs s stop left (p + 3) hasSeparator
      else if isByteAt s (p + 2) '.' ∨ isByteAt s (p + 2) ',' then parseFraction s (p + 3) stop
      else if !hasSeparator then parseHhMmSs s stop left (p + 2) hasSeparator
      else none
    some { rest with components := v :: rest.components }

/-- The UTC offset that `sign` and a time write. -/
def offsetOf (negative : Bool) (t : ParsedTime) : Int :=
  let n : Int := t.seconds * 1000000 + t.micros
  if t.seconds = 0 then 0 else if negative then -n else n

/-- The time of day from `p`, and the UTC offset behind it. -/
def parseTime (s : Bytes) (p : Nat) : Option (ParsedTime × Option Int) := do
  let isZone : UInt8 → Bool := fun b => b.toNat ∈ ['+'.toNat,'-'.toNat,'Z'.toNat]
  let zone := p + ((s.drop p).takeWhile (fun b => !isZone b)).length
  let time ← parseHhMmSs s zone 3 p none
  if s.length ≤ zone then
    if time.leftOver then none else some (time,none)
  else if isByteAt s zone 'Z' then
    if byteAt s (zone + 1) ≠ 0 then none else some (time,some 0)
  else
    let zoneTime ← parseHhMmSs s s.length 3 (zone + 1) none
    if zoneTime.leftOver then none
    else
      let offset := offsetOf (isByteAt s zone '-') zoneTime
      if offset.natAbs < dayMicros then some (time,some offset) else none

/-- The bytes of the character that starts with a byte. -/
def widthOf (b : Nat) : Nat :=
  if b < 0x80 then 1 else if b / 16 = 0xE then 3 else if b / 16 = 0xF then 4 else 2

/-- A surrogate where a separator may stand is read as one. -/
def sanitized (s : Str) : Str :=
  match [7,8,10].find? (fun i => (s[i]?).any isSurrogate) with
  | some i => s.set i (chr 'T')
  | none => s

def datetimeOfParts (days : Nat) (time : ParsedTime) (utcoffset : Option Int) : Option Datetime :=
  if time.hour < 24 ∧ time.minute < 60 ∧ time.second < 60 then
    (utcOfMicros (((days - 1) * 86400 + time.seconds) * 1000000 + time.micros : Nat)).map
      (fun clock => ⟨clock,utcoffset⟩)
  else none

def parseIsoformat (s : Bytes) : Option Datetime := do
  let separator ← separatorAt s
  let days ← parseDate s separator
  if separator < s.length then
    let (time,utcoffset) ← parseTime s (separator + widthOf (byteAt s separator))
    datetimeOfParts days time utcoffset
  else datetimeOfParts days ⟨[],0,false⟩ none

/-- `datetime.fromisoformat(s)`. -/
def fromisoformat (s : Str) : Except PyExc Datetime :=
  if s.length < 7 then .error .valueError
  else match encodeUtf8 (sanitized s) with
    | .error _ => .error .valueError
    | .ok bytes =>
      match parseIsoformat bytes with
      | some d => .ok d
      | none => .error .valueError

theorem fromisoformat_raises (s : Str) : RaisesOnly (· = .valueError) (fromisoformat s) := by
  unfold fromisoformat
  repeat' split
  all_goals simp

end IsoFormat

/-- The microseconds of 1970-01-01. -/
def epochMicros : Int := 719162 * dayMicros

def PyFloat.toRat : PyFloat → Option ℚ
  | .finite negative q => some (if negative then -q else q)
  | _ => none

/-- The float nearest to a number. -/
def roundToFloat (q : ℚ) : PyFloat := roundMagnitude (q < 0) |q|

/-- `datetime.fromtimestamp(ms / 1000, tz=UTC)`; `none` for the ValueError, OSError or
OverflowError of a time outside the years 1 to 9999. -/
def fromMilliseconds (ms : Int) : Option Utc := do
  let timestamp ← (roundToFloat (ms / 1000)).toRat
  let whole : Int := if timestamp < 0 then -(-timestamp).floor else timestamp.floor
  let micros ← (roundToFloat ((timestamp - whole) * 1000000)).toRat
  utcOfMicros (epochMicros + whole * 1000000 + roundHalfEven micros)

end Woodhouse.Python
