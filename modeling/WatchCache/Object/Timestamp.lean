import WatchCache.Text.Basic

set_option autoImplicit false

/-!
# Timestamps

Times in objects are texts in the manner of RFC 3339.  Reading is lenient: blanks may stand
around the numbers, a month, a day or a part of the time may have one digit, and the zone may be
`UTC`.  Writing is strict: universal time to the second, `2024-01-02T03:04:05Z`.
-/

namespace WatchCache

open Text

/-- Why a text is no time. -/
inductive TimestampFault where
  | invalid
  | tooShort
  | tooLong
  | outOfRange
  | impossible
  deriving DecidableEq, Repr

/-- The wording of a fault. -/
def TimestampFault.message : TimestampFault → String
  | .invalid => "input contains invalid characters"
  | .tooShort => "premature end of input"
  | .tooLong => "trailing input"
  | .outOfRange => "input is out of range"
  | .impossible => "no possible date and time matching input"

/-- A time of universal time.  A leap second has the number 60. -/
structure Timestamp where
  year : Int
  month : Nat
  day : Nat
  hour : Nat
  minute : Nat
  second : Nat
  deriving DecidableEq, Repr, Inhabited

namespace Timestamp

/-! ## The calendar -/

/-- Whether a year has a 29th of February. -/
def isLeap (year : Int) : Bool := year % 4 == 0 && (year % 100 != 0 || year % 400 == 0)

/-- The days of a month. -/
def daysInMonth (year : Int) : Nat → Nat
  | 2 => if isLeap year then 29 else 28
  | 4 | 6 | 9 | 11 => 30
  | _ => 31

/-- The day after the last of a month is the first of the next one. -/
def nextDay (t : Timestamp) : Timestamp :=
  if t.day < daysInMonth t.year t.month then { t with day := t.day + 1 }
  else if t.month < 12 then { t with month := t.month + 1, day := 1 }
  else { t with year := t.year + 1, month := 1, day := 1 }

/-- The day before the first of a month is the last of the one before. -/
def previousDay (t : Timestamp) : Timestamp :=
  if 1 < t.day then { t with day := t.day - 1 }
  else if 1 < t.month then
    { t with month := t.month - 1, day := daysInMonth t.year (t.month - 1) }
  else { t with year := t.year - 1, month := 12, day := 31 }

/-- Whether a year is one that times can have. -/
def hasYear (year : Int) : Bool := -262143 ≤ year && year ≤ 262142

/-- The time moved back by a zone's offset in minutes, which may be no more than four days. -/
def minusMinutes (t : Timestamp) (offset : Int) : Timestamp :=
  let minutes : Int := t.hour * 60 + t.minute - offset
  let days := minutes.fdiv 1440
  let rest := (minutes.fmod 1440).toNat
  let moved := if days < 0 then Nat.repeat previousDay (-days).toNat t
    else Nat.repeat nextDay days.toNat t
  { moved with hour := rest / 60, minute := rest % 60 }

/-! ## Reading -/

/-- A number of one to `most` digits. -/
def digits (most : Nat) (s : List Char) : Except TimestampFault (Nat × List Char) :=
  let found := (s.take most).takeWhile Char.isDigit
  match s, found with
  | [], _ => .error .tooShort
  | _, [] => .error .invalid
  | _, _ => .ok (ofDigits found, s.drop found.length)

/-- A number of one to `most` digits after blanks. -/
def number (most : Nat) (s : List Char) : Except TimestampFault (Nat × List Char) :=
  digits most (trimStart s)

/-- A number of at most two digits between two bounds. -/
def numberWithin (least greatest : Nat) (s : List Char) :
    Except TimestampFault (Nat × List Char) := do
  let (n, rest) ← number 2 s
  if least ≤ n ∧ n ≤ greatest then .ok (n, rest) else .error .outOfRange

/-- One given character, with blanks before it. -/
def sign (c : Char) (s : List Char) : Except TimestampFault (List Char) :=
  match trimStart s with
  | [] => .error .tooShort
  | x :: rest => if x = c then .ok rest else .error .invalid

/-- A year: four digits, or any number of them right after a sign.  It fits 32 bits; whether there
is such a year is asked once the whole text is read. -/
def yearNumber (s : List Char) : Except TimestampFault (Int × List Char) := do
  let (y, rest) ← match trimStart s with
    | '-' :: rest => (digits rest.length rest).map fun (n, rest) => (-(n : Int), rest)
    | '+' :: rest => (digits rest.length rest).map fun (n, rest) => ((n : Int), rest)
    | s => (digits 4 s).map fun (n, rest) => ((n : Int), rest)
  if -2147483648 ≤ y ∧ y ≤ 2147483647 then .ok (y, rest) else .error .outOfRange

/-- A fraction of a second, which is dropped. -/
def fraction : List Char → Except TimestampFault (List Char)
  | '.' :: [] => .error .tooShort
  | '.' :: c :: rest => if c.isDigit then .ok (rest.dropWhile Char.isDigit) else .error .invalid
  | s => .ok s

/-- Two digits of a zone.  A text of one byte is too short for them; one character of several
bytes is not, but is no digit. -/
def zoneDigits : List Char → Except TimestampFault (Nat × List Char)
  | a :: b :: rest =>
    if a.isDigit && b.isDigit then .ok (ofDigits [a, b], rest) else .error .invalid
  | [a] => if a.utf8Size = 1 then .error .tooShort else .error .invalid
  | [] => .error .tooShort

/-- The minutes of a zone that has a sign. -/
def zoneMinutes (s : List Char) : Except TimestampFault (Nat × List Char) := do
  let (hours, s) ← zoneDigits s
  let (minutes, s) ← zoneDigits (s.dropWhile fun c => c == ':' || isBlank c)
  if minutes < 60 then .ok (hours * 60 + minutes, s) else .error .outOfRange

/-- The offset of a zone in minutes. -/
def zone (s : List Char) : Except TimestampFault (Int × List Char) :=
  match s with
  | [] => .error .tooShort
  | 'Z' :: rest | 'z' :: rest => .ok (0, rest)
  | '+' :: rest => (zoneMinutes rest).map fun (n, rest) => ((n : Int), rest)
  | '-' :: rest | '−' :: rest => (zoneMinutes rest).map fun (n, rest) => (-(n : Int), rest)
  | a :: b :: c :: rest =>
    if a.toUpper = 'U' ∧ b.toUpper = 'T' ∧ c.toUpper = 'C' then .ok (0, rest)
    else .error .invalid
  | _ => .error .invalid

/-- The time that a text stands for. -/
def parse (text : String) : Except TimestampFault Timestamp := do
  let (year, s) ← yearNumber text.toList
  let (month, s) ← numberWithin 1 12 (← sign '-' s)
  let (day, s) ← numberWithin 1 31 (← sign '-' s)
  let s ← match s with
    | [] => .error .tooShort
    | c :: rest => if c = 'T' ∨ c = 't' ∨ c = ' ' then .ok rest else .error .invalid
  let (hour, s) ← numberWithin 0 23 s
  let (minute, s) ← numberWithin 0 59 (← sign ':' s)
  let (second, s) ← numberWithin 0 60 (← sign ':' s)
  let (offset, s) ← zone (trimStart (← fraction s))
  if !isAllBlank s then .error .tooLong
  else if !hasYear year || day > daysInMonth year month || 1439 < offset.natAbs then
    .error .outOfRange
  else
    let universal := minusMinutes ⟨year, month, day, hour, minute, second⟩ offset
    if hasYear universal.year then .ok universal else .error .impossible

/-! ## Writing -/

/-- The start of the epoch. -/
def epoch : Timestamp := ⟨1970, 1, 1, 0, 0, 0⟩

/-- A year: four digits, and a sign where these do not suffice. -/
def yearText (year : Int) : List Char :=
  if 0 ≤ year ∧ year ≤ 9999 then padded 4 year.toNat
  else (if year < 0 then '-' else '+') :: padded 4 year.natAbs

/-- The text of a time. -/
def text (t : Timestamp) : String :=
  String.ofList (yearText t.year ++ '-' :: padded 2 t.month ++ '-' :: padded 2 t.day ++
    'T' :: padded 2 t.hour ++ ':' :: padded 2 t.minute ++ ':' :: padded 2 t.second ++ ['Z'])

end Timestamp

end WatchCache
