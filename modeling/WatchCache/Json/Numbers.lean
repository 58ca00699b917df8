import WatchCache.Json.Cursor
import WatchCache.Text.Basic

set_option autoImplicit false

/-!
# Numbers of a JSON text

A number is read into the integer or the binary64 number that it stands for, or passed over.
Reading refuses a number that is too large for binary64; passing over takes any.
-/

namespace WatchCache

open WatchCache.Decimal

namespace Cursor

/-! ## Reading -/

/-- The digits of a significand as long as it fits 64 bits; the digits that no longer fit. -/
def takeSignificand : Nat → List Char → Nat × List Char
  | n, [] => (n, [])
  | n, c :: rest =>
    let m := n * 10 + (c.toNat - 48)
    if m < twoPow 64 then takeSignificand m rest else (n, c :: rest)

/-- How many digits it takes until a number that starts with `n` reaches `2 ^ 31`. -/
def digitsToLimit? (n : Nat) : List Char → Option Nat
  | [] => none
  | c :: rest =>
    let m := n * 10 + (c.toNat - 48)
    if m < twoPow 31 then (digitsToLimit? m rest).map (· + 1) else some 1

/-- A binary64 number with its sign. -/
def signed (positive : Bool) (x : Binary64) : Number := .real (if positive then x else x.negate)

/-- The number with these digits and this exponent. -/
def scaled (positive : Bool) (significand : Nat) (exponent : Int) (c : Cursor) :
    Except ReadError (Number × Cursor) :=
  match Binary64.scaled significand exponent with
  | none => .error (c.faultHere .numberOutOfRange)
  | some x => .ok (signed positive x, c)

/-- Past the sign of an exponent, and whether it is none or a plus. -/
def exponentSign (c : Cursor) : Bool × Cursor :=
  match c.rest with
  | '+' :: _ => (true, c.next)
  | '-' :: _ => (false, c.next)
  | _ => (true, c)

/-- The part of a number from its exponent mark on.  An exponent of `2 ^ 31` or more makes the
number too large, or zero. -/
def exponentPart (positive : Bool) (significand : Nat) (start : Int) (c : Cursor) :
    Except ReadError (Number × Cursor) :=
  let (up, c) := c.next.exponentSign
  match c.rest with
  | [] => .error (c.faultHere .valueUnfinished)
  | x :: _ =>
    if x.isDigit then
      let (digits, behind) := c.takeDigits
      match digitsToLimit? 0 digits with
      | none =>
        let size := Text.ofDigits digits
        scaled positive significand (if up then start + size else start - size) behind
      | some count =>
        if significand ≠ 0 && up then
          .error ⟨.unreadable .numberOutOfRange, c.place.right count⟩
        else .ok (signed positive .zero, behind)
    else .error (c.faultAhead .invalidNumber)

/-- An exponent, if one comes next, or the end of the number. -/
def exponentOrEnd (positive : Bool) (significand : Nat) (exponent : Int) (c : Cursor) :
    Except ReadError (Number × Cursor) :=
  match c.rest with
  | 'e' :: _ | 'E' :: _ => exponentPart positive significand exponent c
  | _ => scaled positive significand exponent c

/-- The part of a number from its point on. -/
def fractionPart (positive : Bool) (significand : Nat) (exponent : Int) (c : Cursor) :
    Except ReadError (Number × Cursor) :=
  let (digits, c) := c.next.takeDigits
  match digits, c.rest with
  | [], [] => .error (c.faultAhead .valueUnfinished)
  | [], _ => .error (c.faultAhead .invalidNumber)
  | _, _ =>
    let (n, dropped) := takeSignificand significand digits
    exponentOrEnd positive n (exponent - (digits.length - dropped.length : Nat)) c

/-- What follows the integer part of a number, of whose digits `dropped` did not fit. -/
def numberTail (positive : Bool) (significand : Nat) (dropped : Nat) (c : Cursor) :
    Except ReadError (Number × Cursor) :=
  match c.rest with
  | '.' :: _ => fractionPart positive significand dropped c
  | 'e' :: _ | 'E' :: _ => exponentPart positive significand dropped c
  | _ =>
    if dropped ≠ 0 then scaled positive significand dropped c
    else if positive then .ok (.integer significand, c)
    else if significand = 0 || twoPow 63 < significand then scaled false significand 0 c
    else .ok (.integer (-(significand : Int)), c)

/-- A number after its sign.  A zero stands alone before the point. -/
def number (positive : Bool) (c : Cursor) : Except ReadError (Number × Cursor) :=
  match c.rest with
  | [] => .error (c.faultHere .valueUnfinished)
  | '0' :: rest =>
    if rest.head?.any Char.isDigit then .error (c.next.faultAhead .invalidNumber)
    else numberTail positive 0 0 c.next
  | x :: _ =>
    if x.isDigit then
      let (digits, c) := c.takeDigits
      let (n, dropped) := takeSignificand 0 digits
      numberTail positive n dropped.length c
    else .error (c.faultAhead .invalidNumber)

/-! ## Passing over -/

/-- Past one or more digits. -/
def skipDigits (c : Cursor) : Except ReadError Cursor :=
  match c.takeDigits with
  | ([], _) => .error (c.faultAhead .invalidNumber)
  | (_, c) => .ok c

/-- Past an exponent, if one comes next. -/
def skipExponent (c : Cursor) : Except ReadError Cursor :=
  match c.rest with
  | 'e' :: _ | 'E' :: _ => c.next.exponentSign.2.skipDigits
  | _ => .ok c

/-- Past a number whose sign, if it has one, was read. -/
def skipNumber (c : Cursor) : Except ReadError Cursor := do
  let c ← match c.rest with
    | '0' :: rest =>
      if rest.head?.any Char.isDigit then .error (c.next.faultAhead .invalidNumber) else .ok c.next
    | _ => c.skipDigits
  match c.rest with
  | '.' :: _ => (← c.next.skipDigits).skipExponent
  | _ => c.skipExponent

end Cursor

end WatchCache
