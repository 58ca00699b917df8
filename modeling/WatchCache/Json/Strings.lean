import WatchCache.Json.Cursor

set_option autoImplicit false

/-!
# Strings of a JSON text

A string is read into the text that it stands for, or passed over.  Reading asks that the code
units of escapes make up characters; passing over only asks that each escape is well formed.
-/

namespace WatchCache

/-! ## Escapes -/

/-- The value of a hexadecimal digit. -/
def hexValue? (c : Char) : Option Nat :=
  if '0' ≤ c && c ≤ '9' then some (c.toNat - 48)
  else if 'a' ≤ c && c ≤ 'f' then some (c.toNat - 87)
  else if 'A' ≤ c && c ≤ 'F' then some (c.toNat - 55)
  else none

/-- The value of four hexadecimal digits. -/
def hexValue4? (a b c d : Char) : Option Nat := do
  let a ← hexValue? a
  let b ← hexValue? b
  let c ← hexValue? c
  let d ← hexValue? d
  some (((a * 16 + b) * 16 + c) * 16 + d)

/-- The character of a two-character escape. -/
def simpleEscape? : Char → Option Char
  | '"' => some '"'
  | '\\' => some '\\'
  | '/' => some '/'
  | 'b' => some (Char.ofNat 8)
  | 'f' => some (Char.ofNat 12)
  | 'n' => some '\n'
  | 'r' => some '\r'
  | 't' => some '\t'
  | _ => none

/-- Whether a code unit is the first half of a surrogate pair. -/
def isHighSurrogate (n : Nat) : Bool := 0xD800 ≤ n && n ≤ 0xDBFF

/-- Whether a code unit is the second half of a surrogate pair. -/
def isLowSurrogate (n : Nat) : Bool := 0xDC00 ≤ n && n ≤ 0xDFFF

/-- The character of a surrogate pair. -/
def pairChar (high low : Nat) : Char :=
  Char.ofNat ((high - 0xD800) * 0x400 + (low - 0xDC00) + 0x10000)

namespace Cursor

/-- A fault of a text at a place. -/
def faultAt (p : Place) (f : Fault) : ReadError := ⟨.unreadable f, p⟩

/-- The fault of an escape whose four digits should start here: four bytes that are no digits,
or a text that ends before them. -/
def hexFault (rest : List Char) (p : Place) : ReadError :=
  match p.afterBytes? 4 rest with
  | some q => faultAt q .invalidEscape
  | none => faultAt (p.afterAll rest) .stringUnfinished

/-! ## Reading -/

/-- The part of a string after its opening quote, up to and with the closing one.  `high` is the
first half of a surrogate pair, whose other half has to come next, and `read` holds the
characters read so far, the last one first. -/
def stringTail : List Char → Place → (high : Option Nat) → (read : List Char) →
    Except ReadError (String × Cursor)
  | [], p, _, _ => .error (faultAt p .stringUnfinished)
  | '\\' :: 'u' :: a :: b :: c :: d :: rest, p, high, read =>
    let q := p.right 6
    match hexValue4? a b c d, high with
    | none, _ => .error (hexFault (a :: b :: c :: d :: rest) (p.right 2))
    | some n, none =>
      if isLowSurrogate n then .error (faultAt q .loneSurrogate)
      else if isHighSurrogate n then stringTail rest q (some n) read
      else stringTail rest q none (Char.ofNat n :: read)
    | some n, some m =>
      if isLowSurrogate n then stringTail rest q none (pairChar m n :: read)
      else .error (faultAt q .loneSurrogate)
  | '\\' :: 'u' :: rest, p, _, _ => .error (hexFault rest (p.right 2))
  | ['\\'], p, _, _ => .error (faultAt (p.right 1) .stringUnfinished)
  | '\\' :: x :: rest, p, high, read =>
    let fault (f : Fault) : Except ReadError (String × Cursor) :=
      .error (faultAt ((p.right 1).afterByte x) f)
    match high, simpleEscape? x with
    | some _, _ => fault .unfinishedSurrogatePair
    | none, none => fault .invalidEscape
    | none, some c => stringTail rest (p.right 2) none (c :: read)
  | x :: rest, p, high, read =>
    if high.isSome then .error (faultAt (p.afterByte x) .unfinishedSurrogatePair)
    else if x = '"' then .ok (String.ofList read.reverse, ⟨rest, p.right 1⟩)
    else if x.toNat < 0x20 then .error (faultAt (p.after x) .controlCharacter)
    else stringTail rest (p.after x) none (x :: read)

/-- The string whose opening quote comes next. -/
def string (c : Cursor) : Except ReadError (String × Cursor) :=
  stringTail c.next.rest c.next.place none []

/-! ## Passing over -/

/-- Past the part of a string after its opening quote. -/
def skipStringTail : List Char → Place → Except ReadError Cursor
  | [], p => .error (faultAt p .stringUnfinished)
  | '\\' :: 'u' :: a :: b :: c :: d :: rest, p =>
    if (hexValue4? a b c d).isSome then skipStringTail rest (p.right 6)
    else .error (hexFault (a :: b :: c :: d :: rest) (p.right 2))
  | '\\' :: 'u' :: rest, p => .error (hexFault rest (p.right 2))
  | ['\\'], p => .error (faultAt (p.right 1) .stringUnfinished)
  | '\\' :: x :: rest, p =>
    if (simpleEscape? x).isSome then skipStringTail rest (p.right 2)
    else .error (faultAt ((p.right 1).afterByte x) .invalidEscape)
  | x :: rest, p =>
    if x = '"' then .ok ⟨rest, p.right 1⟩
    else if x.toNat < 0x20 then .error (faultAt p .controlCharacter)
    else skipStringTail rest (p.after x)

/-- Past the string whose opening quote comes next. -/
def skipString (c : Cursor) : Except ReadError Cursor :=
  skipStringTail c.next.rest c.next.place

end Cursor

end WatchCache
