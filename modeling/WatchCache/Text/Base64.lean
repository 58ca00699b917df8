set_option autoImplicit false

/-!
# Checking base64

The standard base64 alphabet with its required padding: complete groups of four symbols, the
last of which may end in one or two padding signs, and no bits left over in its last symbol.
Such a text is the only one for its bytes, so it is kept as it is; `base64Fault?` finds what is
wrong with any other.
-/

namespace WatchCache.Text

/-- What is wrong with a text that should be base64. -/
inductive Base64Fault where
  | invalidByte (byte : UInt8) (offset : Nat)
  | strayBits
  | invalidLastSymbol (byte : UInt8) (offset : Nat)
  | invalidPadding
  deriving DecidableEq, Repr

/-- The wording of a fault. -/
def Base64Fault.message : Base64Fault → String
  | .invalidByte b i => "Invalid byte " ++ toString b.toNat ++ ", offset " ++ toString i ++ "."
  | .strayBits => "Encoded text cannot have a 6-bit remainder."
  | .invalidLastSymbol b i =>
    "Invalid last symbol " ++ toString b.toNat ++ ", offset " ++ toString i ++ "."
  | .invalidPadding => "Invalid padding"

/-- The six bits of a symbol. -/
def symbolValue? (b : UInt8) : Option Nat :=
  let n := b.toNat
  if 65 ≤ n ∧ n ≤ 90 then some (n - 65)
  else if 97 ≤ n ∧ n ≤ 122 then some (n - 71)
  else if 48 ≤ n ∧ n ≤ 57 then some (n + 4)
  else if n = 43 then some 62
  else if n = 47 then some 63
  else none

/-- The padding sign. -/
def padding : UInt8 := 61

/-- What the bytes up to an offset were: the offset of the first padding sign, and the last
symbol with its value. -/
structure Base64Scan where
  firstPadding : Option Nat
  lastSymbol : Option (UInt8 × Nat)

/-- Reads one byte at an offset.  Padding needs two symbols before it in its group, and nothing
but padding may follow it. -/
def Base64Scan.step (s : Base64Scan) (offset : Nat) (b : UInt8) :
    Except Base64Fault Base64Scan :=
  if b = padding then
    if offset % 4 < 2 then .error (.invalidByte b (s.firstPadding.getD offset))
    else .ok { s with firstPadding := some (s.firstPadding.getD offset) }
  else match s.firstPadding, symbolValue? b with
    | some first, _ => .error (.invalidByte padding first)
    | none, none => .error (.invalidByte b offset)
    | none, some v => .ok { s with lastSymbol := some (b, v) }

/-- Reads the bytes from an offset on. -/
def Base64Scan.steps (s : Base64Scan) (offset : Nat) : List UInt8 → Except Base64Fault Base64Scan
  | [] => .ok s
  | b :: rest => do (← s.step offset b).steps (offset + 1) rest

/-- What is wrong at the end of a text of some length: the last group is short, or the last
symbol has bits that belong to no byte. -/
def Base64Scan.fault? (s : Base64Scan) (length : Nat) : Option Base64Fault :=
  let symbols := s.firstPadding.getD length
  if length % 4 ≠ 0 then some .invalidPadding
  else match s.lastSymbol with
    | none => none
    | some (b, v) =>
      let unit := if symbols % 4 = 2 then 16 else if symbols % 4 = 3 then 4 else 1
      if v % unit ≠ 0 then some (.invalidLastSymbol b (symbols - 1)) else none

/-- What keeps a text from being base64. -/
def base64Fault? (s : String) : Option Base64Fault :=
  let bytes := s.toUTF8.toList
  if bytes.length % 4 = 1 then
    match bytes.getLast? with
    | some b =>
      if b ≠ padding ∧ symbolValue? b = none then some (.invalidByte b (bytes.length - 1))
      else some .strayBits
    | none => none
  else match Base64Scan.steps ⟨none, none⟩ 0 bytes with
    | .error f => some f
    | .ok scan => scan.fault? bytes.length

end WatchCache.Text
