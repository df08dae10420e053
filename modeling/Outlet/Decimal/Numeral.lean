import Outlet.Bytes

/-!
# Reading decimal numerals

A numeral is an optional sign and digits, read from left to right. A minus sign is one only where
negative numbers are in range. The first thing that goes wrong is the cause that is reported; of a
byte that is no digit and a number that leaves the range at the same place, it is the byte.
-/

namespace Outlet.Decimal.Numeral

inductive Error where
  | empty
  | invalidDigit
  | tooLarge
  | tooSmall
  deriving DecidableEq

def Error.message : Error → String
  | .empty => "cannot parse integer from empty string"
  | .invalidDigit => "invalid digit found in string"
  | .tooLarge => "number too large to fit in target type"
  | .tooSmall => "number too small to fit in target type"

structure Bounds where
  least : Int
  greatest : Int

def Bounds.signed64 : Bounds := ⟨-9223372036854775808, 9223372036854775807⟩

def Bounds.unsigned64 : Bounds := ⟨0, 18446744073709551615⟩

def digit? (byte : UInt8) : Option Nat :=
  if 48 ≤ byte.toNat ∧ byte.toNat ≤ 57 then some (byte.toNat - 48) else none

inductive Sign where
  | plus
  | minus
  deriving DecidableEq

/-- The number after one more digit. -/
def Sign.extend : Sign → Int → Nat → Int
  | .plus, value, digit => value * 10 + digit
  | .minus, value, digit => value * 10 - digit

/-- On which side a number with this sign leaves the range. -/
def Sign.overflow : Sign → Error
  | .plus => .tooLarge
  | .minus => .tooSmall

def readDigits (bounds : Bounds) (sign : Sign) : Int → Bytes → Except Error Int
  | value, [] => .ok value
  | value, byte :: rest =>
    match digit? byte with
    | none => .error .invalidDigit
    | some digit =>
      let value := sign.extend value digit
      if bounds.least ≤ value ∧ value ≤ bounds.greatest then readDigits bounds sign value rest
      else .error sign.overflow

/-- Reads the digits after a sign, of which there is at least one. -/
def readSigned (bounds : Bounds) (sign : Sign) : Bytes → Except Error Int
  | [] => .error .invalidDigit
  | digits => readDigits bounds sign 0 digits

def read (bounds : Bounds) : Bytes → Except Error Int
  | [] => .error .empty
  | byte :: rest =>
    if byte = 43 then readSigned bounds .plus rest
    else if byte = 45 ∧ bounds.least < 0 then readSigned bounds .minus rest
    else readDigits bounds .plus 0 (byte :: rest)

end Outlet.Decimal.Numeral
