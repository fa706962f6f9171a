/-!
Sizes written in decimal: an optional plus sign, then one or more ASCII digits, for a number below
2^64. No blank, no other sign and no other digit is taken.
-/
namespace TransportHub.Text

def digits? (value : Nat) : List Char → Option Nat
  | [] => some value
  | c :: rest =>
    if c.isDigit then digits? (value * 10 + (c.toNat - '0'.toNat)) rest else none

/-- Reads a size; `none` for every text of another form or a number of 2^64 or more. -/
def size? (text : List Char) : Option Nat :=
  let digits := match text with
    | '+' :: rest => rest
    | _ => text
  if digits.isEmpty then none
  else (digits? 0 digits).filter (· < UInt64.size)

end TransportHub.Text
