import DataHolder.Decimal.Shortest
import DataHolder.Json

/-!
# The compact text of a JSON value

No spaces, members in order. In strings only the quote, the backslash and the control
characters below the space are escaped. A double has the fewest digits that read back: it
is positional while its leading digit stands between the fifth place after the point and
the sixteenth before it, and always shows a fraction or an exponent.
-/

namespace DataHolder

namespace Decimal

/-- `count` zeros. -/
private def zeros (count : Nat) : String := String.ofList (List.replicate count '0')

/-- A shortest decimal laid out: a point with at least one digit on both sides, or one
digit before the point and a signed power of ten. -/
def Scaled.text (s : Scaled) : String :=
  let digits := toString s.digits
  let count := digits.length
  let lead : Int := s.exponent + count - 1
  if -5 ≤ lead ∧ lead ≤ 15 then
    if 0 ≤ s.exponent then digits ++ zeros s.exponent.toNat ++ ".0"
    else if 0 ≤ lead then
      let whole := lead.toNat + 1
      String.ofList (digits.toList.take whole) ++ "." ++ String.ofList (digits.toList.drop whole)
    else "0." ++ zeros (-lead - 1).toNat ++ digits
  else
    let fraction := digits.toList.drop 1
    String.ofList (digits.toList.take 1) ++
      (if fraction.isEmpty then "" else "." ++ String.ofList fraction) ++
      "e" ++ (if lead < 0 then "-" else "+") ++ toString lead.natAbs

/-- The text of a double given by its 64 bits; one that is not finite has the text of null. -/
def textOfBits (bits : UInt64) : String :=
  let n := bits.toNat
  let sign := if n / Nat.pow 2 63 = 0 then "" else "-"
  let exponent := n / Nat.pow 2 52 % Nat.pow 2 11
  let fraction := n % Nat.pow 2 52
  if exponent = 2047 then "null"
  else if exponent = 0 ∧ fraction = 0 then sign ++ "0.0"
  else sign ++ (Binary.ofFields exponent fraction).shortest.text

end Decimal

namespace Json

/-- A hexadecimal digit, in lower case. -/
private def hexDigit (n : Nat) : Char :=
  if n < 10 then Char.ofNat (48 + n) else Char.ofNat (87 + n)

/-- A character inside a quoted text. -/
def escape (c : Char) : List Char :=
  if c = '"' then ['\\', '"']
  else if c = '\\' then ['\\', '\\']
  else if c.toNat = 8 then ['\\', 'b']
  else if c.toNat = 9 then ['\\', 't']
  else if c.toNat = 10 then ['\\', 'n']
  else if c.toNat = 12 then ['\\', 'f']
  else if c.toNat = 13 then ['\\', 'r']
  else if c.toNat < 32 then ['\\', 'u', '0', '0', hexDigit (c.toNat / 16), hexDigit (c.toNat % 16)]
  else [c]

/-- A text between quotes. -/
def quote (s : String) : String :=
  String.ofList ('"' :: s.toList.flatMap escape ++ ['"'])

mutual
/-- The compact text of a value. -/
def text : Json → String
  | .null => "null"
  | .bool true => "true"
  | .bool false => "false"
  | .int i => toString i
  | .double x => Decimal.textOfBits x.toBits
  | .str s => quote s
  | .arr [] => "[]"
  | .arr (v :: vs) => "[" ++ v.text ++ itemsText vs ++ "]"
  | .obj [] => "\x7b\x7d"
  | .obj ((k, v) :: ms) => "\x7b" ++ quote k ++ ":" ++ v.text ++ membersText ms ++ "\x7d"

/-- The items after the first, each behind a comma. -/
def itemsText : List Json → String
  | [] => ""
  | v :: vs => "," ++ v.text ++ itemsText vs

/-- The members after the first, each behind a comma. -/
def membersText : List (String × Json) → String
  | [] => ""
  | (k, v) :: ms => "," ++ quote k ++ ":" ++ v.text ++ membersText ms
end

end Json

end DataHolder
