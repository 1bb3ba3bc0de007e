/-! # Written forms

Numbers as upper-case hexadecimal text, and structured values as terms. A width asks
for at least that many digits and never drops one. A term is an optional head word,
then the parts in brackets; records name each part, applications do not. -/

namespace Sm83.Text

/-! ## Hexadecimal numerals -/

/-- The hexadecimal digits of a number, most significant first. -/
def hexDigits (n : Nat) : List Char := (Nat.toDigits 16 n).map Char.toUpper

/-- The hexadecimal numeral of `n`, filled up with zeros to `width` digits. -/
def hex (width n : Nat) : String :=
  String.ofList ((hexDigits n).leftpad width '0')

/-- A hexadecimal numeral after its mark. -/
def markedHex (width n : Nat) : String := "0x" ++ hex width n

/-! ## Terms -/

/-- A field of a record, as `label: value`. -/
def field (label value : String) : String := label ++ ": " ++ value

/-- A record, as `Head { label: value, label: value }`. -/
def record (head : String) (fields : List (String × String)) : String :=
  head ++ " \x7b " ++ ", ".intercalate (fields.map fun (label, value) => field label value)
    ++ " \x7d"

/-- A head word applied to one part, as `Head(value)`. -/
def application (head value : String) : String := head ++ "(" ++ value ++ ")"

/-- A sequence, as `[value, value]`. -/
def sequence (values : List String) : String := "[" ++ ", ".intercalate values ++ "]"

end Sm83.Text
