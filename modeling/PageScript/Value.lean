import PageScript.Number
import PageScript.Decimal.Numeral
/-!
# Values

The values of a running script are numbers and strings.  Where a number is wanted, a string is
read as one: as a double if it holds a point or an exponent mark, and as an integer otherwise.
-/

namespace PageScript

/-- A number or a string. -/
inductive Value where
  /-- A number. -/
  | number (n : Number)
  /-- A string. -/
  | string (s : String)
deriving DecidableEq

namespace Value

/-- The integer `n` as a value. -/
def int (n : Int64) : Value := number (.int n)

/-- The double `x` as a value. -/
def double (x : Double) : Value := number (.double x)

instance : Inhabited Value := ⟨int 0⟩

/-- What is written for a value: a string is written as it is. -/
def text : Value → String
  | number n => String.ofList (n.text "Infinity".toList)
  | string s => s

end Value

/-- Whether a string has to be read as a double. -/
def Number.isDoubleText (s : List Char) : Bool :=
  s.any fun c => c == '.' || c == 'e' || c == 'E'

/-- The number that a string writes. -/
def Number.ofText? (s : List Char) : Option Number :=
  if isDoubleText s then (Decimal.readDouble? s).map double else (Decimal.readInt64? s).map int

end PageScript
