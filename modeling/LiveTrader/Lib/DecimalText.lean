/-
# `Lib.DecimalText` — numbers read from texts

`Decimal(text)` with the grammar of the `decimal` module: blanks around the number
and underscores in it are dropped, digits may be of any script, and besides numbers
there are the infinities and the NaNs.  A finite decimal keeps its coefficient and its
exponent, because `decimal_value` bounds both before it looks at the value.
-/
import LiveTrader.Lib.Json
import LiveTrader.Lib.Decimal
import Mathlib.Data.Nat.Log

namespace Lib.Py

/-- A finite decimal. -/
structure Dec where
  neg : Bool
  coeff : ℕ
  exp : ℤ
  deriving DecidableEq

namespace Dec

def value (d : Dec) : ℚ := (if d.neg then -1 else 1) * d.coeff * (10 : ℚ) ^ d.exp

/-- `len(d.as_tuple().digits)`. -/
def digits (d : Dec) : ℕ := Nat.log 10 d.coeff + 1

end Dec

inductive DecimalNumber where
  | finite (d : Dec)
  | special
  deriving DecidableEq

/-! ## The grammar -/

/-- The zeros of the scripts; the other nine digits follow each. -/
def zeros : List ℕ :=
  [0x30, 0x660, 0x6F0, 0x7C0, 0x966, 0x9E6, 0xA66, 0xAE6, 0xB66, 0xBE6, 0xC66, 0xCE6, 0xD66, 0xDE6,
    0xE50, 0xED0, 0xF20, 0x1040, 0x1090, 0x17E0, 0x1810, 0x1946, 0x19D0, 0x1A80, 0x1A90, 0x1B50,
    0x1BB0, 0x1C40, 0x1C50, 0xA620, 0xA8D0, 0xA900, 0xA9D0, 0xA9F0, 0xAA50, 0xABF0, 0xFF10, 0x104A0,
    0x10D30, 0x11066, 0x110F0, 0x11136, 0x111D0, 0x112F0, 0x11450, 0x114D0, 0x11650, 0x116C0, 0x11730,
    0x118E0, 0x11950, 0x11C50, 0x11D50, 0x11DA0, 0x16A60, 0x16AC0, 0x16B50, 0x1D7CE, 0x1D7D8, 0x1D7E2,
    0x1D7EC, 0x1D7F6, 0x1E140, 0x1E2F0, 0x1E950, 0x1FBF0]

def digit? (c : Char) : Option ℕ :=
  (zeros.find? fun z => z ≤ c.toNat ∧ c.toNat < z + 10).map (c.toNat - ·)

/-- The leading digits and what follows them. -/
def leadingDigits : List Char → List ℕ × List Char
  | [] => ([], [])
  | c :: cs =>
    match digit? c with
    | none => ([], c :: cs)
    | some n => let (ns, rest) := leadingDigits cs; (n :: ns, rest)

def ofDigits (ns : List ℕ) : ℕ := ns.foldl (fun acc n => 10 * acc + n) 0

/-- An optional sign; whether it is a minus. -/
def leadingSign : List Char → Bool × List Char
  | '-' :: cs => (true, cs)
  | '+' :: cs => (false, cs)
  | cs => (false, cs)

/-- The exponent part, to the end of the text. -/
def exponent? : List Char → Option ℤ
  | [] => some 0
  | c :: cs =>
    if c = 'e' ∨ c = 'E' then
      let (neg, cs) := leadingSign cs
      match leadingDigits cs with
      | ([], _) => none
      | (ns, []) => some (if neg then -(ofDigits ns : ℤ) else ofDigits ns)
      | _ => none
    else none

/-- `inf`, `infinity`, `nan` and `snan` in any case, a NaN with digits. -/
def isSpecial (cs : List Char) : Bool :=
  let cs := cs.map Char.toLower
  cs ∈ ["inf".toList, "infinity".toList] ||
    ["nan".toList, "snan".toList].any fun name =>
      name.isPrefixOf cs && (leadingDigits (cs.drop name.length)).2.isEmpty

/-- `Decimal(text)`; `none` where it raises. -/
def decimal? (text : String) : Option DecimalNumber :=
  let (neg, cs) := leadingSign ((trim text.toList).filter (· ≠ '_'))
  let (whole, rest) := leadingDigits cs
  let (frac, rest) := match rest with
    | '.' :: cs => leadingDigits cs
    | cs => ([], cs)
  if whole = [] ∧ frac = [] then
    if isSpecial cs then some .special else none
  else
    (exponent? rest).map fun e => .finite ⟨neg, ofDigits (whole ++ frac), e - frac.length⟩

/-! ## `decimal_value` -/

/-- `str(value)`. -/
def Codec.str (codec : Codec) : Json → String
  | .str s => s
  | .int n => toString n
  | v => codec.repr v

/-- `decimal_value(value, label, positive=…)`. -/
def decimalValue (codec : Codec) (value : Json) (label : String) (positive : Bool) : Result ℚ :=
  match value with
  | .null | .bool _ => .error (.value (label ++ ": finite decimal required"))
  | value =>
    match decimal? (codec.str value) with
    | none => .error (.value (label ++ ": finite decimal required"))
    | some .special => .error (.value (label ++ ": finite nonnegative decimal required"))
    | some (.finite d) => do
      require (d.digits ≤ 256 ∧ d.exp.natAbs ≤ 256)
        (.value (label ++ ": decimal exceeds explicit 256-digit/exponent bound"))
      require (0 ≤ d.value ∧ (positive = true → 0 < d.value))
        (.value (label ++ ": finite nonnegative decimal required"))
      pure d.value

/-! ## Texts of a fixed form -/

/-- `re.fullmatch('[a-f0-9]{64}', text)`. -/
def isHash (text : String) : Bool :=
  text.toList.length = 64 && text.toList.all fun c => ('0' ≤ c && c ≤ '9') || ('a' ≤ c && c ≤ 'f')

/-- `re.fullmatch('[0-9]{low,high}', text)`. -/
def isNumeral (low high : ℕ) (text : String) : Bool :=
  low ≤ text.toList.length && text.toList.length ≤ high &&
    text.toList.all fun c => '0' ≤ c && c ≤ '9'

example : decimal? " -1_0.50e+3 " = some (.finite ⟨true, 1050, 1⟩) := by decide +kernel

end Lib.Py
