import Mathlib

/-!
JSON values as Python's `json` module holds them, the text `json.dump` writes
for them with `ensure_ascii=False` and its default separators, and a parser of
that text. A float is carried as the decimal literal `float.__repr__` prints,
so the text of a value is determined by the value. Characters are Unicode
scalar values: a lone surrogate has no value here.
-/

namespace Support.JsonText

/-- A number literal with a fraction or an exponent; without either mark the
text would read back as an integer. -/
structure FloatLiteral where
  negative : Bool
  whole : Nat
  fraction : List (Fin 10)
  exponent : Option Int
  marked : fraction ≠ [] ∨ exponent ≠ none
  deriving DecidableEq

inductive Json where
  | null
  | bool (value : Bool)
  | int (value : Int)
  | float (literal : FloatLiteral)
  | str (value : String)
  | arr (items : List Json)
  | obj (fields : List (String × Json))

def FloatLiteral.digitsZero (literal : FloatLiteral) : Bool :=
  literal.whole == 0 && literal.fraction.all (· == 0)

def FloatLiteral.toRat (literal : FloatLiteral) : Rat :=
  let digits := literal.fraction.foldl (fun total digit => 10 * total + digit.val) literal.whole
  let magnitude := (digits : Rat) * 10 ^ (literal.exponent.getD 0 - literal.fraction.length)
  if literal.negative then -magnitude else magnitude

/-- `bool(value)` for a decoded value. -/
def Json.truthy : Json → Bool
  | .null => false
  | .bool value => value
  | .int value => value != 0
  | .float literal => !literal.digitsZero
  | .str value => value != ""
  | .arr items => !items.isEmpty
  | .obj fields => !fields.isEmpty

/-- The operand of an arithmetic operator: `True` counts as 1. -/
def Json.number : Json → Option Rat
  | .bool value => some (if value then 1 else 0)
  | .int value => some value
  | .float literal => some literal.toRat
  | _ => none

def Json.fields? : Json → Option (List (String × Json))
  | .obj fields => some fields
  | _ => none

/-! The encoder. `ESCAPE_DCT` names seven characters; the other controls below
U+0020 become a four digit escape, and every other character is written raw. -/

def hexDigits (code : Nat) : List Char :=
  [Nat.digitChar (code / 4096 % 16), Nat.digitChar (code / 256 % 16),
    Nat.digitChar (code / 16 % 16), Nat.digitChar (code % 16)]

def escapeChar (char : Char) : List Char :=
  if char = '"' then ['\\', '"']
  else if char = '\\' then ['\\', '\\']
  else if char = '\n' then ['\\', 'n']
  else if char = '\r' then ['\\', 'r']
  else if char = '\t' then ['\\', 't']
  else if char = '\x08' then ['\\', 'b']
  else if char = '\x0c' then ['\\', 'f']
  else if char.toNat < 32 then '\\' :: 'u' :: hexDigits char.toNat
  else [char]

def dumpsString (text : String) : List Char :=
  '"' :: (text.toList.flatMap escapeChar ++ ['"'])

def dumpsNat (value : Nat) : List Char := Nat.toDigits 10 value

def dumpsInt (value : Int) : List Char :=
  if value < 0 then '-' :: dumpsNat value.natAbs else dumpsNat value.natAbs

def dumpsFraction (fraction : List (Fin 10)) : List Char :=
  if fraction = [] then [] else '.' :: fraction.map fun digit => Nat.digitChar digit.val

-- `float.__repr__` pads the exponent to two digits and always signs it.
def dumpsExponent : Option Int → List Char
  | none => []
  | some value =>
      let digits := dumpsNat value.natAbs
      'e' :: (if value < 0 then '-' else '+') ::
        (if value.natAbs < 10 then '0' :: digits else digits)

def dumpsFloat (literal : FloatLiteral) : List Char :=
  let magnitude := dumpsNat literal.whole ++
    (dumpsFraction literal.fraction ++ dumpsExponent literal.exponent)
  if literal.negative then '-' :: magnitude else magnitude

mutual
def dumps : Json → List Char
  | .null => ['n', 'u', 'l', 'l']
  | .bool true => ['t', 'r', 'u', 'e']
  | .bool false => ['f', 'a', 'l', 's', 'e']
  | .int value => dumpsInt value
  | .float literal => dumpsFloat literal
  | .str value => dumpsString value
  | .arr [] => ['[', ']']
  | .arr (item :: rest) => '[' :: (dumps item ++ dumpsItems rest)
  | .obj [] => ['{', '}']
  | .obj ((key, value) :: rest) =>
      '{' :: (dumpsString key ++ ':' :: ' ' :: (dumps value ++ dumpsFields rest))
def dumpsItems : List Json → List Char
  | [] => [']']
  | item :: rest => ',' :: ' ' :: (dumps item ++ dumpsItems rest)
def dumpsFields : List (String × Json) → List Char
  | [] => ['}']
  | (key, value) :: rest =>
      ',' :: ' ' :: (dumpsString key ++ ':' :: ' ' :: (dumps value ++ dumpsFields rest))
end

example : dumps (.arr [.obj [("a", .int (-5))], .str "x\ny"]) =
    "[\x7b\"a\": -5\x7d, \"x\\ny\"]".toList := by decide

/-! The parser. Every call of a mutual function spends one unit of fuel; the
length of the text bounds what a whole value needs. -/

def isSpace (char : Char) : Bool :=
  char == ' ' || char == '\t' || char == '\n' || char == '\r'

def skipSpace (text : List Char) : List Char := text.dropWhile isSpace

def hexValue (char : Char) : Option Nat :=
  if '0' ≤ char ∧ char ≤ '9' then some (char.toNat - 48)
  else if 'a' ≤ char ∧ char ≤ 'f' then some (char.toNat - 87)
  else if 'A' ≤ char ∧ char ≤ 'F' then some (char.toNat - 55)
  else none

def unescape (char : Char) : Option Char :=
  if char = '"' then some '"'
  else if char = '\\' then some '\\'
  else if char = '/' then some '/'
  else if char = 'n' then some '\n'
  else if char = 'r' then some '\r'
  else if char = 't' then some '\t'
  else if char = 'b' then some '\x08'
  else if char = 'f' then some '\x0c'
  else none

/-- Four hexadecimal digits that name a scalar value. An escaped surrogate is
refused: no text written by `dumps` contains one. -/
def hexScalar (a b c d : Char) : Option Char := do
  let code := (((← hexValue a) * 16 + (← hexValue b)) * 16 + (← hexValue c)) * 16 + (← hexValue d)
  if code.isValidChar then some (Char.ofNat code) else none

/-- The characters of a string whose opening quote has been read. -/
def parseString : List Char → Option (List Char × List Char)
  | [] => none
  | char :: rest =>
      if char = '"' then some ([], rest)
      else if char = '\\' then
        match rest with
        | [] => none
        | 'u' :: a :: b :: c :: d :: rest =>
            match hexScalar a b c d with
            | none => none
            | some scalar => (parseString rest).map fun parsed => (scalar :: parsed.1, parsed.2)
        | escaped :: rest =>
            match unescape escaped with
            | none => none
            | some scalar => (parseString rest).map fun parsed => (scalar :: parsed.1, parsed.2)
      else if char.toNat < 32 then none
      else (parseString rest).map fun parsed => (char :: parsed.1, parsed.2)

def digitOf (char : Char) : Fin 10 := Fin.ofNat 10 (char.toNat - 48)

-- A point must be followed by a digit.
def parseFraction : List Char → Option (List (Fin 10) × List Char)
  | '.' :: rest =>
      let (digits, rest) := rest.span Char.isDigit
      if digits = [] then none else some (digits.map digitOf, rest)
  | text => some ([], text)

def parseExponentDigits (negative : Bool) (text : List Char) : Option (Option Int × List Char) :=
  let (digits, rest) := text.span Char.isDigit
  if digits = [] then none else
    let value : Int := Nat.ofDigitChars 10 digits 0
    some (some (if negative then -value else value), rest)

def parseExponent : List Char → Option (Option Int × List Char)
  | [] => some (none, [])
  | char :: rest =>
      if char = 'e' ∨ char = 'E' then
        match rest with
        | '-' :: rest => parseExponentDigits true rest
        | '+' :: rest => parseExponentDigits false rest
        | rest => parseExponentDigits false rest
      else some (none, char :: rest)

def leadingZero : List Char → Bool
  | '0' :: _ :: _ => true
  | _ => false

def parseMagnitude (negative : Bool) (text : List Char) : Option (Json × List Char) :=
  let (digits, rest) := text.span Char.isDigit
  if digits = [] ∨ leadingZero digits then none else
    let whole := Nat.ofDigitChars 10 digits 0
    match parseFraction rest with
    | none => none
    | some (fraction, rest) =>
        match parseExponent rest with
        | none => none
        | some (exponent, rest) =>
            if marked : fraction ≠ [] ∨ exponent ≠ none then
              some (.float ⟨negative, whole, fraction, exponent, marked⟩, rest)
            else some (.int (if negative then -whole else whole), rest)

def parseNumber : List Char → Option (Json × List Char)
  | '-' :: rest => parseMagnitude true rest
  | text => parseMagnitude false text

def parseWord (word : List Char) (value : Json) (text : List Char) : Option (Json × List Char) :=
  if word.isPrefixOf text then some (value, text.drop word.length) else none

mutual
def parseValue : Nat → List Char → Option (Json × List Char)
  | 0, _ => none
  | fuel + 1, text =>
      match skipSpace text with
      | [] => none
      | char :: rest =>
          if char = '"' then
            (parseString rest).map fun parsed => (.str (String.ofList parsed.1), parsed.2)
          else if char = '[' then
            match skipSpace rest with
            | ']' :: rest => some (.arr [], rest)
            | rest => (parseItems fuel rest).map fun parsed => (.arr parsed.1, parsed.2)
          else if char = '{' then
            match skipSpace rest with
            | '}' :: rest => some (.obj [], rest)
            | rest => (parseFields fuel rest).map fun parsed => (.obj parsed.1, parsed.2)
          else if char = 'n' then parseWord ['u', 'l', 'l'] .null rest
          else if char = 't' then parseWord ['r', 'u', 'e'] (.bool true) rest
          else if char = 'f' then parseWord ['a', 'l', 's', 'e'] (.bool false) rest
          else parseNumber (char :: rest)
def parseItems : Nat → List Char → Option (List Json × List Char)
  | 0, _ => none
  | fuel + 1, text =>
      match parseValue fuel text with
      | none => none
      | some (item, rest) =>
          match skipSpace rest with
          | ']' :: rest => some ([item], rest)
          | ',' :: rest => (parseItems fuel rest).map fun parsed => (item :: parsed.1, parsed.2)
          | _ => none
def parseFields : Nat → List Char → Option (List (String × Json) × List Char)
  | 0, _ => none
  | fuel + 1, text =>
      match skipSpace text with
      | '"' :: rest =>
          match parseString rest with
          | none => none
          | some (key, rest) =>
              match skipSpace rest with
              | ':' :: rest =>
                  match parseValue fuel rest with
                  | none => none
                  | some (value, rest) =>
                      let field := (String.ofList key, value)
                      match skipSpace rest with
                      | '}' :: rest => some ([field], rest)
                      | ',' :: rest =>
                          (parseFields fuel rest).map fun parsed => (field :: parsed.1, parsed.2)
                      | _ => none
              | _ => none
      | _ => none
end

/-- One JSON value and nothing after it but white space. -/
def parse (text : List Char) : Option Json :=
  match parseValue (text.length + 1) text with
  | some (value, rest) => if rest.all isSpace then some value else none
  | none => none

end Support.JsonText
