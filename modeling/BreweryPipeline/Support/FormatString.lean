import Mathlib

/-!
`str.format` with keyword arguments that are strings, as CPython carries it out:
doubled braces stand for themselves, a replacement field names an argument, may
read into it, converts it and formats it, and the format of a field may hold
fields of its own, one level deep. What an attribute of a string prints, the
Unicode tables beyond ASCII and whether a lone `0` pads a string (it does from
Python 3.10 on) belong to the interpreter and are parameters.
-/

namespace Support.FormatString

abbrev Text := List Char

inductive FormatError where
  | valueError
  | indexError
  | keyError
  | typeError
  | attributeError
  deriving DecidableEq

/-- `member owner accessors conversion spec` is what a field prints that reads an
attribute of the string `owner`, the rest of its name being `accessors`. -/
structure Interpreter where
  decimal : Char → Option (Fin 10)
  printable : Char → Bool
  zeroPads : Bool
  member : Text → Text → Option Char → Text → Except FormatError Text

abbrev Arguments := List (Text × Text)

/-! The parts of a replacement field. -/

structure Field where
  name : Text
  conversion : Option Char
  spec : Text

-- Between brackets only the closing bracket is a mark.
def scanName : Bool → Text → Except FormatError (Text × Char × Text)
  | _, [] => .error .valueError
  | true, char :: rest =>
      (scanName (char != ']') rest).map fun scanned => (char :: scanned.1, scanned.2)
  | false, char :: rest =>
      if char = '{' then .error .valueError
      else if char = '}' ∨ char = ':' ∨ char = '!' then .ok ([], char, rest)
      else (scanName (char == '[') rest).map fun scanned => (char :: scanned.1, scanned.2)

def scanSpec : Nat → Text → Except FormatError (Text × Text)
  | _, [] => .error .valueError
  | depth, char :: rest =>
      if char = '{' then (scanSpec (depth + 1) rest).map fun scanned => (char :: scanned.1, scanned.2)
      else if char = '}' then
        match depth with
        | 0 => .ok ([], rest)
        | depth + 1 => (scanSpec depth rest).map fun scanned => (char :: scanned.1, scanned.2)
      else (scanSpec depth rest).map fun scanned => (char :: scanned.1, scanned.2)

/-- The field behind an opening brace, and what follows its closing brace. -/
def parseField (text : Text) : Except FormatError (Field × Text) :=
  match scanName false text with
  | .error error => .error error
  | .ok (name, mark, rest) =>
      if mark = '}' then .ok (⟨name, none, []⟩, rest)
      else if mark = ':' then (scanSpec 0 rest).map fun scanned => (⟨name, none, scanned.1⟩, scanned.2)
      else match rest with
        | conversion :: '}' :: rest => .ok (⟨name, some conversion, []⟩, rest)
        | conversion :: ':' :: rest =>
            (scanSpec 0 rest).map fun scanned => (⟨name, some conversion, scanned.1⟩, scanned.2)
        | _ => .error .valueError

/-! The value a field names. -/
section Value
variable (python : Interpreter)

def decimalDigit (char : Char) : Option (Fin 10) :=
  if char.toNat < 128 then
    (if char.isDigit then some ⟨(char.toNat - 48) % 10, Nat.mod_lt _ (by decide)⟩ else none)
  else python.decimal char

def isDecimal (char : Char) : Bool := (decimalDigit python char).isSome

def ssizeMax : Nat := 2 ^ 63 - 1

/-- A number too large is an error even when a character behind it is no digit. -/
def readInteger : Nat → Text → Except FormatError (Option Nat)
  | total, [] => .ok (some total)
  | total, char :: rest =>
      match decimalDigit python char with
      | none => .ok none
      | some digit =>
          let total := 10 * total + digit.val
          if ssizeMax < total then .error .valueError else readInteger total rest

def getInteger (text : Text) : Except FormatError (Option Nat) :=
  if text = [] then .ok none else readInteger python 0 text

-- Without positional arguments a number, given or implied, is out of range.
def argument (arguments : Arguments) (first : Text) : Except FormatError Text :=
  match getInteger python first with
  | .error error => .error error
  | .ok (some _) => .error .indexError
  | .ok none =>
      if first = [] then .error .indexError
      else match arguments.lookup first with
        | some value => .ok value
        | none => .error .keyError

inductive Operand where
  | text (value : Text)
  | member (owner accessors : Text)

def nameEnds (char : Char) : Bool := char == '.' || char == '['

/-- Follows the accessors behind the first name. A string has items under numbers
alone, and its items are strings again. -/
def access : Nat → Text → Text → Except FormatError Operand
  | _, value, [] => .ok (.text value)
  | 0, _, _ :: _ => .error .valueError
  | fuel + 1, value, mark :: rest =>
      if mark = '.' then
        if rest.takeWhile (fun char => !nameEnds char) = [] then .error .valueError
        else .ok (.member value rest)
      else if mark = '[' then
        match rest.span (fun char => char != ']') with
        | (_, []) => .error .valueError
        | (key, _ :: rest) =>
            match getInteger python key with
            | .error error => .error error
            | .ok none => if key = [] then .error .valueError else .error .typeError
            | .ok (some index) =>
                match value[index]? with
                | none => .error .indexError
                | some item => access fuel [item] rest
      else .error .valueError

/-! `repr` and `ascii` of a string. -/

def hexDigits : Nat → Nat → Text
  | 0, _ => []
  | width + 1, code => hexDigits width (code / 16) ++ [Nat.digitChar (code % 16)]

def escapeCode (char : Char) : Text :=
  if char.toNat < 256 then '\\' :: 'x' :: hexDigits 2 char.toNat
  else if char.toNat < 65536 then '\\' :: 'u' :: hexDigits 4 char.toNat
  else '\\' :: 'U' :: hexDigits 8 char.toNat

def reprChar (printable : Char → Bool) (quote char : Char) : Text :=
  if char = quote ∨ char = '\\' then ['\\', char]
  else if char = '\t' then ['\\', 't']
  else if char = '\n' then ['\\', 'n']
  else if char = '\r' then ['\\', 'r']
  else if char.toNat < 32 ∨ char.toNat = 127 then escapeCode char
  else if char.toNat < 127 then [char]
  else if printable char then [char] else escapeCode char

def quoteOf (value : Text) : Char :=
  if value.contains '\'' && !value.contains '"' then '"' else '\''

def reprText (printable : Char → Bool) (value : Text) : Text :=
  quoteOf value :: (value.flatMap (reprChar printable (quoteOf value)) ++ [quoteOf value])

def convert (value : Text) : Option Char → Except FormatError Text
  | none => .ok value
  | some mark =>
      if mark = 's' then .ok value
      else if mark = 'r' then .ok (reprText python.printable value)
      else if mark = 'a' then .ok (reprText (fun _ => false) value)
      else .error .valueError

/-! `str.__format__`: fill, alignment, width and precision. -/

def isAlignment (char : Char) : Bool := char == '<' || char == '>' || char == '=' || char == '^'

structure Padding where
  fill : Option Char
  alignment : Option Char

def scanAlignment : Text → Padding × Text
  | fill :: mark :: rest =>
      if isAlignment mark then (⟨some fill, some mark⟩, rest)
      else if isAlignment fill then (⟨none, some fill⟩, mark :: rest)
      else (⟨none, none⟩, fill :: mark :: rest)
  | [mark] => if isAlignment mark then (⟨none, some mark⟩, []) else (⟨none, none⟩, [mark])
  | [] => (⟨none, none⟩, [])

/-- The number in front of a text, if there is one. -/
def scanWidth (text : Text) : Except FormatError (Option Nat × Text) :=
  let (digits, rest) := text.span (isDecimal python)
  (getInteger python digits).map fun width => (width, rest)

def scanPrecision : Text → Except FormatError (Option Nat × Text)
  | '.' :: rest =>
      match scanWidth python rest with
      | .error error => .error error
      | .ok (none, _) => .error .valueError
      | .ok (some precision, rest) => .ok (some precision, rest)
  | text => .ok (none, text)

def pad (fill alignment : Char) (width : Nat) (text : Text) : Text :=
  let missing := width - text.length
  let left := if alignment = '>' then missing else if alignment = '^' then missing / 2 else 0
  List.replicate left fill ++ (text ++ List.replicate (missing - left) fill)

-- A sign, `#`, `,`, `_` and `=` are refused for strings. Before Python 3.10 a `0`
-- without an alignment implied `=`.
def formatText (value spec : Text) : Except FormatError Text :=
  let (padding, rest) := scanAlignment spec
  let zero := padding.fill.isNone && rest.head? == some '0'
  if padding.alignment = some '=' ∨ (zero ∧ padding.alignment = none ∧ !python.zeroPads) then
    .error .valueError
  else match scanWidth python (if zero then rest.tail else rest) with
    | .error error => .error error
    | .ok (width, rest) =>
        match scanPrecision python rest with
        | .error error => .error error
        | .ok (precision, rest) =>
            if rest = [] ∨ rest = ['s'] then
              .ok (pad (padding.fill.getD (if zero then '0' else ' ')) (padding.alignment.getD '<')
                (width.getD 0) (value.take (precision.getD value.length)))
            else .error .valueError

end Value

/-! The template. -/
section Format
variable (python : Interpreter) (arguments : Arguments)

def renderField (expand : Text → Except FormatError Text) (field : Field) :
    Except FormatError Text := do
  let (first, accessors) := field.name.span fun char => !nameEnds char
  let value ← argument python arguments first
  let operand ← access python accessors.length value accessors
  let expanded := if '{' ∈ field.spec then expand field.spec else .ok field.spec
  match operand with
  | .text value =>
      let converted ← convert python value field.conversion
      let spec ← expanded
      formatText python converted spec
  | .member owner accessors =>
      let spec ← expanded
      python.member owner accessors field.conversion spec

def formatWith (expand : Text → Except FormatError Text) : Nat → Text → Except FormatError Text
  | _, [] => .ok []
  | 0, _ :: _ => .error .valueError
  | fuel + 1, char :: rest =>
      if char = '{' then
        match rest with
        | [] => .error .valueError
        | next :: tail =>
            if next = '{' then (formatWith expand fuel tail).map ('{' :: ·)
            else match parseField (next :: tail) with
              | .error error => .error error
              | .ok (field, behind) =>
                  match renderField python arguments expand field with
                  | .error error => .error error
                  | .ok shown => (formatWith expand fuel behind).map (shown ++ ·)
      else if char = '}' then
        match rest with
        | '}' :: tail => (formatWith expand fuel tail).map ('}' :: ·)
        | _ => .error .valueError
      else (formatWith expand fuel rest).map (char :: ·)

/-- Fields nest up to the depth; a format nested deeper is an error. -/
def formatDepth : Nat → Text → Except FormatError Text
  | 0, _ => .error .valueError
  | depth + 1, text => formatWith python arguments (formatDepth depth) text.length text

/-- `template.format(**arguments)`. -/
def format (template : Text) : Except FormatError Text := formatDepth python arguments 2 template

end Format

end Support.FormatString
