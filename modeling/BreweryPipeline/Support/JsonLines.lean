import BreweryPipeline.Support.JsonRoundTrip

/-!
One JSON value a line. The writer ends every value with a line feed; the reader
breaks at LF, CR and CRLF, as a text input split does, and a terminator at the
end of the text opens no further line. Encoded values contain neither LF nor CR,
so the two notions of a line agree on written text whatever its strings hold.
-/

namespace Support.JsonText

def splitLines : List Char → List (List Char)
  | [] => []
  | '\r' :: '\n' :: rest => [] :: splitLines rest
  | char :: rest =>
      if char = '\n' ∨ char = '\r' then [] :: splitLines rest
      else match splitLines rest with
        | [] => [[char]]
        | line :: lines => (char :: line) :: lines

example : splitLines "a\r\nb\n\nc\rd".toList = ["a".toList, "b".toList, [], "c".toList, "d".toList] := by
  decide

def writeLines (values : List Json) : List Char :=
  values.flatMap fun value => dumps value ++ ['\n']

def Unbroken (text : List Char) : Prop := ∀ char ∈ text, char ≠ '\n' ∧ char ≠ '\r'

theorem split_lines_unbroken (text rest : List Char) (unbroken : Unbroken text) :
    splitLines (text ++ '\n' :: rest) = text :: splitLines rest := by
  induction text with
  | nil => rw [List.nil_append, splitLines.eq_def]; simp
  | cons char tail ih =>
      have head := unbroken char List.mem_cons_self
      have later := ih fun c member => unbroken c (List.mem_cons_of_mem char member)
      rw [List.cons_append, splitLines.eq_def]
      split
      · contradiction
      · rename_i same
        exact absurd (List.cons.inj same).1 head.2
      · rename_i same
        obtain ⟨first, second⟩ := List.cons.inj same
        subst first second
        simp [head.1, head.2, later]

@[simp] theorem unbroken_nil : Unbroken [] := fun _ member => absurd member List.not_mem_nil

@[simp] theorem unbroken_append (left right : List Char) :
    Unbroken (left ++ right) ↔ Unbroken left ∧ Unbroken right :=
  List.forall_mem_append

@[simp] theorem unbroken_cons (char : Char) (text : List Char) :
    Unbroken (char :: text) ↔ (char ≠ '\n' ∧ char ≠ '\r') ∧ Unbroken text :=
  List.forall_mem_cons

theorem hex_digits_unbroken (code : Nat) : Unbroken (hexDigits code) := by
  have digits : ∀ value < 16, Nat.digitChar value ≠ '\n' ∧ Nat.digitChar value ≠ '\r' := by decide
  have digit (value : Nat) := digits (value % 16) (Nat.mod_lt _ (by decide))
  simp [hexDigits, digit]

theorem escape_char_unbroken (char : Char) : Unbroken (escapeChar char) := by
  unfold escapeChar
  -- A character with an escape of its own.
  iterate 7
    split
    · simp
  split
  · simp [hex_digits_unbroken]
  · rename_i _ _ notFeed notReturn _ _ _ _
    simp [notFeed, notReturn]

theorem dumps_string_unbroken (text : String) : Unbroken (dumpsString text) := by
  have escaped : Unbroken (text.toList.flatMap escapeChar) := by
    intro char member
    obtain ⟨source, _, inside⟩ := List.mem_flatMap.mp member
    exact escape_char_unbroken source char inside
  simp [dumpsString, escaped]

theorem digit_unbroken {char : Char} (digit : char.isDigit = true) : char ≠ '\n' ∧ char ≠ '\r' := by
  constructor <;> rintro rfl <;> revert digit <;> decide

theorem dumps_nat_unbroken (value : Nat) : Unbroken (dumpsNat value) :=
  fun char member => digit_unbroken (dumps_nat_digits value char member)

theorem dumps_int_unbroken (value : Int) : Unbroken (dumpsInt value) := by
  unfold dumpsInt
  split <;> simp [dumps_nat_unbroken]

theorem dumps_fraction_unbroken (fraction : List (Fin 10)) : Unbroken (dumpsFraction fraction) := by
  have digits : Unbroken (fraction.map fun digit => Nat.digitChar digit.val) := by
    intro char member
    obtain ⟨digit, _, rfl⟩ := List.mem_map.mp member
    exact digit_unbroken (digit_char_digit digit.val digit.isLt).1
  unfold dumpsFraction
  split
  · simp
  · simp [digits]

theorem dumps_exponent_unbroken (exponent : Option Int) : Unbroken (dumpsExponent exponent) := by
  cases exponent with
  | none => exact unbroken_nil
  | some value =>
      have digits := fun char member => digit_unbroken ((padded_digits value.natAbs).2.1 char member)
      have sign : (if value < 0 then '-' else '+') ≠ '\n' ∧
          (if value < 0 then '-' else '+') ≠ '\r' := by
        split <;> decide
      exact (unbroken_cons _ _).mpr ⟨by decide, (unbroken_cons _ _).mpr ⟨sign, digits⟩⟩

theorem dumps_float_unbroken (literal : FloatLiteral) : Unbroken (dumpsFloat literal) := by
  unfold dumpsFloat
  split <;> simp [dumps_nat_unbroken, dumps_fraction_unbroken, dumps_exponent_unbroken]

mutual
theorem dumps_unbroken : ∀ value : Json, Unbroken (dumps value)
  | .null => by simp [dumps]
  | .bool true => by simp [dumps]
  | .bool false => by simp [dumps]
  | .int value => dumps_int_unbroken value
  | .float literal => dumps_float_unbroken literal
  | .str value => dumps_string_unbroken value
  | .arr [] => by simp [dumps]
  | .arr (item :: rest) => by
      simp [dumps, dumps_unbroken item, dumps_items_unbroken rest]
  | .obj [] => by simp [dumps]
  | .obj ((key, value) :: rest) => by
      simp [dumps, dumps_string_unbroken key, dumps_unbroken value, dumps_fields_unbroken rest]
theorem dumps_items_unbroken : ∀ items : List Json, Unbroken (dumpsItems items)
  | [] => by simp [dumpsItems]
  | item :: rest => by
      simp [dumpsItems, dumps_unbroken item, dumps_items_unbroken rest]
theorem dumps_fields_unbroken : ∀ fields : List (String × Json), Unbroken (dumpsFields fields)
  | [] => by simp [dumpsFields]
  | (key, value) :: rest => by
      simp [dumpsFields, dumps_string_unbroken key, dumps_unbroken value, dumps_fields_unbroken rest]
end

/-- Written text breaks into exactly one line a value. -/
theorem split_write_lines (values : List Json) :
    splitLines (writeLines values) = values.map dumps := by
  induction values with
  | nil => rfl
  | cons value rest ih =>
      have first := split_lines_unbroken (dumps value) (writeLines rest) (dumps_unbroken value)
      rw [ih] at first
      simpa [writeLines] using first

theorem parse_write_lines (values : List Json) :
    (splitLines (writeLines values)).map parse = values.map some := by
  rw [split_write_lines, List.map_map]
  exact List.map_congr_left fun value _ => parse_dumps value

end Support.JsonText
