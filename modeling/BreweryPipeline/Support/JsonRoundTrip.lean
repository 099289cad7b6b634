import BreweryPipeline.Support.JsonText

/-!
The parser inverts the encoder. A value is followed by a comma, a closing
bracket or the end of its line, so the statements allow any text behind it that
cannot extend a number. The fuel a value needs is bounded by its own length.
-/

namespace Support.JsonText

@[simp] theorem skip_space_cons (char : Char) (rest : List Char) (solid : isSpace char = false) :
    skipSpace (char :: rest) = char :: rest := by
  simp [skipSpace, solid]

@[simp] theorem skip_space_blank (rest : List Char) : skipSpace (' ' :: rest) = skipSpace rest := by
  simp [skipSpace, isSpace]

theorem hex_value_digit (digit : Nat) (small : digit < 16) :
    hexValue (Nat.digitChar digit) = some digit := by
  revert digit
  decide

theorem hex_scalar_digits (char : Char) (control : char.toNat < 32) :
    hexScalar (Nat.digitChar (char.toNat / 4096 % 16)) (Nat.digitChar (char.toNat / 256 % 16))
      (Nat.digitChar (char.toNat / 16 % 16)) (Nat.digitChar (char.toNat % 16)) = some char := by
  have code : ((char.toNat / 4096 % 16 * 16 + char.toNat / 256 % 16) * 16
      + char.toNat / 16 % 16) * 16 + char.toNat % 16 = char.toNat := by omega
  have valid : char.toNat.isValidChar := char.valid
  simp [hexScalar, hex_value_digit _ (Nat.mod_lt _ (by decide : 0 < 16)), code, valid]

theorem parse_string_char (char : Char) (rest : List Char) :
    parseString (escapeChar char ++ rest) =
      (parseString rest).map fun parsed => (char :: parsed.1, parsed.2) := by
  unfold escapeChar
  split
  · subst_vars; simp [parseString, unescape]
  split
  · subst_vars; simp [parseString, unescape]
  split
  · subst_vars; simp [parseString, unescape]
  split
  · subst_vars; simp [parseString, unescape]
  split
  · subst_vars; simp [parseString, unescape]
  split
  · subst_vars; simp [parseString, unescape]
  split
  · subst_vars; simp [parseString, unescape]
  split
  · rename_i control
    simp [hexDigits, parseString, hex_scalar_digits char control]
  · rename_i notQuote notBackslash _ _ _ _ _ notControl
    rw [List.singleton_append, parseString.eq_def]
    simp [notQuote, notBackslash, notControl]

theorem parse_string_escaped (text rest : List Char) :
    parseString (text.flatMap escapeChar ++ '"' :: rest) = some (text, rest) := by
  induction text with
  | nil => rw [List.flatMap_nil, List.nil_append, parseString.eq_def]; rfl
  | cons char tail ih =>
      rw [List.flatMap_cons, List.append_assoc, parse_string_char, ih]
      rfl

/-! Numbers. -/

/-- The text behind a number cannot be taken for more of it. -/
def NumberEnds : List Char → Prop
  | [] => True
  | char :: _ => char.isDigit = false ∧ char ≠ '.' ∧ char ≠ 'e' ∧ char ≠ 'E'

def DigitEnds : List Char → Prop
  | [] => True
  | char :: _ => char.isDigit = false

theorem NumberEnds.digits {rest : List Char} (ends : NumberEnds rest) : DigitEnds rest := by
  cases rest with
  | nil => trivial
  | cons char tail => exact ends.1

theorem span_digits (digits rest : List Char) (all : ∀ char ∈ digits, char.isDigit = true)
    (ends : DigitEnds rest) : (digits ++ rest).span Char.isDigit = (digits, rest) := by
  rw [List.span_eq_takeWhile_dropWhile]
  induction digits with
  | nil =>
      cases rest with
      | nil => rfl
      | cons char tail =>
          have stop : char.isDigit = false := ends
          simp [stop]
  | cons digit tail ih =>
      have head := all digit List.mem_cons_self
      have next := ih fun char member => all char (List.mem_cons_of_mem digit member)
      simp only [Prod.mk.injEq] at next
      simp only [List.cons_append, List.takeWhile_cons, List.dropWhile_cons, head, if_true,
        next.1, next.2]

theorem dumps_nat_digits (value : Nat) : ∀ char ∈ dumpsNat value, char.isDigit = true :=
  fun _ member => Nat.isDigit_of_mem_toDigits (by decide) (by decide) member

theorem dumps_nat_nonempty (value : Nat) : dumpsNat value ≠ [] := Nat.toDigits_ne_nil

theorem digit_char_digit (digit : Nat) (small : digit < 10) :
    (Nat.digitChar digit).isDigit = true ∧ digitOf (Nat.digitChar digit) = Fin.ofNat 10 digit ∧
      (digit ≠ 0 → Nat.digitChar digit ≠ '0') := by
  revert digit
  decide

-- Only the numeral `0` begins with a zero.
theorem dumps_nat_leading (value : Nat) :
    leadingZero (dumpsNat value) = false ∧ (0 < value → (dumpsNat value).head? ≠ some '0') := by
  induction value using Nat.strong_induction_on with
  | _ value ih =>
      unfold dumpsNat
      rw [Nat.toDigits_eq_if (by decide)]
      split
      · rename_i small
        refine ⟨by simp [leadingZero], fun positive => ?_⟩
        have differs := (digit_char_digit value small).2.2 (by omega)
        simpa using differs
      · rename_i large
        have previous := (ih (value / 10) (by omega)).2 (by omega)
        unfold dumpsNat at previous
        cases digits : Nat.toDigits 10 (value / 10) with
        | nil => exact absurd digits Nat.toDigits_ne_nil
        | cons head tail =>
            rw [digits] at previous
            have nonzero : head ≠ '0' := by simpa using previous
            refine ⟨?_, fun _ => by simpa using nonzero⟩
            simp only [List.cons_append]
            unfold leadingZero
            split
            · rename_i same
              exact absurd (List.cons.inj same).1 nonzero
            · rfl

theorem parse_exponent_digits (negative : Bool) (digits rest : List Char) (nonempty : digits ≠ [])
    (all : ∀ char ∈ digits, char.isDigit = true) (ends : DigitEnds rest) :
    parseExponentDigits negative (digits ++ rest) =
      some (some (if negative then -(Nat.ofDigitChars 10 digits 0 : Int)
        else Nat.ofDigitChars 10 digits 0), rest) := by
  unfold parseExponentDigits
  rw [span_digits digits rest all ends]
  simp only [nonempty, if_false]

theorem padded_digits (value : Nat) :
    let digits := if value < 10 then '0' :: dumpsNat value else dumpsNat value
    digits ≠ [] ∧ (∀ char ∈ digits, char.isDigit = true) ∧
      Nat.ofDigitChars 10 digits 0 = value := by
  have read : Nat.ofDigitChars 10 (dumpsNat value) 0 = value := Nat.ofDigitChars_ten_toDigits
  by_cases small : value < 10
  · simp only [small, if_true]
    refine ⟨List.cons_ne_nil _ _, ?_, ?_⟩
    · intro char member
      rcases List.mem_cons.mp member with zero | digit
      · subst zero; decide
      · exact dumps_nat_digits value char digit
    · rw [Nat.ofDigitChars_cons]
      simpa using read
  · simp only [small, if_false]
    exact ⟨dumps_nat_nonempty value, dumps_nat_digits value, read⟩

theorem parse_exponent_present (value : Int) (rest : List Char) (ends : DigitEnds rest) :
    parseExponent (dumpsExponent (some value) ++ rest) = some (some value, rest) := by
  obtain ⟨nonempty, all, read⟩ := padded_digits value.natAbs
  by_cases negative : value < 0
  · have digits := parse_exponent_digits true _ rest nonempty all ends
    have back : -(value.natAbs : Int) = value := by omega
    rw [read, if_pos rfl, back] at digits
    simpa [parseExponent, dumpsExponent, negative] using digits
  · have digits := parse_exponent_digits false _ rest nonempty all ends
    have back : (value.natAbs : Int) = value := by omega
    rw [read, if_neg Bool.false_ne_true, back] at digits
    simpa [parseExponent, dumpsExponent, negative] using digits

theorem parse_exponent_dumps (exponent : Option Int) (rest : List Char) (ends : NumberEnds rest) :
    parseExponent (dumpsExponent exponent ++ rest) = some (exponent, rest) := by
  cases exponent with
  | some value => exact parse_exponent_present value rest ends.digits
  | none =>
      cases rest with
      | nil => rfl
      | cons char tail => simp [dumpsExponent, parseExponent, ends.2.2.1, ends.2.2.2]

theorem dumps_exponent_ends (exponent : Option Int) (rest : List Char) (ends : NumberEnds rest) :
    DigitEnds (dumpsExponent exponent ++ rest) ∧ (dumpsExponent exponent ++ rest).head? ≠ some '.' := by
  cases exponent with
  | some value => exact ⟨by simp [dumpsExponent, DigitEnds], by simp [dumpsExponent]⟩
  | none =>
      refine ⟨ends.digits, ?_⟩
      cases rest with
      | nil => simp [dumpsExponent]
      | cons char tail => simpa [dumpsExponent] using ends.2.1

theorem parse_fraction_present (fraction : List (Fin 10)) (rest : List Char)
    (nonempty : fraction ≠ []) (ends : DigitEnds rest) :
    parseFraction (dumpsFraction fraction ++ rest) = some (fraction, rest) := by
  have all : ∀ char ∈ fraction.map (fun digit => Nat.digitChar digit.val), char.isDigit = true := by
    intro char member
    obtain ⟨digit, _, same⟩ := List.mem_map.mp member
    exact same ▸ (digit_char_digit digit.val digit.isLt).1
  have back : (fraction.map fun digit => Nat.digitChar digit.val).map digitOf = fraction := by
    rw [List.map_map]
    conv_rhs => rw [← List.map_id fraction]
    apply List.map_congr_left
    intro digit _
    rw [Function.comp_apply, (digit_char_digit digit.val digit.isLt).2.1]
    simp
  unfold parseFraction
  simp only [dumpsFraction, nonempty, if_false, List.cons_append, span_digits _ rest all ends,
    List.map_eq_nil_iff, back]

theorem parse_fraction_dumps (fraction : List (Fin 10)) (rest : List Char)
    (ends : DigitEnds rest) (unmarked : rest.head? ≠ some '.') :
    parseFraction (dumpsFraction fraction ++ rest) = some (fraction, rest) := by
  by_cases nonempty : fraction = []
  · subst nonempty
    unfold parseFraction dumpsFraction
    split
    · rename_i tail same
      rw [if_pos rfl, List.nil_append] at same
      simp [same] at unmarked
    · rfl
  · exact parse_fraction_present fraction rest nonempty ends

theorem dumps_fraction_ends (fraction : List (Fin 10)) (rest : List Char) (ends : DigitEnds rest) :
    DigitEnds (dumpsFraction fraction ++ rest) := by
  unfold dumpsFraction
  split
  · exact ends
  · simp [DigitEnds]

theorem parse_magnitude_int (negative : Bool) (value : Nat) (rest : List Char)
    (ends : NumberEnds rest) :
    parseMagnitude negative (dumpsNat value ++ rest) =
      some (.int (if negative then -(value : Int) else value), rest) := by
  have fraction : parseFraction rest = some ([], rest) :=
    parse_fraction_dumps [] rest ends.digits (dumps_exponent_ends none rest ends).2
  have exponent : parseExponent rest = some (none, rest) := parse_exponent_dumps none rest ends
  have read : Nat.ofDigitChars 10 (dumpsNat value) 0 = value := Nat.ofDigitChars_ten_toDigits
  unfold parseMagnitude
  rw [span_digits _ rest (dumps_nat_digits value) ends.digits]
  simp [dumps_nat_nonempty, (dumps_nat_leading value).1, fraction, exponent, read]

theorem parse_magnitude_float (literal : FloatLiteral) (rest : List Char)
    (ends : NumberEnds rest) :
    parseMagnitude literal.negative (dumpsNat literal.whole ++
      (dumpsFraction literal.fraction ++ (dumpsExponent literal.exponent ++ rest))) =
      some (.float literal, rest) := by
  obtain ⟨negative, whole, digits, power, marked⟩ := literal
  have behind := dumps_exponent_ends power rest ends
  have fraction := parse_fraction_dumps digits _ behind.1 behind.2
  have exponent := parse_exponent_dumps power rest ends
  have read : Nat.ofDigitChars 10 (dumpsNat whole) 0 = whole := Nat.ofDigitChars_ten_toDigits
  unfold parseMagnitude
  rw [span_digits _ _ (dumps_nat_digits whole) (dumps_fraction_ends digits _ behind.1)]
  simp only [dumps_nat_nonempty, (dumps_nat_leading whole).1, fraction, exponent, read,
    Bool.false_eq_true, or_self, if_false, dif_pos marked]

/-! Values. A numeral starts no other kind of value. -/

theorem dumps_nat_head (value : Nat) :
    ∃ char rest, dumpsNat value = char :: rest ∧ char.isDigit = true := by
  cases text : dumpsNat value with
  | nil => exact absurd text (dumps_nat_nonempty value)
  | cons char rest =>
      exact ⟨char, rest, rfl, dumps_nat_digits value char (text ▸ List.mem_cons_self)⟩

theorem digit_solid (char : Char) (digit : char.isDigit = true) :
    isSpace char = false ∧ char ≠ ']' ∧ char ≠ '"' ∧ char ≠ '[' ∧ char ≠ '{' ∧
      char ≠ 'n' ∧ char ≠ 't' ∧ char ≠ 'f' ∧ char ≠ '-' := by
  have space : isSpace char = false := by
    by_contra blank
    simp only [isSpace, Bool.not_eq_false, Bool.or_eq_true, beq_iff_eq] at blank
    rcases blank with ((same | same) | same) | same <;> subst same <;> revert digit <;> decide
  refine ⟨space, ?_, ?_, ?_, ?_, ?_, ?_, ?_, ?_⟩ <;> rintro rfl <;> revert digit <;> decide

theorem parse_value_number (fuel : Nat) (char : Char) (text : List Char)
    (head : char.isDigit = true ∨ char = '-') :
    parseValue (fuel + 1) (char :: text) = parseNumber (char :: text) := by
  rcases head with digit | minus
  · obtain ⟨space, _, quote, bracket, brace, n, t, f, _⟩ := digit_solid char digit
    simp [parseValue, space, quote, bracket, brace, n, t, f]
  · subst minus
    simp [parseValue, isSpace]

theorem parse_number_digits (text : List Char) (head : ∃ char rest, text = char :: rest ∧
    char.isDigit = true) : parseNumber text = parseMagnitude false text := by
  obtain ⟨char, rest, same, digit⟩ := head
  subst same
  unfold parseNumber
  split
  · rename_i tail same
    exact absurd (List.cons.inj same).1 (digit_solid char digit).2.2.2.2.2.2.2.2
  · rfl

theorem parse_value_int (value : Int) (fuel : Nat) (rest : List Char) (ends : NumberEnds rest) :
    parseValue (fuel + 1) (dumpsInt value ++ rest) = some (.int value, rest) := by
  by_cases negative : value < 0
  · have back : -(value.natAbs : Int) = value := by omega
    simp only [dumpsInt, negative, if_true, List.cons_append]
    rw [parse_value_number _ _ _ (Or.inr rfl), parseNumber, parse_magnitude_int true _ _ ends,
      if_pos rfl, back]
  · have back : (value.natAbs : Int) = value := by omega
    have magnitude := parse_magnitude_int false value.natAbs rest ends
    rw [if_neg Bool.false_ne_true, back] at magnitude
    obtain ⟨char, tail, text, digit⟩ := dumps_nat_head value.natAbs
    simp only [dumpsInt, negative, if_false]
    rw [text, List.cons_append] at magnitude ⊢
    rw [parse_value_number _ _ _ (Or.inl digit), parse_number_digits _ ⟨char, _, rfl, digit⟩,
      magnitude]

theorem parse_value_float (literal : FloatLiteral) (fuel : Nat) (rest : List Char)
    (ends : NumberEnds rest) :
    parseValue (fuel + 1) (dumpsFloat literal ++ rest) = some (.float literal, rest) := by
  have magnitude := parse_magnitude_float literal rest ends
  by_cases negative : literal.negative = true
  · rw [negative] at magnitude
    simp only [dumpsFloat, negative, if_true, List.cons_append, List.append_assoc]
    rw [parse_value_number _ _ _ (Or.inr rfl), parseNumber, magnitude]
  · rw [Bool.not_eq_true] at negative
    rw [negative] at magnitude
    obtain ⟨char, tail, text, digit⟩ := dumps_nat_head literal.whole
    simp only [dumpsFloat, negative, Bool.false_eq_true, if_false, List.append_assoc]
    rw [text, List.cons_append] at magnitude ⊢
    rw [parse_value_number _ _ _ (Or.inl digit), parse_number_digits _ ⟨char, _, rfl, digit⟩,
      magnitude]

theorem dumps_head (value : Json) :
    ∃ char rest, dumps value = char :: rest ∧ isSpace char = false ∧ char ≠ ']' := by
  have numeral (number : Nat) (behind : List Char) : ∃ char rest,
      dumpsNat number ++ behind = char :: rest ∧ isSpace char = false ∧ char ≠ ']' := by
    obtain ⟨char, tail, text, digit⟩ := dumps_nat_head number
    exact ⟨char, tail ++ behind, by rw [text]; rfl, (digit_solid char digit).1,
      (digit_solid char digit).2.1⟩
  cases value with
  | null => exact ⟨_, _, rfl, rfl, by decide⟩
  | bool value => cases value <;> exact ⟨_, _, rfl, rfl, by decide⟩
  | int value =>
      simp only [dumps, dumpsInt]
      split
      · exact ⟨_, _, rfl, rfl, by decide⟩
      · simpa using numeral value.natAbs []
  | float literal =>
      simp only [dumps, dumpsFloat]
      split
      · exact ⟨_, _, rfl, rfl, by decide⟩
      · exact numeral literal.whole _
  | str value => exact ⟨_, _, rfl, rfl, by decide⟩
  | arr items => cases items <;> exact ⟨_, _, rfl, rfl, by decide⟩
  | obj fields => cases fields <;> exact ⟨_, _, rfl, rfl, by decide⟩

/-! The three parsing functions at one fuel. Each call spends a unit of fuel
and is made behind at least one character of the text it was given. -/

def ValuesRead (fuel : Nat) : Prop :=
  ∀ value rest, (dumps value).length < fuel → NumberEnds rest →
    parseValue fuel (dumps value ++ rest) = some (value, rest)

def ItemsRead (fuel : Nat) : Prop :=
  ∀ item tail rest, (dumps item).length + (dumpsItems tail).length < fuel →
    parseItems fuel (dumps item ++ (dumpsItems tail ++ rest)) = some (item :: tail, rest)

def fieldText (key : String) (value : Json) (behind : List Char) : List Char :=
  dumpsString key ++ ':' :: ' ' :: (dumps value ++ behind)

def FieldsRead (fuel : Nat) : Prop :=
  ∀ key value tail rest, (fieldText key value (dumpsFields tail)).length < fuel →
    parseFields fuel (fieldText key value (dumpsFields tail ++ rest)) =
      some ((key, value) :: tail, rest)

theorem parse_value_blank (fuel : Nat) (text : List Char) :
    parseValue fuel (' ' :: text) = parseValue fuel text := by
  cases fuel with
  | zero => rfl
  | succ fuel => simp only [parseValue, skip_space_blank]

theorem parse_items_blank (fuel : Nat) (text : List Char) :
    parseItems fuel (' ' :: text) = parseItems fuel text := by
  cases fuel with
  | zero => rfl
  | succ fuel => simp only [parseItems, parse_value_blank]

theorem parse_fields_blank (fuel : Nat) (text : List Char) :
    parseFields fuel (' ' :: text) = parseFields fuel text := by
  cases fuel with
  | zero => rfl
  | succ fuel => simp only [parseFields, skip_space_blank]

theorem parse_string_dumps (text : String) (rest : List Char) :
    parseString (text.toList.flatMap escapeChar ++ ('"' :: rest)) = some (text.toList, rest) :=
  parse_string_escaped text.toList rest

theorem items_read_succ (fuel : Nat) (values : ValuesRead fuel) (items : ItemsRead fuel) :
    ItemsRead (fuel + 1) := by
  intro item tail rest enough
  have ends : NumberEnds (dumpsItems tail ++ rest) := by
    cases tail <;> simp [dumpsItems, NumberEnds]
  have first := values item (dumpsItems tail ++ rest)
    (by cases tail <;> simp only [dumpsItems, List.length_cons] at enough <;> omega) ends
  simp only [parseItems, first]
  cases tail with
  | nil => simp [dumpsItems, isSpace]
  | cons next tail =>
      have later := items next tail rest (by
        simp only [dumpsItems, List.length_cons, List.length_append] at enough
        omega)
      simp [dumpsItems, isSpace, parse_items_blank, later]

theorem fields_read_succ (fuel : Nat) (values : ValuesRead fuel) (fields : FieldsRead fuel) :
    FieldsRead (fuel + 1) := by
  intro key value tail rest enough
  simp only [fieldText, dumpsString, List.length_cons, List.length_append] at enough
  have ends : NumberEnds (dumpsFields tail ++ rest) := by
    cases tail <;> simp [dumpsFields, NumberEnds]
  have first := values value (dumpsFields tail ++ rest) (by omega) ends
  have name := parse_string_dumps key (':' :: ' ' :: (dumps value ++ (dumpsFields tail ++ rest)))
  simp only [parseFields, fieldText, dumpsString, List.cons_append, List.append_assoc,
    List.nil_append, skip_space_cons '"' _ (by decide), name,
    skip_space_cons ':' _ (by decide), parse_value_blank, first, String.ofList_toList]
  cases tail with
  | nil => simp [dumpsFields, isSpace]
  | cons next tail =>
      have later := fields next.1 next.2 tail rest (by
        simp only [dumpsFields, dumpsString, fieldText, List.length_cons, List.length_append]
          at enough ⊢
        omega)
      simp only [fieldText] at later
      simp [dumpsFields, isSpace, parse_fields_blank, later]

theorem values_read_succ (fuel : Nat) (items : ItemsRead fuel) (fields : FieldsRead fuel) :
    ValuesRead (fuel + 1) := by
  intro value rest enough ends
  cases value with
  | null => simp [dumps, parseValue, parseWord, isSpace]
  | bool value => cases value <;> simp [dumps, parseValue, parseWord, isSpace]
  | int value => exact parse_value_int value fuel rest ends
  | float literal => exact parse_value_float literal fuel rest ends
  | str value =>
      simp [dumps, dumpsString, parseValue, isSpace, parse_string_dumps]
  | arr values =>
      cases values with
      | nil => simp [dumps, parseValue, isSpace]
      | cons item tail =>
          obtain ⟨char, text, head, solid, notClosing⟩ := dumps_head item
          have inner := items item tail rest (by
            simp only [dumps, List.length_cons, List.length_append] at enough
            omega)
          rw [head, List.cons_append] at inner
          simp only [dumps, head, List.cons_append, List.append_assoc, parseValue,
            skip_space_cons '[' _ (by decide), skip_space_cons char _ solid]
          simp [notClosing, inner]
  | obj pairs =>
      cases pairs with
      | nil => simp [dumps, parseValue, isSpace]
      | cons pair tail =>
          have inner := fields pair.1 pair.2 tail rest (by
            simp only [dumps, fieldText, List.length_cons, List.length_append] at enough ⊢
            omega)
          simp only [fieldText, dumpsString, List.cons_append, List.append_assoc,
            List.nil_append] at inner
          simp [dumps, dumpsString, parseValue, isSpace, inner]

theorem all_read (fuel : Nat) : ValuesRead fuel ∧ ItemsRead fuel ∧ FieldsRead fuel := by
  induction fuel with
  | zero =>
      exact ⟨fun _ _ enough => absurd enough (Nat.not_lt_zero _),
        fun _ _ _ enough => absurd enough (Nat.not_lt_zero _),
        fun _ _ _ _ enough => absurd enough (Nat.not_lt_zero _)⟩
  | succ fuel ih =>
      obtain ⟨values, items, fields⟩ := ih
      exact ⟨values_read_succ fuel items fields, items_read_succ fuel values items,
        fields_read_succ fuel values fields⟩

theorem parse_dumps (value : Json) : parse (dumps value) = some value := by
  have read := (all_read ((dumps value).length + 1)).1 value [] (Nat.lt_succ_self _) trivial
  rw [List.append_nil] at read
  simp [parse, read]

end Support.JsonText
