import BreweryPipeline.Support.FormatString

/-!
Braces before and after formatting. Outside the fields a template spends two
braces on each one it prints, and a field spends at least one of either kind and
prints none, as long as it reads no attribute. So a template that prints as many
braces as it has apart from one field has no others.
-/

namespace Support.FormatString

def Braceless (text : Text) : Prop := '{' ∉ text ∧ '}' ∉ text

def Balanced (text : Text) : Prop := text.count '}' = text.count '{'

theorem map_ok {α β : Type} {value : Except FormatError α} {f : α → β} {result : β}
    (mapped : value.map f = .ok result) : ∃ inner, value = .ok inner ∧ f inner = result := by
  cases value with
  | error error => simp [Except.map] at mapped
  | ok inner => exact ⟨inner, rfl, Except.ok.inj mapped⟩

theorem bind_ok {α β : Type} {value : Except FormatError α} {f : α → Except FormatError β}
    {result : β} (bound : value >>= f = .ok result) :
    ∃ inner, value = .ok inner ∧ f inner = .ok result := by
  cases value with
  | error error => cases bound
  | ok inner => exact ⟨inner, rfl, bound⟩

section Braceless
variable {left right text : Text}

@[simp] theorem braceless_nil : Braceless [] := ⟨List.not_mem_nil, List.not_mem_nil⟩

@[simp] theorem braceless_append : Braceless (left ++ right) ↔ Braceless left ∧ Braceless right := by
  simp only [Braceless, List.mem_append, not_or]
  exact and_and_and_comm

@[simp] theorem braceless_cons (char : Char) :
    Braceless (char :: text) ↔ (char ≠ '{' ∧ char ≠ '}') ∧ Braceless text := by
  simp only [Braceless, List.mem_cons, not_or, ne_eq, @eq_comm _ char]
  exact and_and_and_comm

theorem braceless_counts : Braceless text ↔ text.count '{' = 0 ∧ text.count '}' = 0 := by
  rw [Braceless, List.count_eq_zero, List.count_eq_zero]

theorem Braceless.subset (braceless : Braceless right) (inside : left ⊆ right) : Braceless left :=
  ⟨fun member => braceless.1 (inside member), fun member => braceless.2 (inside member)⟩

theorem braceless_flatMap (f : Char → Text) (braceless : Braceless text)
    (each : ∀ char, char ≠ '{' ∧ char ≠ '}' → Braceless (f char)) : Braceless (text.flatMap f) := by
  induction text with
  | nil => exact braceless_nil
  | cons char rest ih =>
      obtain ⟨head, tail⟩ := (braceless_cons char).mp braceless
      exact braceless_append.mpr ⟨each char head, ih tail⟩

theorem braceless_replicate (count : Nat) (char : Char) (plain : char ≠ '{' ∧ char ≠ '}') :
    Braceless (List.replicate count char) := by
  constructor <;> intro member
  · exact plain.1 (List.eq_of_mem_replicate member).symm
  · exact plain.2 (List.eq_of_mem_replicate member).symm

end Braceless

/-! What the scanners read. -/

theorem scan_name_text (inside : Bool) (text name rest : Text) (mark : Char)
    (scanned : scanName inside text = .ok (name, mark, rest)) :
    text = name ++ mark :: rest ∧ (mark = '}' ∨ mark = ':' ∨ mark = '!') := by
  induction text generalizing inside name with
  | nil => cases inside <;> simp [scanName] at scanned
  | cons char tail ih =>
      have later (inside : Bool) (mapped : (scanName inside tail).map
          (fun scanned => (char :: scanned.1, scanned.2)) = .ok (name, mark, rest)) :
          char :: tail = name ++ mark :: rest ∧ (mark = '}' ∨ mark = ':' ∨ mark = '!') := by
        obtain ⟨⟨front, behind⟩, read, same⟩ := map_ok mapped
        obtain ⟨rfl, rfl⟩ := Prod.mk.inj same
        obtain ⟨split, closes⟩ := ih inside front read
        exact ⟨by rw [split, List.cons_append], closes⟩
      cases inside with
      | true => exact later _ scanned
      | false =>
          simp only [scanName] at scanned
          split at scanned
          · cases scanned
          split at scanned
          · rename_i closes
            cases scanned
            exact ⟨rfl, closes⟩
          · exact later _ scanned

theorem scan_spec_text (depth : Nat) (text spec rest : Text)
    (scanned : scanSpec depth text = .ok (spec, rest)) :
    text = spec ++ '}' :: rest ∧ spec.count '}' = spec.count '{' + depth := by
  induction text generalizing depth spec with
  | nil => cases depth <;> simp [scanSpec] at scanned
  | cons char tail ih =>
      have later (depth : Nat) (mapped : (scanSpec depth tail).map
          (fun scanned => (char :: scanned.1, scanned.2)) = .ok (spec, rest)) :
          ∃ front, spec = char :: front ∧ tail = front ++ '}' :: rest ∧
            front.count '}' = front.count '{' + depth := by
        obtain ⟨⟨front, behind⟩, read, same⟩ := map_ok mapped
        obtain ⟨rfl, rfl⟩ := Prod.mk.inj same
        exact ⟨front, rfl, ih depth front read⟩
      simp only [scanSpec] at scanned
      split at scanned
      · rename_i opening
        obtain ⟨front, rfl, split, balance⟩ := later _ scanned
        refine ⟨by rw [split, List.cons_append], ?_⟩
        simp only [opening, List.count_cons_self, List.count_cons_of_ne (by decide : '{' ≠ '}')]
        omega
      split at scanned
      · rename_i closing
        cases depth with
        | zero =>
            cases scanned
            exact ⟨by rw [closing, List.nil_append], rfl⟩
        | succ depth =>
            obtain ⟨front, rfl, split, balance⟩ := later _ scanned
            refine ⟨by rw [split, List.cons_append], ?_⟩
            simp only [closing, List.count_cons_self, List.count_cons_of_ne (by decide : '}' ≠ '{')]
            omega
      · rename_i notOpening notClosing
        obtain ⟨front, rfl, split, balance⟩ := later _ scanned
        refine ⟨by rw [split, List.cons_append], ?_⟩
        rw [List.count_cons_of_ne notOpening, List.count_cons_of_ne notClosing, balance]

/-- A field is its name, marks with the conversion, its format and the closing brace. -/
theorem parse_field_text (text rest : Text) (field : Field)
    (parsed : parseField text = .ok (field, rest)) :
    ∃ marks, text = field.name ++ (marks ++ (field.spec ++ '}' :: rest)) ∧ Balanced field.spec ∧
      (Braceless field.conversion.toList → Braceless marks) := by
  unfold parseField at parsed
  split at parsed
  · cases parsed
  rename_i name mark behind scanned
  obtain ⟨split, closes⟩ := scan_name_text false text name behind mark scanned
  split at parsed
  · rename_i plain
    cases parsed
    exact ⟨[], by rw [split, plain]; rfl, rfl, fun _ => braceless_nil⟩
  split at parsed
  · rename_i formatted
    obtain ⟨⟨spec, after⟩, read, same⟩ := map_ok parsed
    cases same
    obtain ⟨later, balance⟩ := scan_spec_text 0 behind spec after read
    exact ⟨[':'], by rw [split, formatted, later]; rfl, balance, fun _ => by simp⟩
  · rename_i notPlain notFormatted
    have converts : mark = '!' := (closes.resolve_left notPlain).resolve_left notFormatted
    split at parsed
    · rename_i char after
      cases parsed
      exact ⟨['!', char], by rw [split, converts]; rfl, rfl, fun plain => by simpa using plain⟩
    · rename_i char written
      obtain ⟨⟨spec, after⟩, read, same⟩ := map_ok parsed
      cases same
      obtain ⟨later, balance⟩ := scan_spec_text 0 written spec after read
      exact ⟨['!', char, ':'], by rw [split, converts, later]; rfl, balance, fun plain => by
        simpa using plain⟩
    · cases parsed

theorem span_split (test : Char → Bool) (text front behind : Text) (char : Char)
    (spanned : text.span test = (front, char :: behind)) :
    text = front ++ char :: behind ∧ test char = false := by
  rw [List.span_eq_takeWhile_dropWhile, Prod.mk.injEq] at spanned
  obtain ⟨taken, dropped⟩ := spanned
  constructor
  · rw [← taken, ← dropped, List.takeWhile_append_dropWhile]
  · have stop := List.head?_dropWhile_not test text
    rw [dropped] at stop
    simpa using stop

/-! What a field prints. -/
section Value
variable (python : Interpreter)

theorem decimal_plain (char : Char) (digit : isDecimal python char = true) :
    char ≠ '{' ∧ char ≠ '}' := by
  constructor <;> rintro rfl <;> simp [isDecimal, decimalDigit] at digit

theorem read_integer_braceless (total : Nat) (text : Text) (number : Nat)
    (read : readInteger python total text = .ok (some number)) : Braceless text := by
  induction text generalizing total with
  | nil => exact braceless_nil
  | cons char rest ih =>
      simp only [readInteger] at read
      split at read
      · cases read
      rename_i digit found
      split at read
      · cases read
      · exact (braceless_cons char).mpr
          ⟨decimal_plain python char (by rw [isDecimal, found]; rfl), ih _ read⟩

theorem get_integer_braceless (text : Text) (number : Nat)
    (read : getInteger python text = .ok (some number)) : Braceless text := by
  unfold getInteger at read
  split at read
  · cases read
  · exact read_integer_braceless python 0 text number read

theorem argument_mem (arguments : Arguments) (first value : Text)
    (found : argument python arguments first = .ok value) : (first, value) ∈ arguments := by
  unfold argument at found
  split at found
  · cases found
  · cases found
  split at found
  · cases found
  split at found
  · rename_i stored
    cases found
    obtain ⟨before, after, split, _⟩ := List.lookup_eq_some_iff.mp stored
    exact split ▸ List.mem_append_right before List.mem_cons_self
  · cases found

/-- An accessor that leads to a text names an item by its number. -/
theorem access_item (fuel : Nat) (value rest result : Text) (mark : Char)
    (reached : access python (fuel + 1) value (mark :: rest) = .ok (.text result)) :
    mark = '[' ∧ ∃ key behind index item, rest = key ++ ']' :: behind ∧
      getInteger python key = .ok (some index) ∧ value[index]? = some item ∧
      access python fuel [item] behind = .ok (.text result) := by
  simp only [access] at reached
  split at reached
  · split at reached <;> cases reached
  split at reached
  · rename_i bracket
    split at reached
    · cases reached
    rename_i key close behind spanned
    split at reached
    · cases reached
    · split at reached <;> cases reached
    rename_i index number
    split at reached
    · cases reached
    rename_i item stored
    obtain ⟨split, closes⟩ := span_split _ rest key behind close spanned
    have bracketClosed : close = ']' := by simpa using closes
    exact ⟨bracket, key, behind, index, item, bracketClosed ▸ split, number, stored, reached⟩
  · cases reached

/-- A value reached through items alone was reached by a name without braces. -/
theorem access_braceless (fuel : Nat) (value accessors result : Text) (braceless : Braceless value)
    (reached : access python fuel value accessors = .ok (.text result)) :
    Braceless accessors ∧ Braceless result := by
  induction fuel generalizing value accessors with
  | zero =>
      cases accessors with
      | nil =>
          cases reached
          exact ⟨braceless_nil, braceless⟩
      | cons mark rest => cases reached
  | succ fuel ih =>
      cases accessors with
      | nil =>
          cases reached
          exact ⟨braceless_nil, braceless⟩
      | cons mark rest =>
          obtain ⟨rfl, key, behind, index, item, rfl, number, stored, later⟩ :=
            access_item python fuel value rest result mark reached
          have single : Braceless [item] := braceless.subset fun char member =>
            List.mem_singleton.mp member ▸ List.mem_of_getElem? stored
          obtain ⟨front, shown⟩ := ih [item] behind single later
          have digits := get_integer_braceless python key index number
          exact ⟨by simp [digits, front], shown⟩

theorem digit_plain (number : Nat) :
    Nat.digitChar (number % 16) ≠ '{' ∧ Nat.digitChar (number % 16) ≠ '}' := by
  have digits : ∀ digit < 16, Nat.digitChar digit ≠ '{' ∧ Nat.digitChar digit ≠ '}' := by decide
  exact digits _ (Nat.mod_lt _ (by decide))

theorem hex_digits_braceless (width code : Nat) : Braceless (hexDigits width code) := by
  induction width generalizing code with
  | zero => exact braceless_nil
  | succ width ih =>
      simp [hexDigits, ih, digit_plain]

theorem escape_code_braceless (char : Char) : Braceless (escapeCode char) := by
  unfold escapeCode
  split
  · simp [hex_digits_braceless]
  split <;> simp [hex_digits_braceless]

theorem repr_char_braceless (printable : Char → Bool) (quote char : Char)
    (plain : char ≠ '{' ∧ char ≠ '}') : Braceless (reprChar printable quote char) := by
  have raw : Braceless [char] := by simp [plain]
  have escaped := escape_code_braceless char
  unfold reprChar
  split
  · simp [plain]
  -- A control character that has a name of its own.
  iterate 3
    split
    · simp
  split
  · exact escaped
  split
  · exact raw
  split
  · exact raw
  · exact escaped

theorem repr_text_braceless (printable : Char → Bool) (value : Text) (braceless : Braceless value) :
    Braceless (reprText printable value) := by
  have quote : quoteOf value ≠ '{' ∧ quoteOf value ≠ '}' := by
    unfold quoteOf
    split <;> decide
  have inner := braceless_flatMap (reprChar printable (quoteOf value)) braceless
    fun char plain => repr_char_braceless printable (quoteOf value) char plain
  simp [reprText, quote, inner]

theorem convert_braceless (value result : Text) (conversion : Option Char)
    (braceless : Braceless value) (converted : convert python value conversion = .ok result) :
    Braceless conversion.toList ∧ Braceless result := by
  cases conversion with
  | none =>
      cases converted
      exact ⟨braceless_nil, braceless⟩
  | some mark =>
      simp only [convert] at converted
      split at converted
      · rename_i same
        cases converted
        exact ⟨by simp [same], braceless⟩
      split at converted
      · rename_i same
        cases converted
        exact ⟨by simp [same], repr_text_braceless _ value braceless⟩
      split at converted
      · rename_i same
        cases converted
        exact ⟨by simp [same], repr_text_braceless _ value braceless⟩
      · cases converted

theorem scan_alignment_text (spec : Text) :
    spec = (scanAlignment spec).1.fill.toList ++
        ((scanAlignment spec).1.alignment.toList ++ (scanAlignment spec).2) ∧
      Braceless (scanAlignment spec).1.alignment.toList := by
  have marks (mark : Char) (aligns : isAlignment mark = true) : Braceless [mark] := by
    have plain : mark ≠ '{' ∧ mark ≠ '}' := by
      constructor <;> rintro rfl <;> simp [isAlignment] at aligns
    simp [plain]
  match spec with
  | [] => exact ⟨rfl, braceless_nil⟩
  | [mark] =>
      by_cases aligns : isAlignment mark = true
      · simp only [scanAlignment, aligns, if_true]
        exact ⟨rfl, marks mark aligns⟩
      · simp only [scanAlignment, aligns]
        exact ⟨rfl, braceless_nil⟩
  | fill :: mark :: rest =>
      by_cases aligns : isAlignment mark = true
      · simp only [scanAlignment, aligns, if_true]
        exact ⟨rfl, marks mark aligns⟩
      · by_cases first : isAlignment fill = true
        · simp only [scanAlignment, aligns, first, if_true]
          exact ⟨rfl, marks fill first⟩
        · simp only [scanAlignment, aligns, first]
          exact ⟨rfl, braceless_nil⟩

theorem scan_width_text (text rest : Text) (width : Option Nat)
    (scanned : scanWidth python text = .ok (width, rest)) :
    ∃ front, Braceless front ∧ text = front ++ rest := by
  simp only [scanWidth, List.span_eq_takeWhile_dropWhile] at scanned
  obtain ⟨number, _, same⟩ := map_ok scanned
  obtain ⟨_, behind⟩ := Prod.mk.inj same
  refine ⟨text.takeWhile (isDecimal python), ?_, ?_⟩
  · constructor <;> intro member
    · exact (decimal_plain python _ (List.mem_takeWhile_imp member)).1 rfl
    · exact (decimal_plain python _ (List.mem_takeWhile_imp member)).2 rfl
  · rw [← behind, List.takeWhile_append_dropWhile]

theorem scan_precision_text (text rest : Text) (precision : Option Nat)
    (scanned : scanPrecision python text = .ok (precision, rest)) :
    ∃ front, Braceless front ∧ text = front ++ rest := by
  unfold scanPrecision at scanned
  split at scanned
  · split at scanned
    · cases scanned
    · cases scanned
    rename_i behind _ _ _ read
    cases scanned
    obtain ⟨front, braceless, split⟩ := scan_width_text python behind rest _ read
    exact ⟨'.' :: front, by simp [braceless], by rw [split]; rfl⟩
  · cases scanned
    exact ⟨[], braceless_nil, rfl⟩

theorem balanced_front (front behind : Text) (braceless : Braceless behind)
    (balanced : Balanced (front ++ behind)) : Balanced front := by
  obtain ⟨noOpening, noClosing⟩ := braceless_counts.mp braceless
  simpa [Balanced, List.count_append, noOpening, noClosing] using balanced

theorem pad_braceless (fill alignment : Char) (width : Nat) (text : Text)
    (plain : fill ≠ '{' ∧ fill ≠ '}') (braceless : Braceless text) :
    Braceless (pad fill alignment width text) :=
  braceless_append.mpr ⟨braceless_replicate _ fill plain,
    braceless_append.mpr ⟨braceless, braceless_replicate _ fill plain⟩⟩

theorem fill_plain (fill : Option Char) (other : Char) (plain : other ≠ '{' ∧ other ≠ '}')
    (balanced : Balanced fill.toList) : fill.getD other ≠ '{' ∧ fill.getD other ≠ '}' := by
  cases fill with
  | none => exact plain
  | some fill => constructor <;> rintro rfl <;> simp [Balanced] at balanced

theorem behind_zero_braceless (rest : Text) (zero : Bool) (leading : zero = true → rest.head? = some '0')
    (braceless : Braceless (if zero then rest.tail else rest)) : Braceless rest := by
  cases zero with
  | false => exact braceless
  | true =>
      rw [List.eq_cons_of_mem_head? (leading rfl)]
      simpa using braceless

/-- A text that is formatted is cut and padded, and the format ends without braces. -/
theorem format_text_padded (value spec result : Text)
    (formatted : formatText python value spec = .ok result) :
    Braceless (scanAlignment spec).2 ∧ ∃ (other mark : Char) (width kept : Nat),
      (other = '0' ∨ other = ' ') ∧
      result = pad ((scanAlignment spec).1.fill.getD other) mark width (value.take kept) := by
  unfold formatText at formatted
  generalize scanAlignment spec = scanned at formatted ⊢
  obtain ⟨padding, rest⟩ := scanned
  simp only at formatted ⊢
  generalize zero : (padding.fill.isNone && rest.head? == some '0') = zeros at formatted
  split at formatted
  · cases formatted
  split at formatted
  · cases formatted
  rename_i width behind read
  split at formatted
  · cases formatted
  rename_i precision ending readPrecision
  split at formatted
  · rename_i ends
    cases formatted
    constructor
    · obtain ⟨digits, digitsPlain, splitWidth⟩ := scan_width_text python _ behind width read
      obtain ⟨point, pointPlain, splitPrecision⟩ :=
        scan_precision_text python behind ending precision readPrecision
      have endingPlain : Braceless ending := by
        rcases ends with rfl | rfl
        · exact braceless_nil
        · simp
      apply behind_zero_braceless rest zeros
      · rintro rfl
        simpa using (Bool.and_eq_true_iff.mp zero).2
      · rw [splitWidth, splitPrecision]
        exact braceless_append.mpr ⟨digitsPlain, braceless_append.mpr ⟨pointPlain, endingPlain⟩⟩
    · exact ⟨_, _, _, _, by cases zeros <;> simp, rfl⟩
  · cases formatted

/-- The one place for a brace in a format is the fill, where it would be alone. -/
theorem format_text_braceless (value spec result : Text) (braceless : Braceless value)
    (balanced : Balanced spec) (formatted : formatText python value spec = .ok result) :
    Braceless result := by
  obtain ⟨split, aligned⟩ := scan_alignment_text spec
  obtain ⟨behind, other, mark, width, kept, blank, rfl⟩ :=
    format_text_padded python value spec result formatted
  have fill : Balanced (scanAlignment spec).1.fill.toList :=
    balanced_front _ _ (braceless_append.mpr ⟨aligned, behind⟩) (split ▸ balanced)
  have plain : other ≠ '{' ∧ other ≠ '}' := by rcases blank with rfl | rfl <;> decide
  exact pad_braceless _ mark width _ (fill_plain _ other plain fill)
    (braceless.subset (List.take_subset kept value))

end Value

/-! What a template prints. -/
section Format
variable (python : Interpreter) (arguments : Arguments)
variable (silent : ∀ owner accessors conversion spec shown,
  python.member owner accessors conversion spec ≠ .ok shown)
variable (plain : ∀ name value, (name, value) ∈ arguments → Braceless name ∧ Braceless value)

include silent plain in
theorem render_field_braceless (expand : Text → Except FormatError Text) (field : Field) (shown : Text)
    (balanced : Balanced field.spec)
    (expands : ∀ spec, expand field.spec = .ok spec → Balanced spec)
    (rendered : renderField python arguments expand field = .ok shown) :
    Braceless field.name ∧ Braceless field.conversion.toList ∧ Braceless shown := by
  unfold renderField at rendered
  rw [List.span_eq_takeWhile_dropWhile] at rendered
  obtain ⟨value, found, rendered⟩ := bind_ok rendered
  obtain ⟨operand, reached, rendered⟩ := bind_ok rendered
  have spec_balanced (spec : Text)
      (expanded : (if '{' ∈ field.spec then expand field.spec else .ok field.spec) = .ok spec) :
      Balanced spec := by
    split at expanded
    · exact expands spec expanded
    · exact Except.ok.inj expanded ▸ balanced
  obtain ⟨first, stored⟩ := plain _ _ (argument_mem python arguments _ value found)
  cases operand with
  | member owner accessors =>
      obtain ⟨spec, _, printed⟩ := bind_ok rendered
      exact absurd printed (silent owner accessors field.conversion spec shown)
  | text result =>
      obtain ⟨converted, conversion, rendered⟩ := bind_ok rendered
      obtain ⟨spec, expanded, formatted⟩ := bind_ok rendered
      obtain ⟨later, reachable⟩ := access_braceless python _ value _ result stored reached
      obtain ⟨mark, convertible⟩ := convert_braceless python result converted _ reachable conversion
      refine ⟨?_, mark, format_text_braceless python converted spec shown convertible
        (spec_balanced spec expanded) formatted⟩
      rw [← List.takeWhile_append_dropWhile (p := fun char => !nameEnds char) (l := field.name)]
      exact braceless_append.mpr ⟨first, later⟩

/-- `nested` counts the braces that belong to fields, of either kind. -/
def BracesSpent (nested : Nat) (template shown : Text) : Prop :=
  template.count '{' = 2 * shown.count '{' + nested ∧
    template.count '}' = 2 * shown.count '}' + nested ∧
    (nested = 0 → shown.length ≤ template.length)

theorem BracesSpent.balanced {nested : Nat} {template shown : Text}
    (spent : BracesSpent nested template shown) (balanced : Balanced template) : Balanced shown := by
  obtain ⟨openings, closings, _⟩ := spent
  unfold Balanced at balanced ⊢
  omega

theorem BracesSpent.plain_char {nested : Nat} {template shown : Text} (char : Char)
    (plain : char ≠ '{' ∧ char ≠ '}') (spent : BracesSpent nested template shown) :
    BracesSpent nested (char :: template) (char :: shown) := by
  obtain ⟨openings, closings, grows⟩ := spent
  unfold BracesSpent
  rw [List.count_cons_of_ne plain.1, List.count_cons_of_ne plain.2, List.count_cons_of_ne plain.1,
    List.count_cons_of_ne plain.2]
  exact ⟨openings, closings, fun none => Nat.succ_le_succ (grows none)⟩

theorem BracesSpent.doubled {nested : Nat} {template shown : Text} (brace : Char)
    (either : brace = '{' ∨ brace = '}') (spent : BracesSpent nested template shown) :
    BracesSpent nested (brace :: brace :: template) (brace :: shown) := by
  obtain ⟨openings, closings, grows⟩ := spent
  unfold BracesSpent
  rcases either with rfl | rfl <;> simp only [List.count_cons, List.length_cons] <;>
    refine ⟨?_, ?_, fun none => ?_⟩ <;> simp <;> have := grows <;> omega

theorem BracesSpent.field {nested : Nat} {head spec behind shown later : Text}
    (headPlain : Braceless head) (shownPlain : Braceless shown) (balanced : Balanced spec)
    (spent : BracesSpent nested behind later) :
    BracesSpent (1 + spec.count '{' + nested) ('{' :: (head ++ (spec ++ '}' :: behind)))
      (shown ++ later) := by
  obtain ⟨openings, closings, _⟩ := spent
  obtain ⟨headOpenings, headClosings⟩ := braceless_counts.mp headPlain
  obtain ⟨shownOpenings, shownClosings⟩ := braceless_counts.mp shownPlain
  unfold Balanced at balanced
  unfold BracesSpent
  simp only [List.count_cons, List.count_append, headOpenings, headClosings, shownOpenings, shownClosings]
  refine ⟨?_, ?_, fun none => absurd none (by omega)⟩ <;> simp <;> omega

/-- What one turn of the loop can do. -/
theorem format_with_cases (expand : Text → Except FormatError Text) (fuel : Nat) (char : Char)
    (rest shown : Text)
    (formatted : formatWith python arguments expand (fuel + 1) (char :: rest) = .ok shown) :
    (∃ tail later, (char = '{' ∨ char = '}') ∧ rest = char :: tail ∧
      formatWith python arguments expand fuel tail = .ok later ∧ shown = char :: later) ∨
    (∃ field behind printed later, char = '{' ∧ parseField rest = .ok (field, behind) ∧
      renderField python arguments expand field = .ok printed ∧
      formatWith python arguments expand fuel behind = .ok later ∧ shown = printed ++ later) ∨
    (∃ later, (char ≠ '{' ∧ char ≠ '}') ∧
      formatWith python arguments expand fuel rest = .ok later ∧ shown = char :: later) := by
  simp only [formatWith] at formatted
  split at formatted
  · rename_i opening
    split at formatted
    · cases formatted
    rename_i next tail
    split at formatted
    · rename_i again
      obtain ⟨later, behind, rfl⟩ := map_ok formatted
      exact .inl ⟨tail, later, .inl opening, by rw [opening, again], behind, by rw [opening]⟩
    split at formatted
    · cases formatted
    rename_i field behind parsed
    split at formatted
    · cases formatted
    rename_i printed rendered
    obtain ⟨later, others, rfl⟩ := map_ok formatted
    exact .inr (.inl ⟨field, behind, printed, later, opening, parsed, rendered, others, rfl⟩)
  split at formatted
  · rename_i closing
    split at formatted
    · rename_i tail
      obtain ⟨later, behind, rfl⟩ := map_ok formatted
      exact .inl ⟨tail, later, .inr closing, by rw [closing], behind, by rw [closing]⟩
    · cases formatted
  · rename_i notOpening notClosing
    obtain ⟨later, behind, rfl⟩ := map_ok formatted
    exact .inr (.inr ⟨later, ⟨notOpening, notClosing⟩, behind, rfl⟩)

include silent plain in
theorem format_with_braces (expand : Text → Except FormatError Text)
    (expands : ∀ spec shown, Balanced spec → expand spec = .ok shown → Balanced shown) (fuel : Nat)
    (template shown : Text) (formatted : formatWith python arguments expand fuel template = .ok shown) :
    ∃ nested, BracesSpent nested template shown := by
  induction fuel generalizing template shown with
  | zero =>
      cases template with
      | nil =>
          cases formatted
          exact ⟨0, rfl, rfl, fun _ => Nat.le_refl _⟩
      | cons char rest => cases formatted
  | succ fuel ih =>
      cases template with
      | nil =>
          cases formatted
          exact ⟨0, rfl, rfl, fun _ => Nat.le_refl _⟩
      | cons char rest =>
          rcases format_with_cases python arguments expand fuel char rest shown formatted with
            ⟨tail, later, brace, rfl, behind, rfl⟩ |
            ⟨field, behind, printed, later, rfl, parsed, rendered, others, rfl⟩ |
            ⟨later, neither, behind, rfl⟩
          · obtain ⟨nested, spent⟩ := ih tail later behind
            exact ⟨nested, spent.doubled char brace⟩
          · obtain ⟨nested, spent⟩ := ih behind later others
            obtain ⟨marks, split, balanced, marksPlain⟩ := parse_field_text rest behind field parsed
            obtain ⟨name, conversion, printedPlain⟩ :=
              render_field_braceless python arguments silent plain expand field printed balanced
                (fun spec => expands field.spec spec balanced) rendered
            rw [split, ← List.append_assoc field.name]
            have headPlain := braceless_append.mpr ⟨name, marksPlain conversion⟩
            exact ⟨_, spent.field headPlain printedPlain balanced⟩
          · obtain ⟨nested, spent⟩ := ih rest later behind
            exact ⟨nested, spent.plain_char char neither⟩

include silent plain in
theorem format_depth_braces (depth : Nat) (template shown : Text)
    (formatted : formatDepth python arguments depth template = .ok shown) :
    ∃ nested, BracesSpent nested template shown := by
  induction depth generalizing template shown with
  | zero => cases formatted
  | succ depth ih =>
      refine format_with_braces python arguments silent plain (formatDepth python arguments depth) ?_
        template.length template shown formatted
      intro spec expanded balanced nested
      obtain ⟨spentNested, spent⟩ := ih spec expanded nested
      exact spent.balanced balanced

include silent plain in
/-- A template with one brace of either kind more than it prints spends it on a
field, unless it only grew shorter. -/
theorem format_sole_field (template shown : Text)
    (formatted : format python arguments template = .ok shown)
    (openings : template.count '{' = shown.count '{' + 1)
    (closings : template.count '}' = shown.count '}' + 1) (longer : template.length < shown.length) :
    Braceless shown := by
  obtain ⟨nested, spentOpenings, spentClosings, shorter⟩ :=
    format_depth_braces python arguments silent plain 2 template shown formatted
  have field : nested ≠ 0 := fun none => absurd (shorter none) (Nat.not_le.mpr longer)
  exact braceless_counts.mpr ⟨by omega, by omega⟩

end Format

end Support.FormatString
