import BreweryPipeline.Support.FormatBraces

/-!
Templates made of literal text without braces and of fields that only name an
argument. They format, whatever the interpreter, to their pieces with each name
replaced by its value.
-/

namespace Support.FormatString

inductive Piece where
  | literal (text : Text)
  | named (name : Text)

def Piece.written : Piece → Text
  | .literal text => text
  | .named name => '{' :: (name ++ ['}'])

def Piece.shown (arguments : Arguments) : Piece → Text
  | .literal text => text
  | .named name => (arguments.lookup name).getD []

/-- A name whose first character is no digit and that holds no mark. -/
structure PlainName (name : Text) : Prop where
  head : ∃ first ∈ name.head?, first.toNat < 128 ∧ first.isDigit = false
  unmarked : ∀ char ∈ name, char ∉ ['{', '}', ':', '!', '.', '[']

def Piece.Plain (arguments : Arguments) : Piece → Prop
  | .literal text => Braceless text
  | .named name => PlainName name ∧ (arguments.lookup name).isSome

@[simp] theorem plain_literal (arguments : Arguments) (text : Text) :
    (Piece.literal text).Plain arguments ↔ Braceless text := Iff.rfl

@[simp] theorem plain_named (arguments : Arguments) (name : Text) :
    (Piece.named name).Plain arguments ↔ PlainName name ∧ (arguments.lookup name).isSome := Iff.rfl

def template (pieces : List Piece) : Text := pieces.flatMap Piece.written

def filled (arguments : Arguments) (pieces : List Piece) : Text :=
  pieces.flatMap (Piece.shown arguments)

theorem scan_name_plain (name rest : Text)
    (unmarked : ∀ char ∈ name, char ∉ ['{', '}', ':', '!', '.', '[']) :
    scanName false (name ++ '}' :: rest) = .ok (name, '}', rest) := by
  induction name with
  | nil => rfl
  | cons char later ih =>
      have here := unmarked char List.mem_cons_self
      simp only [List.mem_cons, List.not_mem_nil, or_false, not_or] at here
      obtain ⟨opening, closing, colon, bang, _, bracket⟩ := here
      have marks : ¬(char = '}' ∨ char = ':' ∨ char = '!') := by simp [closing, colon, bang]
      have outside : (char == '[') = false := beq_false_of_ne bracket
      rw [List.cons_append, scanName, if_neg opening, if_neg marks, outside,
        ih fun char member => unmarked char (List.mem_cons_of_mem _ member)]
      rfl

theorem parse_field_plain (name rest : Text) (plain : PlainName name) :
    parseField (name ++ '}' :: rest) = .ok (⟨name, none, []⟩, rest) := by
  unfold parseField
  rw [scan_name_plain name rest plain.unmarked]
  rfl

section Fields
variable (python : Interpreter) (arguments : Arguments)

theorem argument_plain (name value : Text) (plain : PlainName name)
    (stored : arguments.lookup name = some value) : argument python arguments name = .ok value := by
  obtain ⟨first, head, ascii, letter⟩ := plain.head
  cases name with
  | nil => cases head
  | cons char rest =>
      have same : char = first := Option.some.inj head
      have undigit : decimalDigit python char = none := by
        rw [decimalDigit, same, if_pos ascii, letter]
        rfl
      have read : getInteger python (char :: rest) = .ok none := by
        rw [getInteger, if_neg (List.cons_ne_nil _ _), readInteger, undigit]
      rw [argument, read]
      simp [stored]

theorem format_text_unformatted (value : Text) : formatText python value [] = .ok value := by
  have width : scanWidth python [] = .ok (none, []) := rfl
  simp [formatText, scanAlignment, width, scanPrecision, pad]

theorem render_field_plain (expand : Text → Except FormatError Text) (name value : Text)
    (plain : PlainName name) (stored : arguments.lookup name = some value) :
    renderField python arguments expand ⟨name, none, []⟩ = .ok value := by
  have unread : ∀ char ∈ name, (!nameEnds char) = true := by
    intro char member
    have marks := plain.unmarked char member
    simp only [List.mem_cons, List.not_mem_nil, or_false, not_or] at marks
    simp [nameEnds, marks]
  have whole : name.span (fun char => !nameEnds char) = (name, []) := by
    rw [List.span_eq_takeWhile_dropWhile, List.takeWhile_eq_self_iff.mpr unread,
      List.dropWhile_eq_nil_iff.mpr unread]
  unfold renderField
  rw [whole]
  simp only [argument_plain python arguments name value plain stored]
  exact format_text_unformatted python value

variable (expand : Text → Except FormatError Text)

theorem format_with_literal (fuel : Nat) (front behind : Text) (braceless : Braceless front) :
    formatWith python arguments expand (front.length + fuel) (front ++ behind) =
      (formatWith python arguments expand fuel behind).map (front ++ ·) := by
  induction front with
  | nil =>
      rw [List.length_nil, Nat.zero_add, List.nil_append]
      cases formatWith python arguments expand fuel behind <;> rfl
  | cons char rest ih =>
      obtain ⟨⟨opening, closing⟩, later⟩ := (braceless_cons char).mp braceless
      rw [List.length_cons, Nat.add_right_comm, List.cons_append]
      simp only [formatWith, if_neg opening, if_neg closing, ih later]
      cases formatWith python arguments expand fuel behind <;> rfl

theorem format_with_name (fuel : Nat) (name value behind : Text) (plain : PlainName name)
    (stored : arguments.lookup name = some value) :
    formatWith python arguments expand (fuel + 1) ('{' :: (name ++ '}' :: behind)) =
      (formatWith python arguments expand fuel behind).map (value ++ ·) := by
  have parsed := parse_field_plain name behind plain
  obtain ⟨first, head, _⟩ := plain.head
  cases name with
  | nil => cases head
  | cons char rest =>
      have opening : char ≠ '{' := fun same => plain.unmarked char List.mem_cons_self (by simp [same])
      rw [List.cons_append] at parsed ⊢
      simp only [formatWith, if_true, if_neg opening, parsed,
        render_field_plain python arguments expand _ value plain stored]

theorem format_with_pieces (fuel : Nat) (pieces : List Piece)
    (plain : ∀ piece ∈ pieces, piece.Plain arguments) (enough : (template pieces).length ≤ fuel) :
    formatWith python arguments expand fuel (template pieces) = .ok (filled arguments pieces) := by
  induction pieces generalizing fuel with
  | nil => cases fuel <;> rfl
  | cons piece rest ih =>
      have here := plain piece List.mem_cons_self
      have later := fun piece member => plain piece (List.mem_cons_of_mem _ member)
      rw [template, List.flatMap_cons, ← template] at enough ⊢
      rw [List.length_append] at enough
      cases piece with
      | literal text =>
          have split : fuel = text.length + (fuel - text.length) := by
            simp [Piece.written] at enough
            omega
          rw [split, Piece.written, format_with_literal python arguments expand _ text _ here,
            ih _ later (by simp [Piece.written] at enough; omega)]
          rfl
      | named name =>
          obtain ⟨plainName, some⟩ := here
          obtain ⟨value, stored⟩ := Option.isSome_iff_exists.mp some
          have split : fuel = fuel - 1 + 1 := by simp [Piece.written] at enough; omega
          have field : Piece.written (.named name) ++ template rest =
              '{' :: (name ++ '}' :: template rest) := by simp [Piece.written]
          rw [split, field, format_with_name python arguments expand _ name value _ plainName stored,
            ih _ later (by simp [Piece.written] at enough; omega)]
          simp [filled, Piece.shown, stored, Except.map]

/-- The pieces are filled in and nothing else changes. -/
theorem format_pieces (pieces : List Piece) (plain : ∀ piece ∈ pieces, piece.Plain arguments) :
    format python arguments (template pieces) = .ok (filled arguments pieces) :=
  format_with_pieces python arguments _ _ pieces plain (Nat.le_refl _)

end Fields

end Support.FormatString
