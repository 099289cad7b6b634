import BreweryPipeline.Support.FormatBraces

/-!
Print statements of a template: an expression between doubled braces, with no brace
in it, is replaced by its value, spaces around it do not count, and other text stays
as it is, apart from its line breaks. Statements, comments and marks that trim the
text around them are refused here. Values are not read again.
-/

namespace Support.TemplateText

open Support.FormatString

/-- The text up to the closing braces, and what stands behind them. -/
def scanExpression : Text → Option (Text × Text)
  | '}' :: '}' :: rest => some ([], rest)
  | char :: rest => (scanExpression rest).map fun scanned => (char :: scanned.1, scanned.2)
  | [] => none

/-- Every line break becomes a line feed. -/
def newlines : Text → Text
  | '\r' :: '\n' :: rest => '\n' :: newlines rest
  | '\r' :: rest => '\n' :: newlines rest
  | char :: rest => char :: newlines rest
  | [] => []

/-- The last line break of a template is not part of it. -/
def source (template : Text) : Text :=
  if (newlines template).getLast? = some '\n' then (newlines template).dropLast else newlines template

def strip (expression : Text) : Text :=
  ((expression.dropWhile (· == ' ')).reverse.dropWhile (· == ' ')).reverse

section Render
variable (value : Text → Text)

def renderWith : Nat → Text → Option Text
  | 0, text => if text = [] then some [] else none
  | _ + 1, '{' :: '{' :: '-' :: _ => none
  | _ + 1, '{' :: '{' :: '+' :: _ => none
  | fuel + 1, '{' :: '{' :: rest =>
      (scanExpression rest).bind fun scanned =>
        if scanned.1.getLast? = some '-' then none
        else (renderWith fuel scanned.2).map fun behind => value (strip scanned.1) ++ behind
  | _ + 1, '{' :: '%' :: _ => none
  | _ + 1, '{' :: '#' :: _ => none
  | fuel + 1, char :: rest => (renderWith fuel rest).map (char :: ·)
  | _ + 1, [] => some []

def render (template : Text) : Option Text :=
  renderWith value (source template).length (source template)

inductive Piece where
  | literal (text : Text)
  | expression (text : Text)

def Piece.written : Piece → Text
  | .literal text => text
  | .expression text => '{' :: '{' :: ' ' :: (text ++ [' ', '}', '}'])

def Piece.shown : Piece → Text
  | .literal text => text
  | .expression text => value text

/-- A text that begins and ends with another character than a space. -/
def Tight (text : Text) : Prop := text ≠ [] ∧ text.head? ≠ some ' ' ∧ text.getLast? ≠ some ' '

/-- A text that stays as it is unless it ends a template with a line feed. -/
def Settled (text : Text) : Prop := Braceless text ∧ '\r' ∉ text

@[simp] theorem settled_append (left right : Text) :
    Settled (left ++ right) ↔ Settled left ∧ Settled right := by
  simp only [Settled, braceless_append, List.mem_append, not_or]
  tauto

def Piece.Plain : Piece → Prop
  | .literal text => Settled text
  | .expression text => '}' ∉ text ∧ '\r' ∉ text ∧ Tight text

@[simp] theorem plain_literal (text : Text) : (Piece.literal text).Plain ↔ Settled text := Iff.rfl

def template (pieces : List Piece) : Text := pieces.flatMap Piece.written

def rendered (pieces : List Piece) : Text := pieces.flatMap (Piece.shown value)

theorem drop_spaces (text behind : Text) (nonempty : text ≠ []) (head : text.head? ≠ some ' ') :
    (text ++ behind).dropWhile (· == ' ') = text ++ behind := by
  cases text with
  | nil => exact absurd rfl nonempty
  | cons char rest =>
      have solid : (char == ' ') = false := by simpa using head
      rw [List.cons_append, List.dropWhile_cons, solid]
      rfl

theorem strip_spaced (text : Text) (tight : Tight text) : strip (' ' :: (text ++ [' '])) = text := by
  obtain ⟨nonempty, head, last⟩ := tight
  have front : (' ' :: (text ++ [' '])).dropWhile (· == ' ') = text ++ [' '] := by
    rw [List.dropWhile_cons]
    exact drop_spaces text [' '] nonempty head
  have backwards : (text ++ [' ']).reverse.dropWhile (· == ' ') = text.reverse := by
    rw [List.reverse_append, List.reverse_singleton, List.singleton_append, List.dropWhile_cons]
    have solid := drop_spaces text.reverse [] (by simpa using nonempty) (by rwa [List.head?_reverse])
    rw [List.append_nil] at solid
    exact solid
  rw [strip, front, backwards, List.reverse_reverse]

theorem scan_expression_plain (text rest : Text) (plain : '}' ∉ text) :
    scanExpression (text ++ ' ' :: '}' :: '}' :: rest) = some (text ++ [' '], rest) := by
  induction text with
  | nil => rfl
  | cons char later ih =>
      obtain ⟨differs, behind⟩ := not_or.mp (List.mem_cons.not.mp plain)
      rw [List.cons_append, scanExpression]
      · rw [ih behind]
        rfl
      · intro tail closing
        exact absurd closing.symm differs

theorem render_literal (fuel : Nat) (text behind : Text) (plain : Braceless text) :
    renderWith value (text.length + fuel) (text ++ behind) =
      (renderWith value fuel behind).map (text ++ ·) := by
  induction text with
  | nil => simp
  | cons char rest ih =>
      obtain ⟨⟨opening, _⟩, later⟩ := (braceless_cons char).mp plain
      rw [List.length_cons, Nat.add_right_comm, List.cons_append, renderWith, ih later]
      · rw [Option.map_map]
        rfl
      all_goals
        intros
        simp_all

theorem render_expression (fuel : Nat) (text behind : Text) (plain : '}' ∉ text) (tight : Tight text) :
    renderWith value (fuel + 1) ((Piece.expression text).written ++ behind) =
      (renderWith value fuel behind).map (value text ++ ·) := by
  have written : (Piece.expression text).written ++ behind =
      '{' :: '{' :: ((' ' :: text) ++ ' ' :: '}' :: '}' :: behind) := by
    simp [Piece.written]
  have spaced : '}' ∉ ' ' :: text := by simp [plain]
  have untrimmed : ¬(' ' :: text ++ [' ']).getLast? = some '-' := by
    rw [List.getLast?_concat]
    decide
  rw [written, renderWith, scan_expression_plain _ _ spaced, Option.bind_some, if_neg untrimmed]
  · simp only [List.cons_append, strip_spaced text tight]
  all_goals
    intro rest opening
    simp at opening

/-- Templates render to their pieces, whatever the values hold. -/
theorem render_pieces (pieces : List Piece) (plain : ∀ piece ∈ pieces, piece.Plain) (fuel : Nat)
    (enough : (template pieces).length ≤ fuel) :
    renderWith value fuel (template pieces) = some (rendered value pieces) := by
  induction pieces generalizing fuel with
  | nil => cases fuel <;> rfl
  | cons piece rest ih =>
      obtain ⟨here, later⟩ := List.forall_mem_cons.mp plain
      rw [template, List.flatMap_cons, ← template] at enough ⊢
      rw [List.length_append] at enough
      cases piece with
      | literal text =>
          simp only [Piece.written] at enough ⊢
          obtain ⟨spare, rfl⟩ := Nat.exists_eq_add_of_le (Nat.le_of_add_right_le enough)
          rw [render_literal value spare text _ here.1, ih later spare (by omega)]
          rfl
      | expression text =>
          obtain ⟨closing, _, tight⟩ := here
          have some : 0 < (Piece.expression text).written.length := by simp [Piece.written]
          obtain ⟨spare, rfl⟩ := Nat.exists_eq_add_of_lt (by omega : 0 < fuel)
          rw [Nat.zero_add, render_expression value spare text _ closing tight,
            ih later spare (by omega)]
          rfl

theorem newlines_plain (text : Text) (plain : '\r' ∉ text) : newlines text = text := by
  induction text with
  | nil => rfl
  | cons char rest ih =>
      obtain ⟨differs, later⟩ := not_or.mp (List.mem_cons.not.mp plain)
      rw [newlines, ih later]
      all_goals
        intros
        simp_all

theorem template_no_return (pieces : List Piece) (plain : ∀ piece ∈ pieces, piece.Plain) :
    '\r' ∉ template pieces := by
  intro inside
  obtain ⟨piece, listed, written⟩ := List.mem_flatMap.mp inside
  have here := plain piece listed
  cases piece with
  | literal text => exact here.2 written
  | expression text =>
      obtain ⟨_, unbroken, _⟩ := here
      simp [Piece.written, unbroken] at written

theorem render_template (pieces : List Piece) (plain : ∀ piece ∈ pieces, piece.Plain)
    (ends : (template pieces).getLast? ≠ some '\n') :
    render value (template pieces) = some (rendered value pieces) := by
  have whole : source (template pieces) = template pieces := by
    rw [source, newlines_plain _ (template_no_return pieces plain), if_neg ends]
  rw [render, whole]
  exact render_pieces value pieces plain _ le_rfl

end Render

end Support.TemplateText
