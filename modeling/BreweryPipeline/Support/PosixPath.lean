import Mathlib.Data.List.Basic

/-!
`os.path.join` on a POSIX system. Nothing is normalised: an absolute part drops what
stands before it, and a slash is written only behind a nonempty path without one.
-/

namespace Support.PosixPath

abbrev Path := List Char

def joinPart (path part : Path) : Path :=
  if part.head? = some '/' then part
  else if path = [] ∨ path.getLast? = some '/' then path ++ part
  else path ++ '/' :: part

def join (path : Path) (parts : List Path) : Path := parts.foldl joinPart path

/-- What a relative part is written behind. -/
def directory (path : Path) : Path :=
  if path = [] ∨ path.getLast? = some '/' then path else path ++ ['/']

def Component (name : Path) : Prop := '/' ∉ name ∧ name ∉ [[], ['.'], ['.', '.']]

instance (name : Path) : Decidable (Component name) := inferInstanceAs (Decidable (_ ∧ _))

/-- The names on the way to a file. An empty one and a single dot stay where they are. -/
def components (path : Path) : List Path :=
  (path.splitOn '/').filter fun part => !decide (part ∈ [[], ['.']])

/-- The path has the names of the root and one more behind them. -/
def LiesDirectlyUnder (root path : Path) : Prop :=
  (path.head? = some '/' ↔ root.head? = some '/') ∧
    ∃ name, Component name ∧ components path = components root ++ [name]

theorem join_part_relative (path part : Path) (relative : part.head? ≠ some '/') :
    joinPart path part = directory path ++ part := by
  unfold joinPart directory
  rw [if_neg relative]
  split
  · rfl
  · rw [List.append_assoc, List.singleton_append]

theorem directory_name (front name : Path) (named : name ≠ []) (ends : name.getLast? ≠ some '/') :
    directory (front ++ name) = front ++ (name ++ ['/']) := by
  have last : (front ++ name).getLast? = name.getLast? := List.getLast?_append_of_ne_nil front named
  have unfinished : ¬(front ++ name = [] ∨ (front ++ name).getLast? = some '/') := by
    rw [last, List.append_eq_nil_iff]
    rintro (⟨_, none⟩ | slash)
    · exact named none
    · exact ends slash
  rw [directory, if_neg unfinished, List.append_assoc]

/-! The names on the way. -/

theorem components_append (front behind : Path) :
    components (front ++ '/' :: behind) = components front ++ components behind := by
  rw [components, List.splitOn_append_cons_self, List.filter_append, ← components, ← components]

theorem components_name (name : Path) (component : Component name) : components name = [name] := by
  obtain ⟨whole, proper⟩ := component
  rw [components, List.splitOn_eq_singleton whole]
  simp only [List.mem_cons, List.not_mem_nil, or_false, not_or] at proper ⊢
  simp [proper]

theorem components_under (name behind : Path) (component : Component name) :
    components (name ++ '/' :: behind) = name :: components behind := by
  rw [components_append, components_name name component, List.singleton_append]

/-- What is written behind a directory lies below the directory. -/
theorem components_directory (path behind : Path) :
    components (directory path ++ behind) = components path ++ components behind := by
  unfold directory
  split
  · rename_i finished
    rcases finished with rfl | slash
    · rfl
    · obtain ⟨front, rfl⟩ := List.getLast?_eq_some_iff.mp slash
      rw [List.append_assoc, List.singleton_append, components_append, components_append]
      simp [components]
  · rw [List.append_assoc, List.singleton_append, components_append]

/-- A text without slashes in front belongs to the first name. -/
theorem split_front (front text : Path) (whole : '/' ∉ front) : ∃ first, '/' ∉ first ∧
    (front ++ text).splitOn '/' = (front ++ first) :: (text.splitOn '/').tail := by
  by_cases slash : '/' ∈ text
  · obtain ⟨first, behind, rfl, before⟩ := List.eq_append_cons_of_mem slash
    have joined : '/' ∉ front ++ first := by simp [whole, before]
    refine ⟨first, before, ?_⟩
    rw [← List.append_assoc, List.splitOn_append_cons_self, List.splitOn_append_cons_self,
      List.splitOn_eq_singleton joined, List.splitOn_eq_singleton before]
    rfl
  · have joined : '/' ∉ front ++ text := by simp [whole, slash]
    exact ⟨text, slash, by
      rw [List.splitOn_eq_singleton joined, List.splitOn_eq_singleton slash]
      rfl⟩

/-- What begins with more than two characters of a name is a name and the names
behind its first slash. -/
theorem components_front (front text : Path) (whole : '/' ∉ front) (named : 2 < front.length) :
    ∃ name, Component name ∧ components (front ++ text) =
      name :: (text.splitOn '/').tail.filter fun part => !decide (part ∈ [[], ['.']]) := by
  obtain ⟨first, before, split⟩ := split_front front text whole
  have long : 2 < (front ++ first).length := by
    rw [List.length_append]
    omega
  have proper : front ++ first ∉ [[], ['.'], ['.', '.']] := by
    intro member
    simp only [List.mem_cons, List.not_mem_nil, or_false] at member
    rcases member with same | same | same <;> rw [same] at long <;> simp at long
  have kept : front ++ first ∉ [[], ['.']] := fun member =>
    proper (by
      simp only [List.mem_cons, List.not_mem_nil, or_false] at member ⊢
      exact member.imp_right Or.inl)
  refine ⟨front ++ first, ⟨by simp [whole, before], proper⟩, ?_⟩
  rw [components, split, List.filter_cons_of_pos (by rw [decide_eq_false kept]; rfl)]

theorem directory_head (path part : Path) (relative : part.head? ≠ some '/') :
    (directory path ++ part).head? = some '/' ↔ path.head? = some '/' := by
  cases path with
  | nil => simpa [directory] using relative
  | cons first rest =>
      unfold directory
      split <;> simp

/-- A relative part that begins with a name lies directly under the root when
nothing but empty names and single dots stands behind its first slash. -/
theorem lies_directly_under_iff (root front text : Path) (whole : '/' ∉ front)
    (named : 2 < front.length) : LiesDirectlyUnder root (join root [front ++ text]) ↔
      ∀ part ∈ (text.splitOn '/').tail, part ∈ [[], ['.']] := by
  have relative : (front ++ text).head? ≠ some '/' := by
    cases front with
    | nil => simp at named
    | cons first rest =>
        simp only [List.cons_append, List.head?_cons, ne_eq, Option.some.injEq]
        exact fun same => whole (same ▸ List.mem_cons_self)
  obtain ⟨name, component, names⟩ := components_front front text whole named
  have path : join root [front ++ text] = directory root ++ (front ++ text) :=
    join_part_relative root _ relative
  rw [LiesDirectlyUnder, path, directory_head root _ relative, components_directory, names]
  simp only [true_and, List.append_cancel_left_eq, List.cons.injEq]
  constructor
  · rintro ⟨other, _, _, none⟩ part member
    by_contra odd
    exact List.filter_eq_nil_iff.mp none part member (by rw [decide_eq_false odd]; rfl)
  · intro plain
    refine ⟨name, component, rfl, List.filter_eq_nil_iff.mpr fun part member => ?_⟩
    rw [decide_eq_true (plain part member)]
    decide

end Support.PosixPath
