import Mathlib

/-!
Grouping, maximum and descending order over nullable columns, as a relational
engine defines them: nulls form one group, a maximum ignores nulls, and a
descending sort puts nulls last. Row order and duplicates of the input are
arbitrary. Which group comes first among ties of the sort is not promised.
-/

namespace Support.Grouping

variable {Key Row Order : Type} [DecidableEq Key]

def countBy (keys : List Key) : List (Key × Nat) :=
  keys.dedup.map fun key => (key, keys.count key)

/-- What a grouped count must be, whatever order its groups come in. -/
structure CountsOf (keys : List Key) (groups : List (Key × Nat)) : Prop where
  distinct : (groups.map Prod.fst).Nodup
  exact : ∀ key count, (key, count) ∈ groups ↔ key ∈ keys ∧ count = keys.count key

theorem count_by_counts (keys : List Key) : CountsOf keys (countBy keys) := by
  constructor
  · have names : (countBy keys).map Prod.fst = keys.dedup := by
      simp [countBy, List.map_map, Function.comp_def]
    exact names ▸ List.nodup_dedup keys
  · intro key count
    simp only [countBy, List.mem_map, List.mem_dedup, Prod.mk.injEq]
    constructor
    · rintro ⟨name, member, same, total⟩
      exact ⟨same ▸ member, same ▸ total.symm⟩
    · rintro ⟨member, total⟩
      exact ⟨key, member, rfl, total.symm⟩

theorem CountsOf.perm {keys : List Key} {groups reordered : List (Key × Nat)}
    (counts : CountsOf keys groups) (order : reordered.Perm groups) : CountsOf keys reordered := by
  constructor
  · exact (order.map Prod.fst).nodup_iff.mpr counts.distinct
  · intro key count
    rw [order.mem_iff]
    exact counts.exact key count

theorem CountsOf.keys_perm {keys shuffled : List Key} {groups : List (Key × Nat)}
    (counts : CountsOf keys groups) (order : shuffled.Perm keys) : CountsOf shuffled groups := by
  constructor
  · exact counts.distinct
  · intro key count
    rw [order.mem_iff, order.count_eq]
    exact counts.exact key count

theorem CountsOf.groups_perm {keys : List Key} {left right : List (Key × Nat)}
    (first : CountsOf keys left) (second : CountsOf keys right) : left.Perm right := by
  apply (List.perm_ext_iff_of_nodup first.distinct.of_map second.distinct.of_map).mpr
  rintro ⟨key, count⟩
  rw [first.exact, second.exact]

theorem CountsOf.total {keys : List Key} {groups : List (Key × Nat)}
    (counts : CountsOf keys groups) : (groups.map Prod.snd).sum = keys.length := by
  have reordered := counts.groups_perm (count_by_counts keys)
  rw [(reordered.map Prod.snd).sum_eq]
  simp only [countBy, List.map_map, Function.comp_def]
  exact List.sum_map_count_dedup_eq_length keys

theorem CountsOf.empty_iff {keys : List Key} {groups : List (Key × Nat)}
    (counts : CountsOf keys groups) : groups = [] ↔ keys = [] := by
  constructor
  · intro none
    apply List.eq_nil_iff_forall_not_mem.mpr
    intro key member
    have present := (counts.exact key (keys.count key)).mpr ⟨member, rfl⟩
    simp [none] at present
  · intro none
    apply List.eq_nil_iff_forall_not_mem.mpr
    rintro ⟨key, count⟩ member
    have present := ((counts.exact key count).mp member).1
    simp [none] at present

/-! The largest value of a nullable column. -/
section Latest
variable [LinearOrder Order]

def latest (values : List (Option Order)) : Option Order := (values.filterMap id).max?

theorem latest_eq_some_iff (values : List (Option Order)) (top : Order) :
    latest values = some top ↔
      some top ∈ values ∧ ∀ value, some value ∈ values → value ≤ top := by
  simp [latest, List.max?_eq_some_iff]

theorem latest_eq_none_iff (values : List (Option Order)) :
    latest values = none ↔ ∀ value ∈ values, value = none := by
  simp [latest, List.max?_eq_none_iff, List.filterMap_eq_nil_iff]

theorem latest_exists (values : List (Option Order)) (value : Order) (member : some value ∈ values) :
    ∃ top, latest values = some top := by
  cases found : latest values with
  | some top => exact ⟨top, rfl⟩
  | none => exact absurd ((latest_eq_none_iff values).mp found _ member) (by simp)

end Latest

/-! Descending order with nulls last. -/
section Descending
variable [LinearOrder Order]

def nullsLast : Option Order → Option Order → Prop
  | _, none => True
  | none, some _ => False
  | some left, some right => right ≤ left

instance : DecidableRel (nullsLast : Option Order → Option Order → Prop) := fun left right =>
  match left, right with
  | _, none => .isTrue trivial
  | none, some _ => .isFalse id
  | some left, some right => inferInstanceAs (Decidable (right ≤ left))

theorem nulls_last_total (left right : Option Order) : nullsLast left right ∨ nullsLast right left := by
  cases left <;> cases right <;> simp [nullsLast, le_total]

theorem nulls_last_trans {a b c : Option Order} (first : nullsLast a b) (second : nullsLast b c) :
    nullsLast a c := by
  cases a <;> cases b <;> cases c <;> simp_all [nullsLast]
  exact second.trans first

def orderByDescending (column : Row → Option Order) (rows : List Row) : List Row :=
  rows.insertionSort fun left right => nullsLast (column left) (column right)

theorem order_by_perm (column : Row → Option Order) (rows : List Row) :
    (orderByDescending column rows).Perm rows :=
  List.perm_insertionSort _ rows

theorem order_by_sorted (column : Row → Option Order) (rows : List Row) :
    (orderByDescending column rows).Pairwise
      fun left right => nullsLast (column left) (column right) := by
  have : Std.Total fun left right => nullsLast (column left) (column right) :=
    ⟨fun left right => nulls_last_total _ _⟩
  have : IsTrans Row fun left right => nullsLast (column left) (column right) :=
    ⟨fun _ _ _ first second => nulls_last_trans first second⟩
  exact List.pairwise_insertionSort _ rows

end Descending

end Support.Grouping
