import Mathlib

/-!
A directory of entries under ordered keys, and a write that replaces one entry
as a whole. A write that fails may leave the entry as it was, remove it, or
leave part of the new content, and touches no other entry. Two stores with the
same entries are equal, so a later complete write erases every trace of it.
-/

namespace Support.FileStore

abbrev Store (Key : Type) [LinearOrder Key] (Content : Type) :=
  Std.ExtTreeMap Key Content (fun left right => compare left right)

inductive WriteFault where
  | untouched
  | cleared
  | torn (count : Nat)

variable {Key Content : Type} [LinearOrder Key]

instance keyOrder : Std.TransCmp (fun left right : Key => compare left right) := inferInstance

def overwrite (fault : Option WriteFault) (key : Key) (content : Content) (part : Nat → Content)
    (store : Store Key Content) : Store Key Content :=
  match fault with
  | none => store.insert key content
  | some .untouched => store
  | some .cleared => store.erase key
  | some (.torn count) => store.insert key (part count)

@[simp] theorem insert_same (store : Store Key Content) (key : Key) (content : Content) :
    (store.insert key content)[key]? = some content := by
  simp

theorem insert_other (store : Store Key Content) (key other : Key) (content : Content)
    (differs : other ≠ key) : (store.insert key content)[other]? = store[other]? := by
  simp [Std.ExtTreeMap.getElem?_insert, differs.symm]

theorem erase_other (store : Store Key Content) (key other : Key) (differs : other ≠ key) :
    (store.erase key)[other]? = store[other]? := by
  simp [Std.ExtTreeMap.getElem?_erase, differs.symm]

theorem insert_insert (store : Store Key Content) (key : Key) (first second : Content) :
    (store.insert key first).insert key second = store.insert key second := by
  apply Std.ExtTreeMap.ext_getElem?
  intro other
  by_cases same : other = key
  · subst same; simp
  · simp only [insert_other _ _ _ _ same]

theorem insert_erase (store : Store Key Content) (key : Key) (content : Content) :
    (store.erase key).insert key content = store.insert key content := by
  apply Std.ExtTreeMap.ext_getElem?
  intro other
  by_cases same : other = key
  · subst same; simp
  · rw [insert_other _ _ _ _ same, erase_other _ _ _ same, insert_other _ _ _ _ same]

theorem insert_present (store : Store Key Content) (key : Key) (content : Content)
    (present : store[key]? = some content) : store.insert key content = store := by
  apply Std.ExtTreeMap.ext_getElem?
  intro other
  by_cases same : other = key
  · subst same; rw [insert_same, present]
  · rw [insert_other _ _ _ _ same]

theorem overwrite_other (fault : Option WriteFault) (key other : Key) (content : Content)
    (part : Nat → Content) (store : Store Key Content) (differs : other ≠ key) :
    (overwrite fault key content part store)[other]? = store[other]? := by
  unfold overwrite
  split
  · exact insert_other store key other content differs
  · rfl
  · exact erase_other store key other differs
  · exact insert_other store key other _ differs

/-- What a write leaves under its own key. -/
theorem overwrite_own (fault : Option WriteFault) (key : Key) (content : Content)
    (part : Nat → Content) (store : Store Key Content) (found : Content)
    (present : (overwrite fault key content part store)[key]? = some found) :
    found = content ∨ (∃ count, found = part count) ∨ store[key]? = some found := by
  unfold overwrite at present
  split at present
  · exact Or.inl (by simpa using present.symm)
  · exact Or.inr (Or.inr present)
  · simp at present
  · rename_i count
    exact Or.inr (Or.inl ⟨count, by simpa using present.symm⟩)

theorem overwrite_absorbed (fault : Option WriteFault) (key : Key) (content final : Content)
    (part : Nat → Content) (store : Store Key Content) :
    (overwrite fault key content part store).insert key final = store.insert key final := by
  unfold overwrite
  split
  · exact insert_insert store key content final
  · rfl
  · exact insert_erase store key final
  · exact insert_insert store key _ final

/-! Listing. Entries come in key order, each key once. -/

theorem mem_entries (store : Store Key Content) (key : Key) (content : Content) :
    (key, content) ∈ store.toList ↔ store[key]? = some content :=
  Std.ExtTreeMap.mem_toList_iff_getElem?_eq_some

theorem entries_distinct (store : Store Key Content) :
    store.toList.Pairwise fun left right => left.1 ≠ right.1 := by
  have ordered := Std.ExtTreeMap.distinct_keys_toList (t := store)
  exact ordered.imp fun differs same => differs (by simp [same])

theorem filter_key (entries : List (Key × Content)) (key : Key) (content : Content)
    (distinct : entries.Pairwise fun left right => left.1 ≠ right.1)
    (member : (key, content) ∈ entries) :
    entries.filter (fun entry => decide (entry.1 = key)) = [(key, content)] := by
  induction entries with
  | nil => simp at member
  | cons head tail ih =>
      obtain ⟨apart, later⟩ := List.pairwise_cons.mp distinct
      rcases List.mem_cons.mp member with same | inside
      · subst same
        have none : tail.filter (fun entry => decide (entry.1 = key)) = [] := by
          apply List.filter_eq_nil_iff.mpr
          intro entry present equal
          exact apart entry present (of_decide_eq_true equal).symm
        simp [none]
      · have differs : head.1 ≠ key := apart _ inside
        rw [List.filter_cons_of_neg (by simpa using differs)]
        exact ih later inside

theorem filter_entries (store : Store Key Content) (key : Key) :
    store.toList.filter (fun entry => decide (entry.1 = key)) =
      (store[key]?.map fun content => (key, content)).toList := by
  cases found : store[key]? with
  | some content =>
      exact filter_key _ key content (entries_distinct store) ((mem_entries store key content).mpr found)
  | none =>
      apply List.filter_eq_nil_iff.mpr
      rintro ⟨other, content⟩ member same
      have equal : other = key := of_decide_eq_true same
      rw [mem_entries, equal, found] at member
      simp at member

/-- One entry in front of all the others. -/
theorem entries_perm (store : Store Key Content) (key : Key) (content : Content)
    (present : store[key]? = some content) :
    store.toList.Perm ((key, content) :: store.toList.filter fun entry => !decide (entry.1 = key)) := by
  have split := (List.filter_append_perm (fun entry => decide (entry.1 = key)) store.toList).symm
  rwa [filter_entries, present] at split

theorem entries_single (store : Store Key Content) (key : Key) (content : Content)
    (present : store[key]? = some content) (alone : ∀ other, other ≠ key → store[other]? = none) :
    store.toList = [(key, content)] := by
  have whole : store.toList.filter (fun entry => decide (entry.1 = key)) = store.toList := by
    apply List.filter_eq_self.mpr
    rintro ⟨other, found⟩ member
    rw [mem_entries] at member
    by_contra differs
    rw [alone other (by simpa using differs)] at member
    simp at member
  rw [← whole, filter_entries, present]
  rfl

end Support.FileStore
