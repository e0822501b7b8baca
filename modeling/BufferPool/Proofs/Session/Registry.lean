import BufferPool.Session.Registry
import Mathlib.Data.List.Perm.Basic

/-!
# Registries

A registry whose numbers ascend is a finite map. Putting a value under a number is, up to order, taking
away what was there and adding the value; so whatever is counted over the values changes by these two.
-/

namespace BufferPool

namespace Registry

variable {α : Type} {r : Registry α} {key : Nat} {v w : α} {entries : List (Nat × α)}

/-- The numbers ascend. -/
def Ordered (r : Registry α) : Prop := r.entries.Pairwise fun a b => a.1 < b.1

theorem ordered_empty : (empty : Registry α).Ordered := List.Pairwise.nil

theorem Ordered.erase (h : r.Ordered) (key : Nat) : (r.erase key).Ordered := List.Pairwise.filter _ h

theorem mem_insertEntry {e : Nat × α} (h : e ∈ insertEntry key v entries) :
    e = (key, v) ∨ e ∈ entries := by
  induction entries with
  | nil => exact .inl (List.mem_singleton.1 h)
  | cons head rest ih =>
    obtain ⟨k, w⟩ := head
    unfold insertEntry at h
    split at h
    · exact (List.mem_cons.1 h).imp_right id
    · split at h
      · exact (List.mem_cons.1 h).imp_right (List.mem_cons_of_mem _)
      · rcases List.mem_cons.1 h with rfl | later
        · exact .inr List.mem_cons_self
        · exact (ih later).imp_right (List.mem_cons_of_mem _)

theorem Ordered.insert (h : r.Ordered) (key : Nat) (v : α) : (r.insert key v).Ordered := by
  obtain ⟨entries⟩ := r
  change (insertEntry key v entries).Pairwise _
  induction entries with
  | nil => exact List.pairwise_singleton _ _
  | cons head rest ih =>
    obtain ⟨k, w⟩ := head
    obtain ⟨above, later⟩ := List.pairwise_cons.1 h
    unfold insertEntry
    split
    · rename_i before
      refine List.pairwise_cons.2 ⟨fun e he => ?_, h⟩
      rcases List.mem_cons.1 he with rfl | he
      · exact before
      · exact Nat.lt_trans before (above e he)
    · split
      · rename_i same
        subst same
        exact List.pairwise_cons.2 ⟨above, later⟩
      · rename_i after other
        refine List.pairwise_cons.2 ⟨fun e he => ?_, ih later⟩
        rcases mem_insertEntry he with rfl | he
        · change k < key
          omega
        · exact above e he

/-- Numbers that are all larger are not taken away. -/
theorem filter_of_lt (above : ∀ e ∈ entries, key < e.1) :
    entries.filter (fun e => e.1 != key) = entries :=
  List.filter_eq_self.2 fun e he => by simpa using Nat.ne_of_gt (above e he)

/-- Putting a value under a number takes away what was there. -/
theorem perm_insert (h : r.Ordered) (key : Nat) (v : α) :
    (r.insert key v).values.Perm (v :: (r.erase key).values) := by
  obtain ⟨entries⟩ := r
  suffices perm : (insertEntry key v entries).Perm
      ((key, v) :: entries.filter fun e => e.1 != key) from perm.map Prod.snd
  induction entries with
  | nil => exact List.Perm.refl _
  | cons head rest ih =>
    obtain ⟨k, w⟩ := head
    obtain ⟨above, later⟩ := List.pairwise_cons.1 h
    unfold insertEntry
    split
    · rename_i before
      rw [filter_of_lt fun e he => ?_]
      rcases List.mem_cons.1 he with rfl | he
      · exact before
      · exact Nat.lt_trans before (above e he)
    · split
      · rename_i same
        subst same
        rw [List.filter_cons_of_neg (by simp), filter_of_lt above]
      · rename_i other
        rw [List.filter_cons_of_pos (by simpa using Ne.symm other)]
        exact ((ih later).cons _).trans (List.Perm.swap ..)

/-- A value that is found splits the entries. -/
theorem entries_of_get? (h : r.Ordered) (found : r.get? key = some v) : ∃ before after,
    r.entries = before ++ (key, v) :: after ∧ (∀ e ∈ before, e.1 < key) ∧ ∀ e ∈ after, key < e.1 := by
  obtain ⟨before, after, entries, -⟩ := List.lookup_eq_some_iff.1 found
  have ordered : r.entries.Pairwise fun a b => a.1 < b.1 := h
  rw [entries, List.pairwise_append, List.pairwise_cons] at ordered
  exact ⟨before, after, entries, fun e he => ordered.2.2 e he _ List.mem_cons_self, ordered.2.1.1⟩

theorem mem_values (found : r.get? key = some v) : v ∈ r.values := by
  obtain ⟨before, after, entries, -⟩ := List.lookup_eq_some_iff.1 found
  rw [values, entries]
  exact List.mem_map.2 ⟨(key, v), by simp, rfl⟩

/-- Taking a value away leaves the others. -/
theorem perm_erase (h : r.Ordered) (found : r.get? key = some v) :
    r.values.Perm (v :: (r.erase key).values) := by
  obtain ⟨before, after, entries, below, above⟩ := entries_of_get? h found
  have left : r.entries.filter (fun e => e.1 != key) = before ++ after := by
    rw [entries, List.filter_append, List.filter_cons_of_neg (by simp), filter_of_lt above]
    congr 1
    exact List.filter_eq_self.2 fun e he => by simpa using Nat.ne_of_lt (below e he)
  rw [values, values, erase, left, entries, List.map_append, List.map_append]
  exact List.perm_middle

/-- Where there is no value, nothing is taken away. -/
theorem erase_of_none (free : r.get? key = none) : r.erase key = r := by
  have other := List.lookup_eq_none_iff.1 free
  rw [erase, List.filter_eq_self.2 fun e he => by simpa [bne, Bool.beq_comm] using other e he]

/-- A value that is put and taken away again. -/
theorem erase_insert (key : Nat) (v : α) : (r.insert key v).erase key = r.erase key := by
  unfold erase insert
  congr 1
  induction r.entries with
  | nil => simp [insertEntry]
  | cons head rest ih =>
    obtain ⟨k, w⟩ := head
    unfold insertEntry
    split
    · exact List.filter_cons_of_neg (by simp)
    · split
      · rename_i same
        rw [List.filter_cons_of_neg (by simp), List.filter_cons_of_neg (by simp [same])]
      · rw [List.filter_cons, List.filter_cons, ih]

/-- Putting a value where it is already changes nothing. -/
theorem insert_same (h : r.Ordered) (found : r.get? key = some v) : r.insert key v = r := by
  obtain ⟨before, after, entries, below, -⟩ := entries_of_get? h found
  have same : ∀ before : List (Nat × α), (∀ e ∈ before, e.1 < key) →
      insertEntry key v (before ++ (key, v) :: after) = before ++ (key, v) :: after := by
    intro before below
    induction before with
    | nil => simp [insertEntry]
    | cons head rest ih =>
      obtain ⟨k, w⟩ := head
      have less : k < key := below _ List.mem_cons_self
      rw [List.cons_append, insertEntry, if_neg (by omega), if_neg (by omega),
        ih fun e he => below e (List.mem_cons_of_mem _ he)]
  rw [insert, entries, same before below, ← entries]

theorem get?_insert_ne {j : Nat} (ne : j ≠ key) : (r.insert key v).get? j = r.get? j := by
  obtain ⟨entries⟩ := r
  change (insertEntry key v entries).lookup j = entries.lookup j
  have other : (j == key) = false := beq_false_of_ne ne
  induction entries with
  | nil => simp [insertEntry, List.lookup_cons, other]
  | cons head rest ih =>
    obtain ⟨k, w⟩ := head
    unfold insertEntry
    split
    · rw [List.lookup_cons, other]
    · split
      · rename_i same
        subst same
        rw [List.lookup_cons, other, List.lookup_cons, other]
      · rw [List.lookup_cons, ih, List.lookup_cons]

theorem get?_insert_self : (r.insert key v).get? key = some v := by
  obtain ⟨entries⟩ := r
  change (insertEntry key v entries).lookup key = some v
  induction entries with
  | nil => exact List.lookup_cons_self
  | cons head rest ih =>
    obtain ⟨k, w⟩ := head
    unfold insertEntry
    split
    · exact List.lookup_cons_self
    · split
      · exact List.lookup_cons_self
      · rename_i other
        rw [List.lookup_cons, beq_false_of_ne other]
        exact ih

/-- A value under a free number covers up no other. -/
theorem get?_insert_of_free (free : r.get? key = none) {j : Nat} (found : r.get? j = some w) :
    (r.insert key v).get? j = some w := by
  refine (get?_insert_ne ?_).trans found
  rintro rfl
  rw [free] at found
  cases found

theorem get?_erase_self : (r.erase key).get? key = none :=
  List.lookup_eq_none_iff.2 fun e he => by simpa [bne, Bool.beq_comm] using (List.mem_filter.1 he).2

theorem get?_erase_ne {j : Nat} (ne : j ≠ key) : (r.erase key).get? j = r.get? j := by
  obtain ⟨entries⟩ := r
  change (entries.filter fun e => e.1 != key).lookup j = entries.lookup j
  induction entries with
  | nil => rfl
  | cons head rest ih =>
    obtain ⟨k, w⟩ := head
    by_cases gone : k = key
    · subst gone
      rw [List.filter_cons_of_neg (by simp), ih, List.lookup_cons, beq_false_of_ne ne]
    · rw [List.filter_cons_of_pos (by simpa using gone), List.lookup_cons, ih, List.lookup_cons]

/-- What is left after a value was taken away was there before. -/
theorem get?_of_erase {j : Nat} (found : (r.erase key).get? j = some v) : r.get? j = some v := by
  by_cases gone : j = key
  · rw [gone, get?_erase_self] at found
    cases found
  · exact (get?_erase_ne gone).symm.trans found

/-! ## Changed values -/

variable {β : Type}

/-- The registry with all values changed. -/
def map (f : α → β) (r : Registry α) : Registry β := ⟨r.entries.map fun entry => (entry.1, f entry.2)⟩

theorem get?_map (f : α → β) (key : Nat) : (r.map f).get? key = (r.get? key).map f := by
  unfold get? map
  induction r.entries with
  | nil => rfl
  | cons entry rest ih =>
    rw [List.map_cons, List.lookup_cons, List.lookup_cons]
    cases key == entry.1 with
    | true => rfl
    | false => exact ih

theorem keys_map (f : α → β) : (r.map f).keys = r.keys := by
  simp [keys, map]

theorem values_map (f : α → β) : (r.map f).values = r.values.map f := by
  simp [values, map]

theorem erase_map (f : α → β) (key : Nat) : (r.map f).erase key = (r.erase key).map f := by
  simp [erase, map, List.filter_map, Function.comp_def]

theorem insert_map (f : α → β) (key : Nat) (v : α) : (r.map f).insert key (f v) = (r.insert key v).map f := by
  unfold insert map
  congr 1
  induction r.entries with
  | nil => rfl
  | cons entry rest ih =>
    simp only [List.map_cons, insertEntry, ih]
    split
    · rfl
    · split <;> rfl

theorem map_same {f : α → α} (same : ∀ v, f v = v) : r.map f = r := by
  unfold map
  rw [funext same]
  exact congrArg Registry.mk (List.map_id _)

theorem map_congr {f g : α → β} (same : ∀ v ∈ r.values, f v = g v) : r.map f = r.map g := by
  unfold map
  congr 1
  exact List.map_congr_left fun entry mem => by rw [same _ (List.mem_map_of_mem mem)]

end Registry

end BufferPool
