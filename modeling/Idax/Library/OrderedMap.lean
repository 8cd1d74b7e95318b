import Mathlib.Data.List.Basic
import Mathlib.Data.List.Pairwise
import Mathlib.Order.Lattice

/-!
Maps over a linear order, kept as the list of their entries in ascending order of the keys.
-/

structure OrderedMap (κ : Type u) (β : Type v) [LinearOrder κ] where
  entries : List (κ × β)
  sorted : (entries.map Prod.fst).Pairwise (· < ·)

namespace OrderedMap

variable {κ : Type u} {β : Type v} [LinearOrder κ]

def empty : OrderedMap κ β :=
  ⟨[], List.Pairwise.nil⟩

def keys (m : OrderedMap κ β) : List κ :=
  m.entries.map Prod.fst

def find? (m : OrderedMap κ β) (k : κ) : Option β :=
  m.entries.lookup k

def isEmpty (m : OrderedMap κ β) : Bool :=
  m.entries.isEmpty

def insertEntry (k : κ) (v : β) : List (κ × β) → List (κ × β)
  | [] => [(k, v)]
  | (j, w) :: rest =>
    if k < j then
      (k, v) :: (j, w) :: rest
    else if k = j then
      (k, v) :: rest
    else
      (j, w) :: insertEntry k v rest

theorem lookup_entry_cons (e : κ × β) (es : List (κ × β)) (j : κ)
    : (e :: es).lookup j = if j = e.1 then some e.2 else es.lookup j := by
  rw [List.lookup_cons]
  by_cases h : j = e.1
  . simp [h]
  . rw [beq_false_of_ne h]
    simp [h]

theorem mem_keys_insertEntry (k : κ) (v : β) (es : List (κ × β)) (j : κ)
    : j ∈ (insertEntry k v es).map Prod.fst ↔ j = k ∨ j ∈ es.map Prod.fst := by
  induction es with
  | nil => simp [insertEntry]
  | cons e rest ih =>
    rcases e with ⟨i, w⟩
    simp only [insertEntry]
    split
    . simp
    . split
      . next heq => simp [heq]
      . simp only [List.map_cons, List.mem_cons]
        rw [ih]
        tauto

theorem sorted_insertEntry (k : κ) (v : β) (es : List (κ × β))
    (h : (es.map Prod.fst).Pairwise (· < ·))
    : ((insertEntry k v es).map Prod.fst).Pairwise (· < ·) := by
  induction es with
  | nil => simp [insertEntry]
  | cons e rest ih =>
    rcases e with ⟨j, w⟩
    simp only [List.map_cons, List.pairwise_cons] at h
    simp only [insertEntry]
    split
    . next hlt =>
      simp only [List.map_cons, List.pairwise_cons, List.mem_cons]
      refine ⟨?_, h⟩
      intro i hi
      rcases hi with rfl | hi
      . apply hlt
      . apply lt_trans hlt (h.left i hi)
    . next hle =>
      split
      . next heq =>
        simp only [List.map_cons, List.pairwise_cons]
        rw [heq]
        apply h
      . next hne =>
        simp only [List.map_cons, List.pairwise_cons]
        refine ⟨?_, ih h.right⟩
        intro i hi
        rw [mem_keys_insertEntry] at hi
        rcases hi with rfl | hi
        . apply lt_of_le_of_ne (not_lt.mp hle) (Ne.symm hne)
        . apply h.left i hi

def insert (m : OrderedMap κ β) (k : κ) (v : β) : OrderedMap κ β :=
  ⟨insertEntry k v m.entries, sorted_insertEntry k v m.entries m.sorted⟩

def emplace (m : OrderedMap κ β) (k : κ) (v : β) : OrderedMap κ β :=
  if (m.find? k).isSome then m else m.insert k v

def erase (m : OrderedMap κ β) (k : κ) : OrderedMap κ β where
  entries := m.entries.filter fun e => e.1 ≠ k
  sorted := by
    have hsub : List.Sublist ((m.entries.filter fun e => e.1 ≠ k).map Prod.fst)
        (m.entries.map Prod.fst) := by
      apply List.Sublist.map
      apply List.filter_sublist
    apply m.sorted.sublist hsub

theorem lookup_insertEntry (k : κ) (v : β) (es : List (κ × β)) (j : κ)
    : (insertEntry k v es).lookup j = if j = k then some v else es.lookup j := by
  induction es with
  | nil => simp only [insertEntry, lookup_entry_cons]
  | cons e rest ih =>
    rcases e with ⟨i, w⟩
    simp only [insertEntry]
    split
    . simp only [lookup_entry_cons]
    . split
      . next heq =>
        simp only [lookup_entry_cons, ← heq]
        split <;> rfl
      . next hne =>
        simp only [lookup_entry_cons, ih]
        by_cases hji : j = i
        . have hjk : j ≠ k := by
            intro hjk
            apply hne
            rw [← hjk, hji]
          rw [if_pos hji, if_neg hjk, if_pos hji]
        . simp only [if_neg hji]

@[simp]
theorem find?_insert (m : OrderedMap κ β) (k : κ) (v : β) (j : κ)
    : (m.insert k v).find? j = if j = k then some v else m.find? j :=
  lookup_insertEntry k v m.entries j

@[simp]
theorem find?_empty (k : κ) : (empty : OrderedMap κ β).find? k = none :=
  List.lookup_nil

theorem lookup_filter_ne (k j : κ) (es : List (κ × β))
    : (es.filter fun e => e.1 ≠ k).lookup j = if j = k then none else es.lookup j := by
  induction es with
  | nil => simp only [List.filter_nil, List.lookup_nil, ite_self]
  | cons e rest ih =>
    by_cases h : e.1 = k
    . rw [List.filter_cons_of_neg (by simp [h]), ih, lookup_entry_cons]
      by_cases hjk : j = k
      . simp [hjk]
      . have hje : j ≠ e.1 := by
          rw [h]
          apply hjk
        rw [if_neg hjk, if_neg hjk, if_neg hje]
    . rw [List.filter_cons_of_pos (by simp [h]), lookup_entry_cons, lookup_entry_cons, ih]
      by_cases hjk : j = k
      . have hje : j ≠ e.1 := by
          rw [hjk]
          apply Ne.symm h
        simp only [if_neg hje, if_pos hjk]
      . simp only [if_neg hjk]

@[simp]
theorem find?_erase (m : OrderedMap κ β) (k j : κ)
    : (m.erase k).find? j = if j = k then none else m.find? j :=
  lookup_filter_ne k j m.entries

theorem lookup_of_mem {es : List (κ × β)} (hsorted : (es.map Prod.fst).Pairwise (· < ·)) {k : κ} {v : β}
    (hmem : (k, v) ∈ es) : es.lookup k = some v := by
  induction es with
  | nil => cases hmem
  | cons e rest ih =>
    rw [List.map_cons, List.pairwise_cons] at hsorted
    rw [lookup_entry_cons]
    rcases List.mem_cons.mp hmem with rfl | hrest
    . exact if_pos rfl
    . have hlt := hsorted.left k (List.mem_map_of_mem hrest)
      rw [if_neg (ne_of_gt hlt)]
      exact ih hsorted.right hrest

theorem mem_of_find? {m : OrderedMap κ β} {k : κ} {v : β} (h : m.find? k = some v)
    : (k, v) ∈ m.entries := by
  rcases List.lookup_eq_some_iff.mp h with ⟨before, after, heq, _⟩
  rw [heq]
  simp

theorem find?_of_mem {m : OrderedMap κ β} {k : κ} {v : β} (hmem : (k, v) ∈ m.entries)
    : m.find? k = some v :=
  lookup_of_mem m.sorted hmem

theorem mem_entries_iff (m : OrderedMap κ β) (k : κ) (v : β) : (k, v) ∈ m.entries ↔ m.find? k = some v :=
  ⟨find?_of_mem, mem_of_find?⟩

theorem nodup_entries (m : OrderedMap κ β) : m.entries.Nodup := by
  have hkeys : (m.entries.map Prod.fst).Nodup := m.sorted.imp ne_of_lt
  exact List.Pairwise.of_map Prod.fst (fun _ _ hne heq => hne (congrArg Prod.fst heq)) hkeys

theorem perm_of_find?_eq {m m' : OrderedMap κ β} (h : ∀ k, m.find? k = m'.find? k)
    : m.entries.Perm m'.entries := by
  rw [List.perm_ext_iff_of_nodup m.nodup_entries m'.nodup_entries]
  rintro ⟨k, v⟩
  rw [mem_entries_iff, mem_entries_iff, h]

theorem perm_cons_erase {m : OrderedMap κ β} {k : κ} {v : β} (h : m.find? k = some v)
    : m.entries.Perm ((k, v) :: (m.erase k).entries) := by
  have hnew : (k, v) ∉ (m.erase k).entries := by
    rw [mem_entries_iff, find?_erase, if_pos rfl]
    simp
  rw [List.perm_ext_iff_of_nodup m.nodup_entries (List.nodup_cons.mpr ⟨hnew, nodup_entries _⟩)]
  rintro ⟨j, w⟩
  rw [List.mem_cons, mem_entries_iff, mem_entries_iff, find?_erase]
  by_cases hj : j = k
  . rw [if_pos hj, hj, h]
    simp [eq_comm]
  . simp [hj]

theorem perm_insert (m : OrderedMap κ β) (k : κ) (v : β)
    : (m.insert k v).entries.Perm ((k, v) :: (m.erase k).entries) := by
  have hfound : (m.insert k v).find? k = some v := by rw [find?_insert, if_pos rfl]
  apply (perm_cons_erase hfound).trans
  apply List.Perm.cons
  apply perm_of_find?_eq
  intro j
  rw [find?_erase, find?_erase, find?_insert]
  split <;> rfl

theorem perm_erase_of_none {m : OrderedMap κ β} {k : κ} (h : m.find? k = none)
    : (m.erase k).entries.Perm m.entries := by
  apply perm_of_find?_eq
  intro j
  rw [find?_erase]
  split
  . next heq => rw [heq, h]
  . rfl

theorem keys_sorted (m : OrderedMap κ β) : m.keys.Pairwise (· < ·) :=
  m.sorted

theorem mem_keys_iff (m : OrderedMap κ β) (k : κ) : k ∈ m.keys ↔ (m.find? k).isSome := by
  unfold keys find?
  induction m.entries with
  | nil => simp
  | cons e rest ih =>
    simp only [List.map_cons, List.mem_cons, lookup_entry_cons]
    rw [ih]
    by_cases h : k = e.1 <;> simp [h]

theorem mem_keys_of_find? {m : OrderedMap κ β} {k : κ} {v : β} (h : m.find? k = some v)
    : k ∈ m.keys := by
  rw [mem_keys_iff]
  simp [h]

@[simp]
theorem keys_empty : (empty : OrderedMap κ β).keys = [] :=
  rfl

theorem isEmpty_iff (m : OrderedMap κ β) : m.isEmpty = true ↔ m.keys = [] := by
  simp [isEmpty, keys]

@[simp]
theorem mem_keys_insert (m : OrderedMap κ β) (k : κ) (v : β) (j : κ)
    : j ∈ (m.insert k v).keys ↔ j = k ∨ j ∈ m.keys :=
  mem_keys_insertEntry k v m.entries j

@[simp]
theorem mem_keys_erase (m : OrderedMap κ β) (k j : κ)
    : j ∈ (m.erase k).keys ↔ j ∈ m.keys ∧ j ≠ k := by
  simp only [keys, erase, List.mem_map, List.mem_filter, decide_eq_true_eq]
  constructor
  . rintro ⟨e, ⟨he, hne⟩, rfl⟩
    exact ⟨⟨e, he, rfl⟩, hne⟩
  . rintro ⟨⟨e, he, rfl⟩, hne⟩
    exact ⟨e, ⟨he, hne⟩, rfl⟩

end OrderedMap
