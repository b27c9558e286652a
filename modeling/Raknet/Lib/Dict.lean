import Mathlib.Data.List.Nodup
import Mathlib.Data.List.Basic

/-!
# Insertion-ordered dictionaries

A `Dict` is the list of its entries, oldest first, with no key twice. Setting a key that is
present keeps the entry's place, setting a new key appends, erasing removes the entry.

Proofs use `get?` only: `get?_set` and `get?_erase` say what an update does to a lookup, and
`mem_values` ties the list of values back to lookups.
-/

/-- A finite map in insertion order. -/
structure Dict (κ ν : Type*) where
  entries : List (κ × ν)
  nodup : (entries.map Prod.fst).Nodup

namespace Dict

variable {κ ν : Type*} [DecidableEq κ]

/-! ## Operations -/

/-- The dictionary without entries. -/
def empty : Dict κ ν := ⟨[], List.nodup_nil⟩

/-- The value stored under a key. -/
def get? (d : Dict κ ν) (k : κ) : Option ν := d.entries.lookup k

/-- Write an entry list: in place if the key is there, at the end otherwise. -/
def setEntries (k : κ) (v : ν) : List (κ × ν) → List (κ × ν)
  | [] => [(k, v)]
  | e :: l => if e.1 = k then (k, v) :: l else e :: setEntries k v l

theorem mem_keys_setEntries {k x : κ} {v : ν} {l : List (κ × ν)}
    (h : x ∈ (setEntries k v l).map Prod.fst) : x = k ∨ x ∈ l.map Prod.fst := by
  induction l with
  | nil => simpa [setEntries] using h
  | cons e l ih =>
    simp only [setEntries] at h
    split_ifs at h with he
    · simp only [List.map_cons, List.mem_cons] at h ⊢
      tauto
    · simp only [List.map_cons, List.mem_cons] at h ⊢
      rcases h with h | h
      · exact Or.inr (Or.inl h)
      · rcases ih h with h | h
        · exact Or.inl h
        · exact Or.inr (Or.inr h)

theorem nodup_setEntries (k : κ) (v : ν) {l : List (κ × ν)} (h : (l.map Prod.fst).Nodup) :
    ((setEntries k v l).map Prod.fst).Nodup := by
  induction l with
  | nil => simp [setEntries]
  | cons e l ih =>
    rw [List.map_cons, List.nodup_cons] at h
    simp only [setEntries]
    split_ifs with he
    · subst he
      simpa using h
    · rw [List.map_cons, List.nodup_cons]
      refine ⟨fun hmem => ?_, ih h.2⟩
      rcases mem_keys_setEntries hmem with h' | h'
      · exact he h'
      · exact h.1 h'

/-- Store a value under a key. -/
def set (d : Dict κ ν) (k : κ) (v : ν) : Dict κ ν :=
  ⟨setEntries k v d.entries, nodup_setEntries k v d.nodup⟩

/-- Remove a key. -/
def erase (d : Dict κ ν) (k : κ) : Dict κ ν :=
  ⟨d.entries.filter (·.1 ≠ k), d.nodup.sublist (List.filter_sublist.map _)⟩

/-- The values, oldest entry first. -/
def values (d : Dict κ ν) : List ν := d.entries.map Prod.snd

/-! ## Lookups -/

theorem lookup_cons_if (k x : κ) (v : ν) (l : List (κ × ν)) :
    ((x, v) :: l).lookup k = if k = x then some v else l.lookup k := by
  rw [List.lookup_cons]
  by_cases h : k = x
  · simp [h]
  · simp [h, beq_eq_false_iff_ne.mpr h]

@[simp, grind =] theorem get?_empty (k : κ) : (empty : Dict κ ν).get? k = none := rfl

theorem lookup_setEntries (k k' : κ) (v : ν) (l : List (κ × ν)) :
    (setEntries k v l).lookup k' = if k' = k then some v else l.lookup k' := by
  induction l with
  | nil => exact lookup_cons_if k' k v []
  | cons e l ih =>
    obtain ⟨x, w⟩ := e
    simp only [setEntries]
    split_ifs with hx h h
    · rw [lookup_cons_if, if_pos h]
    · rw [lookup_cons_if, lookup_cons_if, hx, if_neg h, if_neg h]
    · rw [lookup_cons_if, ih, if_neg (by rw [h]; exact Ne.symm hx), if_pos h]
    · rw [lookup_cons_if, lookup_cons_if, ih, if_neg h]

@[simp, grind =] theorem get?_set (d : Dict κ ν) (k k' : κ) (v : ν) :
    (d.set k v).get? k' = if k' = k then some v else d.get? k' :=
  lookup_setEntries k k' v d.entries

theorem lookup_filter_ne (k k' : κ) (l : List (κ × ν)) :
    (l.filter (·.1 ≠ k)).lookup k' = if k' = k then none else l.lookup k' := by
  induction l with
  | nil => simp
  | cons e l ih =>
    obtain ⟨x, w⟩ := e
    by_cases hx : x = k
    · rw [List.filter_cons_of_neg (by simpa using hx), ih, lookup_cons_if, hx]
      split_ifs <;> rfl
    · rw [List.filter_cons_of_pos (by simpa using hx), lookup_cons_if, lookup_cons_if, ih]
      split_ifs with h h' <;> simp_all

@[simp, grind =] theorem get?_erase (d : Dict κ ν) (k k' : κ) :
    (d.erase k).get? k' = if k' = k then none else d.get? k' :=
  lookup_filter_ne k k' d.entries

/-! ## Values -/

theorem lookup_eq_some_iff {k : κ} {v : ν} {l : List (κ × ν)} (h : (l.map Prod.fst).Nodup) :
    l.lookup k = some v ↔ (k, v) ∈ l := by
  induction l with
  | nil => simp
  | cons e l ih =>
    obtain ⟨x, w⟩ := e
    rw [List.map_cons, List.nodup_cons] at h
    have hmem : (x, v) ∉ l := fun hx => h.1 (List.mem_map.mpr ⟨(x, v), hx, rfl⟩)
    rw [lookup_cons_if, List.mem_cons, ← ih h.2]
    split_ifs with hk
    · subst hk
      simp only [Option.some.injEq, Prod.mk.injEq, true_and, ih h.2, hmem, or_false, eq_comm]
    · simp [hk]

theorem get?_eq_some_iff {d : Dict κ ν} {k : κ} {v : ν} :
    d.get? k = some v ↔ (k, v) ∈ d.entries :=
  lookup_eq_some_iff d.nodup

theorem mem_values {d : Dict κ ν} {v : ν} : v ∈ d.values ↔ ∃ k, d.get? k = some v := by
  constructor
  · intro h
    obtain ⟨⟨k, w⟩, hmem, rfl⟩ := List.mem_map.mp h
    exact ⟨k, get?_eq_some_iff.mpr hmem⟩
  · rintro ⟨k, h⟩
    exact List.mem_map.mpr ⟨(k, v), get?_eq_some_iff.mp h, rfl⟩

/-- If no value is stored twice, the list of values has no duplicates. -/
theorem values_nodup {d : Dict κ ν}
    (h : ∀ k k' v, d.get? k = some v → d.get? k' = some v → k = k') : d.values.Nodup := by
  have hentries : d.entries.Nodup := d.nodup.of_map _
  refine hentries.map_on ?_
  rintro ⟨k, v⟩ hk ⟨k', v'⟩ hk' hv
  obtain rfl : v = v' := hv
  rw [h k k' v (get?_eq_some_iff.mpr hk) (get?_eq_some_iff.mpr hk')]

end Dict
