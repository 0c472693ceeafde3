import Mathlib.Data.List.Nodup

/-!
# Python dictionaries

A `dict` is an association list in insertion order with distinct keys; assigning to a key
already present keeps its place, assigning a new key appends it. The writer iterates the
parameter tables in this order, and the equivalencing step of `_parse_parm_dat` iterates its
table in it, so the order is part of the model. The distinctness of the keys is a field of
`Dict`: no operation can build a dictionary that lists a key twice.
-/

namespace ParmEd.Python

/-- `dict` with keys `κ` and values `ν`, in insertion order. -/
structure Dict (κ ν : Type) [DecidableEq κ] where
  entries : List (κ × ν)
  nodup : (entries.map Prod.fst).Nodup

namespace Dict

variable {κ ν : Type} [DecidableEq κ]

/-- `{}`. -/
def empty : Dict κ ν := ⟨[], List.nodup_nil⟩

instance : EmptyCollection (Dict κ ν) := ⟨empty⟩

/-- `d.get(k)`. -/
def get? (d : Dict κ ν) (k : κ) : Option ν := d.entries.lookup k

/-- `k in d`. -/
def contains (d : Dict κ ν) (k : κ) : Bool := (d.get? k).isSome

/-- `list(d)`: the keys in order. -/
def keys (d : Dict κ ν) : List κ := d.entries.map Prod.fst

/-- `d[k] = v` on the entry list: replace in place, or append. -/
def setEntry (k : κ) (v : ν) : List (κ × ν) → List (κ × ν)
  | [] => [(k, v)]
  | (k', v') :: es => if k' = k then (k, v) :: es else (k', v') :: setEntry k v es

theorem keys_setEntry_of_mem (k : κ) (v : ν) (es : List (κ × ν)) (h : k ∈ es.map Prod.fst) :
    (setEntry k v es).map Prod.fst = es.map Prod.fst := by
  induction es with
  | nil => simp at h
  | cons e es ih =>
    obtain ⟨k', v'⟩ := e
    by_cases hk : k' = k
    · simp [setEntry, hk]
    · simp only [List.map_cons, List.mem_cons] at h
      simp [setEntry, hk, ih (h.resolve_left (Ne.symm hk))]

theorem keys_setEntry_of_not_mem (k : κ) (v : ν) (es : List (κ × ν))
    (h : k ∉ es.map Prod.fst) : (setEntry k v es).map Prod.fst = es.map Prod.fst ++ [k] := by
  induction es with
  | nil => rfl
  | cons e es ih =>
    obtain ⟨k', v'⟩ := e
    simp only [List.map_cons, List.mem_cons, not_or] at h
    simp [setEntry, Ne.symm h.1, ih h.2]

theorem nodup_setEntry (k : κ) (v : ν) (es : List (κ × ν)) (h : (es.map Prod.fst).Nodup) :
    ((setEntry k v es).map Prod.fst).Nodup := by
  by_cases hk : k ∈ es.map Prod.fst
  · rwa [keys_setEntry_of_mem k v es hk]
  · rw [keys_setEntry_of_not_mem k v es hk]
    exact List.Nodup.append h (List.nodup_singleton k) (List.disjoint_singleton.2 hk)

/-- `d[k] = v`. -/
def insert (d : Dict κ ν) (k : κ) (v : ν) : Dict κ ν :=
  ⟨setEntry k v d.entries, nodup_setEntry k v d.entries d.nodup⟩

theorem lookup_cons (a k : κ) (b : ν) (es : List (κ × ν)) :
    ((k, b) :: es).lookup a = if a = k then some b else es.lookup a := by
  rw [List.lookup_cons]
  by_cases h : a = k
  · simp [h]
  · simp [h, beq_eq_false_iff_ne.2 h]

theorem lookup_setEntry (k k' : κ) (v : ν) (es : List (κ × ν)) :
    (setEntry k v es).lookup k' = if k' = k then some v else es.lookup k' := by
  induction es with
  | nil => simp [setEntry, lookup_cons]
  | cons e es ih =>
    obtain ⟨k₀, v₀⟩ := e
    by_cases h₀ : k₀ = k
    · subst h₀
      by_cases h : k' = k₀ <;> simp [setEntry, lookup_cons, h]
    · by_cases h : k' = k₀
      · subst h
        simp [setEntry, lookup_cons, h₀]
      · simp [setEntry, lookup_cons, h₀, h, ih]

@[simp] theorem get?_insert (d : Dict κ ν) (k k' : κ) (v : ν) :
    (d.insert k v).get? k' = if k' = k then some v else d.get? k' :=
  lookup_setEntry k k' v d.entries

@[simp] theorem get?_empty (k : κ) : (empty : Dict κ ν).get? k = none := rfl

@[simp] theorem get?_emptyCollection (k : κ) : (∅ : Dict κ ν).get? k = none := rfl

theorem get?_insert_self (d : Dict κ ν) (k : κ) (v : ν) : (d.insert k v).get? k = some v := by
  simp

theorem get?_insert_of_ne (d : Dict κ ν) {k k' : κ} (v : ν) (h : k' ≠ k) :
    (d.insert k v).get? k' = d.get? k' := by
  simp [h]

theorem mem_keys (d : Dict κ ν) (k : κ) : k ∈ d.keys ↔ (d.get? k).isSome := by
  unfold keys get?
  induction d.entries with
  | nil => simp
  | cons e es ih =>
    obtain ⟨k', v'⟩ := e
    rw [lookup_cons]
    by_cases h : k = k' <;> simp [h, ih]

/-- An entry of the dictionary is what its key reads, the keys being distinct. -/
theorem get?_of_mem {d : Dict κ ν} {k : κ} {v : ν} (h : (k, v) ∈ d.entries) :
    d.get? k = some v := by
  obtain ⟨es, nodup⟩ := d
  unfold get?
  dsimp only at h nodup ⊢
  induction es with
  | nil => cases h
  | cons e es ih =>
    obtain ⟨k', v'⟩ := e
    simp only [List.map_cons, List.nodup_cons, List.mem_map] at nodup
    rw [lookup_cons]
    rcases List.mem_cons.1 h with h | h
    · cases h; simp
    · have hk : k ≠ k' := fun hk => nodup.1 ⟨(k, v), h, hk⟩
      rw [if_neg hk]
      exact ih nodup.2 h

/-- The entries of a dictionary inserted one after another, each value mapped by `f`: a key of
the dictionary reads its mapped value, any other key what it read before. -/
theorem get?_foldl_insert {μ : Type} (f : ν → μ) (d : Dict κ ν) (d₀ : Dict κ μ) (k : κ) :
    (d.entries.foldl (fun d' e => d'.insert e.1 (f e.2)) d₀).get? k =
      ((d.get? k).map f).or (d₀.get? k) := by
  obtain ⟨es, nodup⟩ := d
  unfold get?
  dsimp only at nodup ⊢
  induction es generalizing d₀ with
  | nil => rfl
  | cons e es ih =>
    obtain ⟨k', v⟩ := e
    simp only [List.map_cons, List.nodup_cons] at nodup
    rw [List.foldl_cons, ih _ nodup.2, lookup_cons]
    by_cases hk : k = k'
    · subst hk
      have hnone : es.lookup k = none := List.lookup_eq_none_iff.2 fun p hp =>
        bne_iff_ne.2 fun h => nodup.1 (h ▸ List.mem_map_of_mem _ hp)
      simp [hnone, insert, lookup_setEntry]
    · simp [hk, insert, lookup_setEntry]

/-- `d[k] = f(d[k])` for a key present; nothing for an absent one. -/
def modify (d : Dict κ ν) (k : κ) (f : ν → ν) : Dict κ ν :=
  match d.get? k with
  | some v => d.insert k (f v)
  | none => d

@[simp] theorem get?_modify (d : Dict κ ν) (k k' : κ) (f : ν → ν) :
    (d.modify k f).get? k' = if k' = k then (d.get? k).map f else d.get? k' := by
  unfold modify
  cases h : d.get? k with
  | none => by_cases hk : k' = k <;> simp [hk, h]
  | some v => by_cases hk : k' = k <;> simp [hk, h]

end Dict

end ParmEd.Python
