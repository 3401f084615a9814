/-!
# Tables

A table holds at most one value for each key. Main statements: what is found after a value was put
in or taken out.
-/

set_option autoImplicit false

namespace TilePyramid

/-- Values by their keys; the value put in last comes first. -/
structure Table (κ ν : Type) where
  entries : List (κ × ν) := []
deriving DecidableEq

namespace Table

variable {κ ν : Type} [DecidableEq κ]

def empty : Table κ ν := {}

def find? (table : Table κ ν) (key : κ) : Option ν :=
  (table.entries.find? (·.1 = key)).map Prod.snd

def erase (table : Table κ ν) (key : κ) : Table κ ν := ⟨table.entries.filter (·.1 ≠ key)⟩

/-- The table with a value for a key, in place of the one it had. -/
def put (table : Table κ ν) (key : κ) (value : ν) : Table κ ν :=
  ⟨(key, value) :: (table.erase key).entries⟩

def size (table : Table κ ν) : Nat := table.entries.length

/-- No key is listed twice. -/
def Distinct (table : Table κ ν) : Prop := (table.entries.map Prod.fst).Nodup

@[simp] theorem find?_empty (key : κ) : (empty : Table κ ν).find? key = none := rfl

private theorem find?_filter_ne (entries : List (κ × ν)) (key other : κ) :
    (entries.filter (·.1 ≠ key)).find? (·.1 = other) =
      if other = key then none else entries.find? (·.1 = other) := by
  induction entries with
  | nil => simp
  | cons entry rest ih =>
      by_cases kept : entry.1 = key
      · by_cases same : other = key
        · simp [same]
        · have skip : ¬ key = other := fun h => same h.symm
          simp only [List.filter_cons, kept, ne_eq, not_true_eq_false, decide_false,
            Bool.false_eq_true, ↓reduceIte, List.find?_cons, skip, same] at ih ⊢
          simpa using ih
      · by_cases found : entry.1 = other
        · have different : ¬ other = key := fun h => kept (found.trans h)
          simp [found, different]
        · simp only [List.filter_cons, ne_eq, kept, not_false_eq_true, decide_true, ↓reduceIte,
            List.find?_cons, found, decide_false] at ih ⊢
          exact ih

theorem find?_erase (table : Table κ ν) (key other : κ) :
    (table.erase key).find? other = if other = key then none else table.find? other := by
  unfold find? erase
  rw [find?_filter_ne]
  split <;> rfl

theorem find?_put (table : Table κ ν) (key other : κ) (value : ν) :
    (table.put key value).find? other = if other = key then some value else table.find? other := by
  by_cases same : other = key
  · simp [find?, put, same]
  · have skip : ¬ key = other := fun h => same h.symm
    have rest := find?_erase table key other
    simp only [same, ↓reduceIte] at rest
    simp only [same, ↓reduceIte, ← rest]
    simp [find?, put, skip]

omit [DecidableEq κ] in
theorem distinct_empty : (empty : Table κ ν).Distinct := List.nodup_nil

theorem Distinct.erase {table : Table κ ν} (distinct : table.Distinct) (key : κ) :
    (table.erase key).Distinct :=
  List.Sublist.nodup (List.Sublist.map _ List.filter_sublist) distinct

theorem Distinct.put {table : Table κ ν} (distinct : table.Distinct) (key : κ) (value : ν) :
    (table.put key value).Distinct := by
  refine List.nodup_cons.mpr ⟨?_, distinct.erase key⟩
  simp [Table.erase]

end Table

end TilePyramid
