namespace ComponentAtlas

structure Ordered (α : Type) where
  entries : List (String × α)
deriving Repr

namespace Ordered

variable {α : Type}

def empty : Ordered α := ⟨[]⟩

def put (key : String) (value : α) : List (String × α) → List (String × α)
  | [] => [(key, value)]
  | (k, v) :: rest => if k = key then (k, value) :: rest else (k, v) :: put key value rest

def insert (m : Ordered α) (key : String) (value : α) : Ordered α :=
  ⟨put key value m.entries⟩

def insertAll (m : Ordered α) (pairs : List (String × α)) : Ordered α :=
  pairs.foldl (fun m pair => m.insert pair.1 pair.2) m

def ofList (pairs : List (String × α)) : Ordered α :=
  empty.insertAll pairs

def get? (m : Ordered α) (key : String) : Option α :=
  m.entries.lookup key

def contains (m : Ordered α) (key : String) : Bool :=
  (m.get? key).isSome

def keys (m : Ordered α) : List String :=
  m.entries.map (·.1)

def size (m : Ordered α) : Nat :=
  m.entries.length

theorem lookup_put (key other : String) (value : α) (entries : List (String × α)) :
    (put key value entries).lookup other =
      if other = key then some value else entries.lookup other := by
  induction entries with
  | nil =>
    by_cases h : other = key
    · simp [put, h]
    · simp [put, List.lookup_cons, h, beq_eq_false_iff_ne.2 h]
  | cons pair rest ih =>
    obtain ⟨k, v⟩ := pair
    by_cases hk : k = key
    · subst hk
      by_cases h : other = k
      · simp [put, h]
      · simp [put, List.lookup_cons, h, beq_eq_false_iff_ne.2 h]
    · by_cases h : other = k
      · subst h
        simp [put, hk]
      · simp [put, List.lookup_cons, hk, beq_eq_false_iff_ne.2 h, ih]

theorem get?_insert (m : Ordered α) (key other : String) (value : α) :
    (m.insert key value).get? other = if other = key then some value else m.get? other :=
  lookup_put key other value m.entries

theorem map_fst_put (key : String) (value : α) (entries : List (String × α)) :
    (put key value entries).map (·.1) =
      if key ∈ entries.map (·.1) then entries.map (·.1) else entries.map (·.1) ++ [key] := by
  induction entries with
  | nil => simp [put]
  | cons pair rest ih =>
    obtain ⟨k, v⟩ := pair
    by_cases hk : k = key
    · subst hk
      simp [put]
    · have hk' : key ≠ k := fun h => hk h.symm
      by_cases hm : key ∈ rest.map (·.1)
      · rw [if_pos hm] at ih
        rw [if_pos (by simpa using Or.inr hm), put, if_neg hk, List.map_cons, ih, List.map_cons]
      · rw [if_neg hm] at ih
        rw [if_neg (by simpa [hk'] using hm), put, if_neg hk, List.map_cons, ih, List.map_cons,
          List.cons_append]

theorem keys_insert (m : Ordered α) (key : String) (value : α) :
    (m.insert key value).keys = if key ∈ m.keys then m.keys else m.keys ++ [key] :=
  map_fst_put key value m.entries

end Ordered
end ComponentAtlas
