import ComponentAtlas.Ordered
import Mathlib.Data.List.Induction

namespace ComponentAtlas.Ordered

variable {α β : Type}

theorem ofList_concat (pairs : List (String × α)) (pair : String × α) :
    ofList (pairs ++ [pair]) = (ofList pairs).insert pair.1 pair.2 := by
  simp [ofList, insertAll]

theorem get?_ofList (pairs : List (String × α)) (key : String) : (ofList pairs).get? key = pairs.reverse.lookup key := by
  induction pairs using List.reverseRecOn with
  | nil => rfl
  | append_singleton pairs pair ih =>
    rw [ofList_concat, get?_insert, ih, List.reverse_concat, List.lookup_cons]
    by_cases last : key = pair.1
    · simp [last]
    · simp [last, beq_eq_false_iff_ne.mpr last]

theorem keys_ofList (pairs : List (String × α)) : (ofList pairs).keys = (pairs.map (·.1)).eraseDups := by
  induction pairs using List.reverseRecOn with
  | nil => rfl
  | append_singleton pairs pair ih =>
    rw [ofList_concat, keys_insert, ih, List.map_append, List.eraseDups_append]
    by_cases known : pair.1 ∈ pairs.map (·.1)
    · simp [known, List.mem_eraseDups, List.removeAll]
    · simp [known, List.mem_eraseDups, List.removeAll, List.eraseDups_cons]

theorem insert_nodup {m : Ordered α} (distinct : m.keys.Nodup) (key : String) (value : α) :
    (m.insert key value).keys.Nodup := by
  rw [keys_insert]
  split
  · exact distinct
  · rename_i free
    refine List.nodup_append.mpr ⟨distinct, by simp, ?_⟩
    intro other member last same
    obtain rfl := List.mem_singleton.mp same
    intro equal
    exact free (equal ▸ member)

theorem ofList_nodup (pairs : List (String × α)) : (ofList pairs).keys.Nodup := by
  induction pairs using List.reverseRecOn with
  | nil => exact List.nodup_nil
  | append_singleton pairs pair ih =>
    rw [ofList_concat]
    exact insert_nodup ih pair.1 pair.2

theorem get?_of_mem {m : Ordered α} (distinct : m.keys.Nodup) (member : (key, value) ∈ m.entries) :
    m.get? key = some value := by
  obtain ⟨entries⟩ := m
  change entries.lookup key = some value
  induction entries with
  | nil => cases member
  | cons entry rest ih =>
    obtain ⟨absent, distinct⟩ := List.nodup_cons.mp distinct
    rcases List.mem_cons.mp member with rfl | later
    · simp
    · have different : key ≠ entry.1 := by
        intro same
        exact absent (List.mem_map.mpr ⟨_, later, same⟩)
      rw [List.lookup_cons, beq_eq_false_iff_ne.mpr different]
      exact ih distinct later

-- What the entries are made into, key by key.
theorem map_entries_ofList {pairs : List (String × α)} {f : String × α → β} {g : String → β}
    (equal : ∀ key value, pairs.reverse.lookup key = some value → f (key, value) = g key) :
    (ofList pairs).entries.map f = (pairs.map (·.1)).eraseDups.map g := by
  rw [← keys_ofList, keys, List.map_map]
  refine List.map_congr_left ?_
  intro pair member
  exact equal pair.1 pair.2 (get?_ofList pairs pair.1 ▸ get?_of_mem (ofList_nodup pairs) member)

theorem lookup_pairs (xs : List α) (key : α → String) (value : α → β) (name : String) :
    (xs.map fun x => (key x, value x)).lookup name = (xs.find? (key · = name)).map value := by
  induction xs with
  | nil => rfl
  | cons x rest ih =>
    rw [List.map_cons, List.lookup_cons, List.find?_cons, ih]
    by_cases here : key x = name
    · simp [here]
    · simp [here, beq_eq_false_iff_ne.mpr (Ne.symm here)]

end ComponentAtlas.Ordered
