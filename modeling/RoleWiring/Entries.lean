/-!
# Entries

Lists of pairs as finite maps: the first entry of a key counts. These are the laws
of looking a key up that the maps of this library share.
-/

namespace RoleWiring

/-- The first entry counts. -/
theorem lookup_entry_cons [BEq κ] [LawfulBEq κ] [DecidableEq κ] (key k : κ) (value : α)
    (entries : List (κ × α)) :
    ((k, value) :: entries).lookup key = if key = k then some value else entries.lookup key := by
  rw [List.lookup_cons]
  by_cases h : key = k
  · simp [h]
  · have h' : (key == k) = false := by simpa using h
    simp [h, h']

/-- A key is found exactly if it has an entry. -/
theorem lookup_isSome_iff [BEq κ] [LawfulBEq κ] {key : κ} {entries : List (κ × α)} :
    (entries.lookup key).isSome ↔ key ∈ entries.map Prod.fst := by
  induction entries with
  | nil => simp
  | cons e es ih =>
    obtain ⟨k, value⟩ := e
    rw [List.lookup_cons, List.map_cons, List.mem_cons]
    split
    · next h => simp [eq_of_beq h]
    · next h =>
      have h' : ¬ key = k := by simpa using h
      simp only [h', false_or, ih]

/-- What is found was entered. -/
theorem mem_of_lookup [BEq κ] [LawfulBEq κ] {key : κ} {value : α} {entries : List (κ × α)}
    (h : entries.lookup key = some value) : (key, value) ∈ entries := by
  induction entries with
  | nil => cases h
  | cons e es ih =>
    obtain ⟨k, v⟩ := e
    rw [List.lookup_cons] at h
    split at h
    · next hk =>
      cases h
      rw [eq_of_beq hk]
      exact .head _
    · exact .tail _ (ih h)

/-- Entries further back count where those in front have nothing. -/
theorem lookup_append [BEq κ] (key : κ) (first second : List (κ × α)) :
    (first ++ second).lookup key = (first.lookup key).or (second.lookup key) := by
  induction first with
  | nil => rfl
  | cons e es ih =>
    obtain ⟨k, v⟩ := e
    rw [List.cons_append, List.lookup_cons, List.lookup_cons]
    split
    · rfl
    · exact ih

end RoleWiring
