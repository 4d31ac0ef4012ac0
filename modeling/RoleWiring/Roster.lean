/-!
# Rosters

A roster assigns a value to each of finitely many role names and remembers the
order in which the names were first entered. Entering a name again replaces its
value and keeps its place. That no name stands twice is part of the type.
-/

namespace RoleWiring

/-- The pairs with the value of `name` replaced where it stands, or added at the end. -/
def enter (name : String) (value : α) : List (String × α) → List (String × α)
  | [] => [(name, value)]
  | entry :: rest =>
    if entry.1 = name then (name, value) :: rest else entry :: enter name value rest

/-- The names after entering one are the names before it, with the new one last. -/
theorem map_fst_enter (name : String) (value : α) (entries : List (String × α)) :
    (enter name value entries).map Prod.fst =
      if name ∈ entries.map Prod.fst then entries.map Prod.fst
      else entries.map Prod.fst ++ [name] := by
  induction entries with
  | nil => simp [enter]
  | cons entry rest ih =>
    by_cases h : entry.1 = name
    · simp [enter, h]
    · have h' : ¬ name = entry.1 := fun e => h e.symm
      simp only [enter, h, if_false, List.map_cons, ih, List.mem_cons, h', false_or]
      split <;> simp

/-- Values by role name, in the order of first entry. -/
structure Roster (α : Type u) where
  /-- the names with their values, in order -/
  entries : List (String × α)
  /-- no name stands twice -/
  nodup : (entries.map Prod.fst).Nodup
deriving DecidableEq

namespace Roster

/-- The roster without names. -/
def empty : Roster α :=
  ⟨[], by simp⟩

instance : Inhabited (Roster α) := ⟨empty⟩

/-- The names in order. -/
def names (r : Roster α) : List String :=
  r.entries.map Prod.fst

/-- The value of a name, if it was entered. -/
def get? (r : Roster α) (name : String) : Option α :=
  r.entries.lookup name

/-- Enters a name: in place if it is there, else at the end. -/
def insert (r : Roster α) (name : String) (value : α) : Roster α where
  entries := enter name value r.entries
  nodup := by
    rw [map_fst_enter]
    split
    · exact r.nodup
    · next h =>
      rw [List.nodup_append]
      refine ⟨r.nodup, by simp, ?_⟩
      intro a ha b hb
      rw [List.mem_singleton.mp hb]
      exact fun e => h (e ▸ ha)

/-- Enters the pairs one after the other. -/
def insertAll (r : Roster α) (entries : List (String × α)) : Roster α :=
  entries.foldl (fun r entry => r.insert entry.1 entry.2) r

/-- The roster of the pairs: each name in the place of its first pair, with the value of its
last. -/
def ofList (entries : List (String × α)) : Roster α :=
  empty.insertAll entries

/-- The same names with other values. -/
def mapValues (f : String → α → β) (r : Roster α) : Roster β where
  entries := r.entries.map fun entry => (entry.1, f entry.1 entry.2)
  nodup := by
    have h : (r.entries.map fun entry => (entry.1, f entry.1 entry.2)).map Prod.fst
        = r.entries.map Prod.fst := by
      rw [List.map_map]; rfl
    rw [h]
    exact r.nodup

/-- Rosters with the same entries are equal. -/
theorem ext {r s : Roster α} (h : r.entries = s.entries) : r = s := by
  cases r; cases s; cases h; rfl

theorem names_insert (r : Roster α) (name : String) (value : α) :
    (r.insert name value).names = if name ∈ r.names then r.names else r.names ++ [name] :=
  map_fst_enter name value r.entries

theorem names_mapValues (f : String → α → β) (r : Roster α) : (r.mapValues f).names = r.names := by
  simp only [names, mapValues, List.map_map]
  rfl

end Roster

end RoleWiring
