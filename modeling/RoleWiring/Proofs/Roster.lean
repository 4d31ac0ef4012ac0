import Mathlib.Data.List.Induction
import RoleWiring.Entries
import RoleWiring.Proofs.FirstOccurrences
import RoleWiring.Roster

/-!
# The laws of rosters

A roster into which a list of pairs is entered keeps its names and has the new ones behind
them, each in the place of its first pair; of the pairs of a name the last one counts. So a
roster made from pairs alone has the names in the order of first occurrence, and pairs without
a repeated name are its entries. The names in order and the values by name are all there is to
a roster.

* `names_insertAll`, `names_ofList` — the names and their order;
* `get?_insertAll`, `get?_ofList` — the value of the last pair of a name;
* `ext_get?` — rosters with the same names and values;
* `entries_ofList` — a list without a repeated name is kept as it is.
-/

namespace RoleWiring

variable {α : Type u}

/-- Entering a name gives it the value and leaves all other names as they were. -/
theorem lookup_enter (name n : String) (value : α) (entries : List (String × α)) :
    (enter name value entries).lookup n =
      if n = name then some value else entries.lookup n := by
  induction entries with
  | nil => simp only [enter, lookup_entry_cons, List.lookup_nil]
  | cons e rest ih =>
    obtain ⟨m, old⟩ := e
    by_cases hm : m = name
    · subst hm
      by_cases h : n = m <;> simp [enter, lookup_entry_cons, h]
    · by_cases h : n = m
      · subst h
        simp [enter, hm]
      · simp [enter, lookup_entry_cons, hm, h, ih]

/-- A new name is entered at the end. -/
theorem enter_of_not_mem {name : String} {value : α} {entries : List (String × α)}
    (h : name ∉ entries.map Prod.fst) : enter name value entries = entries ++ [(name, value)] := by
  induction entries with
  | nil => rfl
  | cons e rest ih =>
    rw [List.map_cons, List.mem_cons, not_or] at h
    rw [enter, if_neg (Ne.symm h.1), ih h.2, List.cons_append]

namespace Roster

theorem get?_insert (r : Roster α) (name n : String) (value : α) :
    (r.insert name value).get? n = if n = name then some value else r.get? n :=
  lookup_enter name n value r.entries

/-- Lists are entered one after the other. -/
theorem insertAll_append (r : Roster α) (first second : List (String × α)) :
    r.insertAll (first ++ second) = (r.insertAll first).insertAll second :=
  List.foldl_append

/-- The last pair is the last one entered. -/
theorem insertAll_concat (r : Roster α) (entries : List (String × α)) (e : String × α) :
    r.insertAll (entries ++ [e]) = (r.insertAll entries).insert e.1 e.2 :=
  insertAll_append r entries [e]

/-- No name stands twice. -/
theorem eraseDups_names (r : Roster α) : r.names.eraseDups = r.names :=
  eraseDups_of_nodup r.nodup

/-- The names stand in the order in which they first occur, those of the roster first. -/
theorem names_insertAll (r : Roster α) (entries : List (String × α)) :
    (r.insertAll entries).names = (r.names ++ entries.map Prod.fst).eraseDups := by
  induction entries using List.reverseRecOn with
  | nil => rw [List.map_nil, List.append_nil, eraseDups_names, insertAll, List.foldl_nil]
  | append_singleton entries e ih =>
    rw [insertAll_concat, names_insert, ih, List.map_append, List.map_singleton,
      ← List.append_assoc, eraseDups_concat]
    by_cases h : e.1 ∈ r.names ++ entries.map Prod.fst
    · rw [if_pos (List.mem_eraseDups.mpr h), if_pos (List.contains_iff_mem.mpr h), List.append_nil]
    · rw [if_neg (mt List.mem_eraseDups.mp h), if_neg (mt List.contains_iff_mem.mp h)]

/-- The new names come behind the others, in the order in which they first occur. -/
theorem names_insertAll_eq_append (r : Roster α) (entries : List (String × α)) :
    (r.insertAll entries).names =
      r.names ++ ((entries.map Prod.fst).removeAll r.names).eraseDups := by
  rw [names_insertAll, List.eraseDups_append, eraseDups_names]

/-- A name has the value of its last pair, and without a pair the value that it had. -/
theorem get?_insertAll (r : Roster α) (entries : List (String × α)) (name : String) :
    (r.insertAll entries).get? name =
      ((entries.filter fun e => e.1 = name).getLast?.map Prod.snd).or (r.get? name) := by
  induction entries using List.reverseRecOn with
  | nil => rfl
  | append_singleton entries e ih =>
    rw [insertAll_concat, get?_insert, ih, List.filter_append]
    by_cases h : name = e.1
    · simp [h]
    · simp [h, Ne.symm h]

theorem ofList_append_singleton (entries : List (String × α)) (e : String × α) :
    ofList (entries ++ [e]) = (ofList entries).insert e.1 e.2 :=
  insertAll_concat empty entries e

/-- The names stand in the order in which they first occur. -/
theorem names_ofList (entries : List (String × α)) :
    (ofList entries).names = (entries.map Prod.fst).eraseDups :=
  names_insertAll empty entries

/-- A name has the value of its last pair. -/
theorem get?_ofList (entries : List (String × α)) (name : String) :
    (ofList entries).get? name =
      (entries.filter fun e => e.1 = name).getLast?.map Prod.snd := by
  have hget := get?_insertAll empty entries name
  have hnone : (empty : Roster α).get? name = none := rfl
  rwa [hnone, Option.or_none] at hget

/-- Pairs without a repeated name are the entries of their roster. -/
theorem entries_ofList {entries : List (String × α)} (h : (entries.map Prod.fst).Nodup) :
    (ofList entries).entries = entries := by
  induction entries using List.reverseRecOn with
  | nil => rfl
  | append_singleton entries e ih =>
    rw [List.map_append, List.nodup_append] at h
    obtain ⟨hfirst, -, hdisjoint⟩ := h
    rw [ofList_append_singleton]
    show enter e.1 e.2 (ofList entries).entries = _
    rw [ih hfirst, enter_of_not_mem]
    intro hmem
    exact hdisjoint e.1 hmem e.1 (List.mem_singleton.mpr rfl) rfl

/-- What is found under a name is entered there. -/
theorem mem_entries_of_get? {r : Roster α} {name : String} {value : α}
    (h : r.get? name = some value) : (name, value) ∈ r.entries :=
  mem_of_lookup h

/-- What is entered is found under its name. -/
theorem get?_of_mem_entries {r : Roster α} {name : String} {value : α}
    (h : (name, value) ∈ r.entries) : r.get? name = some value := by
  obtain ⟨entries, hnodup⟩ := r
  change (name, value) ∈ entries at h
  show entries.lookup name = some value
  induction entries with
  | nil => cases h
  | cons e rest ih =>
    obtain ⟨n, v⟩ := e
    obtain ⟨hn, hrest⟩ := List.nodup_cons.mp hnodup
    rw [lookup_entry_cons]
    rcases List.mem_cons.mp h with heq | hmem
    · cases heq
      rw [if_pos rfl]
    · have hne : name ≠ n := by
        rintro rfl
        exact hn (List.mem_map.mpr ⟨(name, value), hmem, rfl⟩)
      rw [if_neg hne]
      exact ih hrest hmem

/-- What is found in a roster that has the same names with other values. -/
theorem get?_of_entries_eq_map {β : Type v} {r : Roster α} {r' : Roster β} {f : String → α → β}
    (h : r'.entries = r.entries.map fun e => (e.1, f e.1 e.2)) (name : String) :
    r'.get? name = (r.get? name).map (f name) := by
  rw [get?, get?, h]
  induction r.entries with
  | nil => rfl
  | cons e rest ih =>
    obtain ⟨n, value⟩ := e
    rw [List.map_cons, lookup_entry_cons, lookup_entry_cons]
    by_cases hn : name = n
    · subst hn
      rw [if_pos rfl, if_pos rfl]
      rfl
    · rw [if_neg hn, if_neg hn]
      exact ih

/-- Rosters with the same names in the same order and with the same values are equal. -/
theorem ext_get? {r r' : Roster α} (hnames : r.names = r'.names)
    (hget : ∀ name, r.get? name = r'.get? name) : r = r' := by
  have hsome : ∀ {s : Roster α} {e}, e ∈ s.entries → s.get? e.1 = some e.2 :=
    fun he => get?_of_mem_entries he
  apply ext
  have hlength : r.entries.length = r'.entries.length := by
    simpa [names] using congrArg List.length hnames
  refine List.ext_getElem hlength fun i hi hi' => ?_
  have hname : (r.entries[i]).1 = (r'.entries[i]).1 := by
    have hat := congrArg (·[i]?) hnames
    simpa [names, hi, hi'] using hat
  have hvalue : some (r.entries[i]).2 = some (r'.entries[i]).2 := by
    rw [← hsome (List.getElem_mem hi), hget, hname, hsome (List.getElem_mem hi')]
  exact Prod.ext hname (Option.some.inj hvalue)

/-- Entering the same pairs again changes nothing. -/
theorem insertAll_idem (r : Roster α) (entries : List (String × α)) :
    (r.insertAll entries).insertAll entries = r.insertAll entries := by
  refine ext_get? ?_ fun name => ?_
  · have hold : ∀ name ∈ entries.map Prod.fst, name ∈ (r.insertAll entries).names := by
      intro name hname
      rw [names_insertAll]
      exact List.mem_eraseDups.mpr (List.mem_append_right _ hname)
    rw [names_insertAll, eraseDups_append_of_subset hold, eraseDups_names]
  · rw [get?_insertAll, get?_insertAll, ← Option.or_assoc, Option.or_self]

end Roster

end RoleWiring
