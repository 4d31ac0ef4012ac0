import Mathlib.Data.List.Induction
import Mathlib.Data.List.Nodup

/-!
# First occurrences

`eraseDups` keeps the first occurrence of every item of a list, and with it the order in which the
items first occur. An item at the end adds nothing if it occurred before (`eraseDups_concat`), and
dropping items before or after makes no difference (`filter_eraseDups`).
-/

namespace RoleWiring

variable {α : Type u} [BEq α] [LawfulBEq α]

/-- An item at the end is kept if it did not occur before. -/
theorem eraseDups_concat (items : List α) (a : α) :
    (items ++ [a]).eraseDups = items.eraseDups ++ if items.contains a then [] else [a] := by
  rw [List.eraseDups_append, List.removeAll, List.filter_cons, List.filter_nil]
  cases h : items.contains a <;> simp_all [List.eraseDups_cons]

/-- No item is left twice. -/
theorem nodup_eraseDups (items : List α) : items.eraseDups.Nodup := by
  induction items using List.reverseRecOn with
  | nil => exact List.nodup_nil
  | append_singleton items a ih =>
    rw [eraseDups_concat]
    split
    · rwa [List.append_nil]
    · next hnew =>
      refine List.nodup_append.mpr ⟨ih, List.nodup_singleton a, ?_⟩
      rintro b hb c hc rfl
      obtain rfl := List.mem_singleton.mp hc
      exact hnew (List.contains_iff_mem.mpr (List.mem_eraseDups.mp hb))

/-- Where no item stands twice, all are kept. -/
theorem eraseDups_of_nodup {items : List α} (h : items.Nodup) : items.eraseDups = items := by
  induction items using List.reverseRecOn with
  | nil => rfl
  | append_singleton items a ih =>
    obtain ⟨hitems, -, hdisjoint⟩ := List.nodup_append.mp h
    have hnew : ¬ items.contains a = true :=
      fun hmem => hdisjoint a (List.contains_iff_mem.mp hmem) a (List.mem_singleton_self a) rfl
    rw [eraseDups_concat, ih hitems, if_neg hnew]

/-- Items are dropped before or after the repeated ones are. -/
theorem filter_eraseDups (p : α → Bool) (items : List α) :
    items.eraseDups.filter p = (items.filter p).eraseDups := by
  induction items using List.reverseRecOn with
  | nil => rfl
  | append_singleton items a ih =>
    rw [eraseDups_concat, List.filter_append, List.filter_append, ih]
    cases hp : p a with
    | true =>
      have hsame : (items.filter p).contains a = items.contains a := by
        rw [Bool.eq_iff_iff]
        simp [hp]
      rw [List.filter_cons_of_pos hp, List.filter_nil, eraseDups_concat, hsame]
      split
      · rfl
      · rw [List.filter_cons_of_pos hp, List.filter_nil]
    | false =>
      have hnot : ¬ p a = true := by simp [hp]
      rw [List.filter_cons_of_neg hnot, List.filter_nil, List.append_nil]
      split
      · exact List.append_nil _
      · rw [List.filter_cons_of_neg hnot, List.filter_nil, List.append_nil]

/-- Further items leave the first occurrences before them as they are. -/
theorem prefix_eraseDups_append (first second : List α) :
    first.eraseDups <+: (first ++ second).eraseDups := by
  rw [List.eraseDups_append]
  exact List.prefix_append _ _

/-- Items that occurred before add nothing. -/
theorem eraseDups_append_of_subset {first second : List α} (h : ∀ a ∈ second, a ∈ first) :
    (first ++ second).eraseDups = first.eraseDups := by
  have hnone : second.removeAll first = [] := by
    rw [List.removeAll, List.filter_eq_nil_iff]
    intro a ha
    simp [h a ha]
  rw [List.eraseDups_append, hnone, List.eraseDups_nil, List.append_nil]

/-- What is taken away counts only as a set. -/
theorem removeAll_congr {items first second : List α} (h : ∀ a, a ∈ first ↔ a ∈ second) :
    items.removeAll first = items.removeAll second := by
  refine List.filter_congr fun a _ => ?_
  rw [Bool.eq_iff_iff]
  simp [h a]

end RoleWiring
