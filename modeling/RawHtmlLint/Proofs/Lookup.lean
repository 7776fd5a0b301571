import Mathlib.Data.List.Basic

/-!
# Looking up keys

A list of pairs is a table: the first pair with a key counts. Where no key occurs twice, the order
of the pairs does not matter.

Results:
* `lookup_eq_some_iff_mem`: what a key stands for, by the pairs of the table;
* `lookup_eq_none_iff_not_mem`: the keys that stand for nothing;
* `lookup_of_isPrefix`: a table that grows at its end keeps what its keys stand for.
-/

namespace RawHtmlLint

variable {α β : Type} [BEq α] [LawfulBEq α] {table : List (α × β)} {key : α} {value : β}

theorem lookup_cons_eq [DecidableEq α] (key : α) (p : α × β) (table : List (α × β)) :
    (p :: table).lookup key = if key = p.1 then some p.2 else table.lookup key := by
  rw [List.lookup_cons]
  by_cases hkey : key = p.1
  · simp [hkey]
  · rw [if_neg hkey, beq_eq_false_iff_ne.mpr hkey]

/-- **What a key stands for** in a table in which no key occurs twice. -/
theorem lookup_eq_some_iff_mem (hkeys : (table.map (·.1)).Nodup) :
    table.lookup key = some value ↔ (key, value) ∈ table := by
  rw [List.lookup_eq_some_iff]
  constructor
  · rintro ⟨front, back, rfl, _⟩
    exact List.mem_append_right _ List.mem_cons_self
  · intro hmem
    obtain ⟨front, back, rfl⟩ := List.append_of_mem hmem
    refine ⟨front, back, rfl, fun p hp => bne_iff_ne.mpr ?_⟩
    rw [List.map_append, List.nodup_append] at hkeys
    exact (hkeys.2.2 p.1 (List.mem_map_of_mem hp) key List.mem_cons_self).symm

theorem lookup_eq_none_iff_not_mem : table.lookup key = none ↔ key ∉ table.map (·.1) := by
  rw [List.lookup_eq_none_iff]
  constructor
  · intro h hmem
    obtain ⟨p, hp, rfl⟩ := List.mem_map.mp hmem
    exact bne_iff_ne.mp (h p hp) rfl
  · intro h p hp
    refine bne_iff_ne.mpr ?_
    rintro rfl
    exact h (List.mem_map_of_mem hp)

omit [LawfulBEq α] in
theorem lookup_of_isPrefix {grown : List (α × β)} (hgrown : table <+: grown)
    (h : table.lookup key = some value) : grown.lookup key = some value := by
  obtain ⟨more, rfl⟩ := hgrown
  rw [List.lookup_append, h, Option.some_or]

end RawHtmlLint
