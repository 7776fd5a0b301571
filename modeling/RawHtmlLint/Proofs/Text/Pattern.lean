import Mathlib.Data.List.Infix
import RawHtmlLint.Text.Pattern

/-!
# What patterns read

How a pattern divides a text is a relation: each part has its own piece of it, whatever is tried
first. Reading a text finds such a division whenever there is one, so the order in which runs are
made longer or shorter decides only which one it is.

Results:
* `reads_of_read`: what is read is a division of the text;
* `exists_read`: a text that can be divided is read.
-/

namespace RawHtmlLint.Text.Pattern

/-- The pattern divides a piece at the start of the text, and keeps `kept` of it. -/
inductive Reads : List Part → List Char → List Char → Prop
  | done (s : List Char) : Reads [] s []
  | word (w : List Char) {parts : List Part} {s kept : List Char} (h : Reads parts s kept) :
      Reads (.word w :: parts) (w ++ s) kept
  | one {p : Char → Bool} {c : Char} {parts : List Part} {s kept : List Char} (hc : p c = true)
      (h : Reads parts s kept) : Reads (.one p :: parts) (c :: s) kept
  | many {p : Char → Bool} {run : List Char} {parts : List Part} {s kept : List Char}
      (hrun : ∀ c ∈ run, p c = true) (h : Reads parts s kept) :
      Reads (.many p :: parts) (run ++ s) kept
  | kept {run : List Char} {parts : List Part} {s kept : List Char} (hrun : run ≠ [])
      (h : Reads parts s kept) : Reads (.kept :: parts) (run ++ s) run
  | ending {parts : List Part} {s kept : List Char} (hs : atEnd s = true)
      (h : Reads parts s kept) : Reads (.ending :: parts) s kept

section

variable {α : Type} {p : Char → Bool} {next : List Char → Option α} {s : List Char} {a : α}

/-- What is found behind a run is found behind some characters of the class. -/
theorem exists_of_greedy : ∀ {s : List Char}, greedy p next s = some a →
    ∃ run rest, s = run ++ rest ∧ (∀ c ∈ run, p c = true) ∧ next rest = some a
  | [], h => ⟨[], [], rfl, fun _ hc => absurd hc List.not_mem_nil, h⟩
  | c :: rest, h => by
    have hnone : next (c :: rest) = some a →
        ∃ run rest', c :: rest = run ++ rest' ∧ (∀ d ∈ run, p d = true) ∧ next rest' = some a :=
      fun h => ⟨[], c :: rest, rfl, fun _ hd => absurd hd List.not_mem_nil, h⟩
    rw [greedy] at h
    split at h
    · rename_i hc
      rw [Option.orElse_eq_orElse, Option.orElse_eq_or, Option.or_eq_some_iff] at h
      rcases h with h | ⟨_, h⟩
      · obtain ⟨run, rest', rfl, hrun, hnext⟩ := exists_of_greedy h
        exact ⟨c :: run, rest', rfl, List.forall_mem_cons.mpr ⟨hc, hrun⟩, hnext⟩
      · exact hnone h
    · exact hnone h

theorem isSome_greedy_of_next (h : (next s).isSome = true) : (greedy p next s).isSome = true := by
  cases s with
  | nil => exact h
  | cons c rest =>
    rw [greedy]
    split
    · rw [Option.orElse_eq_orElse, Option.orElse_eq_or, Option.isSome_or, h, Bool.or_true]
    · exact h

/-- A run goes on behind each of its characters. -/
theorem isSome_greedy : ∀ {run : List Char}, (∀ c ∈ run, p c = true) →
    (next s).isSome = true → (greedy p next (run ++ s)).isSome = true
  | [], _, h => isSome_greedy_of_next h
  | c :: run, hrun, h => by
    obtain ⟨hc, hrun⟩ := List.forall_mem_cons.mp hrun
    rw [List.cons_append, greedy, if_pos hc, Option.orElse_eq_orElse, Option.orElse_eq_or,
      Option.isSome_or, isSome_greedy hrun h, Bool.true_or]

theorem exists_of_fewest {kept : List Char} : ∀ {s : List Char}, fewest next s = some kept →
    ∃ rest, s = kept ++ rest ∧ (next rest).isSome = true
  | [], h => by
    obtain ⟨a, ha, rfl⟩ := Option.map_eq_some_iff.mp h
    exact ⟨[], rfl, Option.isSome_of_mem ha⟩
  | c :: rest, h => by
    rw [fewest, Option.orElse_eq_orElse, Option.orElse_eq_or, Option.or_eq_some_iff] at h
    rcases h with h | ⟨_, h⟩
    · obtain ⟨a, ha, rfl⟩ := Option.map_eq_some_iff.mp h
      exact ⟨c :: rest, rfl, Option.isSome_of_mem ha⟩
    · obtain ⟨kept, hkept, rfl⟩ := Option.map_eq_some_iff.mp h
      obtain ⟨rest', rfl, hnext⟩ := exists_of_fewest hkept
      exact ⟨rest', rfl, hnext⟩

theorem isSome_fewest (h : (next s).isSome = true) :
    ∀ run : List Char, (fewest next (run ++ s)).isSome = true
  | [] => by
    cases s with
    | nil => rwa [List.append_nil, fewest, Option.isSome_map]
    | cons c rest =>
      rw [List.nil_append, fewest, Option.orElse_eq_orElse, Option.orElse_eq_or, Option.isSome_or,
        Option.isSome_map, h, Bool.true_or]
  | c :: run => by
    rw [List.cons_append, fewest, Option.orElse_eq_orElse, Option.orElse_eq_or, Option.isSome_or,
      Option.isSome_map, Option.isSome_map, isSome_fewest h run, Bool.or_true]

end

/-- **What is read is a division of the text.** -/
theorem reads_of_read : ∀ {parts : List Part} {s kept : List Char},
    read parts s = some kept → Reads parts s kept
  | [], s, _, h => by
    cases h
    exact .done s
  | .word w :: parts, s, kept, h => by
    rw [read] at h
    split at h
    · rename_i hw
      obtain ⟨rest, rfl⟩ := List.isPrefixOf_iff_prefix.mp hw
      rw [List.drop_left] at h
      exact .word w (reads_of_read h)
    · cases h
  | .one p :: parts, [], kept, h => by
    cases h
  | .one p :: parts, c :: rest, kept, h => by
    rw [read] at h
    split at h
    · rename_i hc
      exact .one hc (reads_of_read h)
    · cases h
  | .many p :: parts, s, kept, h => by
    rw [read] at h
    obtain ⟨run, rest, rfl, hrun, hread⟩ := exists_of_greedy h
    exact .many hrun (reads_of_read hread)
  | .kept :: parts, [], kept, h => by
    cases h
  | .kept :: parts, c :: rest, kept, h => by
    rw [read] at h
    obtain ⟨run, hrun, rfl⟩ := Option.map_eq_some_iff.mp h
    obtain ⟨rest', rfl, hread⟩ := exists_of_fewest hrun
    obtain ⟨_, hread⟩ := Option.isSome_iff_exists.mp hread
    exact .kept (List.cons_ne_nil c run) (reads_of_read hread)
  | .ending :: parts, s, kept, h => by
    rw [read] at h
    split at h
    · rename_i hs
      exact .ending hs (reads_of_read h)
    · cases h

/-- **A text that can be divided is read.** -/
theorem exists_read {parts : List Part} {s kept : List Char} (h : Reads parts s kept) :
    (read parts s).isSome = true := by
  induction h with
  | done => rfl
  | word w _ ih =>
    rwa [read, if_pos (List.isPrefixOf_iff_prefix.mpr (List.prefix_append w _)), List.drop_left]
  | one hc _ ih => rwa [read, if_pos hc]
  | many hrun _ ih =>
    rw [read]
    exact isSome_greedy hrun ih
  | @kept run parts s _ hrun _ ih =>
    obtain ⟨c, rest, rfl⟩ := List.exists_cons_of_ne_nil hrun
    rw [List.cons_append, read, Option.isSome_map]
    exact isSome_fewest ih rest
  | ending hs _ ih => rwa [read, if_pos hs]

end RawHtmlLint.Text.Pattern
