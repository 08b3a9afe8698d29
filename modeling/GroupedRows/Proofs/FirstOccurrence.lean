import Mathlib.Data.List.Induction

/-!
# First occurrences

A list without its repetitions keeps each member where it first occurs. When the list
names a value for some members of another one, the values stand in the order of the
first members for which they are named.
-/

namespace GroupedRows

variable {α β : Type} [DecidableEq β]

/-- One more member changes nothing if it has occurred before, and otherwise comes last. -/
theorem eraseDups_concat (l : List β) (b : β) :
    (l ++ [b]).eraseDups = if b ∈ l then l.eraseDups else l.eraseDups ++ [b] := by
  rw [List.eraseDups_append]
  by_cases h : b ∈ l
  · simp [h, List.removeAll]
  · simp [h, List.removeAll, List.eraseDups_cons]

/-- No member is left twice. -/
theorem nodup_eraseDups (l : List β) : l.eraseDups.Nodup := by
  induction l using List.reverseRecOn with
  | nil => simp
  | append_singleton l b ih =>
    rw [eraseDups_concat]
    split
    · exact ih
    · rename_i h
      refine List.nodup_append.2 ⟨ih, by simp, fun a ha c hc e => h ?_⟩
      rw [List.mem_singleton] at hc
      rw [← hc, ← e]
      exact List.mem_eraseDups.1 ha

/-- A further member is only looked at if the value has not been named before. -/
theorem findIdx_concat_of_mem {f : α → Option β} {l : List α} {b : β} (h : b ∈ l.filterMap f)
    (x : α) : (l ++ [x]).findIdx (f · = some b) = l.findIdx (f · = some b) := by
  obtain ⟨i, hi, hf⟩ := List.mem_filterMap.1 h
  have hlt : l.findIdx (f · = some b) < l.length :=
    List.findIdx_lt_length_of_exists ⟨i, hi, by simpa using hf⟩
  rw [List.findIdx_append, if_pos hlt]

/-- The values named for the members of a list, without repetitions, stand in the order of the
first members for which they are named. -/
theorem pairwise_findIdx_eraseDups (f : α → Option β) (l : List α) :
    (l.filterMap f).eraseDups.Pairwise fun a b =>
      l.findIdx (f · = some a) < l.findIdx (f · = some b) := by
  induction l using List.reverseRecOn with
  | nil => simp
  | append_singleton l x ih =>
    have hold : (l.filterMap f).eraseDups.Pairwise fun a b =>
        (l ++ [x]).findIdx (f · = some a) < (l ++ [x]).findIdx (f · = some b) := by
      refine ih.imp_of_mem fun {a b} ha hb hab => ?_
      rw [findIdx_concat_of_mem (List.mem_eraseDups.1 ha), findIdx_concat_of_mem
        (List.mem_eraseDups.1 hb)]
      exact hab
    cases hx : f x with
    | none => simpa [hx] using hold
    | some b =>
      rw [List.filterMap_append, List.filterMap_cons, hx, List.filterMap_nil, eraseDups_concat]
      split
      · exact hold
      · rename_i hb
        refine List.pairwise_append.2 ⟨hold, by simp, fun a ha c hc => ?_⟩
        rw [List.mem_singleton] at hc
        subst hc
        have hma := List.mem_eraseDups.1 ha
        have hnone : l.findIdx (f · = some c) = l.length := by
          rw [List.findIdx_eq_length]
          intro y hy
          simpa using fun e => hb (List.mem_filterMap.2 ⟨y, hy, e⟩)
        obtain ⟨i, hi, hf⟩ := List.mem_filterMap.1 hma
        have hlt : l.findIdx (f · = some a) < l.length :=
          List.findIdx_lt_length_of_exists ⟨i, hi, by simpa using hf⟩
        rw [findIdx_concat_of_mem hma, List.findIdx_append, hnone]
        simpa using Nat.lt_of_lt_of_le hlt (Nat.le_add_left _ _)

end GroupedRows
