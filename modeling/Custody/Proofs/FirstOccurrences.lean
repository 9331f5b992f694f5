/-
# First occurrences

Erasing repetitions keeps every value where it occurs first.  What is met on a walk, taken by a pass or
named in a history is told in this way, and here is how first occurrences go together with filtering and
with a value that comes last.
-/

import Mathlib.Data.List.Nodup

namespace Custody

variable {α : Type} [DecidableEq α]

/-- Each value has one first occurrence. -/
theorem nodup_eraseDups (values : List α) : values.eraseDups.Nodup := by
  induction hlength : values.length using Nat.strongRecOn generalizing values with
  | _ length ih =>
      cases values with
      | nil => exact List.nodup_nil
      | cons head tail =>
          rw [List.eraseDups_cons, List.nodup_cons]
          refine ⟨by simp [List.mem_eraseDups], ih _ ?_ _ rfl⟩
          exact hlength ▸ Nat.lt_succ_of_le (List.length_filter_le _ tail)

/-- The first occurrences among the values that pass a test are the first occurrences that pass it. -/
theorem eraseDups_filter (test : α → Bool) (values : List α) :
    (values.filter test).eraseDups = values.eraseDups.filter test := by
  induction hlength : values.length using Nat.strongRecOn generalizing values with
  | _ length ih =>
      cases values with
      | nil => rfl
      | cons head tail =>
          have hshorter : (tail.filter fun value => !value == head).length < length := by
            rw [← hlength]
            exact Nat.lt_succ_of_le (List.length_filter_le _ tail)
          have hrest := ih _ hshorter _ rfl
          rw [List.eraseDups_cons]
          by_cases hhead : test head = true
          · rw [List.filter_cons_of_pos hhead, List.filter_cons_of_pos hhead, List.eraseDups_cons,
              ← hrest, List.filter_filter, List.filter_filter]
            simp only [Bool.and_comm]
          · rw [List.filter_cons_of_neg hhead, List.filter_cons_of_neg hhead, ← hrest,
              List.filter_filter]
            congr 1
            refine List.filter_congr fun value _ => ?_
            by_cases hvalue : value = head
            · simp [hvalue, hhead]
            · simp [hvalue]

/-- One value more has its first occurrence at the end, unless it occurred before. -/
theorem eraseDups_concat (values : List α) (value : α) :
    (values ++ [value]).eraseDups =
      if value ∈ values then values.eraseDups else values.eraseDups ++ [value] := by
  rw [List.eraseDups_append, List.removeAll, List.filter_cons, List.filter_nil]
  by_cases hthere : value ∈ values <;> simp [hthere, List.eraseDups_cons]

end Custody
