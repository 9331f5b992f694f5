/-
# Ascending lists

Finite sets of numbers are kept as lists in strictly ascending order.  A set then has exactly one
representation, so equality of sets is equality of lists and every printed set is already in
order.  The operations are stated for any decidable order; that they keep the list ascending and
change its members as a set operation should is proved for every order in which unrelated
elements are equal.  Looking up a value halves the list again and again.
-/

namespace Custody.Ascending

variable {α : Type} [LT α] [DecidableLT α]

/-- Put a value in its place; a value that is already there is not put in twice. -/
def insert (value : α) : List α → List α
  | [] => [value]
  | head :: tail =>
      if value < head then value :: head :: tail
      else if head < value then head :: insert value tail
      else head :: tail

/-- The distinct values of a list, in ascending order. -/
def ofList (values : List α) : List α :=
  values.foldr insert []

/-- Search by halving, with a bound on the number of halvings.  Only one part of the list is looked
at after each comparison, so on a list that is not ascending a member may be missed. -/
def searchWithin [DecidableEq α] (value : α) : Nat → List α → Bool
  | _, [] => false
  | _, [only] => only = value
  | 0, _ => false
  | halvings + 1, values =>
      let half := values.length / 2
      match values[half]? with
      | none => false
      | some middle =>
          if value < middle then searchWithin value halvings (values.take (values.length - half))
          else searchWithin value halvings (values.drop half)

/-- Whether a search by halving finds a value. -/
def search [DecidableEq α] (value : α) (values : List α) : Bool :=
  searchWithin value values.length values

/-- What is put in, and what was there, is all that is there afterwards. -/
theorem mem_insert (unrelated : ∀ first second : α, ¬ first < second → ¬ second < first →
    first = second) {value other : α} {values : List α} :
    other ∈ insert value values ↔ other = value ∨ other ∈ values := by
  induction values with
  | nil => simp [insert]
  | cons head tail ih =>
      unfold insert
      split
      · simp
      · split
        · simp only [List.mem_cons, ih]
          constructor
          · rintro (h | h | h) <;> simp [h]
          · rintro (h | h | h) <;> simp [h]
        · next hbelow habove =>
            have hsame := unrelated value head hbelow habove
            subst hsame
            simp

/-- The members of a sorted list are the values it was made from. -/
theorem mem_ofList (unrelated : ∀ first second : α, ¬ first < second → ¬ second < first →
    first = second) {other : α} {values : List α} :
    other ∈ ofList values ↔ other ∈ values := by
  induction values with
  | nil => simp [ofList]
  | cons head tail ih =>
      have hstep : ofList (head :: tail) = insert head (ofList tail) := rfl
      rw [hstep, mem_insert unrelated, ih, List.mem_cons]

/-- Insertion keeps a list ascending. -/
theorem pairwise_insert
    (transitive : ∀ {first second third : α}, first < second → second < third → first < third)
    (value : α) {values : List α} (ascending : values.Pairwise (· < ·)) :
    (insert value values).Pairwise (· < ·) := by
  induction values with
  | nil => simp [insert]
  | cons head tail ih =>
      obtain ⟨hhead, htail⟩ := List.pairwise_cons.mp ascending
      unfold insert
      split
      · next hbelow =>
          refine List.pairwise_cons.mpr ⟨fun other hmem => ?_, ascending⟩
          rcases List.mem_cons.mp hmem with rfl | hmem
          · exact hbelow
          · exact transitive hbelow (hhead other hmem)
      · split
        · next habove =>
            refine List.pairwise_cons.mpr ⟨fun other hmem => ?_, ih htail⟩
            have hold : other = value ∨ other ∈ tail := by
              clear ih ascending hhead htail habove
              induction tail with
              | nil => simpa [insert] using hmem
              | cons next rest ih =>
                  unfold insert at hmem
                  split at hmem
                  · simpa using hmem
                  · split at hmem
                    · rcases List.mem_cons.mp hmem with rfl | hmem
                      · simp
                      · rcases ih hmem with h | h <;> simp [h]
                    · exact Or.inr hmem
            rcases hold with rfl | hmem
            · exact habove
            · exact hhead other hmem
        · exact ascending

/-- A list made by insertion is ascending. -/
theorem pairwise_ofList
    (transitive : ∀ {first second third : α}, first < second → second < third → first < third)
    (values : List α) : (ofList values).Pairwise (· < ·) := by
  induction values with
  | nil => exact List.Pairwise.nil
  | cons head tail ih => exact pairwise_insert transitive head ih

omit [DecidableLT α] in
/-- The values before a place are smaller than the one at that place, and no later value is. -/
theorem sides_of_place {values : List α} {place : Nat} {middle : α}
    (hmiddle : values[place]? = some middle) (ascending : values.Pairwise (· < ·)) :
    (∀ value ∈ values.take place, value < middle) ∧
      ∀ value ∈ values.drop place, value = middle ∨ middle < value := by
  obtain ⟨hplace, rfl⟩ := List.getElem?_eq_some_iff.mp hmiddle
  rw [← List.take_append_drop place values, List.drop_eq_getElem_cons hplace] at ascending
  obtain ⟨-, hafter, hbefore⟩ := List.pairwise_append.mp ascending
  rw [List.drop_eq_getElem_cons hplace]
  refine ⟨fun value hmem => hbefore value hmem _ List.mem_cons_self, fun value hmem => ?_⟩
  rcases List.mem_cons.mp hmem with rfl | hlater
  · exact Or.inl rfl
  · exact Or.inr ((List.pairwise_cons.mp hafter).1 value hlater)

/-- Searching never finds what is not there, whatever the order of the list. -/
theorem mem_of_searchWithin [DecidableEq α] {value : α} {halvings : Nat} {values : List α}
    (hfound : searchWithin value halvings values = true) : value ∈ values := by
  fun_induction searchWithin value halvings values with
  | case1 => cases hfound
  | case2 halvings only => exact List.mem_singleton.mpr (of_decide_eq_true hfound).symm
  | case3 => cases hfound
  | case4 => cases hfound
  | case5 halvings values hsome hmany half middle hmiddle hbelow ih =>
      exact List.mem_of_mem_take (ih hfound)
  | case6 halvings values hsome hmany half middle hmiddle hfrom ih =>
      exact List.mem_of_mem_drop (ih hfound)

/-- In an ascending list every value is found. -/
theorem searchWithin_of_mem [DecidableEq α] (irreflexive : ∀ value : α, ¬ value < value)
    (transitive : ∀ {first second third : α}, first < second → second < third → first < third)
    {value : α} {halvings : Nat} {values : List α} (henough : values.length ≤ halvings)
    (ascending : values.Pairwise (· < ·)) (hmem : value ∈ values) :
    searchWithin value halvings values = true := by
  have htwo : ∀ {values : List α}, (values = [] → False) → (∀ only, values = [only] → False) →
      2 ≤ values.length := by
    rintro (_ | ⟨first, _ | ⟨second, rest⟩⟩) hsome hmany
    · exact absurd rfl hsome
    · exact absurd rfl (hmany first)
    · exact Nat.le_add_left 2 rest.length
  fun_induction searchWithin value halvings values with
  | case1 => cases hmem
  | case2 halvings only => exact decide_eq_true (List.mem_singleton.mp hmem).symm
  | case3 values hsome hmany =>
      exact absurd (List.length_eq_zero_iff.mp (Nat.le_zero.mp henough)) hsome
  | case4 halvings values hsome hmany half hnone =>
      have hlength : 0 < values.length := List.length_pos_of_mem hmem
      exact absurd (List.getElem?_eq_none_iff.mp hnone) (by omega)
  | case5 halvings values hsome hmany half middle hmiddle hbelow ih =>
      have hlength := htwo hsome hmany
      -- The value lies before the middle, and what is kept reaches at least up to there.
      have hkept : value ∈ values.take (values.length - half) := by
        rw [← List.take_append_drop half values] at hmem
        rcases List.mem_append.mp hmem with hbefore | hafter
        · exact List.take_subset_take_left values (by omega) hbefore
        · rcases (sides_of_place hmiddle ascending).2 value hafter with rfl | habove
          · exact absurd hbelow (irreflexive value)
          · exact absurd (transitive hbelow habove) (irreflexive value)
      refine ih ?_ (ascending.sublist (List.take_sublist _ _)) hkept
      rw [List.length_take]
      omega
  | case6 halvings values hsome hmany half middle hmiddle hfrom ih =>
      have hlength := htwo hsome hmany
      have hkept : value ∈ values.drop half := by
        rw [← List.take_append_drop half values] at hmem
        rcases List.mem_append.mp hmem with hbefore | hafter
        · exact absurd ((sides_of_place hmiddle ascending).1 value hbefore) hfrom
        · exact hafter
      refine ih ?_ (ascending.sublist (List.drop_sublist _ _)) hkept
      rw [List.length_drop]
      omega

/-- Searching an ascending list finds its members and nothing else. -/
theorem search_eq_true [DecidableEq α] (irreflexive : ∀ value : α, ¬ value < value)
    (transitive : ∀ {first second third : α}, first < second → second < third → first < third)
    {value : α} {values : List α} (ascending : values.Pairwise (· < ·)) :
    search value values = true ↔ value ∈ values :=
  ⟨mem_of_searchWithin, searchWithin_of_mem irreflexive transitive (Nat.le_refl _) ascending⟩

end Custody.Ascending
