/-!
# First occurrences

Lists without the repeats of earlier elements, as a scan keeps its reports and a cache its keys: what
is added at the end or at the front, what a filter leaves, and where a prefix ends.
-/
namespace RuleScan

/-- What repeats are removed from next is shorter: the tail without the head. -/
theorem length_filter_lt {α : Type} [BEq α] (x : α) (xs : List α) :
    (xs.filter fun b => !b == x).length < (x :: xs).length :=
  Nat.lt_succ_of_le (List.length_filter_le _ _)

variable {α : Type} [BEq α] [LawfulBEq α]

theorem eraseDups_concat (xs : List α) (a : α) :
    (xs ++ [a]).eraseDups = if a ∈ xs then xs.eraseDups else xs.eraseDups ++ [a] := by
  rw [List.eraseDups_append]
  by_cases h : a ∈ xs <;> simp [List.removeAll, h, List.eraseDups_cons]

theorem nodup_eraseDups : ∀ xs : List α, xs.eraseDups.Nodup
  | [] => List.nodup_nil
  | x :: xs => by
    rw [List.eraseDups_cons, List.nodup_cons, List.mem_eraseDups]
    exact ⟨by simp, nodup_eraseDups _⟩
termination_by xs => xs.length
decreasing_by exact length_filter_lt x xs

/-- Removing repeats commutes with a filter. -/
theorem eraseDups_filter (p : α → Bool) : ∀ xs : List α,
    (xs.filter p).eraseDups = xs.eraseDups.filter p
  | [] => rfl
  | x :: xs => by
    have hrest := eraseDups_filter p (xs.filter fun b => !b == x)
    by_cases hx : p x = true
    · rw [List.filter_cons_of_pos hx, List.eraseDups_cons, List.eraseDups_cons,
        List.filter_cons_of_pos hx, ← hrest, List.filter_filter, List.filter_filter]
      simp only [Bool.and_comm]
    · -- the filter drops the head wherever it occurs
      have hdrop : (xs.filter fun b => !b == x).filter p = xs.filter p := by
        rw [List.filter_filter]
        apply List.filter_congr
        intro b _
        by_cases hb : b = x
        · simp [hb, hx]
        · simp [hb]
      rw [List.filter_cons_of_neg hx, List.eraseDups_cons, List.filter_cons_of_neg hx, ← hrest, hdrop]
termination_by xs => xs.length
decreasing_by exact length_filter_lt x xs

/-- An element is among the first `n` different ones if fewer than `n` different ones stand before
its first occurrence. -/
theorem mem_take_eraseDups {a : α} {n : Nat} {xs : List α} :
    a ∈ xs.eraseDups.take n ↔
      ∃ before after, xs = before ++ a :: after ∧ a ∉ before ∧ before.eraseDups.length < n := by
  have hsplit : ∀ before after : List α, a ∉ before →
      (a ∈ (before ++ a :: after).eraseDups.take n ↔ before.eraseDups.length < n) := by
    intro before after hnot
    have hrest : (a :: after).removeAll before = a :: after.removeAll before := by
      simp [List.removeAll, hnot]
    have hnot' : a ∉ before.eraseDups.take n := fun hmem =>
      hnot (List.mem_eraseDups.mp (List.mem_of_mem_take hmem))
    rw [List.eraseDups_append, hrest, List.eraseDups_cons, List.take_append, List.mem_append]
    cases hn : n - before.eraseDups.length with
    | zero => simp [hnot', Nat.sub_eq_zero_iff_le.mp hn]
    | succ k =>
      have hlt : before.eraseDups.length < n := by omega
      simp [hlt]
  constructor
  · intro hmem
    have hxs : a ∈ xs := List.mem_eraseDups.mp (List.mem_of_mem_take hmem)
    obtain ⟨before, after, rfl, hnot⟩ := List.eq_append_cons_of_mem hxs
    exact ⟨before, after, rfl, hnot, (hsplit before after hnot).mp hmem⟩
  · rintro ⟨before, after, rfl, hnot, hlen⟩
    exact (hsplit before after hnot).mpr hlen

/-- In a list without repeats, removing an element frees only one place among the first ones. -/
theorem take_filter_take {xs : List α} (h : xs.Nodup) (a : α) (n : Nat) :
    ((xs.take (n + 1)).filter (fun b => !b == a)).take n = (xs.filter fun b => !b == a).take n := by
  induction xs generalizing n with
  | nil => rfl
  | cons x xs ih =>
    obtain ⟨hx, hxs⟩ := List.nodup_cons.mp h
    cases n with
    | zero => rfl
    | succ n =>
      by_cases hxa : x = a
      · subst hxa
        have hkeep : ∀ ys : List α, ys ⊆ xs → ys.filter (fun b => !b == x) = ys := by
          intro ys hsub
          apply List.filter_eq_self.mpr
          intro y hy
          have hne : y ≠ x := fun heq => hx (heq ▸ hsub hy)
          simp [hne]
        rw [List.take_succ_cons, List.filter_cons_of_neg (by simp), List.filter_cons_of_neg (by simp),
          hkeep _ (List.take_subset _ _), hkeep _ (List.Subset.refl _), List.take_take, Nat.min_self]
      · rw [List.take_succ_cons, List.filter_cons_of_pos (by simp [hxa]),
          List.filter_cons_of_pos (by simp [hxa]), List.take_succ_cons, List.take_succ_cons, ih hxs]

end RuleScan
