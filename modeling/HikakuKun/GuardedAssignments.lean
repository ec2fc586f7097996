/-
Series of guarded assignments.

A variable starts at some value and is overwritten by each assignment whose
guard holds, in order; the last one wins.

* `foldl_ite_const` — assignments of one value: it is there when some guard
  held;
* `isGreatest_foldl_ite` — assignments of increasing values: the result is the
  greatest of the initial value and the values whose guard held;
* `isGreatest_iff_of_subset` — when guards are missing, the result is still the
  greatest of the intended values iff each of them is below one that is guarded.
-/
import Mathlib.Order.Bounds.Basic
import Mathlib.Tactic.Common

namespace GuardedAssignments

variable {ι β : Type*} {p : ι → Prop} [DecidablePred p] {l : List ι}

theorem foldl_ite_const (v b : β) :
    l.foldl (fun b i => if p i then v else b) b = if ∃ i ∈ l, p i then v else b := by
  induction l generalizing b with
  | nil => simp
  | cons i l ih =>
    rw [List.foldl_cons, ih]
    by_cases hi : p i
    · rw [if_pos hi, ite_self, if_pos ⟨i, List.mem_cons_self, hi⟩]
    · simp only [List.mem_cons, exists_eq_or_imp, hi, false_or, if_false]

variable [LinearOrder β] {f : ι → β} {b : β}

/-- Each value assigned exceeds the initial value and those before it. -/
theorem isGreatest_foldl_ite (hl : l.Pairwise fun i j => f i < f j) (hb : ∀ i ∈ l, b < f i) :
    IsGreatest (insert b (f '' {i | i ∈ l ∧ p i})) (l.foldl (fun b i => if p i then f i else b) b) := by
  induction l generalizing b with
  | nil =>
    refine ⟨Set.mem_insert b _, ?_⟩
    rintro x (rfl | ⟨i, ⟨hi, -⟩, -⟩)
    · exact le_rfl
    · exact absurd hi List.not_mem_nil
  | cons i l ih =>
    obtain ⟨hfirst, hl⟩ := List.pairwise_cons.mp hl
    have hbi := hb i List.mem_cons_self
    have hb' : ∀ j ∈ l, (if p i then f i else b) < f j := by
      intro j hj
      split
      · exact hfirst j hj
      · exact hb j (List.mem_cons_of_mem _ hj)
    obtain ⟨hmem, hmax⟩ := ih hl hb'
    rw [List.foldl_cons]
    -- the rest of the series starts at `f i` or at `b`
    have hstart := hmax (Set.mem_insert _ _)
    refine ⟨?_, ?_⟩
    · rcases hmem with heq | ⟨j, ⟨hj, hpj⟩, heq⟩
      · rw [heq]
        split
        case isTrue hpi => exact .inr ⟨i, ⟨List.mem_cons_self, hpi⟩, rfl⟩
        case isFalse => exact .inl rfl
      · exact .inr ⟨j, ⟨List.mem_cons_of_mem _ hj, hpj⟩, heq⟩
    · rintro x (rfl | ⟨j, ⟨hj, hpj⟩, rfl⟩)
      · refine le_trans ?_ hstart
        split
        · exact hbi.le
        · exact le_rfl
      · rcases List.mem_cons.mp hj with rfl | hj
        · exact (if_pos hpj).ge.trans hstart
        · exact hmax (.inr ⟨j, ⟨hj, hpj⟩, rfl⟩)

theorem isGreatest_iff_of_subset {S T : Set β} (hS : IsGreatest S b) (hST : S ⊆ T) :
    IsGreatest T b ↔ ∀ x ∈ T, ∃ y ∈ S, x ≤ y := by
  constructor
  · exact fun hT x hx => ⟨b, hS.1, hT.2 hx⟩
  · intro h
    refine ⟨hST hS.1, ?_⟩
    intro x hx
    obtain ⟨y, hy, hxy⟩ := h x hx
    exact hxy.trans (hS.2 hy)

end GuardedAssignments
