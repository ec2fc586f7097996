/-
Positions in a list from which elements were taken out.

Elements are taken out one after the other, each by its position at that time.
What is then at a position was further back before (`origin`), and it was at
this very position only if everything was taken out behind it.

* `eraseAll` — take out, one by one;
* `getElem?_eraseAll` — what is where afterwards;
* `origin_eq_iff` — which positions are undisturbed.
-/
import Mathlib.Data.List.Basic

namespace Erasures

variable {α : Type*} {rows : List ℕ} {row i : ℕ}

/-- `l` after the elements at the positions `rows` are taken out, one by one. -/
def eraseAll (rows : List ℕ) (l : List α) : List α := rows.foldl List.eraseIdx l

/-- Where the element at position `i` was before. -/
def origin : List ℕ → ℕ → ℕ
  | [], i => i
  | row :: rows, i => if origin rows i < row then origin rows i else origin rows i + 1

@[simp] theorem eraseAll_nil (l : List α) : eraseAll [] l = l := rfl

@[simp] theorem eraseAll_cons (l : List α) :
    eraseAll (row :: rows) l = eraseAll rows (l.eraseIdx row) := rfl

theorem eraseAll_append {rows' : List ℕ} (l : List α) :
    eraseAll (rows ++ rows') l = eraseAll rows' (eraseAll rows l) :=
  List.foldl_append

theorem getElem?_eraseAll (l : List α) : (eraseAll rows l)[i]? = l[origin rows i]? := by
  induction rows generalizing l with
  | nil => rfl
  | cons row rows ih =>
    rw [eraseAll_cons, ih, List.getElem?_eraseIdx, origin]
    split <;> rfl

theorem le_origin : i ≤ origin rows i := by
  induction rows with
  | nil => exact Nat.le_refl i
  | cons row rows ih =>
    rw [origin]
    split <;> omega

/-- A position is undisturbed when everything was taken out behind it. -/
theorem origin_eq_iff : origin rows i = i ↔ ∀ row ∈ rows, i < row := by
  induction rows with
  | nil => exact ⟨fun _ _ h => absurd h List.not_mem_nil, fun _ => rfl⟩
  | cons row rows ih =>
    have hle : i ≤ origin rows i := le_origin
    rw [origin, List.forall_mem_cons, ← ih]
    by_cases hlt : origin rows i < row
    · rw [if_pos hlt]
      constructor
      · intro h
        exact ⟨by omega, h⟩
      · exact fun h => h.2
    · rw [if_neg hlt]
      constructor
      · intro h
        omega
      · rintro ⟨h, h'⟩
        omega

end Erasures
