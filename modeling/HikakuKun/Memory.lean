/-
Memories written cell by cell.

A memory is a function from cells to values, written with `Function.update`.

* `foldl_apply_frame`, `foldl_apply_hit` — the effect of a loop on one cell
  when each iteration writes cells of its own;
* `writeAll` — write a list of values into a list of cells, trapping when
  there are too few values; `writeAll_map` is the round trip: values read from
  a list of cells and written back restore exactly those cells.
-/
import Mathlib.Logic.Function.Basic
import Mathlib.Data.List.Nodup

namespace Memory

variable {ι κ β : Type*} {l : List ι} {step : (κ → β) → ι → (κ → β)} {m : κ → β} {k : κ}

/-! ### Loops -/

/-- A loop none of whose iterations touches cell `k` leaves `k` alone. -/
theorem foldl_apply_frame (h : ∀ m, ∀ i ∈ l, step m i k = m k) : l.foldl step m k = m k := by
  induction l generalizing m with
  | nil => rfl
  | cons i l ih =>
    rw [List.foldl_cons, ih fun m i hi => h m i (List.mem_cons_of_mem _ hi),
      h m i List.mem_cons_self]

/-- A loop in which only iteration `j` touches cell `k` does to `k` what `j`
does. -/
theorem foldl_apply_hit {j : ι} {g : β → β} (hl : l.Nodup) (hj : j ∈ l)
    (hhit : ∀ m, step m j k = g (m k)) (h : ∀ m, ∀ i ∈ l, i ≠ j → step m i k = m k) :
    l.foldl step m k = g (m k) := by
  induction l generalizing m with
  | nil => exact absurd hj List.not_mem_nil
  | cons i l ih =>
    obtain ⟨hnot, hl⟩ := List.nodup_cons.mp hl
    rw [List.foldl_cons]
    -- iteration `j` comes first, and the rest leaves `k` alone, or it comes later
    rcases List.mem_cons.mp hj with rfl | hj
    · rw [foldl_apply_frame, hhit]
      intro m i hi
      exact h m i (List.mem_cons_of_mem _ hi) fun hij => hnot (hij ▸ hi)
    · rw [ih hl hj fun m i hi => h m i (List.mem_cons_of_mem _ hi),
        h m i List.mem_cons_self fun hij => hnot (hij ▸ hj)]

/-! ### Writing back what was read -/

variable [DecidableEq κ]

/-- Write `vs` into the cells `ks`, one by one; `none` when a value is
missing. -/
def writeAll : List κ → List β → (κ → β) → Option (κ → β)
  | [], _, m => some m
  | _ :: _, [], _ => none
  | k :: ks, v :: vs, m => writeAll ks vs (Function.update m k v)

theorem writeAll_map (m₀ : κ → β) (ks : List κ) (m : κ → β) :
    writeAll ks (ks.map m₀) m = some fun k => if k ∈ ks then m₀ k else m k := by
  induction ks generalizing m with
  | nil => simp [writeAll]
  | cons k ks ih =>
    rw [List.map_cons, writeAll, ih]
    refine congrArg some (funext fun k' => ?_)
    by_cases hk : k' = k
    · subst hk
      simp
    · simp [hk]

end Memory
