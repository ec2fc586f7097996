/-
What the store is for: a finite map of forms.

A form is what the user sees of a comparison, without ids and timestamps.  The
app changes the map in two ways only, by putting a form under a group id and by
removing one.
-/
import Mathlib.Data.Finmap

namespace HikakuKun

structure Column where
  name : String
  cell : Fin 7 → String
  memo : String

structure Form where
  title : String
  heading : Fin 7 → String
  columns : List Column

abbrev Forms := Finmap fun _ : ℤ => Form

/-- What an event does to the forms. -/
inductive FormOp
  | keep
  | put (g : ℤ) (form : Form)
  | remove (g : ℤ)

namespace FormOp

def apply : FormOp → Forms → Forms
  | keep, m => m
  | put g form, m => m.insert g form
  | remove g, m => m.erase g

/-- The only group whose form may change. -/
def group : FormOp → Option ℤ
  | keep => none
  | put g _ => some g
  | remove g => some g

variable {op : FormOp} {m : Forms} {g : ℤ} {form : Form}

theorem lookup_apply_of_ne (h : op.group ≠ some g) : (op.apply m).lookup g = m.lookup g := by
  cases op with
  | keep => rfl
  | put g' form => exact Finmap.lookup_insert_of_ne m fun hg => h (congrArg some hg.symm)
  | remove g' => exact Finmap.lookup_erase_ne fun hg => h (congrArg some hg.symm)

/-- Putting a form twice is putting it once. -/
theorem put_put : (put g form).apply ((put g form).apply m) = (put g form).apply m :=
  Finmap.insert_insert m

end FormOp

end HikakuKun
