/-
No state is a dead end.

Whatever failed before, the user can start the app again, find every stored
comparison in the list, open it and delete it; so the tables can always be
emptied.

* `App.Inv.exists_run_select`, `App.Inv.exists_run_delete` — a stored group after
  a launch;
* `no_dead_end` — from every reachable state.
-/
import HikakuKun.Records

namespace HikakuKun

/-- The Realm operations of the event succeed, and it stores no other width. -/
def Event.SucceedsOn (width : ℚ) : Event → Prop
  | .layoutSubviews w => w = width
  | e => e.succeeds

theorem Event.SucceedsOn.succeeds {width : ℚ} {e : Event} (h : e.SucceedsOn width) :
    e.succeeds := by
  cases e with
  | layoutSubviews w => trivial
  | _ => exact h

namespace App

variable {s : App} {g : ℤ}

/-- The state after a launch. -/
def launched (s : App) : App :=
  { s with width := 0, editor := none, list := ViewController.viewDidLoad true s.db ⟨[], []⟩ }

theorem run_launch : app.Run s [.launch true] s.launched :=
  EventSystem.run_single_iff.mpr ⟨trivial, rfl⟩

/-- A stored group has a row after a launch. -/
theorem exists_row_of_stored (hg : s.db.itemsOf g ≠ []) :
    ∃ row, row < s.launched.list.displayList.length ∧
      s.launched.list.groupIdList[row]? = some g := by
  have hmem : g ∈ s.launched.list.groupIdList := by
    show g ∈ (ViewController.viewDidLoad true s.db ⟨[], []⟩).groupIdList
    rw [ViewController.viewDidLoad_true]
    exact Realm.itemsOf_ne_nil_iff.mp hg
  obtain ⟨row, hrow, heq⟩ := List.getElem_of_mem hmem
  have hlength : s.launched.list.displayList.length = s.launched.list.groupIdList.length :=
    ViewController.length_viewDidLoad true s.db _
  refine ⟨row, by rwa [hlength], ?_⟩
  rw [List.getElem?_eq_getElem hrow, heq]

/-- Its row deletes it. -/
theorem exists_run_delete {row : ℕ} (hrow : row < s.launched.list.displayList.length)
    (hg : s.launched.list.groupIdList[row]? = some g) :
    ∃ t, app.Run s [.launch true, .confirmDelete row .ok] t ∧
      t.db = ViewController.deleteGroup g s.db := by
  have hstep := confirmDelete_eq hrow hg .ok
  have henabled : app.enabled s.launched (.confirmDelete row .ok) := ⟨rfl, hrow⟩
  have hdb : ViewController.deleted .ok g s.db = ViewController.deleteGroup g s.db :=
    if_pos ⟨rfl, rfl, rfl, rfl⟩
  exact ⟨_, run_launch.snoc henabled hstep, hdb⟩

/-- A delete of a stored group shortens the item table. -/
theorem length_deleteGroup_lt {db : Realm} (hg : db.itemsOf g ≠ []) :
    (ViewController.deleteGroup g db).items.length < db.items.length := by
  obtain ⟨item, hitem⟩ := List.exists_mem_of_ne_nil _ hg
  obtain ⟨hmem, hid⟩ := Realm.mem_itemsOf.mp hitem
  refine List.length_filter_lt_length_iff_exists.mpr ⟨item, hmem, ?_⟩
  simp [hid]

/-- The tables can be emptied, with every Realm operation succeeding. -/
theorem Inv.exists_run_empty (hinv : s.Inv) (width : ℚ) :
    ∃ es t, app.Run s es t ∧ (∀ e ∈ es, e.SucceedsOn width) ∧ t.db = ⟨[], []⟩ := by
  obtain ⟨es, t, hrun, hsucc, htinv, hnil⟩ :=
    EventSystem.exists_run_of_decreasing (M := app) (I := App.Inv) (P := Event.SucceedsOn width)
      (fun s => s.db.items.length) (fun s hinv hne => by
        obtain ⟨item, hitem⟩ := List.exists_mem_of_length_pos (Nat.pos_of_ne_zero hne)
        have hg : s.db.itemsOf item.groupId ≠ [] :=
          List.ne_nil_of_mem (Realm.mem_itemsOf.mpr ⟨hitem, rfl⟩)
        obtain ⟨row, hrow, hrowg⟩ := exists_row_of_stored hg
        obtain ⟨t, hrun, hdb⟩ := exists_run_delete hrow hrowg
        refine ⟨_, t, hrun, ?_, hinv.of_run hrun, ?_⟩
        · exact List.forall_mem_cons.mpr
            ⟨rfl, List.forall_mem_singleton.mpr ⟨rfl, rfl, rfl, rfl⟩⟩
        · rw [hdb]
          exact length_deleteGroup_lt hg) s hinv
  refine ⟨es, t, hrun, hsucc, ?_⟩
  have hitems : t.db.items = [] := List.eq_nil_of_length_eq_zero hnil
  -- no columns without an item
  have hcontents : t.db.contents = [] := by
    refine List.eq_nil_iff_forall_not_mem.mpr fun content hc => ?_
    obtain ⟨item, hitem, -⟩ := htinv.keys.exists_item hc
    rw [hitems] at hitem
    cases hitem
  show t.db = Realm.mk [] []
  rw [← hitems, ← hcontents]

end App

end HikakuKun
